import TokenEra.ClaudeToChat
import TokenEra.Lib.Fault
import TokenEra.Request.ChatToClaude
import TokenEra.Request.ResponsesToClaude

/-!
# Converters on decoded input

The converters between chat and Claude with the pointers they follow, the types they assert and the
elements they index, on whatever JSON may have been decoded into their input. Most of these accesses
have a guard in front of them. Three have none: the elements of a list of stop sequences, the source
of an image block, and the text of an `input_json_delta`.
-/

namespace TokenEra.Request.Decoded

open Lib Outcome ResponsesToClaude

/-! ### Chat requests -/

/-- `dto.Message` as it is decoded: the content is any JSON value, `null` is `nil`. -/
structure ChatMessage where
  role : String
  content : Json
  toolCalls : Option (List ToolCall)
  toolCallId : String

/-- The fields of `dto.GeneralOpenAIRequest` that the conversion follows, asserts or returns early
on. `reasoning` is what decoding it gives, if it is there. -/
structure ChatRequest where
  model : String
  maxTokens : Option Nat
  maxCompletionTokens : Option Nat
  reasoningEffort : String
  reasoning : Option (Except String Int)
  stop : Json
  messages : List ChatMessage

/-- `Options.Claude`. -/
structure Options where
  defaultMaxTokensFor : String → Option Nat
  thinkingAdapterEnabled : Bool
  budgetTokens : Nat → Int

inductive TurnContent
  | absent
  | text (s : String)
  | parts (l : List Part)

structure ClaudeTurn where
  role : String
  content : TurnContent

structure ClaudeOut where
  maxTokens : Nat
  budgetTokens : Option Int
  stopSequences : List String
  system : List Part
  messages : List ClaudeTurn

/-! ### Limits -/

def ChatRequest.getMaxTokens (req : ChatRequest) : Nat :=
  if req.maxCompletionTokens.getD 0 ≠ 0 then req.maxCompletionTokens.getD 0 else req.maxTokens.getD 0

def effortSuffixes : List String := ["-max", "-xhigh", "-high", "-medium", "-low", "-minimal"]

def adaptive (model : String) : Bool :=
  (effortSuffixes.any fun s => hasTail s model) ∧
    (hasStart "claude-opus-4-6" model ∨ hasStart "claude-opus-4-7" model ∨ hasStart "claude-opus-4-8" model)

/-- `p == nil || *p < n`. -/
def nilOrBelow (p : Option Nat) (n : Nat) : Outcome String Bool :=
  if p = none then .ok true
  else do
    let m ← deref p
    return m < n

/-- The thinking adapter: at least 1280 tokens, and a part of them as its budget. -/
def adapterLimits (o : Options) (maxTokens : Option Nat) : Outcome String (Option Nat × Option Int) := do
  let small ← nilOrBelow maxTokens 1280
  let maxTokens := if small then some 1280 else maxTokens
  let n ← deref maxTokens
  return (maxTokens, some (o.budgetTokens n))

/-- `MaxTokens` and the budget of the thinking adapter. -/
def limits (o : Options) (req : ChatRequest) : Outcome String (Option Nat × Option Int) := do
  let maxTokens := if 0 < req.getMaxTokens then some req.getMaxTokens else none
  let unset ← nilOrBelow maxTokens 1
  let maxTokens := if unset then (o.defaultMaxTokensFor req.model).or maxTokens else maxTokens
  let trimmed := cutTail "-thinking" req.model
  if adaptive req.model ∨ ¬(o.thinkingAdapterEnabled ∧ hasTail "-thinking" req.model) ∨
      hasStart "claude-opus-4-7" trimmed ∨ hasStart "claude-opus-4-8" trimmed then
    .ok (maxTokens, none)
  else adapterLimits o maxTokens

def effortBudget (effort : String) (budget : Option Int) : Option Int :=
  if effort = "low" then some 1280 else if effort = "medium" then some 2048
  else if effort = "high" then some 4096 else budget

def reasoningBudget (reasoning : Option (Except String Int)) (budget : Option Int) : Outcome String (Option Int) :=
  match reasoning with
  | none => .ok budget
  | some config => do
    let n ← ofExcept config
    return if 0 < n then some n else budget

/-! ### Stop sequences -/

/-- `v.(string)`. -/
def asString : Json → Outcome String String
  | .str s => .ok s
  | _ => .error (.panic .typeAssertion)

def stopSequences : Json → Outcome String (List String)
  | .str s => .ok [s]
  | .arr l => l.mapM asString
  | _ => .ok []

/-! ### First pass -/

def isString : Json → Bool
  | .str _ => true
  | _ => false

def stringContent : Json → String
  | .str s => s
  | _ => ""

def fill : Json → Json
  | .null => .str ChatToClaude.placeholder
  | .str s => .str (if s = "" then ChatToClaude.placeholder else s)
  | v => v

structure Formatting where
  formatted : List ChatMessage
  last : ChatMessage

def joins (last m : ChatMessage) :
    Prop := last.role = m.role ∧ last.role ≠ "tool" ∧ isString last.content ∧ isString m.content

instance (last m : ChatMessage) : Decidable (joins last m) := inferInstanceAs (Decidable (_ ∧ _))

def before (s : Formatting) (m : ChatMessage) : Outcome String (List ChatMessage) :=
  if joins s.last m then cutLast s.formatted else .ok s.formatted

/-- `fmtMessage`. -/
def format (last m : ChatMessage) : ChatMessage where
  role := m.role
  content :=
    fill (if joins last m then
      .str (ChatToClaude.trimQuotes (stringContent last.content ++ " " ++ stringContent m.content))
      else m.content)
  toolCalls := if m.role = "assistant" then m.toolCalls else none
  toolCallId := if m.role = "tool" then m.toolCallId else ""

def formatStep (s : Formatting) (m : ChatMessage) : Outcome String Formatting := do
  let formatted ← before s m
  return ⟨formatted ++ [format s.last m], format s.last m⟩

def formatMessages (messages : List ChatMessage) : Outcome String (List ChatMessage) := do
  let s ← messages.foldlM formatStep ⟨[], ⟨"tool", .null, none, ""⟩⟩
  return s.formatted

/-! ### Parts of a content -/

def stringMember (m : Item) (key : String) : Option String :=
  match member m key with
  | .str s => some s
  | _ => none

def mapMember (m : Item) (key : String) : Option Item :=
  match member m key with
  | .obj l => some l
  | _ => none

/-- `dto.MediaContent` of `ParseContent`: text, or what `ToFileSource` reads the data and its type
from. -/
inductive Media
  | text (s : String)
  | file (data mimeType : String)

/-- One element of a content list. What lacks a member, or has one of another type, is skipped. -/
def parseItem : Json → Option Media
  | .obj m =>
    match stringMember m "type" with
    | some "text" => (stringMember m "text").map .text
    | some "image_url" =>
      match member m "image_url" with
      | .str url => some (.file url "")
      | .obj image => some (.file ((stringMember image "url").getD "") "")
      | _ => some (.file "" "")
    | some "input_audio" =>
      (mapMember m "input_audio").bind fun audio =>
        (stringMember audio "data").bind fun data =>
          (stringMember audio "format").map fun format => .file data (if format = "" then "" else "audio/" ++ format)
    | some "file" =>
      (mapMember m "file").bind fun file =>
        match stringMember file "file_id" with
        | some _ => some (.file "" "")
        | none =>
          (stringMember file "filename").bind fun _ => (stringMember file "file_data").map fun data => .file data ""
    | some "video_url" => (stringMember m "video_url").map fun url => .file url ""
    | _ => none
  | _ => none

def parseContent : Json → List Media
  | .str s => [.text s]
  | .arr l => l.filterMap parseItem
  | _ => []

/-! ### Second pass -/

section

variable (floats : Json.Floats) (resolve : String → String → Except String (String × String))

def mediaPart : Media → Outcome String (List Part)
  | .text s => .ok (if s ≠ "" then [.text s] else [])
  | .file data mimeType =>
    if data = "" then .ok []
    else do
      let (data, mimeType) ← ofExcept ((resolve data mimeType).mapError ("get file data failed: " ++ ·))
      return [.media (if hasStart "application/pdf" mimeType then "document" else "image") mimeType data]

def toolUsePart (call : ToolCall) : Part := .toolUse call.id call.name (ChatToClaude.inputOf floats call.arguments)

/-- `Content.([]dto.ClaudeMediaMessage)`. -/
def asParts : TurnContent → Outcome String (List Part)
  | .parts l => .ok l
  | _ => .error (.panic .typeAssertion)

/-- A tool result joins the user message before it, whose text becomes a part. -/
def addResult (messages : List ClaudeTurn) (result : Part) : Outcome String (List ClaudeTurn) :=
  match messages.getLast? with
  | some last =>
    if last.role = "user" then do
      let content : TurnContent :=
        match last.content with
        | .text s => .parts [.text s]
        | content => content
      let parts ← asParts content
      return messages.dropLast ++ [⟨last.role, .parts (parts ++ [result])⟩]
    else .ok (messages ++ [⟨"user", .parts [result]⟩])
  | none => .ok (messages ++ [⟨"user", .parts [result]⟩])

structure Building where
  first : Bool
  system : List Part
  messages : List ClaudeTurn

def systemParts (content : Json) : List Part :=
  (parseContent content).filterMap fun
    | .text s => if s ≠ "" then some (.text s) else none
    | .file .. => none

def addMessage (messages : List ClaudeTurn) (m : ChatMessage) : Outcome String (List ClaudeTurn) :=
  if m.role = "tool" then addResult messages (.toolResult m.toolCallId m.content)
  else if isString m.content ∧ m.toolCalls = none then
    .ok (messages ++ [⟨m.role,
      .text (if stringContent m.content = "" then ChatToClaude.placeholder else stringContent m.content)⟩])
  else do
    let parts ← (parseContent m.content).mapM (mediaPart resolve)
    return messages ++ [⟨m.role, .parts (parts.flatten ++ (m.toolCalls.getD []).map (toolUsePart floats))⟩]

/-- The messages before one that is not the system's: the first of them is the user's. -/
def withFront (s : Building) (m : ChatMessage) : List ClaudeTurn :=
  if s.first = true ∧ m.role ≠ "user" then s.messages ++ [⟨"user", .parts [placeholder]⟩] else s.messages

def claudeStep (s : Building) (m : ChatMessage) : Outcome String Building :=
  if m.role = "system" then .ok { s with system := s.system ++ systemParts m.content }
  else do
    let messages ← addMessage floats resolve (withFront s m) m
    return ⟨false, s.system, messages⟩

def buildRequest (messages : List ChatMessage) (maxTokens : Option Nat) (budget : Option Int) (stops : List String) :
    Outcome String ClaudeOut := do
  let formatted ← formatMessages messages
  let s ← formatted.foldlM (claudeStep floats resolve) ⟨true, [], []⟩
  match maxTokens with
  | none =>
    .error (.error ("claude messages request requires max_tokens: set max_tokens on the request or configure " ++
      "Options.Claude.DefaultMaxTokens"))
  | some n => .ok ⟨n, budget, stops, s.system, s.messages⟩

/-- `OpenAIChatRequestToClaudeMessages`. -/
def chatRequestToClaude (o : Options) (req : ChatRequest) : Outcome String ClaudeOut := do
  let (maxTokens, budget) ← limits o req
  let budget ← reasoningBudget req.reasoning (effortBudget req.reasoningEffort budget)
  let stops ← stopSequences req.stop
  buildRequest floats resolve req.messages maxTokens budget stops

end

/-! ### Claude requests -/

/-- `dto.ClaudeMessageSource`. -/
structure Source where
  mediaType : String
  data : Json

/-- The content of a tool result: a string, or the JSON text of the blocks that it is read as. -/
inductive ResultContent
  | text (s : String)
  | encoded (s : String)

/-- `dto.ClaudeMediaMessage` of a request. -/
structure Block where
  type : String
  text : Option String
  source : Option Source
  id : String
  name : String
  input : Json
  content : ResultContent
  toolUseId : String

def Block.getText (b : Block) : String := b.text.getD ""

/-- The content of a message: a string, or what reading it as blocks gives. -/
inductive ClaudeContent
  | text (s : String)
  | read (blocks : Except String (List Block))

structure ClaudeMessage where
  role : String
  content : ClaudeContent

/-- `System`, an `any`. Blocks that cannot be read are none. -/
inductive System
  | absent
  | text (s : String)
  | blocks (l : List Block)

structure ClaudeRequest where
  system : System
  messages : List ClaudeMessage

/-- `dto.MediaContent` of a chat message; an image is sent as a URL with its type and data. -/
inductive ChatPart
  | text (s : String)
  | image (mediaType : String) (data : Json)

inductive ChatContent
  | absent
  | text (s : String)
  | parts (l : List ChatPart)

structure ChatOut where
  role : String
  content : ChatContent
  name : Option String := none
  toolCalls : List ToolCall := []
  toolCallId : String := ""

/-- `SearchToolNameByToolCallId`. -/
def searchToolName (messages : List ClaudeMessage) (id : String) : String :=
  let blocks := messages.flatMap fun m =>
    match m.content with
    | .read (.ok l) => l
    | _ => []
  ((blocks.find? fun b => b.id = id).map Block.name).getD ""

structure Gathered where
  toolMessages : List ChatOut
  toolCalls : List ToolCall
  parts : List ChatPart

def Gathered.outs (g : Gathered) (role : String) : List ChatOut :=
  g.toolMessages ++
    if g.toolCalls ≠ [] then [⟨role, .absent, none, g.toolCalls, ""⟩]
    else if g.parts.isEmpty then []
    else [⟨role, .parts g.parts, none, [], ""⟩]

section

variable (messages : List ClaudeMessage)

def blockStep (g : Gathered) (b : Block) : Outcome String Gathered :=
  if b.type = "text" ∨ b.type = "input_text" then .ok { g with parts := g.parts ++ [.text b.getText] }
  else if b.type = "image" then do
    -- `mediaMsg.Source.MediaType`
    let source ← deref b.source
    return { g with parts := g.parts ++ [.image source.mediaType source.data] }
  else if b.type = "tool_use" then
    .ok { g with toolCalls := g.toolCalls ++ [⟨b.id, b.name, Json.encode b.input⟩] }
  else if b.type = "tool_result" then
    let name := if b.name = "" then searchToolName messages b.toolUseId else b.name
    let text :=
      match b.content with
      | .text s => s
      | .encoded s => s
    .ok { g with toolMessages := g.toolMessages ++ [⟨"tool", .text text, some name, [], b.toolUseId⟩] }
  else .ok g

def messageStep (out : List ChatOut) (m : ClaudeMessage) : Outcome String (List ChatOut) :=
  match m.content with
  | .text s => .ok (out ++ [⟨m.role, .text s, none, [], ""⟩])
  | .read blocks => do
    let blocks ← ofExcept blocks
    let gathered ← blocks.foldlM (blockStep messages) ⟨[], [], []⟩
    return out ++ gathered.outs m.role

end

def systemMessages (openRouterClaude : Bool) : System → List ChatOut
  | .absent => []
  | .text s => if s ≠ "" then [⟨"system", .text s, none, [], ""⟩] else []
  | .blocks [] => []
  | .blocks l =>
    if openRouterClaude then [⟨"system", .parts (l.map fun b => .text b.getText), none, [], ""⟩]
    else [⟨"system", .text (String.join (l.map Block.getText)), none, [], ""⟩]

/-- The messages of `ClaudeMessagesRequestToOpenAIChat`. -/
def claudeRequestToChat (openRouterClaude : Bool) (req : ClaudeRequest) : Outcome String (List ChatOut) :=
  req.messages.foldlM (messageStep req.messages) (systemMessages openRouterClaude req.system)

/-! ### Claude responses -/

section

variable {I : Type} (marshal : Option I → String)

def firstFields (content : List (ClaudeToChat.MediaMessage I)) : Outcome String (String × String) :=
  if 0 < content.length then do
    let first ← index content 0
    if first.thinking ≠ none then
      let thinking ← deref first.thinking
      return (first.getText, thinking)
    else return (first.getText, "")
  else .ok ("", "")

/-- `ResponseClaude2OpenAI` with the element that it indexes. -/
def claudeResponseToChat (r : ClaudeToChat.ClaudeResponse I) : Outcome String Responses.TextResponse := do
  let first ← firstFields r.content
  let folded := r.content.foldl (ClaudeToChat.foldBlock marshal) ⟨first.1, "", []⟩
  let reasoning :=
    if folded.thinkingContent ≠ "" then some folded.thinkingContent
    else if first.2 ≠ "" then some first.2
    else none
  return {
    id := r.id
    model := r.model
    choices := [⟨{ content := .text folded.responseText, reasoningContent := reasoning, toolCalls := folded.tools },
      ClaudeToChat.stopReasonClaudeToOpenAI r.stopReason⟩]
    usage := {} }

/-- `StreamResponseClaude2OpenAI` as an outcome. -/
def claudeEventToChat (e : ClaudeToChat.ClaudeResponse I) :
    Outcome String (Option (ChatToClaude.Chunk TokenUsage.Usage)) :=
  match ClaudeToChat.streamResponseClaude2OpenAI e with
  | .ok chunk => .ok chunk
  | .error .nilDereference => .error (.panic .nilDereference)

end

/-! ### Chat requests are safe but for stop sequences -/

variable {floats : Json.Floats} {resolve : String → String → Except String (String × String)}

theorem nilOrBelow_ok (p : Option Nat) (n : Nat) :
    ∃ below, nilOrBelow p n = .ok below ∧ (below = false → p ≠ none) := by
  cases p with
  | none => exact ⟨true, rfl, nofun⟩
  | some m => exact ⟨decide (m < n), rfl, fun _ => nofun⟩

variable {o : Options} {maxTokens : Option Nat}

theorem adapterLimits_ok : ∃ out, adapterLimits o maxTokens = .ok out := by
  obtain ⟨small, hsmall, hset⟩ := nilOrBelow_ok maxTokens 1280
  rw [adapterLimits, hsmall]
  cases small with
  | true => exact ⟨_, rfl⟩
  | false =>
    obtain ⟨n, rfl⟩ := Option.ne_none_iff_exists'.1 (hset rfl)
    exact ⟨_, rfl⟩

variable {req : ChatRequest}

theorem limits_ok : ∃ out, limits o req = .ok out := by
  obtain ⟨unset, hunset, -⟩ := nilOrBelow_ok (if 0 < req.getMaxTokens then some req.getMaxTokens else none) 1
  rw [limits, hunset]
  by_cases h : adaptive req.model ∨ ¬(o.thinkingAdapterEnabled ∧ hasTail "-thinking" req.model) ∨
      hasStart "claude-opus-4-7" (cutTail "-thinking" req.model) ∨
        hasStart "claude-opus-4-8" (cutTail "-thinking" req.model)
  · exact ⟨_, if_pos h⟩
  · obtain ⟨out, hout⟩ := adapterLimits_ok
    exact ⟨out, (if_neg h).trans hout⟩

def StringStops (stop : Json) : Prop := ∀ l, stop = .arr l → ∀ v ∈ l, isString v = true

theorem safe_stopSequences_iff {stop : Json} : Safe (stopSequences stop) ↔ StringStops stop := by
  have hasString (v : Json) : Safe (asString v) ↔ isString v = true := by
    cases v with
    | str s => exact ⟨fun _ => rfl, fun _ => safe_ok s⟩
    | _ => exact ⟨fun h => absurd h (not_safe_panic _), nofun⟩
  cases stop with
  | arr l =>
    have herror : ∀ v ∈ l, ∀ e, asString v ≠ .error (.error e) := by
      intro v _ e
      cases v <;> nofun
    rw [stopSequences, safe_mapM_iff herror]
    simp [StringStops, hasString]
  | _ => exact ⟨fun _ => nofun, fun _ => safe_ok _⟩

variable {messages : List ChatMessage}

/-- The last message is among the formatted ones once it is not the initial one. -/
theorem safe_formatMessages : Safe (formatMessages messages) := by
  refine safe_bind (safe_foldlM (fun s => s.last.role ≠ "tool" → s.formatted ≠ []) ?_ ?_
    (fun h => absurd rfl h) messages)
    fun _ _ => safe_pure _
  · intro s m hs
    refine safe_bind ?_ fun _ _ => safe_pure _
    rw [before]
    split_ifs with hjoin
    · exact safe_cutLast (hs hjoin.2.1)
    · exact safe_ok _
  · intro s m t _ ht _
    obtain ⟨formatted, -, ht⟩ := bind_eq_ok.1 ht
    cases ht
    exact List.append_ne_nil_of_right_ne_nil _ (List.cons_ne_nil _ _)

theorem safe_mediaPart (media : Media) : Safe (mediaPart resolve media) := by
  cases media with
  | text s => exact safe_ok _
  | file data mimeType =>
    rw [mediaPart]
    split_ifs
    · exact safe_ok _
    · exact safe_bind (safe_ofExcept _) fun _ _ => safe_pure _

def Built (messages : List ClaudeTurn) : Prop := ∀ turn ∈ messages, turn.content ≠ .absent

theorem built_nil : Built [] := nofun

theorem Built.append {messages : List ClaudeTurn} (h : Built messages) {turn : ClaudeTurn}
    (hturn : turn.content ≠ .absent) :
    Built (messages ++ [turn]) :=
  List.forall_mem_append.2 ⟨h, List.forall_mem_singleton.2 hturn⟩

theorem addResult_spec {messages : List ClaudeTurn} (h : Built messages) (result : Part) :
    Safe (addResult messages result) ∧ ∀ out, addResult messages result = .ok out → Built out := by
  unfold addResult
  cases hlast : messages.getLast? with
  | none => exact ⟨safe_ok _, fun out hout => by cases hout; exact h.append nofun⟩
  | some last =>
    dsimp only
    split_ifs
    · have hcontent := h last (List.mem_of_getLast? hlast)
      have hparts : ∃ parts, asParts (match last.content with
          | .text s => .parts [.text s]
          | content => content) = .ok parts := by
        cases hkind : last.content with
        | absent => exact absurd hkind hcontent
        | text s => exact ⟨_, rfl⟩
        | parts l => exact ⟨l, rfl⟩
      obtain ⟨parts, hparts⟩ := hparts
      rw [hparts]
      refine ⟨safe_ok _, fun out hout => ?_⟩
      cases hout
      have hbefore : Built messages.dropLast := fun turn hturn => h turn (List.mem_of_mem_dropLast hturn)
      exact hbefore.append nofun
    · exact ⟨safe_ok _, fun out hout => by cases hout; exact h.append nofun⟩

theorem safe_mapM {l : List Media} : Safe (l.mapM (mediaPart resolve)) := by
  induction l with
  | nil => exact safe_pure []
  | cons media l ih =>
    rw [List.mapM_cons]
    exact safe_bind (safe_mediaPart media) fun _ _ => safe_bind ih fun _ _ => safe_pure _

theorem addMessage_spec {messages : List ClaudeTurn} (h : Built messages) (m : ChatMessage) :
    Safe (addMessage floats resolve messages m) ∧ ∀ out, addMessage floats resolve messages m =
      .ok out → Built out := by
  unfold addMessage
  split_ifs
  · exact addResult_spec h _
  · exact ⟨safe_ok _, fun out hout => by cases hout; exact h.append nofun⟩
  · exact ⟨safe_ok _, fun out hout => by cases hout; exact h.append nofun⟩
  · refine ⟨safe_bind safe_mapM fun _ _ => safe_pure _, fun out hout => ?_⟩
    obtain ⟨parts, -, hout⟩ := bind_eq_ok.1 hout
    cases hout
    exact h.append nofun

theorem claudeStep_spec {s : Building} (h : Built s.messages) (m : ChatMessage) :
    Safe (claudeStep floats resolve s m) ∧ ∀ t, claudeStep floats resolve s m = .ok t → Built t.messages := by
  have hfront : Built (withFront s m) := by
    rw [withFront]
    split_ifs
    · exact h.append nofun
    · exact h
  obtain ⟨hsafe, hbuilt⟩ := @addMessage_spec floats resolve _ hfront m
  unfold claudeStep
  split_ifs
  · exact ⟨safe_ok _, fun t ht => by cases ht; exact h⟩
  · refine ⟨safe_bind hsafe fun _ _ => safe_pure _, fun t ht => ?_⟩
    obtain ⟨messages, hmessages, ht⟩ := bind_eq_ok.1 ht
    cases ht
    exact hbuilt messages hmessages

theorem safe_buildRequest (budget : Option Int) (stops : List String) :
    Safe (buildRequest floats resolve messages maxTokens budget stops) := by
  refine safe_bind safe_formatMessages fun formatted _ => safe_bind ?_ fun s _ => ?_
  · exact safe_foldlM (fun s : Building => Built s.messages) (fun _ m hs => (claudeStep_spec hs m).1)
      (fun _ m t hs => (claudeStep_spec hs m).2 t) built_nil formatted
  · cases maxTokens <;> nofun

/-- A chat request is converted without a panic exactly if its stop sequences are strings, or it is
refused before they are read. -/
theorem chat_safe_iff (o : Options) (req : ChatRequest) :
    Safe (chatRequestToClaude floats resolve o req) ↔ (∃ e, req.reasoning = some (.error e)) ∨
      StringStops req.stop := by
  obtain ⟨⟨maxTokens, budget⟩, hlimits⟩ := limits_ok
  have hstops (budget : Option Int) :
      Safe (stopSequences req.stop >>= buildRequest floats resolve req.messages maxTokens budget) ↔
        StringStops req.stop := by
    rw [safe_bind_iff, safe_stopSequences_iff]
    exact and_iff_left fun stops _ => safe_buildRequest _ stops
  rw [chatRequestToClaude, hlimits]
  cases hreasoning : req.reasoning with
  | none => exact (hstops _).trans (or_iff_right nofun).symm
  | some config =>
    cases config with
    | error e => exact ⟨fun _ => .inl ⟨e, rfl⟩, fun _ => nofun⟩
    | ok n => exact (hstops (if 0 < n then some n else _)).trans (or_iff_right nofun).symm

/-! ### Claude requests are safe but for images -/

def Bare (b : Block) : Prop := b.type = "image" ∧ b.source = none

theorem blockStep_cases (messages : List ClaudeMessage) (g : Gathered) (b : Block) :
    (¬Bare b ∧ ∃ out, blockStep messages g b = .ok out) ∨
      (Bare b ∧ blockStep messages g b = .error (.panic .nilDereference)) := by
  unfold blockStep Bare
  by_cases htext : b.type = "text" ∨ b.type = "input_text"
  · rw [if_pos htext]
    refine .inl ⟨?_, _, rfl⟩
    rintro ⟨himage, -⟩
    rw [himage] at htext
    exact absurd htext (by decide)
  rw [if_neg htext]
  by_cases himage : b.type = "image"
  · rw [if_pos himage]
    cases hsource : b.source with
    | none => exact .inr ⟨⟨himage, rfl⟩, rfl⟩
    | some source => exact .inl ⟨fun h => Option.some_ne_none _ h.2, _, rfl⟩
  rw [if_neg himage]
  refine .inl ⟨fun h => himage h.1, ?_⟩
  split_ifs <;> exact ⟨_, rfl⟩

theorem blocks_cases (messages : List ClaudeMessage) (g : Gathered) (blocks : List Block) :
    ((∀ b ∈ blocks, ¬Bare b) ∧ ∃ out, blocks.foldlM (blockStep messages) g = .ok out) ∨
      ((∃ b ∈ blocks, Bare b) ∧ blocks.foldlM (blockStep messages) g = .error (.panic .nilDereference)) := by
  induction blocks generalizing g with
  | nil => exact .inl ⟨nofun, g, rfl⟩
  | cons b blocks ih =>
    rw [List.foldlM_cons]
    obtain ⟨hb, next, hnext⟩ | ⟨hb, hpanic⟩ := blockStep_cases messages g b
    · rw [hnext]
      obtain ⟨hrest, hout⟩ | ⟨⟨b', hb', hbare⟩, hpanic⟩ := ih next
      · exact .inl ⟨List.forall_mem_cons.2 ⟨hb, hrest⟩, hout⟩
      · exact .inr ⟨⟨b', List.mem_cons_of_mem _ hb', hbare⟩, hpanic⟩
    · rw [hpanic]
      exact .inr ⟨⟨b, List.mem_cons_self, hb⟩, rfl⟩

/-- Up to the first message whose content cannot be read, no image lacks its source. -/
def Sourced : List ClaudeMessage → Prop
  | [] => True
  | m :: l =>
    match m.content with
    | .text _ => Sourced l
    | .read (.error _) => True
    | .read (.ok blocks) => (∀ b ∈ blocks, ¬Bare b) ∧ Sourced l

theorem claude_safe_iff (openRouterClaude : Bool) (req : ClaudeRequest) :
    Safe (claudeRequestToChat openRouterClaude req) ↔ Sourced req.messages := by
  have hrun (all messages : List ClaudeMessage) (out : List ChatOut) :
      Safe (messages.foldlM (messageStep all) out) ↔ Sourced messages := by
    induction messages generalizing out with
    | nil => exact ⟨fun _ => trivial, fun _ => safe_pure out⟩
    | cons m messages ih =>
      rw [List.foldlM_cons, Sourced, messageStep]
      cases hcontent : m.content with
      | text s => exact ih _
      | read blocks =>
        cases blocks with
        | error e => exact ⟨fun _ => trivial, fun _ => nofun⟩
        | ok blocks =>
          obtain ⟨hsourced, gathered, hgathered⟩ | ⟨hbare, hpanic⟩ := blocks_cases all ⟨[], [], []⟩ blocks
          · simp only [ofExcept_ok, bind, Except.bind, hgathered]
            exact (ih _).trans (and_iff_right hsourced).symm
          · simp only [ofExcept_ok, bind, Except.bind, hpanic]
            obtain ⟨b, hb, hbare⟩ := hbare
            exact ⟨fun h => absurd h (not_safe_panic _), fun h => absurd hbare (h.1 b hb)⟩
  exact hrun _ _ _

/-! ### Claude responses -/

variable {I : Type}

def Textless (e : ClaudeToChat.ClaudeResponse I) : Prop :=
  e.type = .contentBlockDelta ∧ ∃ d, e.delta = some d ∧ d.type = .inputJsonDelta ∧ d.partialJson = none

theorem event_safe_iff (e : ClaudeToChat.ClaudeResponse I) : Safe (claudeEventToChat e) ↔ ¬Textless e := by
  have hcases : (¬Textless e ∧ ∃ chunk, ClaudeToChat.streamResponseClaude2OpenAI e = .ok chunk) ∨
      (Textless e ∧ ClaudeToChat.streamResponseClaude2OpenAI e = .error .nilDereference) := by
    unfold ClaudeToChat.streamResponseClaude2OpenAI Textless
    cases htype : e.type with
    | messageStart =>
      cases e.message <;> exact .inl ⟨nofun, _, rfl⟩
    | contentBlockStart =>
      cases e.contentBlock with
      | none => exact .inl ⟨nofun, _, rfl⟩
      | some block => cases hblock : block.type <;> exact .inl ⟨nofun, _, by simp only [hblock]; rfl⟩
    | contentBlockDelta =>
      cases hdelta : e.delta with
      | none => exact .inl ⟨nofun, _, rfl⟩
      | some d =>
        cases hd : d.type with
        | inputJsonDelta =>
          cases hjson : d.partialJson with
          | none => exact .inr ⟨⟨rfl, d, rfl, hd, hjson⟩, by simp only [hd, hjson]⟩
          | some json =>
            refine .inl ⟨?_, _, by simp only [hd, hjson]; rfl⟩
            rintro ⟨-, d', hd', -, hnone⟩
            cases hd'
            exact Option.some_ne_none _ (hjson.symm.trans hnone)
        | _ =>
          refine .inl ⟨?_, _, by simp only [hd]; rfl⟩
          rintro ⟨-, d', hd', htype', -⟩
          cases hd'
          rw [hd] at htype'
          cases htype'
    | _ => exact .inl ⟨nofun, _, rfl⟩
  unfold claudeEventToChat
  obtain ⟨hsafe, chunk, hchunk⟩ | ⟨htextless, hpanic⟩ := hcases
  · rw [hchunk]
    exact ⟨fun _ => hsafe, fun _ => safe_ok chunk⟩
  · rw [hpanic]
    exact ⟨fun h => absurd h (not_safe_panic _), fun h => absurd htextless h⟩

theorem firstFields_ok (content : List (ClaudeToChat.MediaMessage I)) :
    firstFields content =
      .ok ((content.head?.map ClaudeToChat.MediaMessage.getText).getD "",
        (content.head?.bind (·.thinking)).getD "") := by
  cases content with
  | nil => rfl
  | cons first rest =>
    rw [firstFields, if_pos (by rw [List.length_cons]; exact Nat.succ_pos _), List.head?_cons,
      Option.map_some, Option.bind_some]
    refine bind_eq_ok.2 ⟨first, rfl, ?_⟩
    cases hthinking : first.thinking with
    | none => rw [if_neg (not_not.2 rfl)]; rfl
    | some thinking => rw [if_pos (Option.some_ne_none _)]; rfl

def numberStop : ChatRequest := ⟨"claude", some 100, none, "", none, .arr [.num ['1']], []⟩

def bareImage : ClaudeRequest := ⟨.absent, [⟨"user", .read (.ok [⟨"image", none, none, "", "", .null, .text "", ""⟩])⟩]⟩

def textlessDelta : ClaudeToChat.ClaudeResponse Unit where
  type := .contentBlockDelta
  delta := some { type := .inputJsonDelta }

end TokenEra.Request.Decoded
