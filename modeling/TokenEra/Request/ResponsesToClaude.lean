import TokenEra.Lib.Run
import TokenEra.Request.ResponsesToChat

/-!
# From Responses to Claude

`OpenAIResponsesRequestToClaudeMessages` builds the messages item by item: a call joins the
assistant message at the end, an output the user message at the end, and each opens a message if
there is none. Seen as one sequence of parts with their roles, every item adds its parts at the end
whatever stands before it (`addItem_flat`), which is why the order survives.
-/

namespace TokenEra.Request.ResponsesToClaude

open Lib ResponsesToChat

/-- `dto.ClaudeMediaMessage`. -/
inductive Part
  | text (s : String)
  | media (type mimeType data : String)
  | toolUse (id name : String) (input : Json)
  | toolResult (toolUseId : String) (content : Json)

/-- `dto.ClaudeMessage`, whose content is always a list here. -/
structure Turn where
  role : String
  parts : List Part

/-- The fields of a Responses request that can make the conversion fail, besides those it has in
common with chat. -/
structure FullRequest extends ResponsesRequest where
  tools : String
  maxOutputTokens : Option Nat
  conversation : String
  previousResponseID : String
  prompt : String
  contextManagement : String

structure ClaudeRequest where
  model : String
  maxTokens : Nat
  tools : List (String × String × Json)
  system : List Part
  messages : List Turn

/-! ### Contents -/

def nestedData (payload : Item) : String := firstNonempty (["url", "file_data", "file_url", "data"].map (field payload))

/-- `responsesPartDataAndMime`: the data under the first key that has any, and the type that goes
with it. -/
def partDataAndMime (part : Item) (mimeType : String) : List String → String × String
  | [] => ("", mimeType)
  | key :: keys =>
    match member? part key with
    | some (.str s) => if s ≠ "" then (s, mimeType) else partDataAndMime part mimeType keys
    | some (.obj payload) =>
      let mimeType := if mimeType = "" then field payload "mime_type" else mimeType
      if nestedData payload ≠ "" then (nestedData payload, mimeType) else partDataAndMime part mimeType keys
    | _ => partDataAndMime part mimeType keys

def audioType (part : Item) : String :=
  match member part "input_audio" with
  | .obj payload => if field payload "format" ≠ "" then "audio/" ++ field payload "format" else ""
  | _ => ""

/-- `ContentPartToFileSource`: the data of a part and its type. -/
def contentPartToFileSource (part : Item) : Option (String × String) :=
  let mimeType := field part "mime_type"
  let source :=
    if field part "type" = "input_image" then partDataAndMime part mimeType ["image_url", "url"]
    else if field part "type" = "input_file" then partDataAndMime part mimeType ["file", "file_data", "file_url", "url"]
    else if field part "type" = "input_audio" then
      let source := partDataAndMime part mimeType ["input_audio", "data", "url"]
      (source.1, if source.2 = "" then audioType part else source.2)
    else if field part "type" = "input_video" then partDataAndMime part mimeType ["video_url", "url"]
    else ("", "")
  if source.1 = "" then none else some source

def textPart (s : String) : Item := [("text", .str s), ("type", .str "input_text")]

/-- `responsesContentParts`. -/
def contentParts : Json → List Item
  | .null => []
  | .str s => [textPart s]
  | .arr l =>
    l.map fun
      | .str s => textPart s
      | .obj part => part
      | v => textPart (Json.encode v)
  | v => [textPart (Json.encode v)]

section

variable (resolve : String → String → Except String (String × String))

/-- The parts of a content part; `resolve` is `ResolveBase64Data`. -/
def claudePart (part : Item) : Except String (List Part) :=
  if field part "type" ∈ ["input_text", "output_text", "text"] then
    let text := interface2String (member part "text")
    .ok (if text ≠ "" then [.text text] else [])
  else if field part "type" ∈ ["input_image", "input_file", "input_audio", "input_video"] then
    match contentPartToFileSource part with
    | none => .ok []
    | some (data, mimeType) =>
      match resolve data mimeType with
      | .ok (data, mimeType) =>
        .ok [.media (if hasStart "application/pdf" mimeType then "document" else "image")
        mimeType data]
      | .error e => .error ("get file data failed: " ++ e)
  else .ok []

/-- `responsesInputContentToClaudeMediaMessages`. -/
def claudeParts (content : Json) : Except String (List Part) := do
  return (← (contentParts content).mapM (claudePart resolve)).flatten

/-! ### Items -/

variable (floats : Json.Floats)

/-- `responsesFunctionCallItemToClaudeToolUse`. -/
def toolUse (item : Item) (inputKey : String) : Part :=
  .toolUse (callID item) (field item "name") (objectValue floats (member item inputKey) inputKey)

/-- `responsesFunctionOutputItemToClaudeToolResult`. -/
def toolResult (item : Item) : Part :=
  .toolResult (callID item)
    (match member item "output" with
    | .null => .str ""
    | v => v)

/-- A part goes to the last message if that has the role, else to a new one. -/
def appendPart (role : String) (messages : List Turn) (part : Part) : List Turn :=
  match messages.getLast? with
  | some last =>
    if last.role = role then messages.dropLast ++ [{ last with parts := last.parts ++ [part] }]
    else messages ++ [⟨role, [part]⟩]
  | none => messages ++ [⟨role, [part]⟩]

def appendClaudeToolUse (messages : List Turn) (part : Part) : List Turn := appendPart "assistant" messages part

def appendClaudeToolResult (messages : List Turn) (part : Part) : List Turn := appendPart "user" messages part

/-- `responsesClaudeRole`. -/
def claudeRole (item : Item) : String :=
  if field item "role" = "assistant" then "assistant"
  else if field item "role" = "system" ∨ field item "role" = "developer" then "system"
  else "user"

def placeholder : Part := .text "..."

structure State where
  system : List Part
  messages : List Turn

def addItem (s : State) (item : Item) : Except String State :=
  if itemType item = "function_call" then
    .ok { s with messages := appendClaudeToolUse s.messages (toolUse floats item "arguments") }
  else if itemType item = "custom_tool_call" then
    .ok { s with messages := appendClaudeToolUse s.messages (toolUse floats item "input") }
  else if itemType item = "function_call_output" ∨ itemType item = "custom_tool_call_output" then
    .ok { s with messages := appendClaudeToolResult s.messages (toolResult item) }
  else do
    let parts ← claudeParts resolve (member item "content")
    if claudeRole item = "system" then .ok { s with system := s.system ++ parts }
    else .ok { s with messages := s.messages ++ [⟨claudeRole item, if parts.isEmpty then [placeholder] else parts⟩] }

def ensureClaudeMessagesStartWithUser (messages : List Turn) : List Turn :=
  match messages with
  | [] => []
  | turn :: _ => if turn.role = "user" then messages else ⟨"user", [placeholder]⟩ :: messages

/-! ### The request -/

/-- `validateResponsesRequestChatUnsupportedFields`. -/
def unsupportedFields (req : FullRequest) : List String :=
  [("conversation", present req.conversation), ("previous_response_id", trimSpace req.previousResponseID ≠ ""),
    ("prompt", present req.prompt), ("context_management", present req.contextManagement)].filterMap
    fun (name, used) => if used = true then some name else none

/-- `responsesRequestFunctionDeclarations`: names, descriptions and parameters. -/
def functionDeclarations (raw : String) : Except String (List (String × String × Json)) :=
  if present raw = false then .ok []
  else
    let declarations (tools : List Item) :=
      (tools.filter fun tool => field tool "type" = "function" ∧ field tool "name" ≠ "").map fun tool =>
        (field tool "name", interface2String (member tool "description"), member tool "parameters")
    match Json.decode floats true raw with
    | some (.arr l) =>
      match maps l with
      | some tools => .ok (declarations tools)
      | none => .error "invalid tools"
    | some .null => .ok []
    | _ => .error "invalid tools"

/-- `responsesInputItems`. -/
def inputItems (raw : String) : Except String (List Item) :=
  if present raw = false then .ok []
  else if jsonStart raw = some '"' then
    match jsonString floats raw with
    | some input => .ok [[("content", .str input), ("role", .str "user")]]
    | none => .error "invalid input string"
  else if jsonStart raw = some '[' then
    match Json.decode floats true raw with
    | some (.arr l) =>
      match maps l with
      | some items => .ok items
      | none => .error "invalid input array"
    | _ => .error "invalid input array"
  else .error "unsupported responses input type"

def instructionsTexts (raw : String) : Except String (List String) :=
  if present raw = true then
    match jsonString floats raw with
    | some instructions => .ok (if trimSpace instructions ≠ "" then [instructions] else [])
    | none => .error "invalid instructions"
  else .ok []

variable (defaultMaxTokensFor : String → Option Nat)

/-- A limit of zero is no limit. -/
def maxTokens (req : FullRequest) : Option Nat :=
  match req.maxOutputTokens with
  | some (n + 1) => some (n + 1)
  | _ => defaultMaxTokensFor req.model

/-- `OpenAIResponsesRequestToClaudeMessages`. -/
def responsesRequestToClaude (req : FullRequest) : Except String ClaudeRequest :=
  if req.model = "" then .error "model is required"
  else if unsupportedFields req ≠ [] then
    .error ("responses to chat conversion does not support stateful fields: " ++ String.intercalate
      ", " (unsupportedFields req))
  else do
    let tools ← functionDeclarations floats req.tools
    let _ ← toolChoiceToChat floats req.toolChoice
    let instructions ← instructionsTexts floats req.instructions
    let items ← inputItems floats req.input
    let s ← items.foldlM (addItem resolve floats) ⟨instructions.map .text, []⟩
    match maxTokens defaultMaxTokensFor req with
    | some n => .ok ⟨req.model, n, tools, s.system, ensureClaudeMessagesStartWithUser s.messages⟩
    | none =>
      .error ("claude messages request requires max_tokens: set max_tokens on the request or configure " ++
        "Options.Claude.DefaultMaxTokens")

end

/-! ### What the messages say -/

def flat (messages : List Turn) : List (String × Part) := messages.flatMap fun turn => turn.parts.map (turn.role, ·)

def isPlaceholder : String × Part → Bool
  | (_, .text s) => s = "..."
  | _ => false

def isMessage (item : Item) : Bool :=
  itemType item ∉ ["function_call", "custom_tool_call", "function_call_output", "custom_tool_call_output"]

def TextContent : Json → Prop
  | .null => True
  | .str _ => True
  | .arr l => ∀ v ∈ l, ∃ part, v = .obj part ∧ field part "type" ∈ ["input_text", "output_text", "text"]
  | _ => False

def partTexts (part : Item) : List String := [interface2String (member part "text")].filter (· ≠ "")

def texts : Json → List String
  | .str s => [s].filter (· ≠ "")
  | .arr l =>
    l.flatMap fun
      | .obj part => partTexts part
      | _ => []
  | _ => []

section

variable (floats : Json.Floats)

def output (item : Item) : Json :=
  match member item "output" with
  | .null => .str ""
  | v => v

/-- What an item is in Claude's messages: a call with its id, its name and its input as an object,
an output with the id of its call, or the texts of a message. -/
def counterpart (item : Item) : List (String × Part) :=
  if itemType item = "function_call" then
    [("assistant", .toolUse (callID item) (field item "name")
      (objectValue floats (member item "arguments") "arguments"))]
  else if itemType item = "custom_tool_call" then
    [("assistant", .toolUse (callID item) (field item "name")
      (objectValue floats (member item "input") "input"))]
  else if itemType item = "function_call_output" ∨ itemType item = "custom_tool_call_output" then
    [("user", .toolResult (callID item) (output item))]
  else if claudeRole item = "system" then []
  else (texts (member item "content")).map (claudeRole item, .text ·)

def systemTexts (item : Item) : List String :=
  if isMessage item = true ∧ claudeRole item = "system" then texts (member item "content") else []

/-- The counterparts of the items stand in their order, with nothing but placeholders between them.
-/
structure Preserves (instructions : List String) (items : List Item) (out : ClaudeRequest) : Prop where
  order : (items.flatMap (counterpart floats)).Sublist (flat out.messages)
  rest : (flat out.messages).filter (!isPlaceholder ·) = (items.flatMap (counterpart floats)).filter (!isPlaceholder ·)
  toolUses : ∀ role id name input, (role, .toolUse id name input) ∈ flat out.messages → role = "assistant"
  toolResults : ∀ role id content, (role, .toolResult id content) ∈ flat out.messages → role = "user"
  system : out.system = (instructions ++ items.flatMap systemTexts).map .text
  first : ∀ turn ∈ out.messages.head?, turn.role = "user"

/-- What an item does add: a message without a text says the placeholder. -/
def shown (item : Item) : List (String × Part) :=
  if isMessage item = true ∧ claudeRole item ≠ "system" ∧ texts (member item "content") = [] then
    [(claudeRole item, placeholder)]
  else counterpart floats item

end

/-! ### One item -/

variable {resolve : String → String → Except String (String × String)} {floats : Json.Floats} {item : Item}

variable {messages : List Turn}

theorem flat_append (messages' : List Turn) : flat (messages ++ messages') = flat messages ++ flat messages' :=
  List.flatMap_append

variable {role : String}

theorem flat_singleton (parts : List Part) : flat [⟨role, parts⟩] = parts.map (role, ·) := by
  simp [flat]

/-- A part comes last whether it joins a message or opens one. -/
theorem flat_appendPart (part : Part) :
    flat (appendPart role messages part) = flat messages ++ [(role, part)] := by
  have hnew : flat (messages ++ [⟨role, [part]⟩]) = flat messages ++ [(role, part)] := by
    rw [flat_append, flat_singleton]
    rfl
  unfold appendPart
  split
  · rename_i last hlast
    split_ifs with hrole
    · obtain ⟨before, rfl⟩ := List.getLast?_eq_some_iff.1 hlast
      simp [flat, hrole]
    · exact hnew
  · exact hnew

theorem claudePart_text {part : Item} (h : field part "type" ∈ ["input_text", "output_text", "text"]) :
    claudePart resolve part = .ok ((partTexts part).map .text) := by
  rw [claudePart, if_pos h, partTexts]
  by_cases htext : interface2String (member part "text") = "" <;> simp [htext]

theorem claudeParts_of_parts {content : Json}
    (h : ∀ part ∈ contentParts content, field part "type" ∈ ["input_text", "output_text", "text"]) :
    claudeParts resolve content = .ok (((contentParts content).flatMap partTexts).map .text) := by
  have hparts : (contentParts content).mapM (claudePart resolve) =
      .ok ((contentParts content).map fun part => (partTexts part).map .text) := by
    revert h
    generalize contentParts content = parts
    intro h
    induction parts with
    | nil => rfl
    | cons part parts ih =>
      obtain ⟨hpart, hrest⟩ := List.forall_mem_cons.1 h
      rw [List.mapM_cons, claudePart_text hpart, ih hrest]
      rfl
  rw [claudeParts, hparts, List.map_flatMap, List.flatMap_def]
  rfl

theorem claudeParts_text {content : Json} (h : TextContent content) :
    claudeParts resolve content = .ok ((texts content).map .text) := by
  match content with
  | .null => rfl
  | .str s =>
    have htype : field (textPart s) "type" = "input_text" := by
      rw [field_of_str rfl]
      decide +kernel
    rw [claudeParts_of_parts]
    · rw [contentParts, List.flatMap_singleton]
      rfl
    · rw [contentParts, List.forall_mem_singleton, htype]
      decide
  | .arr l =>
    have hparts : ∀ v ∈ l, ∃ part, v = .obj part ∧ field part "type" ∈ ["input_text", "output_text", "text"] := h
    rw [claudeParts_of_parts]
    · rw [contentParts, texts, List.flatMap_map]
      refine congrArg (fun l => Except.ok (List.map Part.text l)) (List.flatMap_congr fun v hv => ?_)
      obtain ⟨part, rfl, -⟩ := hparts v hv
      rfl
    · rw [contentParts, List.forall_mem_map]
      intro v hv
      obtain ⟨part, rfl, htype⟩ := hparts v hv
      exact htype

theorem addItem_flat {s : State} (h : isMessage item = true → TextContent (member item "content")) :
    ∃ t, addItem resolve floats s item = .ok t ∧ flat t.messages = flat s.messages ++ shown floats item ∧
      t.system = s.system ++ (systemTexts item).map .text := by
  unfold addItem shown systemTexts counterpart
  by_cases hfunction : itemType item = "function_call"
  · have hmessage : isMessage item = false := by simp [isMessage, hfunction]
    rw [if_pos hfunction, hmessage, appendClaudeToolUse]
    exact ⟨_, rfl, by simp [flat_appendPart, toolUse, hfunction], by simp⟩
  by_cases hcustom : itemType item = "custom_tool_call"
  · have hmessage : isMessage item = false := by simp [isMessage, hcustom]
    rw [if_neg hfunction, if_pos hcustom, hmessage, appendClaudeToolUse]
    exact ⟨_, rfl, by simp [flat_appendPart, toolUse, hcustom], by simp⟩
  by_cases houtput : itemType item = "function_call_output" ∨ itemType item = "custom_tool_call_output"
  · have hmessage : isMessage item = false := by
      obtain houtput | houtput := houtput <;> simp [isMessage, houtput]
    rw [if_neg hfunction, if_neg hcustom, if_pos houtput, hmessage, appendClaudeToolResult]
    exact ⟨_, rfl, by simp [flat_appendPart, toolResult, output, hfunction, hcustom, houtput], by simp⟩
  have hmessage : isMessage item = true := by
    rw [not_or] at houtput
    simp [isMessage, hfunction, hcustom, houtput]
  rw [if_neg hfunction, if_neg hcustom, if_neg houtput, claudeParts_text (h hmessage)]
  simp only [bind, Except.bind]
  by_cases hsystem : claudeRole item = "system"
  · rw [if_pos hsystem]
    refine ⟨_, rfl, ?_, ?_⟩
    · simp [hfunction, hcustom, houtput, hsystem]
    · simp [hmessage, hsystem]
  · rw [if_neg hsystem]
    refine ⟨_, rfl, ?_, ?_⟩
    · rw [flat_append, flat_singleton]
      by_cases hnone : texts (member item "content") = []
      · simp [hmessage, hsystem, hnone]
      · simp [hfunction, hcustom, houtput, hsystem, hnone]
    · simp [hsystem]

/-- What is shown is the counterpart, or a placeholder where there is nothing. -/
theorem shown_cases :
    shown floats item = counterpart floats item ∨
      (counterpart floats item = [] ∧ shown floats item = [(claudeRole item, placeholder)]) := by
  unfold shown
  split_ifs with h
  · obtain ⟨hmessage, hsystem, hnone⟩ := h
    refine .inr ⟨?_, rfl⟩
    simp only [isMessage, decide_eq_true_eq, List.mem_cons, List.not_mem_nil, or_false, not_or] at hmessage
    simp [counterpart, hmessage, hsystem, hnone]
  · exact .inl rfl

theorem counterpart_sublist : (counterpart floats item).Sublist (shown floats item) := by
  obtain h | ⟨hnone, -⟩ := shown_cases
  · rw [h]
  · rw [hnone]
    exact List.nil_sublist _

theorem filter_shown :
    (shown floats item).filter (!isPlaceholder ·) = (counterpart floats item).filter (!isPlaceholder ·) := by
  obtain h | ⟨hnone, h⟩ := shown_cases
  · rw [h]
  · rw [h, hnone]
    rfl

theorem role_of_mem_shown {role : String} {part : Part} (h : (role, part) ∈ shown floats item) :
    (∀ id name input, part = .toolUse id name input → role = "assistant") ∧
      ∀ id content, part = .toolResult id content → role = "user" := by
  obtain hshown | ⟨-, hshown⟩ := shown_cases
  · rw [hshown, counterpart] at h
    split_ifs at h
    · obtain ⟨rfl, rfl⟩ := Prod.mk.inj (List.mem_singleton.1 h)
      exact ⟨fun _ _ _ _ => rfl, nofun⟩
    · obtain ⟨rfl, rfl⟩ := Prod.mk.inj (List.mem_singleton.1 h)
      exact ⟨fun _ _ _ _ => rfl, nofun⟩
    · obtain ⟨rfl, rfl⟩ := Prod.mk.inj (List.mem_singleton.1 h)
      exact ⟨nofun, fun _ _ _ => rfl⟩
    · cases h
    · obtain ⟨s, -, hpart⟩ := List.mem_map.1 h
      obtain ⟨-, rfl⟩ := Prod.mk.inj hpart
      exact ⟨nofun, nofun⟩
  · rw [hshown] at h
    obtain ⟨-, rfl⟩ := Prod.mk.inj (List.mem_singleton.1 h)
    exact ⟨nofun, nofun⟩

/-! ### All items -/

theorem addItems_flat {items : List Item}
    (h : ∀ item ∈ items, isMessage item = true → TextContent (member item "content")) (s : State) :
    ∃ t, items.foldlM (addItem resolve floats) s = .ok t ∧ flat t.messages = flat s.messages ++
      items.flatMap (shown floats) ∧
      t.system = s.system ++ (items.flatMap systemTexts).map .text := by
  induction items generalizing s with
  | nil => exact ⟨s, rfl, by simp, by simp⟩
  | cons item items ih =>
    obtain ⟨hitem, hitems⟩ := List.forall_mem_cons.1 h
    obtain ⟨t, ht, hflat, hsystem⟩ := @addItem_flat resolve floats item s hitem
    obtain ⟨u, hu, hflat', hsystem'⟩ := ih hitems t
    refine ⟨u, ?_, by simp [hflat', hflat], by simp [hsystem', hsystem]⟩
    rw [List.foldlM_cons, ht]
    exact hu

/-- The message in front is the user's, and only a placeholder is put there. -/
theorem ensure_cases :
    (∃ front : List (String × Part), (front = [] ∨ front = [("user", placeholder)]) ∧
      flat (ensureClaudeMessagesStartWithUser messages) = front ++ flat messages) ∧
      ∀ turn ∈ (ensureClaudeMessagesStartWithUser messages).head?, turn.role = "user" := by
  match messages with
  | [] => exact ⟨⟨[], .inl rfl, rfl⟩, nofun⟩
  | turn :: rest =>
    rw [ensureClaudeMessagesStartWithUser]
    split_ifs with hrole
    · exact ⟨⟨[], .inl rfl, rfl⟩, by simpa using hrole⟩
    · exact ⟨⟨[("user", placeholder)], .inr rfl, by simp [flat]⟩, by simp⟩

theorem responsesRequestToClaude_ok {defaultMaxTokensFor : String → Option Nat} {req : FullRequest}
    {out : ClaudeRequest}
    (hout : responsesRequestToClaude resolve floats defaultMaxTokensFor req = .ok out) :
    ∃ instructions items s, instructionsTexts floats req.instructions = .ok instructions ∧
      inputItems floats req.input = .ok items ∧
        items.foldlM (addItem resolve floats) ⟨instructions.map .text, []⟩ = .ok s ∧
      out.system = s.system ∧ out.messages = ensureClaudeMessagesStartWithUser s.messages := by
  rw [responsesRequestToClaude] at hout
  split_ifs at hout
  obtain ⟨tools, -, hout⟩ := bind_eq_ok.1 hout
  obtain ⟨choice, -, hout⟩ := bind_eq_ok.1 hout
  obtain ⟨instructions, hinstructions, hout⟩ := bind_eq_ok.1 hout
  obtain ⟨items, hitems, hout⟩ := bind_eq_ok.1 hout
  obtain ⟨s, hs, hout⟩ := bind_eq_ok.1 hout
  refine ⟨instructions, items, s, hinstructions, hitems, hs, ?_⟩
  split at hout
  · obtain rfl := Except.ok.inj hout
    exact ⟨rfl, rfl⟩
  · cases hout

def pairedItems : List Item :=
  [[("arguments", .str "\x7b\x7d"), ("call_id", .str "call_1"), ("name", .str "weather"),
    ("type", .str "function_call")],
    [("call_id", .str "call_1"), ("output", .str "sunny"), ("type", .str "function_call_output")],
    [("content", .str "Be brief."), ("role", .str "developer")],
    [("content", .arr [.obj [("text", .str "Sunny."), ("type", .str "output_text")]]), ("role", .str "assistant")]]

def pairedRequest : FullRequest where
  model := "claude"
  input := Json.encode (.arr (pairedItems.map .obj))
  instructions := ""
  toolChoice := ""
  text := none
  tools := ""
  maxOutputTokens := some 100
  conversation := ""
  previousResponseID := ""
  prompt := ""
  contextManagement := ""

end TokenEra.Request.ResponsesToClaude
