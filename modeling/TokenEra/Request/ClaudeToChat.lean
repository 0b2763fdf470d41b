import TokenEra.Lib.Loss
import TokenEra.Request.Message

/-!
# From Claude to chat

The message loop of `ClaudeMessagesRequestToOpenAIChat`. Of the blocks of one message, tool results
become messages at once, while text and tool calls are collected for the message that is added at
the end (`turn`). Text is set as its content only if there are no tool calls, and the results of a
message stand before its calls.
-/

namespace TokenEra.Request.ClaudeToChat

open Lib ClaudeMessage

/-- The content of a tool result: a string, text blocks, or none. -/
inductive Result
  | text (s : String)
  | blocks (l : List String)
  | absent
deriving DecidableEq

/-- A text block as `Marshal` writes it, with the members in the order of the struct. -/
def textBlock (s : String) : Json := .obj [("type", .str "text"), ("text", .str s)]

def blocksText (l : List String) : String := Json.encode (.arr (l.map textBlock))

/-- The content of the tool message. A result without content has no blocks, and a nil slice is
written as `null`. -/
def Result.message : Result → String
  | .text s => s
  | .blocks l => blocksText l
  | .absent => Json.encode .null

/-! ### The loop -/

/-- `toolCalls`, `mediaMessages` and `openAIMessages` while the blocks of a message are read. -/
structure Turn where
  toolCalls : List ToolCall
  mediaMessages : List String
  out : List Message

def toolMessage (id : String) (content : Result) : Message := ⟨"tool", .text content.message, none, id⟩

def toolCall (use : String × String × Json) : ToolCall := ⟨use.1, use.2.1, Json.encode use.2.2⟩

def Turn.add (t : Turn) : Block Result → Turn
  | .text s => { t with mediaMessages := t.mediaMessages ++ [s] }
  | .toolUse id name input => { t with toolCalls := t.toolCalls ++ [toolCall (id, name, input)] }
  | .toolResult id content => { t with out := t.out ++ [toolMessage id content] }

def openAIMessage (role : String) (calls : List ToolCall) (media : List String) : Message where
  role := role
  content := if media ≠ [] ∧ calls = [] then .media media else .absent
  toolCalls := if calls = [] then none else some calls
  toolCallId := ""

/-- A string counts as content even if it is empty. -/
def addMessage (out : List Message) (m : ClaudeMessage Result) : List Message :=
  match m.content with
  | .text s => out ++ [⟨m.role, .text s, none, ""⟩]
  | .blocks l =>
    let t := l.foldl Turn.add ⟨[], [], out⟩
    let message := openAIMessage m.role t.toolCalls t.mediaMessages
    if message.content ≠ .absent ∨ message.toolCalls ≠ none then t.out ++ [message] else t.out

/-- `System` of the request: a string, or blocks whose text may be missing. -/
inductive System
  | absent
  | text (s : String)
  | blocks (l : List (Option String))

/-- The system message. `openRouterClaude`: an `anthropic/claude` model in the OpenRouter dialect
keeps the blocks apart. -/
def systemMessages (openRouterClaude : Bool) : System → List Message
  | .absent => []
  | .text s => if s ≠ "" then [⟨"system", .text s, none, ""⟩] else []
  | .blocks [] => []
  | .blocks l =>
    [⟨"system", if openRouterClaude then .media (l.map (·.getD ""))
    else .text (String.join (l.filterMap id)), none, ""⟩]

def chatMessages (openRouterClaude : Bool) (system : System) (messages : List (ClaudeMessage Result)) : List Message :=
  messages.foldl addMessage (systemMessages openRouterClaude system)

/-! ### One message -/

def texts (m : ClaudeMessage Result) : List String :=
  m.content.toBlocks.flatMap fun
    | .text s => [s]
    | _ => []

def uses (m : ClaudeMessage Result) : List (String × String × Json) := m.content.toBlocks.flatMap (seeUse m.role)

def results (m : ClaudeMessage Result) : List (String × Result) := m.content.toBlocks.flatMap (seeResult m.role)

def answer (m : ClaudeMessage Result) : List Message :=
  match m.content with
  | .text s => [⟨m.role, .text s, none, ""⟩]
  | .blocks _ => if uses m = [] ∧ texts m = [] then [] else [openAIMessage m.role ((uses m).map toolCall) (texts m)]

def turn (m : ClaudeMessage Result) : List Message := ((results m).map fun r => toolMessage r.1 r.2) ++ answer m

theorem foldl_add (role : String) (l : List (Block Result)) (t : Turn) :
    l.foldl Turn.add t =
      ⟨t.toolCalls ++ (uses ⟨role, .blocks l⟩).map toolCall, t.mediaMessages ++ texts ⟨role, .blocks l⟩,
        t.out ++ (results ⟨role, .blocks l⟩).map fun r => toolMessage r.1 r.2⟩ := by
  induction l generalizing t with
  | nil => simp [uses, texts, results, ClaudeContent.toBlocks]
  | cons b l ih =>
    rw [List.foldl_cons, ih]
    cases b <;> simp [Turn.add, uses, texts, results, ClaudeContent.toBlocks, seeUse, seeResult]

theorem addMessage_eq (out : List Message) (m : ClaudeMessage Result) : addMessage out m = out ++ turn m := by
  obtain ⟨role, content⟩ := m
  cases content with
  | text s => rfl
  | blocks l =>
    simp only [addMessage, foldl_add role, List.nil_append, turn, answer, openAIMessage, List.map_eq_nil_iff]
    by_cases huses : uses ⟨role, .blocks l⟩ = [] <;> by_cases htexts : texts ⟨role, .blocks l⟩ =
      [] <;> simp [huses, htexts]

theorem foldl_addMessage (messages : List (ClaudeMessage Result)) (out : List Message) :
    messages.foldl addMessage out = out ++ messages.flatMap turn := by
  induction messages generalizing out with
  | nil => simp
  | cons m messages ih => rw [List.foldl_cons, ih, addMessage_eq, List.append_assoc, List.flatMap_cons]

variable {m : ClaudeMessage Result} {o : Message} {role : String}

theorem role_answer (h : o ∈ answer m) : o.role = m.role := by
  unfold answer at h
  split at h
  · rw [List.mem_singleton.1 h]
  · split_ifs at h with hnone
    · cases h
    · rw [List.mem_singleton.1 h, openAIMessage]

theorem calls_answer (m : ClaudeMessage Result) : (answer m).flatMap Message.calls = (uses m).map toolCall := by
  obtain ⟨role, content⟩ := m
  cases content with
  | text s => rfl
  | blocks l =>
    simp only [answer]
    by_cases huses : uses ⟨role, .blocks l⟩ = [] <;> by_cases htexts : texts ⟨role, .blocks l⟩ = [] <;>
      simp [huses, htexts, openAIMessage, Message.calls]

theorem texts_answer :
    ((answer m).flatMap fun o => o.content.texts) = if uses m = [] then texts m else [] := by
  obtain ⟨role, content⟩ := m
  cases content with
  | text s => rfl
  | blocks l =>
    simp only [answer]
    by_cases huses : uses ⟨role, .blocks l⟩ = [] <;> by_cases htexts : texts ⟨role, .blocks l⟩ = [] <;>
      simp [huses, htexts, openAIMessage, Content.texts]

theorem role_toolMessages (h : o ∈ (results m).map fun r => toolMessage r.1 r.2) :
    o.role = "tool" := by
  obtain ⟨r, -, rfl⟩ := List.mem_map.1 h
  rfl

theorem role_systemMessages {openRouterClaude : Bool} {system : System}
    (h : o ∈ systemMessages openRouterClaude system) : o.role = "system" := by
  unfold systemMessages at h
  split at h
  · cases h
  · split_ifs at h with hs
    · rw [List.mem_singleton.1 h]
    · cases h
  · cases h
  · rw [List.mem_singleton.1 h]

/-! ### The conversation -/

/-- The content as chat has it: a string as it is, blocks as their JSON text, none as the empty
string. -/
def Result.expected : Result → String
  | .text s => s
  | .blocks l => blocksText l
  | .absent => ""

def CallIs (floats : Json.Floats) (use : String × String × Json) (call : ToolCall) : Prop :=
  call.id = use.1 ∧ call.name = use.2.1 ∧ ∀ strict, Json.decode floats strict call.arguments = some use.2.2

def Shows (s : String) (o : Message) : Prop := ∃ t ∈ o.content.texts, s.toList <:+: t.toList

def Answers (a b : Message) : Prop :=
  a.role = "tool" ∧ b.role = "assistant" ∧ a.toolCallId ∈ b.calls.map ToolCall.id

/-- The chat messages hold the conversation: the text, the calls and the results, with no result
before its call. -/
structure Kept (floats : Json.Floats) (messages : List (ClaudeMessage Result)) (out : List Message) : Prop where
  text : ∀ m ∈ messages, ∀ s ∈ texts m, s ≠ "" → ∃ o ∈ out, o.role = m.role ∧ Shows s o
  calls : List.Forall₂ (CallIs floats) (toolUses messages)
    ((out.filter fun o => o.role = "assistant").flatMap Message.calls)
  results : ((out.filter fun o => o.role = "tool").map fun o => (o.toolCallId, o.content)) =
    (toolResults messages).map fun r => (r.1, .text r.2.expected)
  order : out.Pairwise fun a b => ¬Answers a b

/-- Nothing is lost on the way: text beside a tool use is also said without one, only the assistant
uses tools, results have content, and a result comes in a later message than the use of its id. -/
structure Convertible (messages : List (ClaudeMessage Result)) : Prop where
  text : ∀ m ∈ messages, uses m ≠ [] → ∀ s ∈ texts m, s ≠ "" →
    ∃ m' ∈ messages, m'.role = m.role ∧ uses m' = [] ∧ ∃ t ∈ texts m', s.toList <:+: t.toList
  calls : ∀ m ∈ messages, m.role ≠ "assistant" → uses m = []
  contents : ∀ m ∈ messages, ∀ r ∈ results m, r.2 ≠ .absent
  apart : ∀ m ∈ messages, ∀ r ∈ results m, r.1 ∉ (uses m).map Prod.fst
  order : messages.Pairwise fun a b => ∀ r ∈ results a, r.1 ∉ (uses b).map Prod.fst

variable {openRouterClaude : Bool} {system : System} {messages : List (ClaudeMessage Result)}

theorem mem_chatMessages :
    o ∈ chatMessages openRouterClaude system messages ↔
      o ∈ systemMessages openRouterClaude system ∨
        ∃ m ∈ messages, (∃ r ∈ results m, o = toolMessage r.1 r.2) ∨ o ∈ answer m := by
  simp [chatMessages, foldl_addMessage, turn, eq_comm]

theorem shows_iff (hrole : role = "user" ∨ role = "assistant") (s : String) :
    (∃ o ∈ chatMessages openRouterClaude system messages, o.role = role ∧ Shows s o) ↔
      ∃ m ∈ messages, m.role = role ∧ uses m = [] ∧ ∃ t ∈ texts m, s.toList <:+: t.toList := by
  have hmem (m : ClaudeMessage Result) (t : String) :
      (∃ o ∈ answer m, t ∈ o.content.texts) ↔ uses m = [] ∧ t ∈ texts m := by
    rw [← List.mem_flatMap, texts_answer]
    by_cases huses : uses m = [] <;> simp [huses]
  constructor
  · rintro ⟨o, ho, rfl, t, ht, hs⟩
    obtain hsystem | ⟨m, hm, ⟨r, -, rfl⟩ | hanswer⟩ := mem_chatMessages.1 ho
    · rw [role_systemMessages hsystem] at hrole
      simp at hrole
    · simp [toolMessage] at hrole
    · obtain ⟨huses, ht⟩ := (hmem m t).1 ⟨o, hanswer, ht⟩
      exact ⟨m, hm, (role_answer hanswer).symm, huses, t, ht, hs⟩
  · rintro ⟨m, hm, rfl, huses, t, ht, hs⟩
    obtain ⟨o, ho, ht⟩ := (hmem m t).2 ⟨huses, ht⟩
    exact ⟨o, mem_chatMessages.2 (.inr ⟨m, hm, .inr ho⟩), role_answer ho, t, ht, hs⟩

theorem filter_chatMessages (hrole : role ≠ "system") :
    (chatMessages openRouterClaude system messages).filter (fun o => o.role = role) =
      messages.flatMap fun m => (turn m).filter fun o => o.role = role := by
  rw [chatMessages, foldl_addMessage, List.filter_append, List.filter_flatMap,
    List.filter_eq_nil_iff.2, List.nil_append]
  intro o ho
  simpa [role_systemMessages ho] using hrole.symm

theorem filter_toolMessages (hrole : role ≠ "tool") :
    ((results m).map fun r => toolMessage r.1 r.2).filter (fun o => o.role = role) = [] :=
  List.filter_eq_nil_iff.2 fun o ho => by simpa [role_toolMessages ho] using hrole.symm

theorem filter_answer :
    (answer m).filter (fun o => o.role = role) = if m.role = role then answer m else [] := by
  split_ifs with hrole
  · exact List.filter_eq_self.2 fun o ho => by simp [role_answer ho, hrole]
  · exact List.filter_eq_nil_iff.2 fun o ho => by simp [role_answer ho, hrole]

theorem calls_chatMessages :
    ((chatMessages openRouterClaude system messages).filter fun o => o.role = "assistant").flatMap Message.calls =
      (messages.filter fun m => m.role = "assistant").flatMap fun m => (uses m).map toolCall := by
  rw [filter_chatMessages (by decide), List.flatMap_assoc]
  induction messages with
  | nil => rfl
  | cons m messages ih =>
    rw [List.flatMap_cons, ih, turn, List.filter_append, filter_toolMessages (by decide),
      List.nil_append, filter_answer,
      List.filter_cons]
    by_cases hrole : m.role = "assistant" <;> simp [hrole, calls_answer]

theorem results_chatMessages (hroles : ∀ m ∈ messages, m.role ≠ "tool") :
    (((chatMessages openRouterClaude system messages).filter fun o => o.role = "tool").map fun o =>
      (o.toolCallId, o.content)) =
      (toolResults messages).map fun r => (r.1, .text r.2.message) := by
  have hturn : ∀ m ∈ messages, (turn m).filter (fun o => o.role = "tool") = (results m).map fun r =>
      toolMessage r.1 r.2 := by
    intro m hm
    rw [turn, List.filter_append, filter_answer, if_neg (hroles m hm), List.append_nil, List.filter_eq_self]
    exact fun o ho => by simp [role_toolMessages ho]
  have hresults : toolResults messages = messages.flatMap results := rfl
  rw [filter_chatMessages (by decide), List.flatMap_congr hturn, hresults, List.map_flatMap, List.map_flatMap]
  simp [toolMessage, Function.comp_def]

theorem message_eq_expected (r : Result) : r.message = r.expected ↔ r ≠ .absent := by
  cases r with
  | text s => simp [Result.message, Result.expected]
  | blocks l => simp [Result.message, Result.expected]
  | absent => exact iff_of_false (by decide) (by simp)

theorem calls_iff {floats : Json.Floats} (hinputs : ∀ use ∈ toolUses messages, Json.Decoded floats use.2.2) :
    List.Forall₂ (CallIs floats) (toolUses messages)
        (((chatMessages openRouterClaude system messages).filter fun o => o.role = "assistant").flatMap Message.calls) ↔
      ∀ m ∈ messages, m.role ≠ "assistant" → uses m = [] := by
  have huses : toolUses messages = messages.flatMap uses := rfl
  rw [calls_chatMessages, ← List.map_flatMap]
  constructor
  · intro h
    refine (length_flatMap_filter _ uses messages).1 ?_
    rw [← huses, h.length_eq, List.length_map]
  · intro h
    have hfilter : (messages.filter fun m => m.role = "assistant").flatMap uses = toolUses messages :=
      (flatMap_filter_eq_iff _ uses messages).2 h
    rw [hfilter, List.forall₂_map_right_iff, List.forall₂_same]
    exact fun use huse => ⟨rfl, rfl, fun strict => Json.decode_encode (hinputs use huse) strict⟩

theorem mem_ids {id : String} :
    id ∈ (uses m).map Prod.fst ↔ ∃ b ∈ answer m, id ∈ b.calls.map ToolCall.id := by
  have hids : (uses m).map Prod.fst = ((answer m).flatMap Message.calls).map ToolCall.id := by
    rw [calls_answer, List.map_map]
    rfl
  rw [hids, List.map_flatMap, List.mem_flatMap]

theorem answers_iff {m' : ClaudeMessage Result} (hcalls : m'.role ≠ "assistant" → uses m' = []) :
    (∀ a ∈ (results m).map fun r => toolMessage r.1 r.2, ∀ b ∈ answer m', ¬Answers a b) ↔
      ∀ r ∈ results m, r.1 ∉ (uses m').map Prod.fst := by
  constructor
  · intro h r hr hid
    have hrole : m'.role = "assistant" := by
      by_contra hne
      simp [hcalls hne] at hid
    obtain ⟨b, hb, hid⟩ := mem_ids.1 hid
    exact h (toolMessage r.1 r.2) (List.mem_map.2 ⟨r, hr, rfl⟩) b hb ⟨rfl, (role_answer hb).trans hrole, hid⟩
  · rintro h a ha b hb ⟨-, -, hid⟩
    obtain ⟨r, hr, rfl⟩ := List.mem_map.1 ha
    exact h r hr (mem_ids.2 ⟨b, hb, hid⟩)

theorem pairwise_turn (hm : m.role ≠ "tool") (hcalls : m.role ≠ "assistant" → uses m = []) :
    ((turn m).Pairwise fun a b => ¬Answers a b) ↔ ∀ r ∈ results m, r.1 ∉ (uses m).map Prod.fst := by
  have hresults : ((results m).map fun r => toolMessage r.1 r.2).Pairwise fun a b => ¬Answers a b :=
    List.pairwise_iff_forall_sublist.2 fun h hanswers => by
      have hb := role_toolMessages (h.subset (List.mem_cons_of_mem _ List.mem_cons_self))
      exact absurd (hb.symm.trans hanswers.2.1) (by decide)
  have hanswer : (answer m).Pairwise fun a b => ¬Answers a b :=
    List.pairwise_iff_forall_sublist.2 fun h hanswers =>
      hm ((role_answer (h.subset List.mem_cons_self)).symm.trans hanswers.1)
  rw [turn, List.pairwise_append, ← answers_iff hcalls]
  exact ⟨fun h => h.2.2, fun h => ⟨hresults, hanswer, h⟩⟩

theorem forall_turn {m' : ClaudeMessage Result} (hm : m.role ≠ "tool") (hcalls : m'.role ≠ "assistant" → uses m' = []) :
    (∀ a ∈ turn m, ∀ b ∈ turn m', ¬Answers a b) ↔ ∀ r ∈ results m, r.1 ∉ (uses m').map Prod.fst := by
  rw [← answers_iff hcalls]
  constructor
  · exact fun h a ha b hb => h a (List.mem_append_left _ ha) b (List.mem_append_right _ hb)
  · intro h a ha b hb hanswers
    obtain ha | ha := List.mem_append.1 ha
    · obtain hb | hb := List.mem_append.1 hb
      · exact absurd ((role_toolMessages hb).symm.trans hanswers.2.1) (by decide)
      · exact h a ha b hb hanswers
    · exact hm ((role_answer ha).symm.trans hanswers.1)

theorem order_iff (hroles : ∀ m ∈ messages, m.role ≠ "tool")
    (hcalls : ∀ m ∈ messages, m.role ≠ "assistant" → uses m = []) :
    ((chatMessages openRouterClaude system messages).Pairwise fun a b => ¬Answers a b) ↔
      (∀ m ∈ messages, ∀ r ∈ results m, r.1 ∉ (uses m).map Prod.fst) ∧
        messages.Pairwise fun a b => ∀ r ∈ results a, r.1 ∉ (uses b).map Prod.fst := by
  have hsystem : ∀ a ∈ systemMessages openRouterClaude system, ∀ b, ¬Answers a b := by
    intro a ha b h
    exact absurd ((role_systemMessages ha).symm.trans h.1) (by decide)
  have hfirst : (systemMessages openRouterClaude system).Pairwise fun a b => ¬Answers a b :=
    List.pairwise_iff_forall_sublist.2 fun h => hsystem _ (h.subset List.mem_cons_self) _
  rw [chatMessages, foldl_addMessage, List.pairwise_append, List.pairwise_flatMap,
    forall₂_congr fun m hm => pairwise_turn (hroles m hm) (hcalls m hm),
    List.Pairwise.iff_of_mem fun ha hb => forall_turn (hroles _ ha) (hcalls _ hb)]
  exact ⟨fun h => h.2.1, fun h => ⟨hfirst, h, fun a ha b _ => hsystem a ha b⟩⟩

/-- The conversion keeps the conversation exactly if nothing is lost on the way. -/
theorem kept_iff (floats : Json.Floats) (openRouterClaude : Bool) (system : System)
    (messages : List (ClaudeMessage Result))
    (hroles : ∀ m ∈ messages, m.role = "user" ∨ m.role = "assistant")
    (hinputs : ∀ use ∈ toolUses messages, Json.Decoded floats use.2.2) :
    Kept floats messages (chatMessages openRouterClaude system messages) ↔ Convertible messages := by
  have htool : ∀ m ∈ messages, m.role ≠ "tool" := by
    intro m hm htool
    simpa [htool] using hroles m hm
  have hresults : (((chatMessages openRouterClaude system messages).filter fun o => o.role = "tool").map
      fun o => (o.toolCallId, o.content)) = ((toolResults messages).map fun r => (r.1, .text r.2.expected)) ↔
      ∀ m ∈ messages, ∀ r ∈ results m, r.2 ≠ .absent := by
    have hresults : toolResults messages = messages.flatMap results := rfl
    rw [results_chatMessages htool, List.map_inj_left, hresults]
    simp only [Prod.mk.injEq, true_and, Content.text.injEq, message_eq_expected, List.mem_flatMap]
    exact ⟨fun h m hm r hr => h r ⟨m, hm, hr⟩, fun h r ⟨m, hm, hr⟩ => h m hm r hr⟩
  constructor
  · intro h
    have hcalls := (calls_iff hinputs).1 h.calls
    have horder := (order_iff htool hcalls).1 h.order
    exact ⟨fun m hm _ s hs hne => (shows_iff (hroles m hm) s).1 (h.text m hm s hs hne), hcalls, hresults.1 h.results,
      horder.1, horder.2⟩
  · intro h
    refine ⟨fun m hm s hs hne => (shows_iff (hroles m hm) s).2 ?_, (calls_iff hinputs).2 h.calls, hresults.2 h.contents,
      (order_iff htool h.calls).2 ⟨h.apart, h.order⟩⟩
    by_cases huses : uses m = []
    · exact ⟨m, hm, rfl, huses, s, hs, List.infix_rfl⟩
    · exact h.text m hm huses s hs hne

def weatherClaude : List (ClaudeMessage Result) :=
  [⟨"user", .text "Weather?"⟩, ⟨"assistant", .blocks [.toolUse "toolu_1" "weather" (.obj [("city", .str "Rome")])]⟩,
    ⟨"user", .blocks [.toolResult "toolu_1" (.blocks ["sunny"]), .text "Be brief."]⟩,
      ⟨"assistant", .text "It is sunny."⟩]

theorem decoded_weatherClaude : ∀ use ∈ toolUses weatherClaude, Json.Decoded .literal use.2.2 := by
  have hcity : Json.Decoded .literal (.obj [("city", .str "Rome")]) :=
    .of_valid (by simp [Json.Valid, Json.ValidMembers]) (by simp [Json.depth, Json.depthMembers, Json.maxNestingDepth])
  simpa [weatherClaude, toolUses, observe, ClaudeContent.toBlocks, seeUse] using hcity

theorem kept_weatherClaude : Kept .literal weatherClaude (chatMessages false (.text "Help.") weatherClaude) := by
  refine (kept_iff .literal false (.text "Help.") weatherClaude (by simp [weatherClaude]) decoded_weatherClaude).2
    ⟨?_, ?_, ?_, ?_, ?_⟩
  all_goals simp [weatherClaude, uses, texts, results, ClaudeContent.toBlocks, seeUse, seeResult]

/-- An assistant message with text and a tool use: the text is lost. -/
def textAndUse : List (ClaudeMessage Result) :=
  [⟨"user", .text "Weather?"⟩, ⟨"assistant", .blocks [.text "Let me look.", .toolUse "toolu_1" "weather" (.obj [])]⟩]

theorem textAndUse_lost : (∀ o ∈ chatMessages false .absent textAndUse, o.role = "assistant" → o.content = .absent) ∧
    ¬Kept .literal textAndUse (chatMessages false .absent textAndUse) := by
  have hnone : ∀ o ∈ chatMessages false .absent textAndUse, o.role = "assistant" →
      o.content = .absent := by decide +kernel
  refine ⟨hnone, fun h => ?_⟩
  have hsaid : "Let me look." ∈ texts
      ⟨"assistant", .blocks [.text "Let me look.", .toolUse "toolu_1" "weather" (.obj [])]⟩ := by
    simp [texts, ClaudeContent.toBlocks]
  obtain ⟨o, ho, hrole, t, ht, -⟩ := h.text _ (List.mem_cons_of_mem _ List.mem_cons_self) _ hsaid (by decide)
  rw [hnone o ho hrole] at ht
  cases ht

end TokenEra.Request.ClaudeToChat
