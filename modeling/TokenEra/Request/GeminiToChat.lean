import Mathlib.Tactic
import TokenEra.Lib.Loss
import TokenEra.Lib.Text
import TokenEra.Request.Message

/-!
# From Gemini to chat

The contents loop of `GeminiGenerateContentRequestToOpenAIChat`. Gemini has no call ids: calls get
the ids `call_1`, `call_2` and so on, anew in each content, and a response gets the id of the last
call before it in its own content, `call_0` if there is none. So ids are different only if one
content has all the calls, and a response to an earlier content never finds its call (`linked_iff`).
-/

namespace TokenEra.Request.GeminiToChat

open Lib

inductive Part
  | text (s : String)
  | functionCall (name : String) (args : Json)
  | functionResponse (name : String) (response : Json)

structure GeminiContent where
  role : String
  parts : List Part

/-! ### The loop -/

def convertGeminiRoleToOpenAI (role : String) : String :=
  if role = "user" then "user" else if role = "model" then "assistant"
  else if role = "function" then "function" else "user"

def callId (n : Nat) : String := "call_" ++ toString n

/-- `toolCalls`, `mediaContents` and `messages` while the parts of a content are read. -/
structure Turn where
  toolCalls : List ToolCall
  mediaContents : List String
  messages : List Message

def Turn.add (t : Turn) : Part → Turn
  | .text s => if s ≠ "" then { t with mediaContents := t.mediaContents ++ [s] } else t
  | .functionCall name args =>
    { t with toolCalls := t.toolCalls ++ [⟨callId (t.toolCalls.length + 1), name, Json.encode args⟩] }
  | .functionResponse _ response =>
    { t with messages := t.messages ++ [⟨"tool", .text (Json.encode response), none, callId t.toolCalls.length⟩] }

/-- The content of the message: one text is a string, several are typed parts, and calls leave no
room for text. -/
def contentOf (calls : List ToolCall) (media : List String) : Content :=
  if calls ≠ [] then .absent
  else
    match media with
    | [] => .absent
    | [s] => .text s
    | l => .media l

def addContent (messages : List Message) (c : GeminiContent) : List Message :=
  let t := c.parts.foldl Turn.add ⟨[], [], messages⟩
  let message : Message := ⟨convertGeminiRoleToOpenAI c.role, contentOf t.toolCalls t.mediaContents,
    if t.toolCalls = [] then none else some t.toolCalls, ""⟩
  if message.content ≠ .absent ∨ message.toolCalls ≠ none then t.messages ++ [message] else t.messages

def textOf : Part → List String
  | .text s => if s ≠ "" then [s] else []
  | _ => []

/-- `extractTextFromGeminiParts`. -/
def extractText (parts : List Part) : String := String.intercalate "\n" (parts.flatMap textOf)

def chatMessages (systemInstructions : Option (List Part)) (contents : List GeminiContent) : List Message :=
  (systemInstructions.map fun parts => ⟨"system", .text (extractText parts), none, ""⟩).toList ++
    contents.foldl addContent []

/-! ### One content -/

def texts (c : GeminiContent) : List String := c.parts.flatMap textOf

def callOf : Part → List (String × Json)
  | .functionCall name args => [(name, args)]
  | _ => []

def calls (c : GeminiContent) : List (String × Json) := c.parts.flatMap callOf

def responseOf : Part → List (String × Json)
  | .functionResponse name response => [(name, response)]
  | _ => []

def responses (c : GeminiContent) : List (String × Json) := c.parts.flatMap responseOf

def numbered (n : Nat) : List (String × Json) → List ToolCall
  | [] => []
  | (name, args) :: l => ⟨callId (n + 1), name, Json.encode args⟩ :: numbered (n + 1) l

def toolMessages (n : Nat) : List Part → List Message
  | [] => []
  | .text _ :: l => toolMessages n l
  | .functionCall _ _ :: l => toolMessages (n + 1) l
  | .functionResponse _ response :: l => ⟨"tool", .text (Json.encode response), none, callId n⟩ :: toolMessages n l

def answer (c : GeminiContent) : List Message :=
  if calls c = [] ∧ texts c = [] then []
  else [⟨convertGeminiRoleToOpenAI c.role, contentOf (numbered 0 (calls c)) (texts c),
    if calls c = [] then none else some (numbered 0 (calls c)), ""⟩]

def turn (c : GeminiContent) : List Message := toolMessages 0 c.parts ++ answer c

variable {l : List (String × Json)}

theorem length_numbered (n : Nat) : (numbered n l).length = l.length := by
  induction l generalizing n with
  | nil => rfl
  | cons call l ih => simp [numbered, ih]

variable {n : Nat} {o : Message} {parts : List Part} {pending : List (Nat × String)}

theorem numbered_eq_nil {l : List (String × Json)} : numbered n l = [] ↔ l = [] := by
  rw [← List.length_eq_zero_iff, length_numbered, List.length_eq_zero_iff]

theorem foldl_add (t : Turn) :
    parts.foldl Turn.add t =
      ⟨t.toolCalls ++ numbered t.toolCalls.length (parts.flatMap callOf), t.mediaContents ++ parts.flatMap textOf,
        t.messages ++ toolMessages t.toolCalls.length parts⟩ := by
  induction parts generalizing t with
  | nil => simp [numbered, toolMessages]
  | cons part parts ih =>
    rw [List.foldl_cons, ih]
    cases part with
    | text s => by_cases hs : s = "" <;> simp [Turn.add, toolMessages, callOf, textOf, hs]
    | functionCall name args => simp [Turn.add, toolMessages, callOf, textOf, numbered]
    | functionResponse name response => simp [Turn.add, toolMessages, callOf, textOf]

theorem contentOf_nil_eq_absent {media : List String} : contentOf [] media = .absent ↔ media = [] := by
  match media with
  | [] => simp [contentOf]
  | [s] => simp [contentOf]
  | s :: s' :: l => simp [contentOf]

theorem texts_contentOf (calls : List ToolCall) (media : List String) :
    (contentOf calls media).texts = if calls = [] then media else [] := by
  unfold contentOf
  by_cases hcalls : calls = []
  · match media with
    | [] => simp [hcalls, Content.texts]
    | [s] => simp [hcalls, Content.texts]
    | s :: s' :: l => simp [hcalls, Content.texts]
  · simp [hcalls, Content.texts]

variable {messages : List Message} {c : GeminiContent}

theorem addContent_eq : addContent messages c = messages ++ turn c := by
  simp only [addContent, foldl_add, List.nil_append, List.length_nil, numbered_eq_nil, turn, answer, calls, texts]
  by_cases hcalls : c.parts.flatMap callOf = []
  · by_cases htexts : c.parts.flatMap textOf = [] <;> simp [hcalls, htexts, numbered, contentOf_nil_eq_absent]
  · simp [hcalls]

theorem foldl_addContent (contents : List GeminiContent) :
    contents.foldl addContent messages = messages ++ contents.flatMap turn := by
  induction contents generalizing messages with
  | nil => simp
  | cons c contents ih => rw [List.foldl_cons, ih, addContent_eq, List.append_assoc, List.flatMap_cons]

theorem role_toolMessages (h : o ∈ toolMessages n parts) : o.role = "tool" := by
  induction parts generalizing n with
  | nil => cases h
  | cons part parts ih =>
    cases part with
    | text s => exact ih h
    | functionCall name args => exact ih h
    | functionResponse name response =>
      obtain rfl | h := List.mem_cons.1 h
      · rfl
      · exact ih h

theorem convertGeminiRoleToOpenAI_ne (role : String) :
    convertGeminiRoleToOpenAI role ≠ "tool" ∧ convertGeminiRoleToOpenAI role ≠ "system" := by
  unfold convertGeminiRoleToOpenAI
  split_ifs <;> decide

theorem role_answer {c : GeminiContent} (h : o ∈ answer c) : o.role = convertGeminiRoleToOpenAI c.role := by
  unfold answer at h
  split_ifs at h
  · cases h
  · rw [List.mem_singleton.1 h]
  · rw [List.mem_singleton.1 h]

theorem calls_toolMessages (parts : List Part) (n : Nat) : (toolMessages n parts).flatMap Message.calls = [] := by
  induction parts generalizing n with
  | nil => rfl
  | cons part parts ih =>
    cases part with
    | text s => exact ih n
    | functionCall name args => exact ih (n + 1)
    | functionResponse name response =>
      rw [toolMessages, List.flatMap_cons, ih]
      rfl

theorem calls_answer : (answer c).flatMap Message.calls = numbered 0 (calls c) := by
  unfold answer
  by_cases hcalls : calls c = []
  · by_cases htexts : texts c = [] <;> simp [hcalls, htexts, numbered, Message.calls]
  · simp [hcalls, Message.calls]

theorem texts_answer :
    ((answer c).flatMap fun o => o.content.texts) = if calls c = [] then texts c else [] := by
  unfold answer
  by_cases hcalls : calls c = []
  · by_cases htexts : texts c = [] <;> simp [hcalls, htexts, numbered, texts_contentOf]
  · simp [hcalls, texts_contentOf, numbered_eq_nil]

/-! ### Which call a response answers -/

/-- The unanswered calls of earlier contents, by number and name, after the responses of some parts;
and the answered ones. -/
def answerParts : List (Nat × String) → List Part → Option (List Nat × List (Nat × String))
  | pending, [] => some ([], pending)
  | pending, .functionResponse name _ :: l =>
    match pending.find? fun call => call.2 = name with
    | none => none
    | some call => (answerParts (pending.erase call) l).map fun r => (call.1 :: r.1, r.2)
  | pending, _ :: l => answerParts pending l

/-- The numbers of the calls that the responses answer, in order: each the earliest call of its name
in an earlier content that is not answered yet. There is none if a response has no such call. -/
def answered (pending : List (Nat × String)) (n : Nat) : List GeminiContent → Option (List Nat)
  | [] => some []
  | c :: contents =>
    match answerParts pending c.parts with
    | none => none
    | some (l, pending) =>
      (answered (pending ++ ((calls c).zipIdx n).map fun x => (x.2, x.1.1)) (n + (calls c).length)
        contents).map (l ++ ·)

def callIds (out : List Message) : List String := (out.flatMap Message.calls).map ToolCall.id

def spokenTexts (out : List Message) : List (String × String) :=
  (out.filter fun o => o.role ≠ "tool" ∧ o.role ≠ "system").flatMap fun o => o.content.texts.map (o.role, ·)

/-- The chat messages hold the conversation; `links` are the numbers of the calls that are answered.
-/
structure Linked (contents : List GeminiContent) (links : List Nat) (out : List Message) : Prop where
  calls : ((out.flatMap Message.calls).map fun call => (call.name, call.arguments)) =
    (contents.flatMap GeminiToChat.calls).map fun call => (call.1, Json.encode call.2)
  distinct : (callIds out).Nodup
  responses : ((out.filter fun o => o.role = "tool").map Message.content) =
    (contents.flatMap GeminiToChat.responses).map fun r => .text (Json.encode r.2)
  links : ((out.filter fun o => o.role = "tool").map fun o => some o.toolCallId) = links.map fun i => (callIds out)[i]?
  text : spokenTexts out = contents.flatMap fun c => (texts c).map (convertGeminiRoleToOpenAI c.role, ·)

/-- Nothing is lost on the way: at most one content has calls, it has no text, and there are no
responses. -/
structure Convertible (contents : List GeminiContent) : Prop where
  one : contents.Pairwise fun a b => calls a = [] ∨ calls b = []
  responses : ∀ c ∈ contents, GeminiToChat.responses c = []
  text : ∀ c ∈ contents, calls c ≠ [] → texts c = []

/-! ### Ids -/

theorem callId_injective : Function.Injective callId := fun _ _ h =>
  toString_nat_injective ((String.append_right_inj _).1 h)

theorem ids_numbered :
    (numbered n l).map ToolCall.id = (List.range' (n + 1) l.length).map callId := by
  induction l generalizing n with
  | nil => rfl
  | cons call l ih => simp [numbered, ih, List.range'_succ]

theorem calls_numbered :
    ((numbered n l).map fun call => (call.name, call.arguments)) = l.map fun call => (call.1, Json.encode call.2) := by
  induction l generalizing n with
  | nil => rfl
  | cons call l ih => simp [numbered, ih]

variable {systemInstructions : Option (List Part)} {contents : List GeminiContent}

theorem calls_chatMessages :
    (chatMessages systemInstructions contents).flatMap Message.calls = contents.flatMap fun c =>
      numbered 0 (calls c) := by
  have hsystem : (systemInstructions.map fun parts =>
    (⟨"system", .text (extractText parts), none, ""⟩ : Message)).toList.flatMap
      Message.calls = [] := by
    cases systemInstructions <;> rfl
  rw [chatMessages, foldl_addContent, List.nil_append, List.flatMap_append, hsystem,
    List.nil_append, List.flatMap_assoc]
  refine List.flatMap_congr fun c _ => ?_
  rw [turn, List.flatMap_append, calls_toolMessages, calls_answer, List.nil_append]

theorem callIds_chatMessages :
    callIds (chatMessages systemInstructions contents) =
      contents.flatMap fun c => (List.range' 1 (calls c).length).map callId := by
  rw [callIds, calls_chatMessages, List.map_flatMap]
  simp only [ids_numbered, Nat.zero_add]

theorem callId_zero_not_mem : callId 0 ∉ callIds (chatMessages systemInstructions contents) := by
  rw [callIds_chatMessages]
  intro hmem
  obtain ⟨c, -, hmem⟩ := List.mem_flatMap.1 hmem
  obtain ⟨n, hn, heq⟩ := List.mem_map.1 hmem
  have hpos := (List.mem_range'_1.1 hn).1
  rw [callId_injective heq] at hpos
  omega

/-- The ids of two contents with calls are not different: both have the first one. -/
theorem disjoint_ids (n' : Nat) :
    List.Disjoint ((List.range' 1 n).map callId) ((List.range' 1 n').map callId) ↔ n = 0 ∨ n' = 0 := by
  constructor
  · intro h
    by_contra hne
    rw [not_or] at hne
    have hfirst {n : Nat} (hn : n ≠ 0) : callId 1 ∈ (List.range' 1 n).map callId :=
      List.mem_map_of_mem (List.mem_range'_1.2 ⟨le_rfl, by omega⟩)
    exact h (hfirst hne.1) (hfirst hne.2)
  · rintro (rfl | rfl) <;> simp

theorem nodup_callIds :
    (callIds (chatMessages systemInstructions contents)).Nodup ↔ contents.Pairwise fun a b =>
      calls a = [] ∨ calls b = [] := by
  have hnodup : ∀ c ∈ contents, ((List.range' 1 (calls c).length).map callId).Nodup := fun c _ =>
    (List.nodup_map_iff callId_injective).2 List.nodup_range'
  rw [callIds_chatMessages, List.nodup_flatMap, and_iff_right hnodup]
  refine List.Pairwise.iff fun {a b} => (disjoint_ids (calls b).length).trans ?_
  rw [List.length_eq_zero_iff, List.length_eq_zero_iff]

/-! ### Tool messages -/

theorem filter_chatMessages :
    (chatMessages systemInstructions contents).filter (fun o => o.role = "tool") =
      contents.flatMap fun c => toolMessages 0 c.parts := by
  have hsystem : (systemInstructions.map fun parts =>
    (⟨"system", .text (extractText parts), none, ""⟩ : Message)).toList.filter
      (fun o => o.role = "tool") = [] := by
    cases systemInstructions <;> rfl
  rw [chatMessages, foldl_addContent, List.nil_append, List.filter_append, hsystem, List.nil_append,
    List.filter_flatMap]
  refine List.flatMap_congr fun c _ => ?_
  have htool : (toolMessages 0 c.parts).filter (fun o => o.role = "tool") = toolMessages 0 c.parts :=
    List.filter_eq_self.2 fun o ho => by simp [role_toolMessages ho]
  have hanswer : (answer c).filter (fun o => o.role = "tool") = [] :=
    List.filter_eq_nil_iff.2 fun o ho => by simp [role_answer ho, (convertGeminiRoleToOpenAI_ne c.role).1]
  rw [turn, List.filter_append, htool, hanswer, List.append_nil]

theorem contents_toolMessages :
    (toolMessages n parts).map Message.content = (parts.flatMap responseOf).map fun r => .text (Json.encode r.2) := by
  induction parts generalizing n with
  | nil => rfl
  | cons part parts ih => cases part <;> simp [toolMessages, responseOf, ih]

theorem toolCallId_of_no_calls (hcalls : parts.flatMap callOf = [])
    (ho : o ∈ toolMessages n parts) : o.toolCallId = callId n := by
  induction parts with
  | nil => cases ho
  | cons part parts ih =>
    cases part with
    | text s => exact ih (by simpa [callOf] using hcalls) ho
    | functionCall name args => simp [callOf] at hcalls
    | functionResponse name response =>
      obtain rfl | ho := List.mem_cons.1 ho
      · rfl
      · exact ih (by simpa [callOf] using hcalls) ho

theorem toolMessages_eq_nil : toolMessages n parts = [] ↔ parts.flatMap responseOf = [] := by
  rw [← List.map_eq_nil_iff (f := Message.content), contents_toolMessages, List.map_eq_nil_iff]

/-! ### Answers -/

theorem length_answerParts {pending' : List (Nat × String)} {l : List Nat}
    (h : answerParts pending parts = some (l, pending')) : l.length = (parts.flatMap responseOf).length := by
  induction parts generalizing pending l with
  | nil =>
    cases h
    rfl
  | cons part parts ih =>
    cases part with
    | text s => exact ih h
    | functionCall name args => exact ih h
    | functionResponse name response =>
      rw [answerParts] at h
      split at h
      · cases h
      · obtain ⟨⟨l', p⟩, hr, heq⟩ := Option.map_eq_some_iff.1 h
        cases heq
        simp [responseOf, ih hr]

theorem length_answered {links : List Nat}
    (h : answered pending n contents = some links) : links.length = (contents.flatMap responses).length := by
  induction contents generalizing pending n links with
  | nil =>
    cases h
    rfl
  | cons c contents ih =>
    rw [answered] at h
    split at h
    · cases h
    · rename_i l pending' hparts
      obtain ⟨links', hrest, rfl⟩ := Option.map_eq_some_iff.1 h
      rw [List.length_append, List.flatMap_cons, List.length_append, length_answerParts hparts, ih hrest]
      rfl

theorem answerParts_nil {r : List Nat × List (Nat × String)} (h : answerParts [] parts = some r) :
    parts.flatMap responseOf = [] ∧ r.2 = [] := by
  induction parts with
  | nil =>
    cases h
    exact ⟨rfl, rfl⟩
  | cons part parts ih =>
    cases part with
    | text s => exact ih h
    | functionCall name args => exact ih h
    | functionResponse name response => cases h

theorem calls_of_response {links : List Nat}
    (h : answered pending n contents = some links) (hpending : pending = [] ∨ ∀ c ∈ contents, calls c = [])
    (hone : contents.Pairwise fun a b => calls a = [] ∨ calls b = []) :
    ∀ c ∈ contents, responses c ≠ [] → calls c = [] := by
  induction contents generalizing pending n links with
  | nil => nofun
  | cons c contents ih =>
    rw [answered] at h
    split at h
    · cases h
    · rename_i l pending' hparts
      obtain ⟨links', hrest, -⟩ := Option.map_eq_some_iff.1 h
      obtain ⟨hfirst, hone⟩ := List.pairwise_cons.1 hone
      rw [List.forall_mem_cons]
      obtain rfl | hcalls := hpending
      · obtain ⟨hnone, hempty⟩ := answerParts_nil hparts
        refine ⟨fun hne => absurd hnone hne, ?_⟩
        by_cases hc : calls c = []
        · exact ih hrest (.inl (by simp [hc, show pending' = [] from hempty])) hone
        · exact ih hrest (.inr fun c' hc' => (hfirst c' hc').resolve_left hc) hone
      · exact ⟨fun _ => hcalls c List.mem_cons_self,
          ih hrest (.inr fun c' hc' => hcalls c' (List.mem_cons_of_mem _ hc')) hone⟩

/-! ### Text -/

theorem texts_answer_tagged :
    ((answer c).flatMap fun o => o.content.texts.map (o.role, ·)) =
      if calls c = [] then (texts c).map (convertGeminiRoleToOpenAI c.role, ·) else [] := by
  have hrole : ∀ o ∈ answer c,
      o.content.texts.map (o.role, ·) = o.content.texts.map (convertGeminiRoleToOpenAI c.role, ·) := by
    intro o ho
    rw [role_answer ho]
  rw [List.flatMap_congr hrole, ← List.map_flatMap, texts_answer]
  split_ifs <;> rfl

theorem spokenTexts_chatMessages :
    spokenTexts (chatMessages systemInstructions contents) =
      (contents.filter fun c => calls c = []).flatMap fun c => (texts c).map (convertGeminiRoleToOpenAI c.role, ·) := by
  have hsystem : (systemInstructions.map fun parts =>
    (⟨"system", .text (extractText parts), none, ""⟩ : Message)).toList.filter
      (fun o => o.role ≠ "tool" ∧ o.role ≠ "system") = [] := by
    cases systemInstructions <;> rfl
  have hturn (c : GeminiContent) : (turn c).filter (fun o => o.role ≠ "tool" ∧ o.role ≠ "system") = answer c := by
    have htool : (toolMessages 0 c.parts).filter (fun o => o.role ≠ "tool" ∧ o.role ≠ "system") = [] :=
      List.filter_eq_nil_iff.2 fun o ho => by simp [role_toolMessages ho]
    have hanswer : (answer c).filter (fun o => o.role ≠ "tool" ∧ o.role ≠ "system") = answer c :=
      List.filter_eq_self.2 fun o ho => by simp [role_answer ho, convertGeminiRoleToOpenAI_ne c.role]
    rw [turn, List.filter_append, htool, hanswer, List.nil_append]
  rw [spokenTexts, chatMessages, foldl_addContent, List.nil_append, List.filter_append, hsystem, List.nil_append,
    List.filter_flatMap]
  simp only [hturn]
  rw [List.flatMap_assoc]
  simp only [texts_answer_tagged]
  induction contents with
  | nil => rfl
  | cons c contents ih =>
    rw [List.flatMap_cons, ih, List.filter_cons]
    by_cases hcalls : calls c = [] <;> simp [hcalls]

/-- The conversion links the responses to their calls exactly if nothing is lost on the way. -/
theorem linked_iff (systemInstructions : Option (List Part)) (contents : List GeminiContent) (links : List Nat)
    (hlinks : answered [] 0 contents = some links) :
    Linked contents links (chatMessages systemInstructions contents) ↔ Convertible contents := by
  have htext : spokenTexts (chatMessages systemInstructions contents) =
      (contents.flatMap fun c => (texts c).map (convertGeminiRoleToOpenAI c.role, ·)) ↔
        ∀ c ∈ contents, calls c ≠ [] → texts c = [] := by
    rw [spokenTexts_chatMessages, flatMap_filter_eq_iff (fun c => calls c = [])]
    simp only [List.map_eq_nil_iff, ne_eq]
  constructor
  · intro h
    have hone := nodup_callIds.1 h.distinct
    refine ⟨hone, fun c hc => ?_, htext.1 h.text⟩
    -- a response would have the id `call_0`, which no call has
    by_contra hne
    have hcalls := calls_of_response hlinks (.inl rfl) hone c hc hne
    obtain ⟨o, ho⟩ := List.exists_mem_of_ne_nil _ (mt toolMessages_eq_nil.1 hne)
    have hid := toolCallId_of_no_calls hcalls ho
    have hmem : some o.toolCallId ∈ links.map fun i => (callIds (chatMessages systemInstructions contents))[i]? := by
      rw [← h.links, filter_chatMessages]
      exact List.mem_map_of_mem (List.mem_flatMap.2 ⟨c, hc, ho⟩)
    obtain ⟨i, -, hi⟩ := List.mem_map.1 hmem
    rw [hid] at hi
    exact callId_zero_not_mem (List.mem_of_getElem? hi)
  · intro h
    have hresponses : contents.flatMap responses = [] := List.flatMap_eq_nil_iff.2 h.responses
    have htool : (chatMessages systemInstructions contents).filter (fun o => o.role = "tool") = [] := by
      rw [filter_chatMessages]
      exact List.flatMap_eq_nil_iff.2 fun c hc => toolMessages_eq_nil.2 (h.responses c hc)
    have hempty : links = [] := by
      rw [← List.length_eq_zero_iff, length_answered hlinks, hresponses]
      rfl
    refine ⟨?_, nodup_callIds.2 h.one, ?_, ?_, htext.2 h.text⟩
    · rw [calls_chatMessages, List.map_flatMap, List.map_flatMap]
      simp only [calls_numbered]
    · rw [htool, hresponses]
      rfl
    · rw [htool, hempty]
      rfl

def twoCalls : List GeminiContent :=
  [⟨"user", [.text "Weather?", .text "In Rome."]⟩,
    ⟨"model", [.functionCall "place" (.obj []), .functionCall "weather" (.obj [("city", .str "Rome")])]⟩]

theorem linked_twoCalls : Linked twoCalls [] (chatMessages none twoCalls) := by
  refine (linked_iff none twoCalls [] (by decide)).2 ⟨?_, ?_, ?_⟩
  all_goals simp [twoCalls, calls, responses, texts, callOf, responseOf, textOf]

def answeredCall : List GeminiContent :=
  [⟨"user", [.text "Weather?"]⟩, ⟨"model", [.functionCall "weather" (.obj [])]⟩,
    ⟨"user", [.functionResponse "weather" (.obj [("sky", .str "sunny")])]⟩]

/-- The call has the id `call_1`, its response the id `call_0`. -/
theorem answeredCall_unlinked :
    answered [] 0 answeredCall = some [0] ∧ callIds (chatMessages none answeredCall) = ["call_1"] ∧
    ((chatMessages none answeredCall).filter fun o => o.role = "tool").map Message.toolCallId = ["call_0"] ∧
    ¬Linked answeredCall [0] (chatMessages none answeredCall) := by
  have hids : callIds (chatMessages none answeredCall) = ["call_1"] := by decide +kernel
  have htool : ((chatMessages none answeredCall).filter fun o => o.role = "tool").map (fun o => some o.toolCallId) =
      [some "call_0"] := by decide +kernel
  refine ⟨by decide, hids, by decide +kernel, fun h => ?_⟩
  have hlinks := h.links
  rw [htool, hids] at hlinks
  simp at hlinks

end TokenEra.Request.GeminiToChat
