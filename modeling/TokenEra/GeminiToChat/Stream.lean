import TokenEra.Lib.Machine
import TokenEra.Responses.ChatContent

/-!
# Gemini streams to chat completions

`streamResponseGeminiChat2OpenAI` turns one Gemini chunk into a chat chunk and keeps no state.
`convertChunk` and `finalize` put the finish reason in its place: `STOP` becomes a chunk of its own,
other reasons stay where they are, and a stream without one gets its finish reason at the end.

The JSON text of a call's arguments is given by a function `marshal` that may fail, as
`kitutil.Marshal` may. Times are left out.
-/

namespace TokenEra.GeminiToChat

open Lib TokenUsage ChatToClaude Responses

/-! ### Gemini chunks -/

variable {A : Type*}

structure FunctionCall (A : Type*) where
  functionName : String
  arguments : A

structure InlineData where
  mimeType : String
  data : String

structure ExecutableCode where
  language : String
  code : String

/-- `GeminiPart`. The result of executed code is its output. -/
structure Part (A : Type*) where
  text : String := ""
  thought : Bool := false
  inlineData : Option InlineData := none
  functionCall : Option (FunctionCall A) := none
  executableCode : Option ExecutableCode := none
  codeExecutionResult : Option String := none

structure Candidate (A : Type*) where
  parts : List (Part A)
  finishReason : Option String

/-! ### One chunk -/

/-- What the loop over the parts has so far. The texts are written with line breaks between them. -/
structure Written where
  texts : List String
  toolCalls : List ToolCallResponse
  isTools : Bool
  isThought : Bool

section Chunk

variable (marshal : A → Option String) (uuid : Nat → String)

def geminiResponseToolCall (uuid : String) (call : FunctionCall A) : Option ToolCallResponse :=
  (marshal call.arguments).map fun args => ⟨none, "call_" ++ uuid, call.functionName, args⟩

def convertPart (w : Written) (part : Part A) : Written :=
  match part.inlineData with
  | some data =>
    if hasStart "image" data.mimeType then
      { w with texts := w.texts ++ ["![image](data:" ++ data.mimeType ++ ";base64," ++ data.data ++ ")"] }
    else w
  | none =>
    match part.functionCall with
    | some call =>
      match geminiResponseToolCall marshal (uuid w.toolCalls.length) call with
      | some toolCall =>
        { w with
          isTools := true
          toolCalls := w.toolCalls ++ [{ toolCall with index := some (w.toolCalls.length : Int) }] }
      | none => { w with isTools := true }
    | none =>
      if part.thought then { w with isThought := true, texts := w.texts ++ [part.text] }
      else
        match part.executableCode, part.codeExecutionResult with
        | some code, _ => { w with texts := w.texts ++ ["```" ++ code.language ++ "\n" ++ code.code ++ "\n```\n"] }
        | none, some output => { w with texts := w.texts ++ ["```output\n" ++ output ++ "\n```\n"] }
        | none, none => if part.text ≠ "\n" then { w with texts := w.texts ++ [part.text] } else w

def writeParts (parts : List (Part A)) : Written := parts.foldl (convertPart marshal uuid) ⟨[], [], false, false⟩

def finishReasonOfGemini (reason : String) : String :=
  if reason = "STOP" then "stop" else if reason = "MAX_TOKENS" then "length" else "content_filter"

def convertCandidate (candidate : Candidate A) : Choice :=
  let w := writeParts marshal uuid candidate.parts
  let content := "\n".intercalate w.texts
  -- `STOP` is taken out first
  let finishReason := (candidate.finishReason.filter (· ≠ "STOP")).map finishReasonOfGemini
  ⟨if w.isThought then ⟨none, some content, none, w.toolCalls⟩ else ⟨some content, none, none, w.toolCalls⟩,
    if w.isTools then some "tool_calls" else finishReason⟩

end Chunk

/-- What comes with a chunk: the model, the usage, and the ids that are drawn for the calls of each
candidate. -/
structure Env where
  model : String
  usage : Option Usage
  uuid : Nat → Nat → String

section State

variable (marshal : A → Option String)

def streamResponseGeminiChat2OpenAI (uuid : Nat → Nat → String) (candidates : List (Candidate A)) :
    List Choice × Bool :=
  (candidates.mapIdx fun i c => convertCandidate marshal (uuid i) c,
    candidates.any fun c => c.finishReason = some "STOP")

/-- `GeminiToChatStreamState`. -/
structure State where
  id : String
  sawToolCall : Bool := false
  finishEmitted : Bool := false
  latestUsage : Option Usage := none

def newStreamState (id uuid : String) : State :=
  { id := if trimSpace id = "" then "chatcmpl-" ++ uuid else trimSpace id }

def State.stopReason (s : State) : String := if s.sawToolCall then "tool_calls" else "stop"

def State.terminalChunk (s : State) (model : String) : State × Chunk Usage :=
  ({ s with finishEmitted := true },
    ⟨s.id, model, [⟨⟨none, none, none, []⟩, some s.stopReason⟩], s.latestUsage⟩)

/-- `IsToolCall`: the first choice has tool calls. -/
def isToolCall (choices : List Choice) : Bool :=
  match choices with
  | [] => false
  | choice :: _ => choice.delta.toolCalls ≠ []

def clearToolCalls (choice : Choice) : Choice :=
  if choice.finishReason = some "tool_calls" then { choice with finishReason := none } else choice

def convertChunk (s : State) (input : List (Candidate A) × Env) : State × List (Chunk Usage) :=
  let (candidates, env) := input
  let hasNonStopFinish := candidates.any fun c => (c.finishReason.filter fun r => r ≠ "" ∧ r ≠ "STOP").isSome
  let (choices, isStop) := streamResponseGeminiChat2OpenAI marshal env.uuid candidates
  let choices' := if isToolCall choices ∧ ¬ hasNonStopFinish then choices.map clearToolCalls else choices
  let s := { s with
    sawToolCall := s.sawToolCall || isToolCall choices
    latestUsage := env.usage.or s.latestUsage
    finishEmitted := s.finishEmitted || choices'.any fun c => c.finish.isSome }
  let response : Chunk Usage := ⟨s.id, env.model, choices', env.usage⟩
  if isStop ∧ ¬ s.finishEmitted then
    let (s, terminal) := s.terminalChunk env.model
    (s, [response, terminal])
  else (s, [response])

def finalize (model : String) (s : State) : State × List (Chunk Usage) :=
  if s.finishEmitted then (s, [])
  else
    let (s, terminal) := s.terminalChunk model
    (s, [terminal])

def streamChunks (s : State) (stream : List (Candidate A × Env)) (model : String) : List (Chunk Usage) :=
  (andThen (fun s => feed (convertChunk marshal) s (stream.map fun x => ([x.1], x.2))) (finalize model) s).2

end State

/-! ### The parts of a candidate -/

/-- A part that is a function call; what has inline data is taken as that. -/
def Part.call? (part : Part A) : Option (FunctionCall A) :=
  match part.inlineData with
  | some _ => none
  | none => part.functionCall

def Candidate.calls (c : Candidate A) : List (FunctionCall A) := c.parts.filterMap (·.call?)

/-- Names and arguments of the calls whose arguments have a text. -/
def Candidate.written (marshal : A → Option String) (c : Candidate A) : List (String × String) :=
  c.calls.filterMap fun call => (marshal call.arguments).map fun args => (call.functionName, args)

section Parts

variable (marshal : A → Option String) (uuid : Nat → String)

theorem writeParts_append_one (parts : List (Part A)) (part : Part A) :
    writeParts marshal uuid (parts ++ [part]) = convertPart marshal uuid (writeParts marshal uuid parts) part := by
  rw [writeParts, List.foldl_append]
  rfl

theorem convertPart_no_call {part : Part A} (h : part.call? = none) (w : Written) :
    (convertPart marshal uuid w part).toolCalls = w.toolCalls ∧
      (convertPart marshal uuid w part).isTools = w.isTools := by
  cases hinline : part.inlineData with
  | some data =>
    simp only [convertPart, hinline]
    split_ifs <;> exact ⟨rfl, rfl⟩
  | none =>
    have hcall : part.functionCall = none := by simpa [Part.call?, hinline] using h
    simp only [convertPart, hinline, hcall]
    by_cases hthought : part.thought = true
    · simp [hthought]
    · cases part.executableCode <;> cases part.codeExecutionResult <;> by_cases htext : part.text = "\n" <;>
        simp [hthought, htext]

theorem convertPart_call {part : Part A} {call : FunctionCall A} (h : part.call? = some call) (w : Written) :
    (convertPart marshal uuid w part).isTools = true ∧
      (convertPart marshal uuid w part).toolCalls = w.toolCalls ++
        ((marshal call.arguments).map fun args =>
          (⟨some (w.toolCalls.length : Int), "call_" ++ uuid w.toolCalls.length, call.functionName, args⟩ :
            ToolCallResponse)).toList := by
  have hinline : part.inlineData = none := by
    cases hinline : part.inlineData with
    | none => rfl
    | some data => simp [Part.call?, hinline] at h
  have hcall : part.functionCall = some call := by simpa [Part.call?, hinline] using h
  cases hargs : marshal call.arguments with
  | none => simp [convertPart, hinline, hcall, geminiResponseToolCall, hargs]
  | some args => simp [convertPart, hinline, hcall, geminiResponseToolCall, hargs]

theorem toolCalls_writeParts (c : Candidate A) :
    (writeParts marshal uuid c.parts).toolCalls =
      (c.written marshal).mapIdx fun k call => ⟨some (k : Int), "call_" ++ uuid k, call.1, call.2⟩ := by
  rw [Candidate.written, Candidate.calls]
  induction c.parts using List.reverseRecOn with
  | nil => rfl
  | append_singleton parts part ih =>
    rw [writeParts_append_one, List.filterMap_append, List.filterMap_append]
    cases hcall : part.call? with
    | none => simp [(convertPart_no_call marshal uuid hcall _).1, ih, hcall]
    | some call =>
      rw [(convertPart_call marshal uuid hcall _).2, ih]
      cases hargs : marshal call.arguments <;> simp [hcall, hargs, List.mapIdx_append]

theorem isTools_writeParts (c : Candidate A) : (writeParts marshal uuid c.parts).isTools = decide (c.calls ≠ []) := by
  rw [Candidate.calls]
  induction c.parts using List.reverseRecOn with
  | nil => rfl
  | append_singleton parts part ih =>
    rw [writeParts_append_one, List.filterMap_append]
    cases hcall : part.call? with
    | none => simp [(convertPart_no_call marshal uuid hcall _).2, ih, hcall]
    | some call => simp [(convertPart_call marshal uuid hcall _).1, hcall]

end Parts

/-! ### A chunk of one candidate -/

def Candidate.hasNonStopFinish (c : Candidate A) : Bool := (c.finishReason.filter fun r => r ≠ "" ∧ r ≠ "STOP").isSome

def Candidate.ownFinish (marshal : A → Option String) (c : Candidate A) : Option String :=
  if c.calls ≠ [] then
    if c.written marshal ≠ [] ∧ c.hasNonStopFinish = false then none else some "tool_calls"
  else (c.finishReason.filter (· ≠ "STOP")).map finishReasonOfGemini

section Single

variable (marshal : A → Option String)

theorem written_eq_nil {c : Candidate A} (h : c.calls = []) : c.written marshal = [] := by
  rw [Candidate.written, h, List.filterMap_nil]

def callDeltas (x : Candidate A × Env) : List ToolCallResponse :=
  (x.1.written marshal).mapIdx fun k call => ⟨some (k : Int), "call_" ++ x.2.uuid 0 k, call.1, call.2⟩

theorem callDeltas_eq_nil {x : Candidate A × Env} : callDeltas marshal x = [] ↔ x.1.written marshal = [] := by
  rw [callDeltas, List.mapIdx_eq_nil_iff]

def sentChoice (x : Candidate A × Env) : Choice :=
  { convertCandidate marshal (x.2.uuid 0) x.1 with finishReason := x.1.ownFinish marshal }

theorem calls_convertCandidate (x : Candidate A × Env) :
    (convertCandidate marshal (x.2.uuid 0) x.1).delta.toolCalls = callDeltas marshal x := by
  rw [callDeltas, ← toolCalls_writeParts, convertCandidate]
  split_ifs <;> rfl

theorem finish_convertCandidate (x : Candidate A × Env) :
    (convertCandidate marshal (x.2.uuid 0) x.1).finishReason =
      if x.1.calls ≠ [] then some "tool_calls"
      else (x.1.finishReason.filter (· ≠ "STOP")).map finishReasonOfGemini := by
  simp only [convertCandidate, isTools_writeParts, decide_eq_true_iff]

theorem ownFinish_ne_empty (c : Candidate A) : c.ownFinish marshal ≠ some "" := by
  rw [Candidate.ownFinish]
  split_ifs
  · exact nofun
  · simp
  · rw [Ne, Option.map_eq_some_iff]
    rintro ⟨r, -, hr⟩
    rw [finishReasonOfGemini] at hr
    split_ifs at hr <;> simp at hr

theorem finish_sentChoice (x : Candidate A × Env) : (sentChoice marshal x).finish = x.1.ownFinish marshal := by
  have hne := ownFinish_ne_empty marshal x.1
  rw [Choice.finish, sentChoice]
  cases hown : x.1.ownFinish marshal with
  | none => rfl
  | some r =>
    rw [Option.filter_some_pos]
    rw [hown, Ne, Option.some.injEq] at hne
    simpa using hne

theorem isToolCall_single (x : Candidate A × Env) :
    isToolCall [convertCandidate marshal (x.2.uuid 0) x.1] = decide (x.1.written marshal ≠ []) := by
  rw [isToolCall, calls_convertCandidate, decide_eq_decide, Ne, Ne, callDeltas_eq_nil]

theorem sentChoice_eq (x : Candidate A × Env) :
    (if x.1.written marshal ≠ [] ∧ x.1.hasNonStopFinish = false then
        [convertCandidate marshal (x.2.uuid 0) x.1].map clearToolCalls
      else [convertCandidate marshal (x.2.uuid 0) x.1]) = [sentChoice marshal x] := by
  have hfinish := finish_convertCandidate marshal x
  by_cases hcalls : x.1.calls = []
  · rw [if_neg (by simp [written_eq_nil marshal hcalls]), sentChoice, Candidate.ownFinish, if_neg (not_not.2 hcalls)]
    rw [if_neg (not_not.2 hcalls)] at hfinish
    rw [← hfinish]
  · rw [if_pos hcalls] at hfinish
    rw [sentChoice, Candidate.ownFinish, if_pos hcalls]
    split_ifs
    · rw [List.map_singleton, clearToolCalls, if_pos hfinish]
    · rw [← hfinish]

/-- A state after a candidate, before its `STOP` counts. -/
def State.next (s : State) (x : Candidate A × Env) : State :=
  { s with
    sawToolCall := s.sawToolCall || decide (x.1.written marshal ≠ [])
    latestUsage := x.2.usage.or s.latestUsage
    finishEmitted := s.finishEmitted || (x.1.ownFinish marshal).isSome }

theorem convertChunk_single (s : State) (x : Candidate A × Env) :
    convertChunk marshal s ([x.1], x.2) =
      if x.1.finishReason = some "STOP" ∧ (s.next marshal x).finishEmitted = false then
        (((s.next marshal x).terminalChunk x.2.model).1,
          [⟨s.id, x.2.model, [sentChoice marshal x], x.2.usage⟩, ((s.next marshal x).terminalChunk x.2.model).2])
      else (s.next marshal x, [⟨s.id, x.2.model, [sentChoice marshal x], x.2.usage⟩]) := by
  have hany : ([x.1].any fun c => (c.finishReason.filter fun r => r ≠ "" ∧ r ≠ "STOP").isSome) =
      x.1.hasNonStopFinish := by
    rw [List.any_cons, List.any_nil, Bool.or_false]
    rfl
  have hstop : ([x.1].any fun c => c.finishReason = some "STOP") = decide (x.1.finishReason = some "STOP") := by
    rw [List.any_cons, List.any_nil, Bool.or_false]
  have hemitted : ([sentChoice marshal x].any fun c => c.finish.isSome) = (x.1.ownFinish marshal).isSome := by
    rw [List.any_cons, List.any_nil, Bool.or_false, finish_sentChoice]
  simp only [convertChunk, streamResponseGeminiChat2OpenAI, List.mapIdx_singleton, isToolCall_single, hany,
    decide_eq_true_iff, Bool.not_eq_true, sentChoice_eq, hstop, hemitted]
  by_cases hend : x.1.finishReason = some "STOP" ∧ (s.next marshal x).finishEmitted = false
  · rw [if_pos hend]
    exact if_pos hend
  · rw [if_neg hend]
    exact if_neg hend

/-- The choices of a chunk: the candidate's, and the finish reason of a `STOP`. -/
theorem choices_convertChunk (s : State) (x : Candidate A × Env) :
    choicesOf (convertChunk marshal s ([x.1], x.2)).2 =
      sentChoice marshal x ::
        if x.1.finishReason = some "STOP" ∧ (s.next marshal x).finishEmitted = false then
          [⟨⟨none, none, none, []⟩, some (s.next marshal x).stopReason⟩]
        else [] := by
  rw [convertChunk_single]
  split_ifs <;> rfl

end Single

end TokenEra.GeminiToChat
