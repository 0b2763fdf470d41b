import TokenEra.GeminiToChat.Calls
import TokenEra.Lib.Loss

/-!
# A Gemini response as a whole and in chunks

`ResponseGeminiChat2OpenAI` converts all parts at once and keeps the last thought; a chunk of a
stream is reasoning as a whole if one of its parts is a thought. The two agree exactly if no chunk
has both thoughts and text and there is one thought at most, line breaks apart.
-/

namespace TokenEra.GeminiToChat

open Lib TokenUsage ChatToClaude Responses

variable {A : Type*}

/-! ### The whole response -/

structure Whole where
  texts : List String
  reasoning : Option String
  toolCalls : List ToolCallResponse

section

variable (marshal : A → Option String) (uuid : Nat → String)

def wholePart (w : Whole) (part : Part A) : Whole :=
  match part.inlineData with
  | some data =>
    let name := if hasStart "image" data.mimeType then "![image](data:" else "[media](data:"
    { w with texts := w.texts ++ [name ++ data.mimeType ++ ";base64," ++ data.data ++ ")"] }
  | none =>
    match part.functionCall with
    | some call =>
      match geminiResponseToolCall marshal (uuid w.toolCalls.length) call with
      | some toolCall => { w with toolCalls := w.toolCalls ++ [toolCall] }
      | none => w
    | none =>
      if part.thought then { w with reasoning := some part.text }
      else
        match part.executableCode, part.codeExecutionResult with
        | some code, _ => { w with texts := w.texts ++ ["```" ++ code.language ++ "\n" ++ code.code ++ "\n```"] }
        | none, some output => { w with texts := w.texts ++ ["```output\n" ++ output ++ "\n```"] }
        | none, none => if part.text ≠ "\n" then { w with texts := w.texts ++ [part.text] } else w

def wholeParts (parts : List (Part A)) : Whole := parts.foldl (wholePart marshal uuid) ⟨[], none, []⟩

/-- A candidate of `ResponseGeminiChat2OpenAI`: its content, reasoning and tool calls. The finish
reason is left out. -/
def responseGeminiChat2OpenAI (candidate : Candidate A) : String × Option String × List ToolCallResponse :=
  let w := wholeParts marshal uuid candidate.parts
  ("\n".intercalate w.texts, w.reasoning, w.toolCalls)

end

/-! ### Agreement -/

def unbroken (s : String) : List Char := s.toList.filter (· ≠ '\n')

structure Part.Plain (part : Part A) : Prop where
  inlineData : part.inlineData = none
  executableCode : part.executableCode = none
  codeExecutionResult : part.codeExecutionResult = none

def Part.isThought (part : Part A) : Bool := part.functionCall.isNone && part.thought

def Part.isText (part : Part A) : Bool := part.functionCall.isNone && !part.thought

def listed (deltas : List ToolCallResponse) : List (String × String) := deltas.map fun c => (c.name, c.arguments)

/-- The calls of chunks, as a reader collects them by their index. -/
def collected (deltas : List ToolCallResponse) : List (String × String) :=
  (collect deltas).map fun t => (t.name, t.arguments)

/-- The chunks say what the message says; `read` is how the calls of the chunks are read. -/
structure Agrees (read : List ToolCallResponse → List (String × String)) (chunks : List (Chunk Usage))
    (message : String × Option String × List ToolCallResponse) : Prop where
  text : unbroken (textOf (choicesOf chunks)) = unbroken message.1
  reasoning : unbroken (reasoningOf (choicesOf chunks)) = unbroken (message.2.1.getD "")
  calls : read (callsOf (choicesOf chunks)) = listed message.2.2

def allParts (stream : List (Candidate A × Env)) : List (Part A) := stream.flatMap fun x => x.1.parts

def hasThought (x : Candidate A × Env) : Bool := x.1.parts.any Part.isThought

/-- No chunk has a thought and a text, and there is one thought at most, line breaks apart. -/
structure Unmixed (stream : List (Candidate A × Env)) : Prop where
  apart : ∀ x ∈ stream, hasThought x = true → ∀ part ∈ x.1.parts, part.isText = true → unbroken part.text = []
  one : ∀ part ∈ ((allParts stream).filter Part.isThought).dropLast, unbroken part.text = []

/-! ### What the parts say -/

theorem unbroken_append (s t : String) : unbroken (s ++ t) = unbroken s ++ unbroken t := by
  rw [unbroken, String.toList_append, List.filter_append]
  rfl

theorem unbroken_join (l : List String) : unbroken (String.join l) = l.flatMap unbroken := by
  rw [unbroken, String.toList_join, List.filter_flatMap]
  rfl

theorem unbroken_intercalate (l : List String) : unbroken ("\n".intercalate l) = l.flatMap unbroken := by
  induction l with
  | nil => rfl
  | cons s l ih =>
    cases l with
    | nil => rw [String.intercalate_singleton, List.flatMap_singleton]
    | cons t l =>
      have hbreak : unbroken "\n" = [] := by decide
      rw [String.intercalate_cons_cons, unbroken_append, unbroken_append, ih, hbreak,
        List.append_nil, ← List.flatMap_cons]

def Part.spoken (part : Part A) : List Char := if part.functionCall.isNone then unbroken part.text else []

def Part.textSpoken (part : Part A) : List Char := if part.isText then unbroken part.text else []

section

variable (marshal : A → Option String) (uuid : Nat → String)

theorem convertPart_plain {part : Part A} (h : part.Plain) (w : Written) :
    (convertPart marshal uuid w part).texts.flatMap unbroken = w.texts.flatMap unbroken ++ part.spoken ∧
      (convertPart marshal uuid w part).isThought = (w.isThought || part.isThought) := by
  simp only [convertPart, h.inlineData, h.executableCode, h.codeExecutionResult]
  cases hcall : part.functionCall with
  | some call =>
    dsimp only
    cases geminiResponseToolCall marshal (uuid w.toolCalls.length) call <;> simp [Part.spoken, Part.isThought, hcall]
  | none =>
    by_cases hthought : part.thought = true
    · simp [hthought, hcall, Part.spoken, Part.isThought]
    · by_cases htext : part.text = "\n"
      · have hbreak : unbroken "\n" = [] := by decide
        simp [hthought, hcall, Part.spoken, Part.isThought, htext, hbreak]
      · simp [hthought, hcall, Part.spoken, Part.isThought, htext]

theorem writeParts_plain {parts : List (Part A)} (h : ∀ part ∈ parts, part.Plain) :
    (writeParts marshal uuid parts).texts.flatMap unbroken = parts.flatMap Part.spoken ∧
      (writeParts marshal uuid parts).isThought = parts.any Part.isThought := by
  induction parts using List.reverseRecOn with
  | nil => exact ⟨rfl, rfl⟩
  | append_singleton parts part ih =>
    obtain ⟨hparts, hpart⟩ := List.forall_mem_append.1 h
    obtain ⟨htexts, hthought⟩ := ih hparts
    obtain ⟨htexts', hthought'⟩ := convertPart_plain marshal uuid (List.forall_mem_singleton.1 hpart)
      (writeParts marshal uuid parts)
    rw [writeParts_append_one, htexts', hthought', htexts, hthought]
    exact ⟨by simp, by simp⟩

theorem wholePart_plain {part : Part A} (h : part.Plain) (w : Whole) :
    (wholePart marshal uuid w part).texts.flatMap unbroken = w.texts.flatMap unbroken ++ part.textSpoken ∧
      (wholePart marshal uuid w part).reasoning = (if part.isThought then some part.text else w.reasoning) ∧
      listed (wholePart marshal uuid w part).toolCalls = listed w.toolCalls ++ Candidate.written
        marshal ⟨[part], none⟩ := by
  simp only [wholePart, h.inlineData, h.executableCode, h.codeExecutionResult]
  cases hcall : part.functionCall with
  | some call =>
    cases hargs : marshal call.arguments <;>
      simp [geminiResponseToolCall, hargs, Part.textSpoken, Part.isText, Part.isThought, hcall,
        listed, Candidate.written,
        Candidate.calls, Part.call?, h.inlineData]
  | none =>
    by_cases hthought : part.thought = true
    · simp [hthought, hcall, Part.textSpoken, Part.isText, Part.isThought, Candidate.written,
        Candidate.calls, Part.call?,
        h.inlineData]
    · by_cases htext : part.text = "\n"
      · have hbreak : unbroken "\n" = [] := by decide
        simp [hthought, hcall, Part.textSpoken, Part.isText, Part.isThought, htext, hbreak, Candidate.written,
          Candidate.calls, Part.call?, h.inlineData]
      · simp [hthought, hcall, Part.textSpoken, Part.isText, Part.isThought, htext, Candidate.written, Candidate.calls,
          Part.call?, h.inlineData]

theorem wholeParts_plain {parts : List (Part A)} (h : ∀ part ∈ parts, part.Plain) :
    (wholeParts marshal uuid parts).texts.flatMap unbroken = parts.flatMap Part.textSpoken ∧
      (wholeParts marshal uuid parts).reasoning = ((parts.filter Part.isThought).getLast?.map Part.text) ∧
      listed (wholeParts marshal uuid parts).toolCalls = Candidate.written marshal ⟨parts, none⟩ := by
  induction parts using List.reverseRecOn with
  | nil => exact ⟨rfl, rfl, rfl⟩
  | append_singleton parts part ih =>
    obtain ⟨hparts, hpart⟩ := List.forall_mem_append.1 h
    obtain ⟨htexts, hreasoning, hcalls⟩ := ih hparts
    obtain ⟨htexts', hreasoning', hcalls'⟩ := wholePart_plain marshal uuid (List.forall_mem_singleton.1 hpart)
      (wholeParts marshal uuid parts)
    have hstep : wholeParts marshal uuid (parts ++ [part]) =
        wholePart marshal uuid (wholeParts marshal uuid parts) part := by
      rw [wholeParts, List.foldl_append]
      rfl
    rw [hstep, htexts', hreasoning', hcalls', htexts, hreasoning, hcalls]
    refine ⟨by simp, ?_, by simp [Candidate.written, Candidate.calls]⟩
    by_cases hthought : part.isThought = true <;> simp [hthought]

end

/-! ### The stream -/

section

variable {marshal : A → Option String} {stream : List (Candidate A × Env)}

theorem delta_sentChoice {x : Candidate A × Env} (h : ∀ part ∈ x.1.parts, part.Plain) :
    unbroken (sentChoice marshal x).delta.getContentString =
      (if hasThought x then [] else x.1.parts.flatMap Part.spoken) ∧
      unbroken (sentChoice marshal x).delta.getReasoningContent =
        if hasThought x then x.1.parts.flatMap Part.spoken else [] := by
  obtain ⟨htexts, hthought⟩ := writeParts_plain marshal (x.2.uuid 0) h
  have hcontent := unbroken_intercalate (writeParts marshal (x.2.uuid 0) x.1.parts).texts
  rw [htexts] at hcontent
  have hnone : unbroken "" = [] := rfl
  rw [sentChoice, convertCandidate, hasThought, ← hthought]
  cases (writeParts marshal (x.2.uuid 0) x.1.parts).isThought with
  | true => exact ⟨hnone, hcontent⟩
  | false => exact ⟨hcontent, hnone⟩

theorem choices_stream (f : Choice → List Char)
    (hf : ∀ reason, f ⟨⟨none, none, none, []⟩, reason⟩ = []) (s : State) (model : String) :
    (choicesOf (streamChunks marshal s stream model)).flatMap f = stream.flatMap fun x => f (sentChoice marshal x) := by
  have hfeed : ∀ s : State, (choicesOf (feed (convertChunk marshal) s (stream.map fun x => ([x.1], x.2))).2).flatMap f =
      stream.flatMap fun x => f (sentChoice marshal x) := by
    induction stream with
    | nil => exact fun _ => rfl
    | cons x stream ih =>
      intro s
      rw [List.map_cons, feed_cons, choicesOf_append, List.flatMap_append, choices_convertChunk, ih, List.flatMap_cons,
        List.flatMap_cons]
      split_ifs <;> simp [hf]
  rw [streamChunks, andThen, choicesOf_append, List.flatMap_append, hfeed, finalize]
  split_ifs <;> simp [choicesOf, State.terminalChunk, hf]

theorem text_agrees_iff (h : ∀ part ∈ allParts stream, part.Plain) (s : State) (model : String) (uuid : Nat → String)
    (finishReason : Option String) :
    unbroken (textOf (choicesOf (streamChunks marshal s stream model))) =
        unbroken (responseGeminiChat2OpenAI marshal uuid ⟨allParts stream, finishReason⟩).1 ↔
      ∀ x ∈ stream, hasThought x = true → ∀ part ∈ x.1.parts, part.isText = true → unbroken part.text = [] := by
  have hplain : ∀ x ∈ stream, ∀ part ∈ x.1.parts, part.Plain := fun x hx part hpart =>
    h part (List.mem_flatMap.2 ⟨x, hx, hpart⟩)
  have hstream : unbroken (textOf (choicesOf (streamChunks marshal s stream model))) =
      stream.flatMap fun x => if hasThought x then [] else x.1.parts.flatMap Part.spoken := by
    rw [textOf, unbroken_join, List.flatMap_map, choices_stream _ fun _ => rfl]
    exact List.flatMap_congr fun x hx => (delta_sentChoice (hplain x hx)).1
  have hwhole : unbroken (responseGeminiChat2OpenAI marshal uuid ⟨allParts stream, finishReason⟩).1 =
      stream.flatMap fun x => x.1.parts.flatMap Part.textSpoken := by
    rw [responseGeminiChat2OpenAI, unbroken_intercalate, (wholeParts_plain marshal uuid h).1,
      allParts, List.flatMap_assoc]
  rw [hstream, hwhole]
  refine flatMap_kept (fun x => hasThought x = true → ∀ part ∈ x.1.parts, part.isText = true →
    unbroken part.text = []) _ _ ?_
  intro x _
  have hnil : x.1.parts.flatMap Part.textSpoken = [] ↔ ∀ part ∈ x.1.parts, part.isText = true →
      unbroken part.text = [] := by
    simp [List.flatMap_eq_nil_iff, Part.textSpoken]
  cases hthought : hasThought x with
  | true =>
    by_cases hempty : x.1.parts.flatMap Part.textSpoken = []
    · exact .inl ⟨fun _ => hnil.1 hempty, hempty.symm⟩
    · exact .inr ⟨fun hx => hempty (hnil.2 (hx rfl)), List.length_pos_iff.2 hempty⟩
  | false =>
    refine .inl ⟨fun hx => (by cases hx), List.flatMap_congr fun part hpart => ?_⟩
    -- none of the parts is a thought
    have hpart' : part.isThought = false := by
      rw [hasThought, List.any_eq_false] at hthought
      simpa using hthought part hpart
    rw [Part.spoken, Part.textSpoken, Part.isText]
    cases hcall : part.functionCall <;> simp_all [Part.isThought]

theorem reasoning_agrees_iff (h : ∀ part ∈ allParts stream, part.Plain)
    (hapart : ∀ x ∈ stream, hasThought x = true → ∀ part ∈ x.1.parts, part.isText = true → unbroken part.text = [])
    (s : State) (model : String) (uuid : Nat → String) (finishReason : Option String) :
    unbroken (reasoningOf (choicesOf (streamChunks marshal s stream model))) =
        unbroken ((responseGeminiChat2OpenAI marshal uuid ⟨allParts stream, finishReason⟩).2.1.getD "") ↔
      ∀ part ∈ ((allParts stream).filter Part.isThought).dropLast, unbroken part.text = [] := by
  have hplain : ∀ x ∈ stream, ∀ part ∈ x.1.parts, part.Plain := fun x hx part hpart =>
    h part (List.mem_flatMap.2 ⟨x, hx, hpart⟩)
  have hstream : unbroken (reasoningOf (choicesOf (streamChunks marshal s stream model))) =
      ((allParts stream).filter Part.isThought).flatMap fun part => unbroken part.text := by
    rw [reasoningOf, unbroken_join, List.flatMap_map, choices_stream _ fun _ => rfl, allParts, List.filter_flatMap,
      List.flatMap_assoc]
    refine List.flatMap_congr fun x hx => (delta_sentChoice (hplain x hx)).2.trans ?_
    cases hthought : hasThought x with
    | true =>
      rw [if_pos rfl, flatMap_filter_eq]
      refine List.flatMap_congr fun part hpart => ?_
      have htext := hapart x hx hthought part hpart
      rw [Part.spoken]
      cases hcall : part.functionCall <;> cases hpartThought : part.thought <;>
        simp_all [Part.isThought, Part.isText]
    | false =>
      have hnone : x.1.parts.filter Part.isThought = [] := by
        rw [hasThought, List.any_eq_false] at hthought
        exact List.filter_eq_nil_iff.2 hthought
      rw [hnone]
      rfl
  have hwhole : unbroken ((responseGeminiChat2OpenAI marshal uuid ⟨allParts stream, finishReason⟩).2.1.getD "") =
      ((allParts stream).filter Part.isThought).getLast?.elim [] fun part => unbroken part.text := by
    rw [responseGeminiChat2OpenAI, (wholeParts_plain marshal uuid h).2.1]
    cases ((allParts stream).filter Part.isThought).getLast? <;> rfl
  rw [hstream, hwhole]
  exact flatMap_eq_last_iff _ _

theorem calls_agree (s : State) (model : String) (uuid : Nat → String) (finishReason : Option String)
    (h : ∀ part ∈ allParts stream, part.Plain) :
    listed (callsOf (choicesOf (streamChunks marshal s stream model))) =
      listed (responseGeminiChat2OpenAI marshal uuid ⟨allParts stream, finishReason⟩).2.2 := by
  have hwritten (x : Candidate A × Env) : listed (callDeltas marshal x) = x.1.written marshal := by
    apply List.ext_getElem <;> simp [listed, callDeltas]
  rw [responseGeminiChat2OpenAI, (wholeParts_plain marshal uuid h).2.2, calls_stream, listed,
    List.map_flatMap, allParts,
    Candidate.written, Candidate.calls, List.filterMap_flatMap, List.filterMap_flatMap]
  exact List.flatMap_congr fun x _ => hwritten x

/-- Chunks and message agree exactly if thoughts and text come apart; a reader that collects the
calls by their index needs them in one chunk as well. -/
theorem agrees_iff (marshal : A → Option String) (id newId model : String) (uuid : Nat → String)
    (finishReason : Option String)
    (stream : List (Candidate A × Env)) (h : ∀ part ∈ allParts stream, part.Plain) :
    (Agrees listed (streamChunks marshal (newStreamState id newId) stream model)
        (responseGeminiChat2OpenAI marshal uuid ⟨allParts stream, finishReason⟩) ↔ Unmixed stream) ∧
      (Agrees collected (streamChunks marshal (newStreamState id newId) stream model)
          (responseGeminiChat2OpenAI marshal uuid ⟨allParts stream, finishReason⟩) ↔
        Unmixed stream ∧ stream.Pairwise fun x y => x.1.written marshal = [] ∨ y.1.written marshal = []) := by
  set s := newStreamState id newId
  have htext := @text_agrees_iff A marshal stream h s model uuid finishReason
  have hreasoning := fun hapart => @reasoning_agrees_iff A marshal stream h hapart s model uuid finishReason
  have hlisted := @calls_agree A marshal stream s model uuid finishReason h
  have hunmixed {read : List ToolCallResponse → List (String × String)}
      (hagrees : Agrees read (streamChunks marshal s stream model)
        (responseGeminiChat2OpenAI marshal uuid ⟨allParts stream, finishReason⟩)) : Unmixed stream := by
    have hapart := htext.1 hagrees.text
    exact ⟨hapart, (hreasoning hapart).1 hagrees.reasoning⟩
  have hcollected : collected (callsOf (choicesOf (streamChunks marshal s stream model))) =
      listed (callsOf (choicesOf (streamChunks marshal s stream model))) ↔
        stream.Pairwise fun x y => x.1.written marshal = [] ∨ y.1.written marshal = [] := by
    rw [calls_stream, ← nodup_callDeltas_iff]
    constructor
    · intro heq
      have hlength := congrArg List.length heq
      rw [collected, listed, List.length_map, List.length_map] at hlength
      exact ((collect_length _).2 hlength).1
    · intro hnodup
      rw [collected, collect_of_nodup hnodup, List.map_map]
      rfl
  refine ⟨⟨hunmixed, fun hun => ⟨htext.2 hun.apart, (hreasoning hun.apart).2 hun.one, hlisted⟩⟩,
    ⟨fun hagrees => ?_, ?_⟩⟩
  · exact ⟨hunmixed hagrees, hcollected.1 (hagrees.calls.trans hlisted.symm)⟩
  · rintro ⟨hun, hone⟩
    exact ⟨htext.2 hun.apart, (hreasoning hun.apart).2 hun.one, (hcollected.2 hone).trans hlisted⟩

end

theorem agrees_threeChunks :
    let call (name : String) : Part Unit := { functionCall := some ⟨name, ()⟩ }
    let env : Env := ⟨"m", none, fun _ k => toString k⟩
    let stream : List (Candidate Unit × Env) :=
      [(⟨[{ text := "Hm.", thought := true }], none⟩, env), (⟨[{ text := "Now:" }], none⟩, env),
        (⟨[call "get_time", call "get_date"], some "STOP"⟩, env)]
    Agrees collected (streamChunks (fun _ => some "\x7b\x7d") (newStreamState "" "u") stream "m")
      (responseGeminiChat2OpenAI (fun _ => some "\x7b\x7d") toString ⟨allParts stream, some "STOP"⟩) := by
  intro call env stream
  have hplain : ∀ part ∈ allParts stream, part.Plain := by
    simp only [stream, allParts, List.flatMap_cons, List.flatMap_nil, List.append_nil,
      List.cons_append, List.nil_append,
      List.forall_mem_cons]
    exact ⟨⟨rfl, rfl, rfl⟩, ⟨rfl, rfl, rfl⟩, ⟨rfl, rfl, rfl⟩, ⟨rfl, rfl, rfl⟩, nofun⟩
  refine (agrees_iff (fun _ => some "\x7b\x7d") "" "u" "m" toString (some "STOP") stream hplain).2.2 ⟨⟨?_, ?_⟩, ?_⟩
  · simp [stream, call, hasThought, Part.isThought, Part.isText]
  · simp [stream, call, allParts, Part.isThought]
  · simp [stream, call, Candidate.written, Candidate.calls, Part.call?]

/-- A chunk with a thought and a text: the text comes as reasoning. -/
theorem mixedChunk_disagrees :
    let env : Env := ⟨"m", none, fun _ k => toString k⟩
    let stream : List (Candidate Unit × Env) :=
      [(⟨[{ text := "Hm.", thought := true }, { text := "Yes." }], some "STOP"⟩, env)]
    let chunks := streamChunks (fun _ => some "\x7b\x7d") (newStreamState "" "u") stream "m"
    let message := responseGeminiChat2OpenAI (fun _ => some "\x7b\x7d") toString ⟨allParts stream, some "STOP"⟩
    (textOf (choicesOf chunks), message.1) = ("", "Yes.") ∧ ¬Agrees listed chunks message := by
  intro env stream chunks message
  have htext : (textOf (choicesOf chunks), message.1) = ("", "Yes.") := by decide +kernel
  refine ⟨htext, fun h => ?_⟩
  obtain ⟨hchunks, hmessage⟩ := Prod.mk.inj htext
  have hagree := h.text
  rw [hchunks, hmessage] at hagree
  exact absurd hagree (by decide)

end TokenEra.GeminiToChat
