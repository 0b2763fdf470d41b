import TokenEra.Lib.Json
import TokenEra.Lib.Loss
import TokenEra.Responses.ChatContent

/-!
# Chat completions to Gemini

`ResponseOpenAI2Gemini` converts a whole message, `StreamResponseOpenAI2Gemini` one chunk of a
stream. The second keeps nothing from one chunk to the next, while the arguments of a call may come
in pieces: the stream says what the message says exactly if no call is in pieces
(`stream_keeps_iff`).
-/

namespace TokenEra.ChatToGemini

open Lib ChatToClaude Responses

/-! ### Messages and chunks -/

/-- The delta of a choice. `nil` tool calls are told from an empty list. -/
structure Delta where
  content : Option String
  toolCalls : Option (List ToolCallResponse)

def Delta.getContentString (d : Delta) : String := d.content.getD ""

structure StreamChoice where
  index : Int
  delta : Delta
  finishReason : Option String

inductive Part
  | text (s : String)
  | functionCall (name : String) (arguments : Json)

structure Candidate where
  index : Int
  parts : List Part
  finishReason : Option String

def geminiFinishReason (reason : String) : String :=
  if reason = "stop" then "STOP"
  else if reason = "length" then "MAX_TOKENS"
  else if reason = "content_filter" then "SAFETY"
  else "STOP"

section

variable (floats : Json.Floats)

/-- The arguments as a map. A text that is none is kept under a key. -/
def parseArguments (s : String) : Json :=
  if s = "" then .obj []
  else
    match Json.decode floats true s with
    | some (.obj l) => .obj l
    | some .null => .null
    | _ => .obj [("arguments", .str s)]

def textParts (s : String) : List Part := if s ≠ "" then [.text s] else []

/-- A choice of `ResponseOpenAI2Gemini`. -/
def responseOpenAI2Gemini (index : Int) (content : String) (toolCalls : List ToolCall)
    (finishReason : String) : Candidate :=
  ⟨index, textParts content ++ toolCalls.map fun t => .functionCall t.name (parseArguments floats t.arguments),
    some (geminiFinishReason finishReason)⟩

def deltaParts (d : Delta) : List Part :=
  match d.toolCalls with
  | some toolCalls => toolCalls.map fun t => .functionCall t.name (parseArguments floats t.arguments)
  | none => textParts d.getContentString

/-- `StreamResponseOpenAI2Gemini`; `none` is a chunk that is skipped. -/
def streamResponseOpenAI2Gemini (choices : List StreamChoice) : Option (List Candidate) :=
  let hasContent := choices.any fun c => c.delta.getContentString ≠ "" ∨ c.delta.toolCalls.getD [] ≠ []
  let hasFinishReason := choices.any fun c => c.finishReason.isSome
  if hasContent = false ∧ hasFinishReason = false then none
  else some (choices.map fun c => ⟨c.index, deltaParts floats c.delta, c.finishReason.map geminiFinishReason⟩)

/-! ### What a stream says -/

def streamParts (chunks : List (List StreamChoice)) : List Part :=
  chunks.flatMap fun choices => ((streamResponseOpenAI2Gemini floats choices).getD []).flatMap Candidate.parts

end

def texts : Part → List Char
  | .text s => s.toList
  | .functionCall .. => []

def calls : Part → List (String × Json)
  | .text _ => []
  | .functionCall name arguments => [(name, arguments)]

def contents (chunks : List (List StreamChoice)) : String :=
  String.join (chunks.flatMap fun choices => choices.map fun c => c.delta.getContentString)

def toolDeltas (chunks : List (List StreamChoice)) : List ToolCallResponse :=
  chunks.flatMap fun choices => choices.flatMap fun c => c.delta.toolCalls.getD []

/-- The Gemini chunks say what the assembled message says: its text, and its calls in the order of
their first deltas. -/
structure Keeps (floats : Json.Floats) (chunks : List (List StreamChoice)) : Prop where
  text : (streamParts floats chunks).flatMap texts = (contents chunks).toList
  functionCalls : (streamParts floats chunks).flatMap calls =
    (responseOpenAI2Gemini floats 0 (contents chunks) (collect (toolDeltas chunks)) "stop").parts.flatMap calls

/-- No chunk has both text and tool calls, and every call comes in one delta. -/
structure Whole (chunks : List (List StreamChoice)) : Prop where
  apart : ∀ choices ∈ chunks, ∀ c ∈ choices, c.delta.toolCalls ≠ none → c.delta.getContentString = ""
  one : ((toolDeltas chunks).map callIndex).Nodup

/-! ### Parts -/

variable {floats : Json.Floats}

theorem texts_textParts (s : String) : (textParts s).flatMap texts = s.toList := by
  unfold textParts
  split_ifs with h
  · simp [texts]
  · simp [not_not.1 h]

theorem calls_textParts (s : String) : (textParts s).flatMap calls = [] := by
  unfold textParts
  split_ifs <;> rfl

theorem calls_functionCalls {T : Type} (name : T → String) (arguments : T → Json) (l : List T) :
    (l.map fun t => Part.functionCall (name t) (arguments t)).flatMap calls = l.map fun t => (name t, arguments t) := by
  rw [List.flatMap_map, List.map_eq_flatMap]
  rfl

theorem texts_deltaParts (d : Delta) :
    (deltaParts floats d).flatMap texts = if d.toolCalls = none then d.getContentString.toList else [] := by
  rw [deltaParts]
  cases htools : d.toolCalls with
  | none => simpa using texts_textParts d.getContentString
  | some l => simp [List.flatMap_map, texts]

theorem calls_deltaParts (d : Delta) :
    (deltaParts floats d).flatMap calls = (d.toolCalls.getD []).map fun t =>
      (t.name, parseArguments floats t.arguments) := by
  rw [deltaParts]
  cases htools : d.toolCalls with
  | none => simpa using calls_textParts d.getContentString
  | some l => simpa using calls_functionCalls _ _ l

variable {chunks : List (List StreamChoice)}

theorem streamParts_eq :
    streamParts floats chunks = chunks.flatMap fun choices => choices.flatMap fun c => deltaParts floats c.delta := by
  refine List.flatMap_congr fun choices _ => ?_
  rw [streamResponseOpenAI2Gemini]
  split_ifs with hskip
  · obtain ⟨hcontent, -⟩ := hskip
    rw [List.any_eq_false] at hcontent
    refine (List.flatMap_eq_nil_iff.2 fun c hc => ?_).symm
    have hnone := hcontent c hc
    simp only [decide_eq_true_eq, not_or, not_not] at hnone
    rw [deltaParts]
    cases htools : c.delta.toolCalls with
    | none => simp [textParts, hnone.1]
    | some l =>
      have hl : l = [] := by simpa [htools] using hnone.2
      rw [hl]
      rfl
  · rw [Option.getD_some, List.flatMap_map]

/-! ### Text and calls -/

theorem text_iff :
    (streamParts floats chunks).flatMap texts = (contents chunks).toList ↔
      ∀ choices ∈ chunks, ∀ c ∈ choices, c.delta.toolCalls ≠ none → c.delta.getContentString = "" := by
  have hresult : (streamParts floats chunks).flatMap texts =
      chunks.flatten.flatMap fun c => if c.delta.toolCalls = none then c.delta.getContentString.toList else [] := by
    rw [streamParts_eq, List.flatMap_assoc, List.flatten_eq_flatMap, List.flatMap_assoc]
    simp only [List.flatMap_assoc, texts_deltaParts, id_eq]
  have hexpected : (contents chunks).toList = chunks.flatten.flatMap fun c => c.delta.getContentString.toList := by
    rw [contents, String.toList_join, List.flatMap_assoc, List.flatten_eq_flatMap, List.flatMap_assoc]
    simp only [List.flatMap_map, id_eq]
  rw [hresult, hexpected, flatMap_kept (fun c => c.delta.toolCalls ≠ none → c.delta.getContentString = "")]
  · simp only [List.mem_flatten]
    exact ⟨fun h choices hchoices c hc => h c ⟨choices, hchoices, hc⟩,
      fun h c ⟨choices, hchoices, hc⟩ => h choices hchoices c hc⟩
  · intro c _
    by_cases htools : c.delta.toolCalls = none
    · exact .inl ⟨fun h => absurd htools h, if_pos htools⟩
    · rw [if_neg htools]
      by_cases hcontent : c.delta.getContentString = ""
      · exact .inl ⟨fun _ => hcontent, by rw [hcontent]; rfl⟩
      · refine .inr ⟨fun h => hcontent (h htools), ?_⟩
        rw [List.length_nil, List.length_pos_iff, Ne, String.toList_eq_nil_iff]
        exact hcontent

/-- Every delta becomes a call, so there are as many as in the message only if no two are of one
call. -/
theorem functionCalls_iff :
    (streamParts floats chunks).flatMap calls =
        (responseOpenAI2Gemini floats 0 (contents chunks) (collect (toolDeltas chunks)) "stop").parts.flatMap calls ↔
      ((toolDeltas chunks).map callIndex).Nodup := by
  have hresult : (streamParts floats chunks).flatMap calls =
      (toolDeltas chunks).map fun t => (t.name, parseArguments floats t.arguments) := by
    rw [streamParts_eq, toolDeltas, List.flatMap_assoc, List.map_flatMap]
    simp only [List.flatMap_assoc, List.map_flatMap, calls_deltaParts]
  have hexpected (l : List ToolCall) : (responseOpenAI2Gemini floats 0 (contents chunks) l "stop").parts.flatMap calls =
      l.map fun t => (t.name, parseArguments floats t.arguments) := by
    rw [responseOpenAI2Gemini, List.flatMap_append, calls_textParts, calls_functionCalls, List.nil_append]
  rw [hresult, hexpected]
  constructor
  · intro h
    have hlength := congrArg List.length h
    rw [List.length_map, List.length_map] at hlength
    exact ((collect_length _).2 hlength.symm).1
  · intro h
    rw [collect_of_nodup h, List.map_map]
    rfl

/-- The stream says what the message says exactly if text and calls come apart and every call in one
piece. -/
theorem stream_keeps_iff (floats : Json.Floats) (chunks : List (List StreamChoice)) :
    Keeps floats chunks ↔ Whole chunks :=
  ⟨fun h => ⟨text_iff.1 h.text, functionCalls_iff.1 h.functionCalls⟩,
    fun h => ⟨text_iff.2 h.apart, functionCalls_iff.2 h.one⟩⟩

def piecesOfCall : List (List StreamChoice) :=
  [[⟨0, ⟨none, some [⟨some 0, "call_1", "weather", "\x7b\"city\""⟩]⟩, none⟩],
    [⟨0, ⟨none, some [⟨some 0, "", "", ":\"Rome\"\x7d"⟩]⟩, some "tool_calls"⟩]]

/-- Each piece becomes a call of its own, the second without a name. -/
theorem piecesOfCall_split :
    ((streamParts Json.Floats.literal piecesOfCall).flatMap calls).map Prod.fst = ["weather", ""] ∧
      (collect (toolDeltas piecesOfCall)).map (fun t => (t.name, t.arguments)) =
        [("weather", "\x7b\"city\":\"Rome\"\x7d")] ∧
      ¬Keeps Json.Floats.literal piecesOfCall := by
  have hnames : ((streamParts Json.Floats.literal piecesOfCall).flatMap calls).map Prod.fst = ["weather", ""] := by
    decide +kernel
  refine ⟨hnames, by decide +kernel, fun h => ?_⟩
  have hlength := congrArg List.length hnames
  rw [h.functionCalls, List.length_map] at hlength
  exact absurd hlength (by decide +kernel)

end TokenEra.ChatToGemini
