import TokenEra.Lib.Loss

/-!
# The playground's streamed messages

`applyStreamingChunk` adds a delta to an assistant message, to its content or to its reasoning. A
delta that begins with the text so far is taken for a repetition of it, and only the rest is added
(`getAppendableChunk`). A text is shown as it was streamed exactly if no delta begins with
everything before it (`streamed_iff`).

A JavaScript string is a list of UTF-16 code units. The times of `Date.now()` are arguments.
-/

namespace TokenEra.Playground

open Lib

abbrev Text := List UInt16

def text (s : String) : Text := s.toList.map fun c => c.toNat.toUInt16

inductive Status
  | loading
  | streaming
  | complete
  | error
deriving DecidableEq, Repr

structure MessageVersion where
  id : String
  content : Text
deriving DecidableEq, Repr

structure Reasoning where
  content : Text
  duration : Int
  startedAt : Option Int
  completedAt : Option Int
  durationMs : Option Int
deriving DecidableEq, Repr

structure Message where
  versions : List MessageVersion
  startedAt : Option Int := none
  reasoning : Option Reasoning := none
  isReasoningStreaming : Bool := false
  status : Status
deriving DecidableEq, Repr

def getCurrentVersion (message : Message) : MessageVersion := message.versions.head?.getD ⟨"default", []⟩

def updateCurrentVersionContent (message : Message) (content : Text) : Message :=
  { message with versions := [{ getCurrentVersion message with content }] }

/-! ### Think tags -/

/-- What stands before the first occurrence of a text and after it. -/
def cutAt (sep : Text) : Text → Option (Text × Text)
  | [] => if sep = [] then some ([], []) else none
  | c :: l => if sep <+: c :: l then some ([], (c :: l).drop sep.length) else (cutAt sep l).map fun p => (c :: p.1, p.2)

/-- `String.prototype.trim` removes these: white space and line ends. -/
def isJsSpace (c : UInt16) : Bool :=
  [0x9, 0xa, 0xb, 0xc, 0xd, 0x20, 0xa0, 0x1680, 0x2028, 0x2029, 0x202f, 0x205f, 0x3000, 0xfeff].contains c ||
    (0x2000 ≤ c && c ≤ 0x200a)

def trim (t : Text) : Text := ((t.dropWhile isJsSpace).reverse.dropWhile isJsSpace).reverse

structure ParsedThinkTags where
  visibleContent : Text
  reasoning : Text
  hasUnclosedTag : Bool
deriving DecidableEq, Repr

/-- The turns of the loop over the rest of the content; each takes a tag from it, so its length is a
bound. -/
def thinkParts : Nat → Text → List Text × List Text × Bool
  | 0, rest => ([rest], [], false)
  | turns + 1, rest =>
    match cutAt (text "<think>") rest with
    | none => ([rest], [], false)
    | some (visible, inside) =>
      match cutAt (text "</think>") inside with
      | none => ([visible], [inside], true)
      | some (reasoning, rest) =>
        let (visibleParts, reasoningParts, hasUnclosedTag) := thinkParts turns rest
        (visible :: visibleParts, reasoning :: reasoningParts, hasUnclosedTag)

def parseThinkTags (content : Text) : ParsedThinkTags :=
  if !decide (text "<think>" <:+: content) then ⟨content, [], false⟩
  else
    let (visibleParts, reasoningParts, hasUnclosedTag) := thinkParts content.length content
    ⟨trim visibleParts.flatten, trim (List.intercalate (text "\n\n") reasoningParts), hasUnclosedTag⟩

example : parseThinkTags (text "a <think>b</think> c<think>d") = ⟨text "a  c", text "b\n\nd", true⟩ := by decide

/-! ### Streaming -/

def startReasoningTiming (message : Message) (now : Int) : Reasoning where
  content := (message.reasoning.map Reasoning.content).getD []
  duration := (message.reasoning.map Reasoning.duration).getD 0
  startedAt := (message.reasoning.bind Reasoning.startedAt).getD now
  completedAt := message.reasoning.bind Reasoning.completedAt
  durationMs := message.reasoning.bind Reasoning.durationMs

def completeReasoningTiming (message : Message) (now : Int) : Message :=
  match message.reasoning with
  | none => message
  | some reasoning =>
    if reasoning.durationMs.isSome then message
    else
      let startedAt := ((reasoning.startedAt <|> message.startedAt).getD now)
      let durationMs := max 0 (now - startedAt)
      { message with
        reasoning := some { reasoning with
          startedAt := startedAt, completedAt := now, durationMs := durationMs, duration :=
            ⌈(durationMs : ℚ) / 1000⌉ } }

def processStreamingContent (message : Message) (contentChunk : Text) (now : Int) : Message :=
  let fullContent := (getCurrentVersion message).content ++ contentChunk
  if message.reasoning.isNone && !decide (text "<think>" <:+: fullContent) then
    { updateCurrentVersionContent message fullContent with isReasoningStreaming := false }
  else
    let parsed := parseThinkTags fullContent
    { updateCurrentVersionContent message fullContent with
      reasoning :=
        if parsed.reasoning ≠ [] then some { startReasoningTiming message now with
          content := parsed.reasoning } else message.reasoning
      isReasoningStreaming := parsed.hasUnclosedTag }

inductive StreamChunkType
  | reasoning
  | content
deriving DecidableEq, Repr

def getAppendableChunk (currentContent chunk : Text) : Text :=
  if currentContent = [] ∨ ¬currentContent <+: chunk then chunk else chunk.drop currentContent.length

def applyStreamingChunk (message : Message) (type : StreamChunkType) (now : Int) (chunk : Text) : Message :=
  if message.status = .error then message
  else
    match type with
    | .reasoning =>
      let reasoning := startReasoningTiming message now
      { message with
        reasoning := some { reasoning with content := reasoning.content ++ getAppendableChunk reasoning.content chunk }
        isReasoningStreaming := true
        status := .streaming }
    | .content =>
      let appendableChunk := getAppendableChunk (getCurrentVersion message).content chunk
      let contentMessage := processStreamingContent message appendableChunk now
      { (if contentMessage.isReasoningStreaming then contentMessage
      else completeReasoningTiming contentMessage now) with
        status := .streaming }

/-! ### What is shown -/

def Message.shown (message : Message) : StreamChunkType → Text
  | .content => (getCurrentVersion message).content
  | .reasoning => (message.reasoning.map Reasoning.content).getD []

def applyAll (message : Message) (type : StreamChunkType) (deltas : List (Int × Text)) : Message :=
  deltas.foldl (fun message delta => applyStreamingChunk message type delta.1 delta.2) message

structure Fresh (message : Message) : Prop where
  status : message.status ≠ .error
  shown : ∀ type, message.shown type = []

variable {message : Message} {now : Int}

theorem completeReasoningTiming_versions :
    (completeReasoningTiming message now).versions = message.versions := by
  unfold completeReasoningTiming
  split
  · rfl
  · split_ifs <;> rfl

variable {chunk : Text}

theorem processStreamingContent_content :
    (getCurrentVersion (processStreamingContent message chunk now)).content =
      (getCurrentVersion message).content ++ chunk := by
  unfold processStreamingContent
  dsimp only
  split_ifs <;> rfl

variable {message : Message}

variable {type : StreamChunkType}

theorem applyStreamingChunk_status (h : message.status ≠ .error) :
    (applyStreamingChunk message type now chunk).status ≠ .error := by
  unfold applyStreamingChunk
  rw [if_neg h]
  cases type <;> exact nofun

theorem applyStreamingChunk_shown (h : message.status ≠ .error) :
    (applyStreamingChunk message type now chunk).shown type =
      message.shown type ++ getAppendableChunk (message.shown type) chunk := by
  unfold applyStreamingChunk
  rw [if_neg h]
  cases type with
  | reasoning => rfl
  | content =>
    dsimp only [Message.shown]
    rw [← processStreamingContent_content]
    split_ifs with hstreaming
    · rfl
    · simp only [getCurrentVersion, completeReasoningTiming_versions]

theorem getAppendableChunk_cases (current : Text) :
    ((current = [] ∨ ¬current <+: chunk) ∧ current ++ getAppendableChunk current chunk = current ++ chunk) ∨
      (¬(current = [] ∨ ¬current <+: chunk) ∧ (current ++ getAppendableChunk current chunk).length <
        (current ++ chunk).length) := by
  unfold getAppendableChunk
  split_ifs with hnew
  · exact .inl ⟨hnew, rfl⟩
  · refine .inr ⟨hnew, ?_⟩
    obtain ⟨hne, hrepeats⟩ := not_or.1 hnew
    have hpos := List.length_pos_iff.2 hne
    have hle := (not_not.1 hrepeats).length_le
    rw [List.length_append, List.length_append, List.length_drop]
    omega

def joined (deltas : List (Int × Text)) : Text := (deltas.map Prod.snd).flatten

/-- The delta is the first with any text, or it does not begin with the text of all before it. -/
def Unrepeated (before : List (Int × Text)) (delta : Int × Text) :
    Prop := joined before = [] ∨ ¬joined before <+: delta.2

instance (before : List (Int × Text)) (delta : Int × Text) : Decidable (Unrepeated before delta) :=
  inferInstanceAs (Decidable (_ ∨ _))

variable {deltas : List (Int × Text)}

theorem applyAll_append (delta : Int × Text) :
    applyAll message type (deltas ++ [delta]) = applyStreamingChunk (applyAll message type deltas)
      type delta.1 delta.2 := by
  rw [applyAll, List.foldl_append]
  rfl

theorem applyAll_status (h : message.status ≠ .error) :
    (applyAll message type deltas).status ≠ .error := by
  induction deltas using List.reverseRecOn with
  | nil => exact h
  | append_singleton deltas delta ih =>
    rw [applyAll_append]
    exact applyStreamingChunk_status ih

/-- What is lost at one delta is never shown, so the text is right exactly if nothing is lost at
any. -/
theorem shown_applyAll (h : Fresh message) :
    (applyAll message type deltas).shown type = joined deltas ↔ AtEach Unrepeated [] deltas := by
  let shown (l : List (Int × Text)) : Text := (applyAll message type l).shown type
  have hkept : ∀ l, shown l = joined l ↔ AtEach (fun l delta => shown l = [] ∨ ¬shown l <+: delta.2) [] l := by
    refine eq_iff_kept shown joined (fun _ delta => delta.2) (h.shown type) (fun l delta => ?_) fun l delta => ?_
    · simp [joined]
    · simp only [shown, applyAll_append, applyStreamingChunk_shown (applyAll_status h.status)]
      exact getAppendableChunk_cases _
  rw [show (applyAll message type deltas).shown type = shown deltas from rfl, hkept]
  -- up to the first loss the text shown is the text streamed
  induction deltas using List.reverseRecOn with
  | nil => exact Iff.rfl
  | append_singleton deltas delta ih =>
    rw [atEach_append_singleton, atEach_append_singleton]
    refine (and_congr_left' ih).trans (and_congr_right fun hsofar => ?_)
    have heq : shown deltas = joined deltas := (hkept deltas).2 (ih.2 hsofar)
    rw [List.nil_append, Unrepeated, heq]

/-- **Content and reasoning are shown as they were streamed exactly if no delta begins with all the
text before it.** -/
theorem streamed_iff (h : Fresh message) (contents reasonings : List (Int × Text)) :
    ((applyAll message .content contents).shown .content = joined contents ∧
        (applyAll message .reasoning reasonings).shown .reasoning = joined reasonings) ↔
      AtEach Unrepeated [] contents ∧ AtEach Unrepeated [] reasonings := by
  rw [shown_applyAll h, shown_applyAll h]

def createLoadingAssistantMessage (id : String) (startedAt : Int) : Message where
  versions := [⟨id, []⟩]
  startedAt := startedAt
  status := .loading

theorem streamed_two_words :
    let contents := [(0, text "ha"), (1, text " ha")]
    Fresh (createLoadingAssistantMessage "m" 0) ∧
      (((applyAll (createLoadingAssistantMessage "m" 0) .content contents).shown .content = joined contents ∧
          (applyAll (createLoadingAssistantMessage "m" 0) .reasoning []).shown .reasoning = joined []) ↔
        AtEach Unrepeated [] contents ∧ AtEach Unrepeated [] []) := by
  have hfresh : Fresh (createLoadingAssistantMessage "m" 0) := ⟨by decide, fun type => by cases type <;> rfl⟩
  exact ⟨hfresh, streamed_iff hfresh _ _⟩

/-- The second of two equal deltas is lost. -/
theorem second_delta_lost :
    let deltas := [(0, text "ha"), (1, text "ha")]
    (applyAll (createLoadingAssistantMessage "m" 0) .content deltas).shown .content = text "ha" ∧
      (applyAll (createLoadingAssistantMessage "m" 0) .content deltas).shown .content ≠ joined deltas := by
  decide

end TokenEra.Playground
