import TokenEra.ClaudeToChat
import TokenEra.Lib.Run
import TokenEra.Usage.Routes

/-!
# The usage of a converted Claude stream

`ConvertStreamResponseChunk` takes the events of a Claude stream to the format of the client, one
after the other, and its state keeps the last usage that a step returned. A Claude stream reports
its input in `message_start` and its output in the last `message_delta`. The steps do not add the
two up, so that what is kept at the end is the output alone (`accumulated_iff`).

What the last step writes is left out, as are chunks that it refuses, which end a stream.
-/

namespace TokenEra.TokenUsage

open Lib
open ClaudeToChat (streamResponseClaude2OpenAI EventType)
open ChatToClaude (Chunk)

variable {I : Type}

/-- An event of a Claude stream: its content and what it reports. -/
abbrev ClaudeEvent (I : Type) := ClaudeResponse (ClaudeToChat.ClaudeResponse I)

/-- `ResponseStreamState`. The second usage is that of the state of the step to the Responses
format. -/
structure StreamState where
  usage : Option Usage := none
  responsesUsage : Usage := {}
  deriving DecidableEq, Repr

def StreamState.rememberUsage (s : StreamState) (usage : Option Usage) :
    StreamState := { s with usage := usage <|> s.usage }

def StreamState.lastStep (s : StreamState) (target : RelayFormat) (chunk : Chunk Usage) : StreamState :=
  match target with
  | .openAIResponses =>
    let usage := (chunk.usage.map usageFromChatUsage).getD s.responsesUsage
    { s with responsesUsage := usage }.rememberUsage (some usage)
  | .gemini => s.rememberUsage (chunk.usage.map usageFromChatUsage)
  | _ => s

def convertStreamResponseChunk (target : RelayFormat) (s : StreamState) (e : ClaudeEvent I) :
    Except ClaudeToChat.Panic StreamState :=
  let usage := usageFromClaudeResponse e
  match target with
  | .claude => .ok (s.rememberUsage usage)
  | _ =>
    match streamResponseClaude2OpenAI e.content with
    | .error panic => .error panic
    | .ok none => .ok (s.rememberUsage usage)
    | .ok (some chunk) => .ok ((s.rememberUsage usage).lastStep target { chunk with usage := usage })

def finalizeStreamResponse (target : RelayFormat) (s : StreamState) : StreamState :=
  match target with
  | .openAIResponses => s.rememberUsage (some s.responsesUsage)
  | _ => s

/-- `ResponseStreamState.Usage`. -/
def StreamState.currentUsage (s : StreamState) (target : RelayFormat) : Option Usage :=
  s.usage <|> if target = .openAIResponses then some s.responsesUsage else none

def convertStream (target : RelayFormat) (events : List (ClaudeEvent I)) : Except ClaudeToChat.Panic (Option Usage) :=
  (events.foldlM (convertStreamResponseChunk target) {}).map fun s =>
    (finalizeStreamResponse target s).currentUsage target

/-! ### Streams of Claude -/

/-- `message_start` reports `start`, and the last `message_delta` reports an output and nothing
else. -/
structure StreamOf (events : List (ClaudeEvent I)) (start : ClaudeUsage) (output : Int) : Prop where
  shape : ∃ pre first mid last post, events = (pre ++ first :: mid) ++ last :: post ∧
    first.content.type = .messageStart ∧ first.usage = none ∧ first.messageUsage = some start ∧
    last.content.type = .messageDelta ∧ last.usage = some { outputTokens := output } ∧
    ∀ e ∈ post, e.usage = none ∧ e.messageUsage = none
  input : 0 ≤ start.inputTokens
  cacheRead : 0 ≤ start.cacheReadInputTokens
  creation : 0 ≤ start.cacheCreationInputTokens
  split5m : 0 ≤ start.getCacheCreation5mTokens
  split1h : 0 ≤ start.getCacheCreation1hTokens

/-- The usage has the input of `message_start` and the output of the last `message_delta`. -/
structure Accumulated (start : ClaudeUsage) (output : Int) (usage : Usage) : Prop where
  prompt : usage.promptTokens = (usageFromClaudeAPIUsage start).promptTokens
  cached : (usage.promptTokensDetails.orDetails usage.inputTokensDetails).cachedTokens = start.cacheReadInputTokens
  creation : (usage.promptTokensDetails.orDetails usage.inputTokensDetails).cachedCreationTokens =
    start.cacheCreationInputTokens
  completion : usage.completionTokens = output

def NoInput (start : ClaudeUsage) : Prop :=
  start.inputTokens = 0 ∧ start.cacheReadInputTokens = 0 ∧ start.cacheCreationInputTokens = 0 ∧
    start.getCacheCreation5mTokens = 0 ∧ start.getCacheCreation1hTokens = 0

def viewOf (usage : Usage) : RelayFormat → Usage
  | .claude | .openAI => usage
  | .openAIResponses | .gemini => usageFromChatUsage usage

def Keeps (target : RelayFormat) (usage : Usage) (s : StreamState) : Prop :=
  s.usage = some (viewOf usage target) ∧ (target = .openAIResponses → s.responsesUsage = viewOf usage target)

variable {e : ClaudeEvent I} {s s' : StreamState} {target : RelayFormat} {usage : Usage}

theorem convertChunk_cases (h : convertStreamResponseChunk target s e = .ok s') :
    (s' = s.rememberUsage (usageFromClaudeResponse e) ∧ (e.content.type = .messageDelta → target = .claude)) ∨
      ∃ chunk : Chunk Usage, chunk.usage = usageFromClaudeResponse e ∧
        s' = (s.rememberUsage (usageFromClaudeResponse e)).lastStep target chunk := by
  by_cases hclaude : target = .claude
  · subst hclaude
    exact .inl ⟨(Except.ok.inj h).symm, fun _ => rfl⟩
  · have hconvert : convertStreamResponseChunk target s e =
        match streamResponseClaude2OpenAI e.content with
        | .error panic => .error panic
        | .ok none => .ok (s.rememberUsage (usageFromClaudeResponse e))
        | .ok (some chunk) => .ok ((s.rememberUsage (usageFromClaudeResponse e)).lastStep target
            { chunk with usage := usageFromClaudeResponse e }) := by
      cases target <;> first | rfl | exact absurd rfl hclaude
    rw [hconvert] at h
    split at h
    · cases h
    · rename_i hnone
      refine .inl ⟨(Except.ok.inj h).symm, fun htype => ?_⟩
      simp [streamResponseClaude2OpenAI, htype] at hnone
    · exact .inr ⟨_, rfl, (Except.ok.inj h).symm⟩

/-- The usage of a `message_delta` takes the place of what was kept. -/
theorem keeps_messageDelta
    (htype : e.content.type = .messageDelta) (husage : usageFromClaudeResponse e = some usage)
    (h : convertStreamResponseChunk target s e = .ok s') : Keeps target usage s' := by
  obtain ⟨rfl, htarget⟩ | ⟨chunk, hchunk, rfl⟩ := convertChunk_cases h
  · rw [htarget htype, husage]
    exact ⟨rfl, nofun⟩
  · rw [husage] at hchunk ⊢
    cases target <;> simp [Keeps, viewOf, StreamState.lastStep, StreamState.rememberUsage, hchunk]

theorem keeps_silent (hs : Keeps target usage s) (husage : usageFromClaudeResponse e = none)
    (h : convertStreamResponseChunk target s e = .ok s') : Keeps target usage s' := by
  obtain ⟨rfl, -⟩ | ⟨chunk, hchunk, rfl⟩ := convertChunk_cases h
  · rw [husage]
    exact hs
  · rw [husage] at hchunk ⊢
    obtain ⟨hkept, hresponses⟩ := hs
    cases target with
    | openAIResponses =>
      simp [Keeps, StreamState.lastStep, StreamState.rememberUsage, hchunk, hresponses rfl]
    | openAI | claude | gemini =>
      simp [Keeps, StreamState.lastStep, StreamState.rememberUsage, hchunk, hkept]

theorem keeps_silents {events : List (ClaudeEvent I)}
    (hs : Keeps target usage s) (hevents : ∀ e ∈ events, e.usage = none ∧ e.messageUsage = none)
    (h : events.foldlM (convertStreamResponseChunk target) s = .ok s') : Keeps target usage s' := by
  induction events generalizing s with
  | nil =>
    cases h
    exact hs
  | cons e events ih =>
    obtain ⟨⟨hown, hmessage⟩, hrest⟩ := List.forall_mem_cons.1 hevents
    obtain ⟨t, ht, h⟩ := bind_eq_ok.1 h
    exact ih (keeps_silent hs (by rw [usageFromClaudeResponse, hown, hmessage]; rfl) ht) hrest h

/-- What is kept at the end of a stream is what the last `message_delta` reports. -/
theorem convertStream_eq {events : List (ClaudeEvent I)} {start : ClaudeUsage} {output : Int}
    {usage : Option Usage} (hstream : StreamOf events start output) (h : convertStream target events = .ok usage) :
    usage = some (viewOf (usageFromClaudeAPIUsage { outputTokens := output }) target) := by
  obtain ⟨pre, first, mid, last, post, rfl, -, -, -, htype, hlast, hpost⟩ := hstream.shape
  rw [convertStream, List.foldlM_append] at h
  cases hrun : (do
      let s ← (pre ++ first :: mid).foldlM (convertStreamResponseChunk target) {}
      (last :: post).foldlM (convertStreamResponseChunk target) s : Except ClaudeToChat.Panic StreamState) with
  | error panic => rw [hrun] at h; cases h
  | ok s =>
    rw [hrun] at h
    cases h
    obtain ⟨s₀, -, hrest⟩ := bind_eq_ok.1 hrun
    obtain ⟨s₁, hdelta, hsilent⟩ := bind_eq_ok.1 hrest
    have hreport : usageFromClaudeResponse last = some (usageFromClaudeAPIUsage { outputTokens := output }) := by
      rw [usageFromClaudeResponse, hlast]
      rfl
    obtain ⟨hkept, hresponses⟩ := keeps_silents (keeps_messageDelta htype hreport hdelta) hpost hsilent
    cases target with
    | openAIResponses =>
      simp [finalizeStreamResponse, StreamState.rememberUsage, StreamState.currentUsage,
      hresponses rfl]
    | openAI | claude | gemini => simp [finalizeStreamResponse, StreamState.currentUsage, hkept]

/-- **The usage of a stream is accumulated exactly if `message_start` has nothing to add.** -/
theorem accumulated_iff (target : RelayFormat) (events : List (ClaudeEvent I)) (start : ClaudeUsage) (output : Int)
    (usage : Option Usage) (hstream : StreamOf events start output) (h : convertStream target events = .ok usage) :
    (∃ u, usage = some u ∧ Accumulated start output u) ↔ NoInput start := by
  rw [convertStream_eq hstream h]
  have hprompt : (viewOf (usageFromClaudeAPIUsage { outputTokens := output }) target).promptTokens = 0 := by
    cases target <;> rfl
  have hdetails : (viewOf (usageFromClaudeAPIUsage { outputTokens := output }) target).promptTokensDetails.orDetails
      (viewOf (usageFromClaudeAPIUsage { outputTokens := output }) target).inputTokensDetails = {} := by
    cases target <;> rfl
  have hcompletion : (viewOf (usageFromClaudeAPIUsage { outputTokens := output })
    target).completionTokens = output := by
    cases target <;> rfl
  have htotal : (usageFromClaudeAPIUsage start).promptTokens =
      start.inputTokens + start.cacheReadInputTokens + if start.getCacheCreation5mTokens +
        start.getCacheCreation1hTokens = 0
        then start.cacheCreationInputTokens
        else max start.cacheCreationInputTokens (start.getCacheCreation5mTokens + start.getCacheCreation1hTokens) := rfl
  obtain ⟨-, hinput, hread, hcreation, h5m, h1h⟩ := hstream
  constructor
  · rintro ⟨u, hu, hacc⟩
    cases hu
    have htokens := hacc.prompt
    have hcached := hacc.cached
    have hcreated := hacc.creation
    rw [hprompt, htotal] at htokens
    rw [hdetails] at hcached hcreated
    dsimp only at hcached hcreated
    rw [NoInput]
    split_ifs at htokens <;> omega
  · rintro ⟨hno, hnoRead, hnoCreation, hno5m, hno1h⟩
    refine ⟨_, rfl, ?_, ?_, ?_, hcompletion⟩
    · rw [hprompt, htotal, hno, hnoRead, hnoCreation, hno5m, hno1h]
      rfl
    · rw [hdetails, hnoRead]
    · rw [hdetails, hnoCreation]

def shortStream (start : ClaudeUsage) (output : Int) : List (ClaudeEvent Unit) :=
  [⟨{ type := .messageStart }, none, some start⟩, ⟨{ type := .messageDelta }, some { outputTokens := output }, none⟩,
    ⟨{ type := .messageStop }, none, none⟩]

theorem accumulated_empty :
    ∃ u, convertStream .openAIResponses (shortStream {} 7) = .ok (some u) ∧ Accumulated {} 7 u := by
  have hstream : StreamOf (shortStream {} 7) {} 7 :=
    ⟨⟨[], _, [], _, _, rfl, rfl, rfl, rfl, rfl, rfl, by simp⟩, le_rfl, le_rfl, le_rfl, le_rfl, le_rfl⟩
  obtain ⟨u, hu, hacc⟩ := (accumulated_iff .openAIResponses _ _ _ _ hstream rfl).2 ⟨rfl, rfl, rfl, rfl, rfl⟩
  exact ⟨u, congrArg Except.ok hu, hacc⟩

/-- In every format, the input of the stream is lost. -/
theorem input_lost :
    ([.openAI, .openAIResponses, .claude, .gemini] : List RelayFormat).map (fun target =>
      (convertStream target (shortStream { inputTokens := 10, cacheReadInputTokens := 20 } 7)).map fun usage =>
        usage.map fun u => (u.promptTokens, u.completionTokens)) = List.replicate 4 (.ok (some (0, 7))) := rfl

end TokenEra.TokenUsage
