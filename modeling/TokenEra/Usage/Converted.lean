import TokenEra.Billing.TextQuota

/-!
# Counts of converted usages

Two converters take counts apart by subtraction. Gemini's completion is the total less the prompt
where it is not reported, which is negative if the reported total is less than the prompt
(`gemini_nonneg_iff`), and its sums may be too large for an `int`. Claude's input is the prompt of a
chat usage less the cache, but only if the usage has `cache_write_tokens`; otherwise the tokens of
the cache are counted twice (`claude_adds_up_iff`).
-/

namespace TokenEra.TokenUsage

open Lib TextQuota

/-! ### Gemini -/

/-- Counts that are not negative, and an `int`. -/
structure GeminiCounts.Nonneg (m : GeminiCounts) : Prop where
  prompt : 0 ≤ m.promptTokenCount ∧ m.promptTokenCount < 2 ^ 63
  toolUse : 0 ≤ m.toolUsePromptTokenCount ∧ m.toolUsePromptTokenCount < 2 ^ 63
  candidates : 0 ≤ m.candidatesTokenCount ∧ m.candidatesTokenCount < 2 ^ 63
  thoughts : 0 ≤ m.thoughtsTokenCount ∧ m.thoughtsTokenCount < 2 ^ 63
  total : 0 ≤ m.totalTokenCount ∧ m.totalTokenCount < 2 ^ 63

def GeminiCounts.prompt (m : GeminiCounts) : Int := m.promptTokenCount + m.toolUsePromptTokenCount

def GeminiCounts.generated (m : GeminiCounts) : Int := m.candidatesTokenCount + m.thoughtsTokenCount

/-- Neither conversion has a negative count, and they agree where the estimate of the prompt is not
used. -/
def GeminiSound (m : GeminiUsageMetadata) (fallbackPromptTokens : Int) (b : BillingUsage) : Prop :=
  let billed := usageFromGeminiBillingUsage b m.toGeminiCounts
  ∀ usage, usageFromGeminiMetadata (some m) fallbackPromptTokens = some usage →
    (0 ≤ usage.promptTokens ∧ 0 ≤ usage.completionTokens) ∧ (0 ≤ billed.promptTokens ∧ 0 ≤ billed.completionTokens) ∧
      (¬ (wrap64 m.prompt ≤ 0 ∧ 0 < fallbackPromptTokens) →
        billed.promptTokens = usage.promptTokens ∧ billed.completionTokens = usage.completionTokens)

/-- The prompt is an `int`. Where the generated tokens are none, or are too many for an `int` and a
total is reported, a total that is reported covers the prompt, or the estimate that takes its
place. -/
structure TotalCovers (m : GeminiCounts) (fallbackPromptTokens : Int) : Prop where
  prompt : m.prompt < 2 ^ 63
  overflow : 2 ^ 63 ≤ m.generated → 0 < m.totalTokenCount
  total : m.generated = 0 ∨ 2 ^ 63 ≤ m.generated → 0 < m.totalTokenCount →
    m.prompt ≤ m.totalTokenCount ∧ (m.prompt = 0 → fallbackPromptTokens ≤ m.totalTokenCount)

/-- **Gemini's counts stay non-negative exactly if the total covers the prompt where the completion
is made of it, and no sum that is kept is too large.** -/
theorem gemini_nonneg_iff (m : GeminiUsageMetadata) (b : BillingUsage) (fallbackPromptTokens : Int)
    (h : m.toGeminiCounts.Nonneg) (hfallback : 0 ≤ fallbackPromptTokens ∧ fallbackPromptTokens < 2 ^ 63) :
    GeminiSound m fallbackPromptTokens b ↔ TotalCovers m.toGeminiCounts fallbackPromptTokens := by
  obtain ⟨hprompt, htool, hcandidates, hthoughts, htotal⟩ := h
  have hcovers (m : GeminiCounts) (n : Int) : TotalCovers m n ↔ m.prompt < 2 ^ 63 ∧
      (2 ^ 63 ≤ m.generated → 0 < m.totalTokenCount) ∧ _ :=
    ⟨fun h => ⟨h.prompt, h.overflow, h.total⟩, fun h => ⟨h.1, h.2.1, h.2.2⟩⟩
  simp only [hcovers, GeminiSound, GeminiCounts.prompt, GeminiCounts.generated, usageFromGeminiMetadata,
    usageFromGeminiBillingUsage, Option.some.injEq, forall_eq']
  by_cases hsum : m.promptTokenCount + m.toolUsePromptTokenCount < 2 ^ 63
  · have hdiff : ∀ n, 0 ≤ n → n < 2 ^ 63 → wrap64 (m.totalTokenCount - n) = m.totalTokenCount - n :=
      fun n _ _ => wrap64_of_fits (by omega) (by omega)
    rw [wrap64_of_fits (x := m.promptTokenCount + m.toolUsePromptTokenCount) (by omega) hsum,
      hdiff _ (by omega) hsum]
    -- the conversions differ in how they ask for a total, which is the same question for a count
    -- that is not negative
    by_cases hgenerated : m.candidatesTokenCount + m.thoughtsTokenCount < 2 ^ 63
    · rw [wrap64_of_fits (x := m.candidatesTokenCount + m.thoughtsTokenCount) (by omega) hgenerated]
      split_ifs <;> (try rw [hdiff _ (by omega) (by omega)]) <;> omega
    · rw [wrap64_of_exceeds (x := m.candidatesTokenCount + m.thoughtsTokenCount) (by omega) (by omega)]
      split_ifs <;> (try rw [hdiff _ (by omega) (by omega)]) <;> omega
  · rw [wrap64_of_exceeds (x := m.promptTokenCount + m.toolUsePromptTokenCount) (by omega) (by omega)]
    exact iff_of_false (fun hsound => by omega) fun hcovers => hsum hcovers.1

theorem gemini_nonneg_toolPrompt :
    GeminiSound { promptTokenCount := 90, toolUsePromptTokenCount := 10, totalTokenCount := 130 } 50 {} :=
  (gemini_nonneg_iff _ _ _ (by constructor <;> decide) (by decide)).2
    ⟨by decide, fun _ => by decide, fun _ _ => by decide⟩

/-- A total that leaves out the prompt of the tools. -/
theorem gemini_negative :
    let m : GeminiUsageMetadata := { promptTokenCount := 90, toolUsePromptTokenCount := 10, totalTokenCount := 90 }
    m.toGeminiCounts.Nonneg ∧ (usageFromGeminiMetadata (some m) 0).map (·.completionTokens) = some (-10) ∧
      (usageFromGeminiBillingUsage {} m.toGeminiCounts).completionTokens = -10 := by
  refine ⟨?_, by decide, by decide⟩
  constructor <;> decide

/-! ### Claude -/

/-- The record of a chat usage: one of the OpenAI kind that it has, or its own counts. -/
def chatBillingUsage (usage : Usage) : Option BillingUsage :=
  match usage.billingUsage with
  | some b =>
    if b.openAIUsage.isSome ∧ (b.source = "oai_chat" ∨ b.source = "oai_responses" ∨ b.semantic = "openai") then some b
    else newOpenAIChatBillingUsage usage.toCounts
  | none => newOpenAIChatBillingUsage usage.toCounts

def buildClaudeUsageFromOpenAIUsage (usage : Usage) : ClaudeUsage :=
  let recorded := usage.billingUsage.bind fun b =>
    if b.source = "claude_messages" ∨ b.semantic = "anthropic" then b.claudeUsage else none
  match recorded with
  | some counts => { counts with }
  | none =>
    let d := usage.promptTokensDetails
    let split := normalizeCacheCreationSplit d.cachedCreationTokens usage.claudeCacheCreation5mTokens
      usage.claudeCacheCreation1hTokens
    let cacheCreationTokens := cacheCreationTokensTotal d
    { inputTokens :=
        if 0 < d.cacheWriteTokens then max (usage.promptTokens - d.cachedTokens - cacheCreationTokens) 0
        else usage.promptTokens
      outputTokens := usage.completionTokens
      cacheCreationInputTokens := cacheCreationTokens
      cacheReadInputTokens := d.cachedTokens
      billingUsage := chatBillingUsage usage
      cacheCreation := if 0 < split.1 ∨ 0 < split.2 then some ⟨split.1, split.2⟩ else none }

/-- The counts of a chat usage are not negative, the cache is a part of the prompt, and the sums of
the counts are far from the end of an `int`. -/
structure CacheWithin (usage : Usage) : Prop where
  cached : 0 ≤ usage.promptTokensDetails.cachedTokens
  creation : 0 ≤ usage.promptTokensDetails.cachedCreationTokens
  write : 0 ≤ usage.promptTokensDetails.cacheWriteTokens
  within : usage.promptTokensDetails.cachedTokens + cacheCreationTokensTotal
    usage.promptTokensDetails ≤ usage.promptTokens
  bounded : ∀ n ∈ [usage.promptTokens, usage.claudeCacheCreation5mTokens,
    usage.claudeCacheCreation1hTokens], |n| ≤ 2 ^ 53

/-- Every token of the usage is counted once. -/
def AddsUp (usage : Usage) (claude : ClaudeUsage) : Prop :=
  claude.inputTokens + claude.cacheReadInputTokens + claude.cacheCreationInputTokens = usage.promptTokens ∧
    claude.outputTokens = usage.completionTokens ∧
    ∀ split, claude.cacheCreation = some split →
      split.ephemeral5mInputTokens + split.ephemeral1hInputTokens =
        max usage.promptTokensDetails.cachedCreationTokens
          (usage.claudeCacheCreation5mTokens + usage.claudeCacheCreation1hTokens)

/-- **The converted counts add up exactly if the usage has `cache_write_tokens` or no tokens of the
cache.** -/
theorem claude_adds_up_iff (usage : Usage) (hrecord : usage.billingUsage = none) (h : CacheWithin usage) :
    AddsUp usage (buildClaudeUsageFromOpenAIUsage usage) ↔
      0 < usage.promptTokensDetails.cacheWriteTokens ∨
        usage.promptTokensDetails.cachedTokens = 0 ∧ usage.promptTokensDetails.cachedCreationTokens = 0 := by
  obtain ⟨hcached, hcreation, hwrite, hwithin, -⟩ := h
  simp only [AddsUp, buildClaudeUsageFromOpenAIUsage, hrecord, Option.bind_none, Option.ite_none_right_eq_some]
  rw [cacheCreationTokensTotal] at hwithin ⊢
  refine (and_iff_left ⟨trivial, ?_⟩).trans ?_
  · split_ifs <;> omega
  · rintro split ⟨-, hsplit⟩
    cases hsplit
    simp only [normalizeCacheCreationSplit]
    omega

theorem claude_adds_up_write :
    let usage : Usage := { promptTokens := 100, promptTokensDetails := { cachedTokens := 60, cacheWriteTokens := 30 } }
    AddsUp usage (buildClaudeUsageFromOpenAIUsage usage) := by
  intro usage
  exact (claude_adds_up_iff usage rfl (by constructor <;> decide)).2 (.inl (by decide))

/-- A prompt that was read from the cache, without any cache creation. -/
theorem cached_counted_twice :
    let usage : Usage := { promptTokens := 100, promptTokensDetails := { cachedTokens := 60 } }
    let claude := buildClaudeUsageFromOpenAIUsage usage
    CacheWithin usage ∧ claude.inputTokens + claude.cacheReadInputTokens + claude.cacheCreationInputTokens = 160 := by
  refine ⟨?_, by decide⟩
  constructor <;> decide

end TokenEra.TokenUsage
