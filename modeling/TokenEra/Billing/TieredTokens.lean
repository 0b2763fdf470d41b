import TokenEra.Billing.TextQuota

/-!
# The counts of a tiered expression

`buildTieredTokenParams` gives an expression its variables. A usage of the OpenAI kind reports
totals: what has a variable of its own in the expression is taken out of `p` and `c`, so that each
token is priced once (`priced_once`), and what has none stays in.

A usage of the Anthropic kind reports the cache apart, its creation as a total and as a split by
lifetime that need not be there. By ratio, what the split leaves of the total is charged too
(`creationCharges`). The expression sees the split alone, so it prices every token of cache creation
only if the split has them all (`creation_priced_iff`).

Counts are integers, as the code's floats are up to `2 ^ 53`; where ratio mode's `int` sums are
compared with them, no count is beyond `2 ^ 50` (`Exact`), so that no sum is beyond either.
-/

namespace TokenEra.TextQuota

open Lib TokenUsage

/-! ### Totals -/

section Totals

variable (used : String → Bool)

def taken (parts : List (String × Int)) : Int := (parts.map fun part => if used part.1 then part.2 else 0).sum

@[simp] theorem taken_nil : taken used [] = 0 := rfl

@[simp] theorem taken_cons (name : String) (n : Int) (parts : List (String × Int)) :
    taken used ((name, n) :: parts) = (if used name then n else 0) + taken used parts := by
  simp [taken]

variable {used}

theorem taken_le_sum {parts : List (String × Int)} (h : ∀ part ∈ parts, 0 ≤ part.2) :
    taken used parts ≤ (parts.map Prod.snd).sum := by
  refine List.sum_le_sum fun part hpart => ?_
  split_ifs
  · exact le_rfl
  · exact h part hpart

theorem taken_mono {used' : String → Bool} (hsub : ∀ name, used name = true → used' name = true)
    {parts : List (String × Int)} (h : ∀ part ∈ parts, 0 ≤ part.2) : taken used parts ≤ taken used' parts := by
  refine List.sum_le_sum fun part hpart => ?_
  by_cases hused : used part.1 = true
  · rw [if_pos hused, if_pos (hsub _ hused)]
  · rw [if_neg hused]
    split_ifs
    · exact h part hpart
    · exact le_rfl

end Totals

/-- The counts of a usage that is not Anthropic's, by the variable that prices them. -/
def inputParts (usage : Counts) : List (String × Int) :=
  [("cr", usage.promptTokensDetails.cachedTokens),
    ("cc", cacheCreationTokensTotal usage.promptTokensDetails), ("cc1h", 0),
    ("img", usage.promptTokensDetails.imageTokens), ("ai", usage.promptTokensDetails.audioTokens)]

def outputParts (usage : Counts) : List (String × Int) :=
  [("img_o", usage.completionTokenDetails.imageTokens),
    ("ao", usage.completionTokenDetails.audioTokens)]

structure Nonneg (usage : Counts) : Prop where
  prompt : 0 ≤ usage.promptTokens
  completion : 0 ≤ usage.completionTokens
  cached : 0 ≤ usage.promptTokensDetails.cachedTokens
  image : 0 ≤ usage.promptTokensDetails.imageTokens
  audio : 0 ≤ usage.promptTokensDetails.audioTokens
  imageOut : 0 ≤ usage.completionTokenDetails.imageTokens
  audioOut : 0 ≤ usage.completionTokenDetails.audioTokens

structure PartsWithin (usage : Counts) : Prop where
  input : usage.promptTokensDetails.cachedTokens + cacheCreationTokensTotal usage.promptTokensDetails +
    usage.promptTokensDetails.imageTokens + usage.promptTokensDetails.audioTokens ≤ usage.promptTokens
  output : usage.completionTokenDetails.imageTokens + usage.completionTokenDetails.audioTokens ≤ usage.completionTokens

section OpenAI

variable {usage : Counts} (hsemantic : usage.usageSemantic ≠ "anthropic") (used : String → Bool)

include hsemantic in
theorem p_eq : (buildTieredTokenParams usage false used).p =
    max (usage.promptTokens - taken used (inputParts usage)) 0 := by
  simp only [buildTieredTokenParams, hsemantic, inputParts, taken_cons, taken_nil, true_and,
    decide_false, Bool.false_eq_true, if_false]
  congr 1
  ring

theorem c_eq : (buildTieredTokenParams usage false used).c =
    max (usage.completionTokens - taken used (outputParts usage)) 0 := by
  simp only [buildTieredTokenParams, outputParts, taken_cons, taken_nil, true_and]
  congr 1
  ring

theorem inputParts_nonneg (h : Nonneg usage) : ∀ part ∈ inputParts usage, 0 ≤ part.2 := by
  simp only [inputParts, List.mem_cons, List.not_mem_nil, or_false, forall_eq_or_imp, forall_eq]
  exact ⟨h.cached, le_max_right _ _, le_rfl, h.image, h.audio⟩

theorem outputParts_nonneg (h : Nonneg usage) : ∀ part ∈ outputParts usage, 0 ≤ part.2 := by
  simp only [outputParts, List.mem_cons, List.not_mem_nil, or_false, forall_eq_or_imp, forall_eq]
  exact ⟨h.imageOut, h.audioOut⟩

theorem taken_input_le (h : Nonneg usage) (hwithin : PartsWithin usage) :
    taken used (inputParts usage) ≤ usage.promptTokens := by
  refine (taken_le_sum (inputParts_nonneg h)).trans ?_
  have hinput := hwithin.input
  simp only [inputParts, List.map_cons, List.map_nil, List.sum_cons, List.sum_nil]
  omega

theorem taken_output_le (h : Nonneg usage) (hwithin : PartsWithin usage) :
    taken used (outputParts usage) ≤ usage.completionTokens := by
  refine (taken_le_sum (outputParts_nonneg h)).trans ?_
  have houtput := hwithin.output
  simp only [outputParts, List.map_cons, List.map_nil, List.sum_cons, List.sum_nil]
  omega

end OpenAI

def cachedPrompt : Counts where
  promptTokens := 1000
  completionTokens := 500
  promptTokensDetails := { cachedTokens := 200, imageTokens := 100 }

/-- The tokens of cache creation that are charged by ratio: those that the split leaves of the
total, for five minutes and for an hour. -/
def creationCharges (info : RelayInfo) (usage : Counts) : Int × Int × Int :=
  let total := (pricedTokens info true usage).2
  let tokens5m := usage.claudeCacheCreation5mTokens
  let tokens1h := usage.claudeCacheCreation1hTokens
  if total ≠ 0 ∨ 0 < tokens5m ∨ 0 < tokens1h then
    (max (wrap64 (total - tokens5m - tokens1h)) 0, tokens5m, tokens1h)
  else (0, 0, 0)

def creationCharged (info : RelayInfo) (usage : Counts) : Int :=
  (creationCharges info usage).1 + (creationCharges info usage).2.1 + (creationCharges info usage).2.2

/-- They are charged at the three ratios of cache creation, besides the prompt, what was read from
the cache, images, audio and the completion. -/
theorem weightedTokens_claude (info : RelayInfo) (usage : Counts) :
    weightedTokens info true usage =
      max (((pricedTokens info true usage).1 : ℚ) - usage.promptTokensDetails.imageTokens -
        (if info.containsAudioRatio then usage.promptTokensDetails.audioTokens else 0 : ℚ)) 0 +
      usage.promptTokensDetails.cachedTokens * info.priceData.cacheRatio +
      usage.promptTokensDetails.imageTokens * info.priceData.imageRatio +
      ((creationCharges info usage).1 * info.priceData.cacheCreationRatio +
        (creationCharges info usage).2.1 * info.priceData.cacheCreation5mRatio +
        (creationCharges info usage).2.2 * info.priceData.cacheCreation1hRatio) +
      (if info.containsAudioRatio then usage.promptTokensDetails.audioTokens else 0 : ℚ) * info.priceData.audioRatio +
      usage.completionTokens * info.priceData.completionRatio := by
  rw [weightedTokens, creationCharges]
  by_cases hcreation : (pricedTokens info true usage).2 ≠ 0 ∨ 0 < usage.claudeCacheCreation5mTokens ∨
      0 < usage.claudeCacheCreation1hTokens
  · simp [hcreation]
  · simp [hcreation]

def Exact (usage : Counts) : Prop :=
  ∀ n ∈ [usage.promptTokens, usage.promptTokensDetails.cachedTokens,
    cacheCreationTokensTotal usage.promptTokensDetails, usage.claudeCacheCreation5mTokens,
    usage.claudeCacheCreation1hTokens], |n| ≤ 2 ^ 50

/-- On OpenRouter, without custom prices, a usage without cache creation has some worked out from
the cost: no more than the prompt holds, and more than the split has. -/
structure EstimatesMore (info : RelayInfo) (usage : Counts) : Prop where
  openRouter : info.isOpenRouter = true
  none : cacheCreationTokensTotal usage.promptTokensDetails = 0
  ratio : info.priceData.cacheCreationRatio ≠ 1
  standard : info.priceData.usePrice = false ∧ info.pricingConfigured = false
  within : calcOpenRouterCacheCreateTokens info usage ≤
    usage.promptTokens - usage.promptTokensDetails.cachedTokens
  more : max 0 (usage.claudeCacheCreation5mTokens + usage.claudeCacheCreation1hTokens) <
    calcOpenRouterCacheCreateTokens info usage

section Exact

variable (info : RelayInfo) {usage : Counts} (hexact : Exact usage)

include hexact

/-- The total that is priced is that of the usage, unless it is none and the cost tells of one. -/
theorem priced_cases :
    let total := cacheCreationTokensTotal usage.promptTokensDetails
    let split := usage.claudeCacheCreation5mTokens + usage.claudeCacheCreation1hTokens
    total ≤ (pricedTokens info true usage).2 ∧ (pricedTokens info true usage).2 ≤ 2 ^ 52 ∧
      (max total split < (pricedTokens info true usage).2 ↔ EstimatesMore info usage) := by
  simp only [Exact, List.forall_mem_cons, List.not_mem_nil, false_implies, implies_true, and_true,
    abs_le] at hexact
  obtain ⟨hprompt, hcached, htotal, h5m, h1h⟩ := hexact
  have huncached : wrap64 (usage.promptTokens - usage.promptTokensDetails.cachedTokens) =
      usage.promptTokens - usage.promptTokensDetails.cachedTokens :=
    wrap64_of_fits (by omega) (by omega)
  simp only [pricedTokens, huncached, and_true, Bool.or_eq_false_iff]
  split_ifs with hrouter hguard
  · obtain ⟨hnone, hratio, hstandard, hpos, hwithin⟩ := hguard
    refine ⟨by dsimp only; omega, by dsimp only; omega, fun hmore => ?_, fun h => by rw [hnone]; exact h.more⟩
    rw [hnone] at hmore
    exact ⟨hrouter, hnone, hratio, hstandard, hwithin, hmore⟩
  · refine ⟨le_rfl, by dsimp only; omega, fun hmore => absurd hmore (by dsimp only; omega), fun h => ?_⟩
    have hmore := h.more
    exact absurd ⟨h.none, h.ratio, h.standard, by omega, h.within⟩ hguard
  · refine ⟨le_rfl, by dsimp only; omega, fun hmore => absurd hmore (by dsimp only; omega), fun h => ?_⟩
    exact absurd h.openRouter hrouter

/-- The tokens that are charged are those of the total or those of the split, whichever are more. -/
theorem creationCharged_eq :
    creationCharged info usage = max (pricedTokens info true usage).2
      (usage.claudeCacheCreation5mTokens + usage.claudeCacheCreation1hTokens) := by
  obtain ⟨hlow, hhigh, -⟩ := priced_cases info hexact
  simp only [Exact, List.forall_mem_cons, List.not_mem_nil, false_implies, implies_true, and_true,
    abs_le] at hexact
  have hpos : 0 ≤ cacheCreationTokensTotal usage.promptTokensDetails := le_max_right _ _
  rw [creationCharged, creationCharges, wrap64_of_fits (by omega) (by omega)]
  split_ifs with hcreation
  · simp only
    omega
  · simp only
    omega

theorem creationCharged_eq_iff :
    creationCharged info usage = max (cacheCreationTokensTotal usage.promptTokensDetails)
      (usage.claudeCacheCreation5mTokens + usage.claudeCacheCreation1hTokens) ↔
        ¬EstimatesMore info usage := by
  obtain ⟨hle, -, hmore⟩ := priced_cases info hexact
  rw [creationCharged_eq info hexact, ← hmore]
  omega

end Exact

/-- The expression sees as many tokens of cache creation as there are in the total or in the split,
has them in the length, and they are as many as are charged by ratio. -/
def CreationPriced (info : RelayInfo) (usage : Counts) (used : String → Bool) : Prop :=
  let t := buildTieredTokenParams usage (usageSemanticFromUsage info (some usage) = "anthropic") used
  let created := max (cacheCreationTokensTotal usage.promptTokensDetails)
    (usage.claudeCacheCreation5mTokens + usage.claudeCacheCreation1hTokens)
  t.cc + t.cc1h = created ∧ t.len = usage.promptTokens + usage.promptTokensDetails.cachedTokens + created ∧
    creationCharged info usage = created

/-- The split has all of the total, where the usage says that it is Anthropic's; where only the
format of the request does, the total has all of the split. -/
def SplitComplete (usage : Counts) : Prop :=
  if usage.usageSemantic = "anthropic" then
    cacheCreationTokensTotal usage.promptTokensDetails ≤ usage.claudeCacheCreation5mTokens +
      usage.claudeCacheCreation1hTokens
  else
    usage.claudeCacheCreation5mTokens + usage.claudeCacheCreation1hTokens ≤
      cacheCreationTokensTotal usage.promptTokensDetails

instance (usage : Counts) : Decidable (SplitComplete usage) := by unfold SplitComplete; infer_instance

theorem tieredCreation_eq_iff (usage : Counts) (used : String → Bool) :
    (buildTieredTokenParams usage true used).cc + (buildTieredTokenParams usage true used).cc1h =
      max (cacheCreationTokensTotal usage.promptTokensDetails)
        (usage.claudeCacheCreation5mTokens + usage.claudeCacheCreation1hTokens) ↔ SplitComplete usage := by
  by_cases hsemantic : usage.usageSemantic = "anthropic"
  · simp only [buildTieredTokenParams, SplitComplete, hsemantic, decide_true, if_true]
    omega
  · simp only [buildTieredTokenParams, SplitComplete, hsemantic, decide_false, if_false, Bool.false_eq_true]
    omega

/-- **The expression prices every token of cache creation exactly if the split is complete and
nothing is worked out from the cost.** -/
theorem creation_priced_iff (info : RelayInfo) (usage : Usage) (used : String → Bool)
    (hclaude : usageSemanticFromUsage info (some (billedCounts usage)) = "anthropic")
    (hexact : Exact (billedCounts usage)) :
    CreationPriced info (billedCounts usage) used ↔
      SplitComplete (billedCounts usage) ∧ ¬EstimatesMore info (billedCounts usage) := by
  have hcc := tieredCreation_eq_iff (billedCounts usage) used
  have hlen : (buildTieredTokenParams (billedCounts usage) true used).len =
      (billedCounts usage).promptTokens + (billedCounts usage).promptTokensDetails.cachedTokens +
        ((buildTieredTokenParams (billedCounts usage) true used).cc +
          (buildTieredTokenParams (billedCounts usage) true used).cc1h) := by
    simp only [buildTieredTokenParams, if_true]
    ring
  rw [CreationPriced, ← hcc, ← creationCharged_eq_iff info hexact]
  simp only [hclaude, decide_true, hlen]
  constructor
  · rintro ⟨hcc, -, hcharged⟩
    exact ⟨hcc, hcharged⟩
  · rintro ⟨hcc, hcharged⟩
    exact ⟨hcc, by rw [hcc], hcharged⟩

def cacheWrite (split : Option ClaudeCacheCreationUsage) : Usage where
  billingUsage := some
    { source := "claude_messages", semantic := "anthropic",
      claudeUsage := some { inputTokens := 10, cacheCreationInputTokens := 100, cacheCreation := split } }

theorem splitWrite_creation_priced :
    CreationPriced {} (billedCounts (cacheWrite (some ⟨60, 40⟩))) (fun _ => true) := by
  refine (creation_priced_iff {} (cacheWrite (some ⟨60, 40⟩)) (fun _ => true) (by decide +kernel)
    (by unfold Exact; decide +kernel)).2 ⟨by decide +kernel, fun hmore => ?_⟩
  cases hmore.openRouter

/-- Without the split, the expression sees none of the tokens that are charged by ratio. -/
theorem unsplitWrite_unpriced :
    usageSemanticFromUsage {} (some (billedCounts (cacheWrite none))) = "anthropic" ∧
      (let t := buildTieredTokenParams (billedCounts (cacheWrite none)) true (fun _ => true)
       t.cc + t.cc1h = 0 ∧ t.len = 10) ∧
      creationCharged {} (billedCounts (cacheWrite none)) = 100 ∧
      ¬CreationPriced {} (billedCounts (cacheWrite none)) (fun _ => true) := by
  refine ⟨by decide +kernel, ⟨by decide +kernel, by decide +kernel⟩, by decide +kernel, ?_⟩
  rintro ⟨hpriced, -⟩
  exact absurd hpriced (by decide +kernel)

end TokenEra.TextQuota
