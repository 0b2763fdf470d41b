import TokenEra.Billing.TextQuota

/-!
# The range of a text quota

By ratio or by price, a request is charged between `0` and `MaxQuota`, whatever its counts are: the
tokens left of the prompt are cut off at zero, a value that is not positive becomes `1`, and the
conversion saturates. So the quota grows with the prompt and with the completion, as long as their
sum is an `int` (`SumsFit`): one that wraps to less than nothing is not billable, and free. One case
is left out: OpenRouter's Claude usage without cache creation, where that count is worked out from
the cost and the counts (`Rederives`).
-/

namespace TokenEra.TextQuota

open Lib TokenUsage

/-! ### Conversion -/

variable {d : ℚ} {info : RelayInfo} {usage : Counts} {c c' p p' : Int}

theorem roundHalfAway_of_nonneg (h : 0 ≤ d) : roundHalfAway d = ⌊d + 1 / 2⌋ := if_pos h

theorem roundHalfAway_nonneg (h : 0 ≤ d) : 0 ≤ roundHalfAway d := by
  rw [roundHalfAway_of_nonneg h]
  exact Int.floor_nonneg.2 (by linarith)

theorem roundHalfAway_mono : Monotone roundHalfAway := by
  intro a b hab
  by_cases ha : 0 ≤ a
  · rw [roundHalfAway_of_nonneg ha, roundHalfAway_of_nonneg (ha.trans hab)]
    exact Int.floor_le_floor (by linarith)
  · have hneg : roundHalfAway a = -⌊-a + 1 / 2⌋ := if_neg ha
    have hfloor : 0 ≤ ⌊-a + 1 / 2⌋ := Int.floor_nonneg.2 (by linarith)
    by_cases hb : 0 ≤ b
    · have := roundHalfAway_nonneg hb
      omega
    · have hneg' : roundHalfAway b = -⌊-b + 1 / 2⌋ := if_neg hb
      have hle : ⌊-b + 1 / 2⌋ ≤ ⌊-a + 1 / 2⌋ := Int.floor_le_floor (by linarith)
      omega

theorem quotaFromDecimal_eq : quotaFromDecimal d = max minQuota (min (roundHalfAway d) maxQuota) := by
  rw [quotaFromDecimal, saturateQuota, maxQuota, minQuota]
  split_ifs <;> simp <;> omega

theorem quotaFromDecimal_mono : Monotone quotaFromDecimal := by
  intro a b hab
  have hround := roundHalfAway_mono hab
  rw [quotaFromDecimal_eq, quotaFromDecimal_eq]
  omega

theorem quotaFromDecimal_le : quotaFromDecimal d ≤ maxQuota := by
  rw [quotaFromDecimal_eq, minQuota, maxQuota]
  omega

theorem quotaFromDecimal_nonneg (h : 0 ≤ d) : 0 ≤ quotaFromDecimal d := by
  have hzero : quotaFromDecimal 0 = 0 := by decide +kernel
  rw [← hzero]
  exact quotaFromDecimal_mono h

theorem exists_applyOtherRatios (ratios : List ℚ) :
    ∃ m : ℚ, 0 < m ∧ ∀ value, applyOtherRatios ratios value = value * m := by
  induction ratios with
  | nil => exact ⟨1, one_pos, fun value => (mul_one value).symm⟩
  | cons ratio ratios ih =>
    obtain ⟨m, hm, hvalue⟩ := ih
    by_cases hratio : 0 < ratio ∧ ratio ≠ 1
    · refine ⟨ratio * m, mul_pos hratio.1 hm, fun value => ?_⟩
      rw [applyOtherRatios, List.foldl_cons, if_pos hratio, ← mul_assoc]
      exact hvalue _
    · refine ⟨m, hm, fun value => ?_⟩
      rw [applyOtherRatios, List.foldl_cons, if_neg hratio]
      exact hvalue value

/-! ### The tool surcharge -/

def ToolSurchargeItem.Nonneg (item : ToolSurchargeItem) : Prop := 0 ≤ item.count ∧ 0 ≤ item.price

theorem collect_nonneg {items : List ToolSurchargeItem} (h : ∀ item ∈ items, item.Nonneg) (name : String)
    (count : Int) : ∀ item ∈ collectToolSurchargeItem info items name count, item.Nonneg := by
  rw [collectToolSurchargeItem]
  split_ifs with hskip
  · exact h
  · rw [not_or, not_le, not_le] at hskip
    intro item hitem
    rcases List.mem_append.1 hitem with hitem | hitem
    · exact h item hitem
    · rw [List.mem_singleton.1 hitem]
      exact ⟨hskip.1.le, hskip.2.le⟩

theorem mergeItem_nonneg {merged : List ToolSurchargeItem} (h : ∀ item ∈ merged, item.Nonneg) {item : ToolSurchargeItem}
    (hitem : item.Nonneg) : ∀ x ∈ mergeItem merged item, x.Nonneg := by
  rw [mergeItem]
  split
  · rw [List.forall_mem_singleton]
    exact hitem
  · rename_i last hlast
    obtain ⟨hcount, hprice⟩ := h last (List.mem_of_getLast? hlast)
    split_ifs <;> intro x hx
    · rcases List.mem_append.1 hx with hx | hx
      · exact h x (List.dropLast_subset _ hx)
      · rw [List.mem_singleton.1 hx]
        exact ⟨le_min (add_nonneg hcount hitem.1) (by decide), hprice⟩
    · rcases List.mem_append.1 hx with hx | hx
      · exact h x hx
      · rw [List.mem_singleton.1 hx]
        exact hitem

theorem foldl_nonneg {A : Type} {f : List ToolSurchargeItem → A → List ToolSurchargeItem} {l : List A}
    (hf : ∀ items, (∀ item ∈ items, item.Nonneg) → ∀ a ∈ l, ∀ item ∈ f items a, item.Nonneg) :
    ∀ item ∈ l.foldl f [], item.Nonneg :=
  List.foldlRecOn l f (motive := fun items => ∀ item ∈ items, ToolSurchargeItem.Nonneg item) nofun fun items h a ha =>
    hf items h a ha

theorem toolSurchargeItems_nonneg : ∀ item ∈ toolSurchargeItems info, item.Nonneg := by
  have hbuilt : ∀ item ∈ info.builtInTools.foldl
      (fun items tool => collectToolSurchargeItem info items tool.1 tool.2) [],
      item.Nonneg := foldl_nonneg fun items h tool _ => collect_nonneg h tool.1 tool.2
  have hmerge : ∀ items : List ToolSurchargeItem, (∀ item ∈ items, item.Nonneg) →
      ∀ item ∈ mergeToolSurchargeItems items, item.Nonneg := by
    intro items h
    refine foldl_nonneg fun merged hmerged item hitem => mergeItem_nonneg hmerged (h item ?_)
    exact (List.perm_insertionSort _ items).mem_iff.1 hitem
  refine hmerge _ ?_
  unfold collectedItems
  split_ifs <;> repeat' apply collect_nonneg
  all_goals exact hbuilt

theorem decimalDiv_nonneg {a b : ℚ} (ha : 0 ≤ a) (hb : 0 ≤ b) : 0 ≤ decimalDiv a b := by
  have hround := roundHalfAway_nonneg (mul_nonneg (div_nonneg ha hb) (by norm_num : (0 : ℚ) ≤ 10 ^ 16))
  exact div_nonneg (Int.cast_nonneg hround) (by norm_num)

structure RelayInfo.Nonneg (info : RelayInfo) : Prop where
  modelPrice : 0 ≤ info.priceData.modelPrice
  modelRatio : 0 ≤ info.priceData.modelRatio
  completionRatio : 0 ≤ info.priceData.completionRatio
  groupRatio : 0 ≤ info.priceData.groupRatio
  quotaPerUnit : 0 ≤ info.quotaPerUnit

theorem surcharge_nonneg (h : info.Nonneg) : 0 ≤ calculateTextToolCallSurcharge info := by
  refine List.sum_nonneg fun charge hcharge => ?_
  obtain ⟨item, hitem, rfl⟩ := List.mem_map.1 hcharge
  obtain ⟨hcount, hprice⟩ := toolSurchargeItems_nonneg item hitem
  have hproduct : 0 ≤ item.price * item.count := mul_nonneg hprice (Int.cast_nonneg hcount)
  exact mul_nonneg (mul_nonneg (decimalDiv_nonneg hproduct (by norm_num)) h.groupRatio) h.quotaPerUnit

/-! ### The quota before its last adjustment -/

def RelayInfo.ratio (info : RelayInfo) : ℚ := info.priceData.modelRatio * info.priceData.groupRatio

def ratioValue (info : RelayInfo) (isClaude : Bool) (usage : Counts) : ℚ :=
  applyOtherRatios info.priceData.otherRatios (weightedTokens info isClaude usage * info.ratio) +
    calculateTextToolCallSurcharge info

def rawQuota (info : RelayInfo) (isClaude : Bool) (usage : Counts) : Int :=
  if info.priceData.usePrice then
    quotaFromDecimal
      (applyOtherRatios info.priceData.otherRatios
        (info.priceData.modelPrice * info.quotaPerUnit * info.priceData.groupRatio) +
        calculateTextToolCallSurcharge info)
  else
    quotaFromDecimal (if info.ratio ≠ 0 ∧ ratioValue info isClaude usage ≤ 0 then 1 else ratioValue info isClaude usage)

def countsOf (info : RelayInfo) (usage : Option Counts) : Counts :=
  usage.getD { promptTokens := info.estimatePromptTokens, totalTokens := info.estimatePromptTokens }

def isClaudeOf (info : RelayInfo) (usage : Option Counts) : Bool := usageSemanticFromUsage info usage = "anthropic"

theorem summary_quota (usage : Option Counts) :
    (calculateTextQuotaSummary info usage).quota =
      if (calculateTextQuotaSummary info usage).hasBillableUsage = false then 0
      else if info.ratio ≠ 0 ∧ rawQuota info (isClaudeOf info usage) (countsOf info usage) = 0 then 1
      else rawQuota info (isClaudeOf info usage) (countsOf info usage) := by
  have hadjusted : ∀ (s : Summary) (ratio : ℚ), (s.adjusted ratio).quota =
      if (s.adjusted ratio).hasBillableUsage = false then 0 else if ratio ≠ 0 ∧ s.quota = 0 then 1 else s.quota := by
    intro s ratio
    simp only [Summary.hasBillableUsage, adjusted_totalTokens, adjusted_surcharge]
    rw [Summary.adjusted, Summary.hasBillableUsage]
    split_ifs <;> rfl
  exact hadjusted _ _

theorem ratioValue_nonneg (h : info.Nonneg) (hratio : info.ratio = 0) (isClaude : Bool) :
    0 ≤ ratioValue info isClaude usage := by
  obtain ⟨m, -, hm⟩ := exists_applyOtherRatios info.priceData.otherRatios
  rw [ratioValue, hm, hratio, mul_zero, zero_mul, zero_add]
  exact surcharge_nonneg h

theorem rawQuota_nonneg (h : info.Nonneg) (isClaude : Bool) (usage : Counts) :
    0 ≤ rawQuota info isClaude usage := by
  rw [rawQuota]
  split_ifs with hprice hlow
  · obtain ⟨m, hpos, hm⟩ := exists_applyOtherRatios info.priceData.otherRatios
    rw [hm]
    have hproduct := mul_nonneg (mul_nonneg (mul_nonneg h.modelPrice h.quotaPerUnit) h.groupRatio) hpos.le
    exact quotaFromDecimal_nonneg (add_nonneg hproduct (surcharge_nonneg h))
  · exact quotaFromDecimal_nonneg one_pos.le
  · apply quotaFromDecimal_nonneg
    by_cases hratio : info.ratio = 0
    · exact ratioValue_nonneg h hratio isClaude
    · exact (lt_of_not_ge fun hle => hlow ⟨hratio, hle⟩).le

theorem rawQuota_le (info : RelayInfo) (isClaude : Bool) (usage : Counts) :
    rawQuota info isClaude usage ≤ maxQuota := by
  rw [rawQuota]
  split_ifs <;> exact quotaFromDecimal_le

/-! ### Growth -/

def Rederives (info : RelayInfo) (usage : Counts) : Prop :=
  info.isOpenRouter = true ∧ isClaudeOf info (some usage) = true ∧
    cacheCreationTokensTotal usage.promptTokensDetails = 0 ∧
    info.priceData.cacheCreationRatio ≠ 1 ∧ (info.priceData.usePrice || info.pricingConfigured) = false

abbrev withTotals (usage : Counts) (prompt completion : Int) : Counts :=
  { usage with promptTokens := prompt, completionTokens := completion }

theorem isClaudeOf_withTotals :
    isClaudeOf info (some (withTotals usage p c)) = isClaudeOf info (some usage) := rfl

/-- The sums and differences of the totals that are taken fit an `int`: the total, and on OpenRouter
what the cache leaves of a Claude prompt. -/
structure SumsFit (info : RelayInfo) (usage : Counts) : Prop where
  total : -2 ^ 63 ≤ usage.promptTokens + usage.completionTokens ∧
    usage.promptTokens + usage.completionTokens < 2 ^ 63
  uncached : info.isOpenRouter = true → isClaudeOf info (some usage) = true →
    ∀ n ∈ [usage.promptTokens - usage.promptTokensDetails.cachedTokens,
      usage.promptTokens - usage.promptTokensDetails.cachedTokens -
        cacheCreationTokensTotal usage.promptTokensDetails], -2 ^ 63 ≤ n ∧ n < 2 ^ 63

theorem pricedTokens_withTotals (h : ¬ Rederives info usage) :
    ∃ k : Int, ∀ p c, SumsFit info (withTotals usage p c) →
      pricedTokens info (isClaudeOf info (some usage)) (withTotals usage p c) =
        (p - k, cacheCreationTokensTotal usage.promptTokensDetails) := by
  by_cases hrouter : info.isOpenRouter = true ∧ isClaudeOf info (some usage) = true
  · refine ⟨usage.promptTokensDetails.cachedTokens +
      cacheCreationTokensTotal usage.promptTokensDetails, fun p c hfits => ?_⟩
    have huncached := hfits.uncached hrouter.1 hrouter.2
    simp only [List.forall_mem_cons, List.not_mem_nil] at huncached
    rw [pricedTokens, if_pos hrouter]
    dsimp only [withTotals] at huncached ⊢
    have hcost : ∀ {q : Prop}, ¬ (cacheCreationTokensTotal usage.promptTokensDetails = 0 ∧
        info.priceData.cacheCreationRatio ≠ 1 ∧ (info.priceData.usePrice || info.pricingConfigured) = false ∧ q) := by
      rintro q ⟨hnone, hone, hcustom, -⟩
      exact h ⟨hrouter.1, hrouter.2, hnone, hone, hcustom⟩
    rw [if_neg hcost, wrap64_of_fits huncached.1.1 huncached.1.2,
      wrap64_of_fits huncached.2.1.1 huncached.2.1.2, sub_sub]
  · refine ⟨0, fun p c _ => ?_⟩
    rw [pricedTokens, if_neg hrouter, sub_zero]

section

variable (h : info.Nonneg) (hno : ¬ Rederives info usage)
  (hfits : SumsFit info (withTotals usage p c)) (hfits' : SumsFit info (withTotals usage p' c'))
  (hp : p ≤ p') (hc : c ≤ c')

include h hno hfits hfits' hp hc

theorem weightedTokens_mono :
    weightedTokens info (isClaudeOf info (some usage)) (withTotals usage p c) ≤
      weightedTokens info (isClaudeOf info (some usage)) (withTotals usage p' c') := by
  obtain ⟨k, hk⟩ := pricedTokens_withTotals hno
  have hratio := h.completionRatio
  simp only [weightedTokens, hk p c hfits, hk p' c' hfits']
  -- what is left beside the prompt and the completion does not depend on the totals
  gcongr
  all_goals exact le_rfl

theorem ratioValue_mono :
    ratioValue info (isClaudeOf info (some usage)) (withTotals usage p c) ≤
      ratioValue info (isClaudeOf info (some usage)) (withTotals usage p' c') := by
  obtain ⟨m, hpos, hm⟩ := exists_applyOtherRatios info.priceData.otherRatios
  have hratio : 0 ≤ info.ratio := mul_nonneg h.modelRatio h.groupRatio
  have htokens := weightedTokens_mono h hno hfits hfits' hp hc
  simp only [ratioValue, hm]
  gcongr

/-- A billable request costs `1` at least, unless its ratio is zero. -/
theorem charge_mono :
    rawQuota info (isClaudeOf info (some usage)) (withTotals usage p c) ≤
        rawQuota info (isClaudeOf info (some usage)) (withTotals usage p' c') ∨
      info.ratio ≠ 0 ∧ rawQuota info (isClaudeOf info (some usage)) (withTotals usage p c) ≤ 1 := by
  have hvalue := ratioValue_mono h hno hfits hfits' hp hc
  have hone : quotaFromDecimal 1 = 1 := by decide +kernel
  rw [rawQuota, rawQuota]
  by_cases hprice : info.priceData.usePrice = true
  · simp [hprice]
  · simp only [hprice, if_false, Bool.false_eq_true]
    by_cases hlow : info.ratio ≠ 0 ∧ ratioValue info (isClaudeOf info (some usage)) (withTotals usage p c) ≤ 0
    · rw [if_pos hlow, hone]
      exact .inr ⟨hlow.1, le_rfl⟩
    · rw [if_neg hlow, if_neg fun hhigh => hlow ⟨hhigh.1, hvalue.trans hhigh.2⟩]
      exact .inl (quotaFromDecimal_mono hvalue)

end

theorem summary_range (h : info.Nonneg) (usage : Option Counts) :
    0 ≤ (calculateTextQuotaSummary info usage).quota ∧ (calculateTextQuotaSummary info usage).quota ≤ maxQuota := by
  have hlow := rawQuota_nonneg h (isClaudeOf info usage) (countsOf info usage)
  have hhigh := rawQuota_le info (isClaudeOf info usage) (countsOf info usage)
  rw [summary_quota]
  split_ifs
  · exact ⟨le_rfl, by decide⟩
  · exact ⟨one_pos.le, by decide⟩
  · exact ⟨hlow, hhigh⟩

theorem summary_quota_of_billable {usage : Option Counts}
    (h : (calculateTextQuotaSummary info usage).hasBillableUsage = true) :
    (calculateTextQuotaSummary info usage).quota =
      if info.ratio ≠ 0 ∧ rawQuota info (isClaudeOf info usage) (countsOf info usage) = 0 then 1
      else rawQuota info (isClaudeOf info usage) (countsOf info usage) := by
  rw [summary_quota, if_neg (by simp [h])]

theorem summary_mono (h : info.Nonneg) (hno : ¬ Rederives info usage)
    (hfits : SumsFit info (withTotals usage p c)) (hfits' : SumsFit info (withTotals usage p' c'))
    (hp : p ≤ p') (hc : c ≤ c') :
    (calculateTextQuotaSummary info (some (withTotals usage p c))).quota ≤
      (calculateTextQuotaSummary info (some (withTotals usage p' c'))).quota := by
  by_cases hbillable : (calculateTextQuotaSummary info (some (withTotals usage p c))).hasBillableUsage = true
  · have hmore : (calculateTextQuotaSummary info (some (withTotals usage p' c'))).hasBillableUsage = true := by
      rw [hasBillableUsage_some, wrap64_of_fits hfits.total.1 hfits.total.2] at hbillable
      rw [hasBillableUsage_some, wrap64_of_fits hfits'.total.1 hfits'.total.2]
      exact hbillable.imp_left fun hpos => hpos.trans_le (add_le_add hp hc)
    have hlow := rawQuota_nonneg h (isClaudeOf info (some usage)) (withTotals usage p' c')
    have hraw := charge_mono h hno hfits hfits' hp hc
    rw [summary_quota_of_billable hbillable, summary_quota_of_billable hmore]
    simp only [isClaudeOf_withTotals, countsOf, Option.getD_some]
    by_cases hratio : info.ratio = 0
    · simpa [hratio] using hraw
    · simp only [hratio, ne_eq, not_false_eq_true, true_and] at hraw ⊢
      split_ifs <;> omega
  · rw [summary_quota_of_not_billable info _ (by simpa using hbillable)]
    exact (summary_range h _).1

structure BoundedCharge (info : RelayInfo) : Prop where
  range : ∀ usage, 0 ≤ (calculateTextQuotaSummary info usage).quota ∧
    (calculateTextQuotaSummary info usage).quota ≤ maxQuota
  free : ∀ usage, (calculateTextQuotaSummary info usage).hasBillableUsage = false →
    (calculateTextQuotaSummary info usage).quota = 0
  charged : ∀ usage, (calculateTextQuotaSummary info usage).hasBillableUsage = true →
    info.priceData.modelRatio * info.priceData.groupRatio ≠ 0 → 1 ≤ (calculateTextQuotaSummary info usage).quota
  mono : ∀ usage p c p' c', ¬ Rederives info usage → SumsFit info (withTotals usage p c) →
    SumsFit info (withTotals usage p' c') → p ≤ p' → c ≤ c' →
    (calculateTextQuotaSummary info (some (withTotals usage p c))).quota ≤
      (calculateTextQuotaSummary info (some (withTotals usage p' c'))).quota

/-- **The quota of a request is a bounded charge.** -/
theorem boundedCharge (info : RelayInfo) (h : info.Nonneg) : BoundedCharge info where
  range := summary_range h
  free := summary_quota_of_not_billable info
  charged usage hbillable hratio := by
    have hlow := rawQuota_nonneg h (isClaudeOf info usage) (countsOf info usage)
    rw [summary_quota_of_billable hbillable]
    split_ifs with hzero
    · exact le_rfl
    · have hne : rawQuota info (isClaudeOf info usage) (countsOf info usage) ≠ 0 := fun hraw => hzero ⟨hratio, hraw⟩
      omega
  mono _ _ _ _ _ hno hfits hfits' hp hc := summary_mono h hno hfits hfits' hp hc

theorem boundedCharge_webSearch :
    let info : RelayInfo :=
      { priceData := { modelRatio := 5 / 2, completionRatio := 4, cacheRatio := 1 / 10, otherRatios := [2] },
        claudeWebSearchRequests := 1, toolPrice := fun _ => 10 }
    info.Nonneg ∧ BoundedCharge info ∧
      (calculateTextQuotaSummary info
        (some { promptTokens := 10, promptTokensDetails := { cachedTokens := 30 } })).quota =
        5015 := by
  intro info
  have hnonneg : info.Nonneg := by constructor <;> norm_num [info]
  exact ⟨hnonneg, boundedCharge info hnonneg, by decide +kernel⟩

/-- One more token of completion makes the total negative. -/
theorem total_overflows :
    let info : RelayInfo := { priceData := { modelRatio := 1, completionRatio := 1 } }
    let quota (completion : Int) := (calculateTextQuotaSummary info
      (some { promptTokens := 2 ^ 62, completionTokens := completion })).quota
    info.Nonneg ∧ quota (2 ^ 62 - 1) = maxQuota ∧ quota (2 ^ 62) = 0 := by
  intro info quota
  exact ⟨by constructor <;> norm_num [info], by decide +kernel, by decide +kernel⟩

end TokenEra.TextQuota
