import Mathlib.Data.List.Sort
import TokenEra.Payment
import TokenEra.Subscription.Store
import TokenEra.Usage.Routes

/-!
# What a text request is charged

`postTextConsumeQuota` ends a relay request: it computes the quota, adds it to the counters of the
user and of the channel, settles it against the funding source and writes it to the consume log. The
quota is computed by ratio or by price (`calculateTextQuotaSummary`), and replaced by that of an
expression if the request has one (`tryTieredSettle`).

The four amounts are the same except in two cases. The counters are left alone when there is nothing
billable, which sets the quota to zero only before the expression's quota takes its place. And a
subscription without room for the rest of the price refuses the settlement, which is only logged.

Prices and ratios are finite floats; as everywhere, a float is the rational that it prints as. What
is recorded about saturated conversions is left out, as are the texts and the other fields of the
log.
-/

namespace TokenEra.TextQuota

open Lib TokenUsage

/-! ### The request -/

/-- `PriceData`, as far as it is read here. -/
structure PriceData where
  modelPrice : ℚ := 0
  modelRatio : ℚ := 0
  completionRatio : ℚ := 0
  cacheRatio : ℚ := 0
  cacheCreationRatio : ℚ := 0
  cacheCreation5mRatio : ℚ := 0
  cacheCreation1hRatio : ℚ := 0
  imageRatio : ℚ := 0
  audioRatio : ℚ := 0
  otherRatios : List ℚ := []
  usePrice : Bool := false
  groupRatio : ℚ := 1
  deriving DecidableEq, Repr

/-- `TokenParams`: the counts that an expression reads. -/
structure TokenParams where
  p : Int
  c : Int
  len : Int
  cr : Int
  cc : Int
  cc1h : Int
  img : Int
  imgO : Int
  ai : Int
  ao : Int
  deriving DecidableEq, Repr

/-- `BillingSnapshot`, with its expression: the variables that it uses, and its value or an error on
counts (the request that it may look at is fixed). -/
structure BillingSnapshot where
  billingMode : String
  groupRatio : ℚ
  estimatedQuotaAfterGroup : Int
  quotaPerUnit : ℚ
  usedVars : String → Bool
  runExpr : TokenParams → Except String ℚ

/-- The funding source of a request; the row of a subscription as the settlement locks it, if it is
still there. -/
inductive Payer
  | wallet
  | subscription (row : Option Subscription.UserSubscription)

/-- What is read of `RelayInfo`, of the request's context and of the settings. -/
structure RelayInfo where
  originModelName : String := ""
  priceData : PriceData := {}
  estimatePromptTokens : Int := 0
  isClaudeFormat : Bool := false
  isOpenRouter : Bool := false
  /-- The model has prices of its own in the settings. -/
  pricingConfigured : Bool := false
  containsAudioRatio : Bool := false
  isResponsesMode : Bool := false
  builtInTools : List (String × Int) := []
  claudeWebSearchRequests : Int := 0
  geminiGoogleSearchCall : Bool := false
  /-- `GetToolPriceForModel`; 0 where it is not a finite number. -/
  toolPrice : String → ℚ := fun _ => 0
  quotaPerUnit : ℚ := 500000
  tieredBillingSnapshot : Option BillingSnapshot := none
  finalPreConsumedQuota : Int := 0
  /-- What the billing session has taken in advance. -/
  billing : Option Int := none
  payer : Payer := .wallet

/-! ### Tool calls -/

structure ToolSurchargeItem where
  name : String
  count : Int
  price : ℚ
  deriving DecidableEq, Repr

def maxInt : Int := 2 ^ 63 - 1

def hasEnd (tail s : String) : Bool := decide (tail.toList <:+ s.toList)

def collectToolSurchargeItem (info : RelayInfo) (items : List ToolSurchargeItem) (name : String) (count : Int) :
    List ToolSurchargeItem :=
  if count ≤ 0 ∨ info.toolPrice name ≤ 0 then items else items ++ [⟨name, count, info.toolPrice name⟩]

def mergeItem (merged : List ToolSurchargeItem) (item : ToolSurchargeItem) : List ToolSurchargeItem :=
  match merged.getLast? with
  | none => [item]
  | some last =>
    if last.name = item.name ∧ last.price = item.price then
      merged.dropLast ++ [{ last with count := min (last.count + item.count) maxInt }]
    else merged ++ [item]

def mergeToolSurchargeItems (items : List ToolSurchargeItem) : List ToolSurchargeItem :=
  (items.insertionSort fun a b => a.name < b.name ∨ a.name = b.name ∧ a.price ≤ b.price).foldl mergeItem []

/-- `Decimal.Div`: 16 digits after the point. -/
def decimalDiv (a b : ℚ) : ℚ := roundHalfAway (a / b * 10 ^ 16) / 10 ^ 16

def collectedItems (info : RelayInfo) : List ToolSurchargeItem :=
  let items := info.builtInTools.foldl (fun items tool => collectToolSurchargeItem info items tool.1 tool.2) []
  let items :=
    if ¬ info.isResponsesMode ∧ hasEnd "search-preview" info.originModelName then
      collectToolSurchargeItem info items "web_search_preview" 1
    else items
  let items := collectToolSurchargeItem info items "web_search" info.claudeWebSearchRequests
  if info.geminiGoogleSearchCall then collectToolSurchargeItem info items "google_search" 1 else items

def toolSurchargeItems (info : RelayInfo) : List ToolSurchargeItem :=
  mergeToolSurchargeItems (collectedItems info)

def calculateTextToolCallSurcharge (info : RelayInfo) : ℚ :=
  ((toolSurchargeItems info).map fun item =>
    decimalDiv (item.price * item.count) 1000 * info.priceData.groupRatio * info.quotaPerUnit).sum

/-! ### By ratio or by price -/

/-- `textQuotaSummary`, as far as the amounts depend on it. -/
structure Summary where
  promptTokens : Int
  completionTokens : Int
  totalTokens : Int
  isClaudeUsageSemantic : Bool
  toolCallSurchargeQuota : ℚ
  quota : Int
  deriving DecidableEq, Repr

def Summary.hasBillableUsage (s : Summary) : Bool := 0 < s.totalTokens ∨ s.toolCallSurchargeQuota ≠ 0

def quotaFromDecimal (d : ℚ) : Int := (saturateQuota (roundHalfAway d)).1

def cacheCreationTokensTotal (d : InputTokenDetails) : Int := max (max d.cachedCreationTokens d.cacheWriteTokens) 0

def usageSemanticFromUsage (info : RelayInfo) (usage : Option Counts) : String :=
  match usage with
  | some u =>
    if u.usageSemantic ≠ "" then u.usageSemantic
    else if info.isClaudeFormat then "anthropic" else "openai"
  | none => if info.isClaudeFormat then "anthropic" else "openai"

def isLegacyClaudeDerivedOpenAIUsage (info : RelayInfo) (usage : Counts) : Bool :=
  info.isClaudeFormat = false ∧ usage.usageSource = "" ∧ usage.usageSemantic = "" ∧
    (0 < usage.claudeCacheCreation5mTokens ∨ 0 < usage.claudeCacheCreation1hTokens)

def calcOpenRouterCacheCreateTokens (info : RelayInfo) (usage : Counts) : Int :=
  let price := info.priceData
  if price.cacheCreationRatio = 1 then 0
  else
    let quotaPrice := price.modelRatio / info.quotaPerUnit
    let promptCacheCreatePrice := quotaPrice * price.cacheCreationRatio
    let promptCacheReadPrice := quotaPrice * price.cacheRatio
    let completionPrice := quotaPrice * price.completionRatio
    roundHalfAway ((usage.cost.getD 0 - usage.promptTokens * quotaPrice +
      usage.promptTokensDetails.cachedTokens * (quotaPrice - promptCacheReadPrice) -
      usage.completionTokens * completionPrice) / (promptCacheCreatePrice - quotaPrice))

/-- The prompt and cache-creation tokens that are priced. OpenRouter's Claude usage counts the cache
in the prompt; where it does not say how much was written to the cache, that is worked out from the
cost. -/
def pricedTokens (info : RelayInfo) (isClaude : Bool) (usage : Counts) : Int × Int :=
  let cacheTokens := usage.promptTokensDetails.cachedTokens
  let cacheCreationTokens := cacheCreationTokensTotal usage.promptTokensDetails
  if info.isOpenRouter ∧ isClaude then
    let promptTokens := wrap64 (usage.promptTokens - cacheTokens)
    let isUsingCustomSettings := info.priceData.usePrice || info.pricingConfigured
    -- `usage.Cost != 0` compares an interface with an `int`, and holds of every decoded cost
    let maybeCacheCreationTokens := calcOpenRouterCacheCreateTokens info usage
    let cacheCreationTokens :=
      if cacheCreationTokens = 0 ∧ info.priceData.cacheCreationRatio ≠ 1 ∧ isUsingCustomSettings = false ∧
          0 ≤ maybeCacheCreationTokens ∧ maybeCacheCreationTokens ≤ promptTokens then maybeCacheCreationTokens
      else cacheCreationTokens
    (wrap64 (promptTokens - cacheCreationTokens), cacheCreationTokens)
  else (usage.promptTokens, cacheCreationTokens)

/-- `ApplyOtherRatiosToDecimal`. -/
def applyOtherRatios (ratios : List ℚ) (value : ℚ) : ℚ :=
  ratios.foldl (fun value ratio => if 0 < ratio ∧ ratio ≠ 1 then value * ratio else value) value

def weightedTokens (info : RelayInfo) (isClaude : Bool) (usage : Counts) : ℚ :=
  let price := info.priceData
  let d := usage.promptTokensDetails
  let (promptTokens, cacheCreationTokens) := pricedTokens info isClaude usage
  let tokens5m := usage.claudeCacheCreation5mTokens
  let tokens1h := usage.claudeCacheCreation1hTokens
  let separate := isClaude || isLegacyClaudeDerivedOpenAIUsage info usage
  let cachedBase : ℚ := if d.cachedTokens ≠ 0 ∧ separate = false then d.cachedTokens else 0
  let cached : ℚ := d.cachedTokens * price.cacheRatio
  let hasCreation : Bool := cacheCreationTokens ≠ 0 ∨ 0 < tokens5m ∨ 0 < tokens1h
  let creationBase : ℚ := if hasCreation = true ∧ separate = false then cacheCreationTokens else 0
  let creation : ℚ :=
    if hasCreation = false then 0
    else if separate = false then cacheCreationTokens * price.cacheCreationRatio
    else (max (wrap64 (cacheCreationTokens - tokens5m - tokens1h)) 0 : Int) * price.cacheCreationRatio +
      tokens5m * price.cacheCreation5mRatio + tokens1h * price.cacheCreation1hRatio
  let image : ℚ := d.imageTokens * price.imageRatio
  let audioBase : ℚ := if info.containsAudioRatio then d.audioTokens else 0
  let audio : ℚ := audioBase * price.audioRatio
  let baseTokens : ℚ := max (promptTokens - cachedBase - creationBase - d.imageTokens - audioBase) 0
  baseTokens + cached + image + creation + audio + usage.completionTokens * price.completionRatio

/-- What is not billable costs nothing, and what is billable costs something unless the ratio is
zero. -/
def Summary.adjusted (s : Summary) (ratio : ℚ) : Summary :=
  if s.hasBillableUsage = false then { s with quota := 0 }
  else if ratio ≠ 0 ∧ s.quota = 0 then { s with quota := 1 }
  else s

def calculateTextQuotaSummary (info : RelayInfo) (usage : Option Counts) : Summary :=
  let price := info.priceData
  let isClaude : Bool := usageSemanticFromUsage info usage = "anthropic"
  let usage := usage.getD
    { promptTokens := info.estimatePromptTokens, totalTokens := info.estimatePromptTokens }
  let ratio := price.modelRatio * price.groupRatio
  let surcharge := calculateTextToolCallSurcharge info
  let quota :=
    if price.usePrice then
      quotaFromDecimal
        (applyOtherRatios price.otherRatios (price.modelPrice * info.quotaPerUnit * price.groupRatio) + surcharge)
    else
      let value := applyOtherRatios price.otherRatios (weightedTokens info isClaude usage * ratio) + surcharge
      quotaFromDecimal (if ratio ≠ 0 ∧ value ≤ 0 then 1 else value)
  let summary : Summary :=
    { promptTokens := (pricedTokens info isClaude usage).1
      completionTokens := usage.completionTokens
      totalTokens := wrap64 (usage.promptTokens + usage.completionTokens)
      isClaudeUsageSemantic := isClaude
      toolCallSurchargeQuota := surcharge
      quota := quota }
  summary.adjusted ratio

/-! ### By expression -/

def buildTieredTokenParams (usage : Counts) (isClaude : Bool) (usedVars : String → Bool) : TokenParams :=
  let d := usage.promptTokensDetails
  let o := usage.completionTokenDetails
  let anthropic : Bool := usage.usageSemantic = "anthropic"
  let cc5m := if anthropic then usage.claudeCacheCreation5mTokens else cacheCreationTokensTotal d
  let cc1h := if anthropic then usage.claudeCacheCreation1hTokens else 0
  let less (name : String) (n : Int) : Int := if isClaude = false ∧ usedVars name = true then n else 0
  { p := max (usage.promptTokens - less "cr" d.cachedTokens - less "cc" cc5m - less "cc1h" cc1h -
      less "img" d.imageTokens - less "ai" d.audioTokens) 0
    c := max (usage.completionTokens - less "img_o" o.imageTokens - less "ao" o.audioTokens) 0
    len := if isClaude then usage.promptTokens + d.cachedTokens + cc5m + cc1h else usage.promptTokens
    cr := d.cachedTokens
    cc := cc5m
    cc1h := cc1h
    img := d.imageTokens
    imgO := o.imageTokens
    ai := d.audioTokens
    ao := o.audioTokens }

/-- `TieredResult`, as far as the amounts depend on it. -/
structure TieredResult where
  actualQuotaBeforeGroup : ℚ
  actualQuotaAfterGroup : Int

/-- `ComputeTieredQuotaWithRequest`. -/
def computeTieredQuota (snap : BillingSnapshot) (params : TokenParams) : Except String TieredResult :=
  match snap.runExpr params with
  | .error text => .error text
  | .ok cost =>
    let quotaBeforeGroup := cost / 1000000 * snap.quotaPerUnit
    .ok ⟨quotaBeforeGroup, (saturateQuota (roundHalfAway (quotaBeforeGroup * snap.groupRatio))).1⟩

/-- `none` where the request is not billed by an expression; otherwise the quota, and the result if
the expression ran. -/
def tryTieredSettle (info : RelayInfo) (params : TokenParams) : Option (Int × Option TieredResult) :=
  match info.tieredBillingSnapshot with
  | none => none
  | some snap =>
    if snap.billingMode ≠ "tiered_expr" then none
    else
      match computeTieredQuota snap params with
      | .error _ =>
        some (if info.finalPreConsumedQuota ≤ 0 then snap.estimatedQuotaAfterGroup
        else info.finalPreConsumedQuota, none)
      | .ok result => some (result.actualQuotaAfterGroup, some result)

def composeTieredTextQuota (info : RelayInfo) (summary : Summary) (tieredQuota : Int)
    (result : Option TieredResult) : Int :=
  if summary.toolCallSurchargeQuota = 0 then tieredQuota
  else
    match result, info.tieredBillingSnapshot with
    | some r, some snap =>
      quotaFromDecimal (r.actualQuotaBeforeGroup * snap.groupRatio + summary.toolCallSurchargeQuota)
    | _, _ => quotaFromDecimal (tieredQuota + summary.toolCallSurchargeQuota)

/-! ### The end of a request -/

/-- The amounts of a request: what the funding source has paid in all, what the counters of the user
and of the channel went up by, and what the log says. -/
structure Amounts where
  settled : Int
  userUsedQuota : Int
  channelUsedQuota : Int
  logQuota : Int
  deriving DecidableEq, Repr

def RelayInfo.preConsumed (info : RelayInfo) : Int := info.billing.getD info.finalPreConsumedQuota

/-- `SettleBilling`: what the funding source has paid then, with what was taken in advance. An error
of the settlement is only logged. -/
def settleBilling (info : RelayInfo) (actualQuota : Int) : Int :=
  let delta := actualQuota - info.preConsumed
  if delta = 0 then info.preConsumed
  else
    match info.payer with
    | .wallet => info.preConsumed + delta
    | .subscription none => info.preConsumed
    | .subscription (some row) =>
      match Subscription.applyDelta row delta wrap64 with
      | .error _ => info.preConsumed
      | .ok row' => info.preConsumed + (row'.amountUsed - row.amountUsed)

def tieredQuotaOf (info : RelayInfo) (usage : Usage) : Option (Int × Option TieredResult) :=
  let billingUsage := (effectiveBillingUsage usage).toCounts
  let summary := calculateTextQuotaSummary info (some billingUsage)
  let usedVars := match info.tieredBillingSnapshot with
    | some snap => snap.usedVars
    | none => fun _ => false
  tryTieredSettle info (buildTieredTokenParams billingUsage summary.isClaudeUsageSemantic usedVars)

def textQuota (info : RelayInfo) (usage : Option Usage) : Int :=
  let summary := calculateTextQuotaSummary info (usage.map fun u => (effectiveBillingUsage u).toCounts)
  match usage.bind (tieredQuotaOf info) with
  | some (tieredQuota, result) => composeTieredTextQuota info summary tieredQuota result
  | none => summary.quota

def postTextConsumeQuota (info : RelayInfo) (usage : Option Usage) : Amounts :=
  let summary := calculateTextQuotaSummary info (usage.map fun u => (effectiveBillingUsage u).toCounts)
  let quota := textQuota info usage
  let counted := if summary.hasBillableUsage then quota else 0
  ⟨settleBilling info quota, counted, counted, quota⟩

/-! ### Charged and recorded -/

def Amounts.AllEqual (a : Amounts) : Prop :=
  a.settled = a.logQuota ∧ a.userUsedQuota = a.logQuota ∧ a.channelUsedQuota = a.logQuota

def billedCounts (usage : Usage) : Counts := (effectiveBillingUsage usage).toCounts

def exprParams (info : RelayInfo) (snap : BillingSnapshot) (usage : Usage) : TokenParams :=
  buildTieredTokenParams (billedCounts usage)
    (usageSemanticFromUsage info (some (billedCounts usage)) = "anthropic") snap.usedVars

/-- The expression asks for nothing: its value rounds to zero, or it fails and neither the quota
taken in advance nor the estimate is there to take its place. -/
def ExprFree (info : RelayInfo) (snap : BillingSnapshot) (usage : Usage) : Prop :=
  match snap.runExpr (exprParams info snap usage) with
  | .error _ => info.finalPreConsumedQuota ≤ 0 ∧ snap.estimatedQuotaAfterGroup = 0
  | .ok cost => roundHalfAway (cost / 1000000 * snap.quotaPerUnit * snap.groupRatio) = 0

/-- A request that is billed by an expression has tokens or a tool surcharge, or the expression asks
for nothing. -/
def Recorded (info : RelayInfo) (usage : Option Usage) : Prop :=
  ∀ u ∈ usage, ∀ snap ∈ info.tieredBillingSnapshot, snap.billingMode = "tiered_expr" →
    0 < wrap64 ((billedCounts u).promptTokens + (billedCounts u).completionTokens) ∨
      calculateTextToolCallSurcharge info ≠ 0 ∨ ExprFree info snap u

/-- The amount can be taken or given back: a subscription is there, has used what it gives back, and
has room for what it takes. -/
def Payer.HasRoom (delta : Int) : Payer → Prop
  | .wallet => True
  | .subscription none => False
  | .subscription (some row) =>
    0 ≤ row.amountUsed + delta ∧ row.amountUsed + delta < 2 ^ 63 ∧
      (0 < row.amountTotal → row.amountUsed + delta ≤ row.amountTotal)

/-- The price was taken in advance, or there is room for the rest of it. -/
def Settles (info : RelayInfo) (usage : Option Usage) : Prop :=
  textQuota info usage = info.preConsumed ∨ info.payer.HasRoom (textQuota info usage - info.preConsumed)

section Summary

variable (s : Summary) (ratio : ℚ)

@[simp] theorem adjusted_totalTokens : (s.adjusted ratio).totalTokens = s.totalTokens := by
  rw [Summary.adjusted]
  split_ifs <;> rfl

@[simp] theorem adjusted_surcharge : (s.adjusted ratio).toolCallSurchargeQuota = s.toolCallSurchargeQuota := by
  rw [Summary.adjusted]
  split_ifs <;> rfl

@[simp] theorem adjusted_semantic : (s.adjusted ratio).isClaudeUsageSemantic = s.isClaudeUsageSemantic := by
  rw [Summary.adjusted]
  split_ifs <;> rfl

theorem adjusted_quota (h : (s.adjusted ratio).hasBillableUsage = false) : (s.adjusted ratio).quota = 0 := by
  have hsame : (s.adjusted ratio).hasBillableUsage = s.hasBillableUsage := by
    rw [Summary.hasBillableUsage, Summary.hasBillableUsage, adjusted_totalTokens, adjusted_surcharge]
  rw [Summary.adjusted, if_pos (hsame ▸ h)]

variable (info : RelayInfo) (usage : Option Counts)

@[simp] theorem summary_totalTokens (u : Counts) :
    (calculateTextQuotaSummary info (some u)).totalTokens =
      wrap64 (u.promptTokens + u.completionTokens) := by
  rw [calculateTextQuotaSummary, adjusted_totalTokens]
  rfl

@[simp] theorem summary_surcharge :
    (calculateTextQuotaSummary info usage).toolCallSurchargeQuota = calculateTextToolCallSurcharge info := by
  rw [calculateTextQuotaSummary, adjusted_surcharge]

@[simp] theorem summary_semantic :
    (calculateTextQuotaSummary info usage).isClaudeUsageSemantic =
      decide (usageSemanticFromUsage info usage = "anthropic") := by
  rw [calculateTextQuotaSummary, adjusted_semantic]

theorem summary_quota_of_not_billable (h : (calculateTextQuotaSummary info usage).hasBillableUsage = false) :
    (calculateTextQuotaSummary info usage).quota = 0 :=
  adjusted_quota _ _ h

theorem hasBillableUsage_some (u : Counts) :
    (calculateTextQuotaSummary info (some u)).hasBillableUsage = true ↔
      0 < wrap64 (u.promptTokens + u.completionTokens) ∨ calculateTextToolCallSurcharge info ≠ 0 := by
  rw [Summary.hasBillableUsage, decide_eq_true_iff, summary_totalTokens, summary_surcharge]

end Summary

theorem saturateQuota_eq_zero {n : Int} : (saturateQuota n).1 = 0 ↔ n = 0 := by
  rw [saturateQuota, maxQuota, minQuota]
  split_ifs <;> simp <;> omega

variable {info : RelayInfo}

theorem settleBilling_eq_iff (quota : Int) :
    settleBilling info quota = quota ↔
      quota = info.preConsumed ∨ info.payer.HasRoom (quota - info.preConsumed) := by
  rw [settleBilling]
  by_cases hzero : quota - info.preConsumed = 0
  · rw [if_pos hzero]
    exact iff_of_true (by omega) (Or.inl (by omega))
  rw [if_neg hzero, or_iff_right (by omega)]
  set delta := quota - info.preConsumed with hdelta
  have hrefused : ¬ info.preConsumed = quota := by omega
  cases info.payer with
  | wallet => exact iff_of_true (by dsimp only; omega) trivial
  | subscription row =>
    cases row with
    | none => exact iff_of_false hrefused id
    | some row =>
      simp only [Subscription.applyDelta, Payer.HasRoom]
      by_cases hfits : -2 ^ 63 ≤ row.amountUsed + delta ∧ row.amountUsed + delta < 2 ^ 63
      · rw [wrap64_of_fits hfits.1 hfits.2]
        split_ifs with hneg hover hover <;> dsimp only <;> omega
      · -- what is kept of the sum is another amount
        have hkept : wrap64 (row.amountUsed + delta) ≠ row.amountUsed + delta :=
          fun heq => hfits (wrap64_eq_iff.1 heq)
        split_ifs with hneg hover hover <;> dsimp only <;> omega

theorem tieredQuotaOf_eq {info : RelayInfo} {snap : BillingSnapshot} (usage : Usage)
    (hsnap : info.tieredBillingSnapshot = some snap) (hmode : snap.billingMode = "tiered_expr") :
    ∃ quota result, tieredQuotaOf info usage = some (quota, result) ∧ (quota = 0 ↔ ExprFree info snap usage) := by
  rw [tieredQuotaOf, ExprFree, exprParams, billedCounts]
  simp only [tryTieredSettle, hsnap, hmode, ne_eq, not_true_eq_false, if_false, summary_semantic, computeTieredQuota]
  cases snap.runExpr _ with
  | error text =>
    refine ⟨_, _, rfl, ?_⟩
    split_ifs with hpre
    · simp [hpre]
    · constructor
      · intro hzero
        omega
      · rintro ⟨hle, -⟩
        exact absurd hle hpre
  | ok cost => exact ⟨_, _, rfl, saturateQuota_eq_zero⟩

theorem tieredQuotaOf_eq_none {info : RelayInfo} {usage : Usage}
    (h : ∀ snap ∈ info.tieredBillingSnapshot, snap.billingMode ≠ "tiered_expr") : tieredQuotaOf info usage = none := by
  rw [tieredQuotaOf]
  simp only [tryTieredSettle]
  cases hsnap : info.tieredBillingSnapshot with
  | none => rfl
  | some snap => exact if_pos (h snap hsnap)

theorem allEqual_iff (usage : Option Usage) :
    (postTextConsumeQuota info usage).AllEqual ↔
      ((calculateTextQuotaSummary info (usage.map billedCounts)).hasBillableUsage = true ∨
        textQuota info usage = 0) ∧ Settles info usage := by
  have hsettled : (postTextConsumeQuota info usage).settled =
      (postTextConsumeQuota info usage).logQuota ↔ Settles info usage := settleBilling_eq_iff _
  have hchannel : (postTextConsumeQuota info usage).channelUsedQuota =
      (postTextConsumeQuota info usage).userUsedQuota := rfl
  have huser : (postTextConsumeQuota info usage).userUsedQuota =
      if (calculateTextQuotaSummary info (usage.map billedCounts)).hasBillableUsage = true then
        (postTextConsumeQuota info usage).logQuota
      else 0 := rfl
  have hlog : (postTextConsumeQuota info usage).logQuota = textQuota info usage := rfl
  rw [Amounts.AllEqual, hchannel, and_self, hsettled, huser, and_comm, hlog]
  refine and_congr_left fun _ => ?_
  split_ifs with hbillable
  · simp [hbillable]
  · simp [hbillable, eq_comm]

theorem recorded_iff (info : RelayInfo) (usage : Option Usage) :
    ((calculateTextQuotaSummary info (usage.map billedCounts)).hasBillableUsage = true ∨
      textQuota info usage = 0) ↔ Recorded info usage := by
  cases usage with
  | none =>
    have hquota : textQuota info none = (calculateTextQuotaSummary info none).quota := rfl
    constructor
    · intro _ u hu
      exact absurd hu (by simp)
    · intro _
      rw [or_iff_not_imp_left, Bool.not_eq_true, hquota]
      exact summary_quota_of_not_billable info none
  | some u =>
    rw [Option.map_some, hasBillableUsage_some]
    by_cases htiered : ∃ snap ∈ info.tieredBillingSnapshot, snap.billingMode = "tiered_expr"
    · obtain ⟨snap, hsnap, hmode⟩ := htiered
      obtain ⟨quota, result, htier, hfree⟩ := tieredQuotaOf_eq u hsnap hmode
      have hquota : calculateTextToolCallSurcharge info = 0 → textQuota info (some u) = quota := by
        intro hnone
        simp only [textQuota, Option.bind_some, htier, composeTieredTextQuota,
          summary_surcharge, if_pos hnone]
      constructor
      · rintro (hbillable | hzero)
        · intro u' hu' snap' _ _
          obtain rfl : u = u' := Option.some.inj hu'
          exact hbillable.imp_right .inl
        · intro u' hu' snap' hsnap' _
          obtain rfl : u = u' := Option.some.inj hu'
          obtain rfl : snap = snap' := Option.some.inj (hsnap.symm.trans hsnap')
          by_cases hnone : calculateTextToolCallSurcharge info = 0
          · exact .inr (.inr (hfree.1 ((hquota hnone).symm.trans hzero)))
          · exact .inr (.inl hnone)
      · intro hrecorded
        rcases hrecorded u rfl snap hsnap hmode with htokens | hcharge | hexpr
        · exact .inl (.inl htokens)
        · exact .inl (.inr hcharge)
        · by_cases hnone : calculateTextToolCallSurcharge info = 0
          · exact .inr ((hquota hnone).trans (hfree.2 hexpr))
          · exact .inl (.inr hnone)
    · have hmode : ∀ snap ∈ info.tieredBillingSnapshot, snap.billingMode ≠ "tiered_expr" :=
        fun snap hsnap hmode => htiered ⟨snap, hsnap, hmode⟩
      have hquota : textQuota info (some u) =
          (calculateTextQuotaSummary info (some (billedCounts u))).quota := by
        simp only [textQuota, Option.bind_some, tieredQuotaOf_eq_none hmode]
        rfl
      constructor
      · intro _ u' _ snap hsnap hmode'
        exact absurd hmode' (hmode snap hsnap)
      · intro _
        rw [or_iff_not_imp_left, ← hasBillableUsage_some, Bool.not_eq_true, hquota]
        exact summary_quota_of_not_billable info _

/-- **The amounts of a request are equal exactly if an expression bills only what is billable and
the funding source has room for what is not yet taken.** -/
theorem charged_eq_recorded_iff (info : RelayInfo) (usage : Option Usage) :
    (postTextConsumeQuota info usage).AllEqual ↔ Recorded info usage ∧ Settles info usage := by
  rw [allEqual_iff, recorded_iff]

/-- A response that was read from the cache and has no other tokens, billed by an expression; and a
subscription with 30 of 100 left that is to pay 40 more. -/
theorem charged_ne_recorded :
    let snap : BillingSnapshot :=
      { billingMode := "tiered_expr", groupRatio := 1, estimatedQuotaAfterGroup := 0,
        quotaPerUnit := 500000, usedVars := fun name => name = "cr",
        runExpr := fun params => .ok params.cr }
    let cacheRead := postTextConsumeQuota { tieredBillingSnapshot := some snap, isClaudeFormat := true }
      (some { usageSemantic := "anthropic", promptTokensDetails := { cachedTokens := 100 } })
    let refused := postTextConsumeQuota
      { priceData := { modelRatio := 1 }, billing := some 10,
        payer := .subscription (some ⟨1, 7, 3, 100, 70, 0, 0, .active, "order", 0, 0, true⟩) }
      (some { promptTokens := 50 })
    cacheRead = ⟨50, 0, 0, 50⟩ ∧ ¬ cacheRead.AllEqual ∧ refused = ⟨10, 50, 50, 50⟩ ∧
      ¬ refused.AllEqual := by
  unfold Amounts.AllEqual
  decide +kernel

end TokenEra.TextQuota
