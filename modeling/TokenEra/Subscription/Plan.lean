import TokenEra.Lib.Calendar
import TokenEra.Lib.Text

/-!
# Subscription plans and their reset calendar

The plan columns that the subscription code reads, the end of a subscription (`calcPlanEndTime`) and
the next quota reset after a base time (`calcNextResetTime`), as `model/subscription.go` computes
them. Instants are Unix seconds in the server's local zone `loc`.

`IsBoundary` says, without the code, what a reset boundary of a plan is: a local midnight, a Monday
midnight, the midnight of a first of a month, or a whole number of custom periods after the anchor.
`calcNextResetTime_isBoundary` and `lt_calcNextResetTime` connect the two: what the function returns
is a boundary and lies strictly after the base, for every zone without skipped or repeated midnights
and every custom period whose nanoseconds fit an `int64`.
-/

namespace TokenEra.Subscription

open Lib Lib.Calendar

inductive DurationUnit
  | year
  | month
  | day
  | hour
  | custom
  | unknown (text : String)
deriving DecidableEq, Repr

inductive ResetPeriod
  | never
  | daily
  | weekly
  | monthly
  | custom
deriving DecidableEq, Repr

/-- What the subscription functions fail with. `db` is an error reported by the database. -/
inductive Error
  | durationValueNotPositive
  | customSecondsNotPositive
  | invalidDurationUnit (unit : String)
  | invalidPlanId
  | invalidPlanIdArgument
  | invalidUserIdOrPlanId
  | invalidPlan
  | invalidUser
  | invalidUserId
  | purchaseLimitReached
  | invalidUserSubscriptionId
  | requestIdEmpty
  | amountNotPositive
  | alreadyRefunded
  | noActiveSubscription
  | quotaInsufficient (need : Int)
  | usedExceedsTotal (used total : Int)
  | noActivePlanSubscription
  | recordNotFound
  | tradeNoEmpty
  | orderNotFound
  | orderStatusInvalid
  | paymentMethodMismatch
  | planDisabled
  | priceNegative
  | balancePayNotAllowed
  | quotaUnitInvalid
  | quotaOutOfRange
  | balanceInsufficient
  | db (text : String)
deriving DecidableEq, Repr

def Error.text : Error → String
  | .durationValueNotPositive => "duration_value must be > 0"
  | .customSecondsNotPositive => "custom_seconds must be > 0"
  | .invalidDurationUnit unit => "invalid duration_unit: " ++ unit
  | .invalidPlanId => "invalid plan id"
  | .invalidPlanIdArgument => "invalid planId"
  | .invalidUserIdOrPlanId => "invalid userId or planId"
  | .invalidPlan => "invalid plan"
  | .invalidUser => "invalid user id"
  | .invalidUserId => "invalid userId"
  | .purchaseLimitReached => "已达到该套餐购买上限"
  | .invalidUserSubscriptionId => "invalid userSubscriptionId"
  | .requestIdEmpty => "requestId is empty"
  | .amountNotPositive => "amount must be > 0"
  | .alreadyRefunded => "subscription pre-consume already refunded"
  | .noActiveSubscription => "no active subscription"
  | .quotaInsufficient need => "subscription quota insufficient, need=" ++ toString need
  | .usedExceedsTotal used total =>
    "subscription used exceeds total, used=" ++ toString used ++ " total=" ++ toString total
  | .noActivePlanSubscription => "该用户没有有效的此套餐订阅"
  | .recordNotFound => "record not found"
  | .tradeNoEmpty => "tradeNo is empty"
  | .orderNotFound => "subscription order not found"
  | .orderStatusInvalid => "subscription order status invalid"
  | .paymentMethodMismatch => "payment method mismatch"
  | .planDisabled => "套餐未启用"
  | .priceNegative => "套餐价格不能为负数"
  | .balancePayNotAllowed => "该套餐不允许使用余额兑换"
  | .quotaUnitInvalid => "额度单位配置错误"
  | .quotaOutOfRange => "quota conversion (QuotaFromDecimal) overflow"
  | .balanceInsufficient => "余额不足"
  | .db text => text

structure Plan where
  id : Int
  durationUnit : DurationUnit := .month
  durationValue : Int := 1
  customSeconds : Int := 0
  enabled : Bool := true
  /-- Whether the price may be paid from the wallet; an unset column means yes. -/
  allowBalancePay : Option Bool := none
  allowWalletOverflow : Option Bool := none
  /-- The price as the decimal that its float column prints as. -/
  priceAmount : ℚ := 0
  /-- Purchases allowed per user, `0` for any number. -/
  maxPurchasePerUser : Int := 0
  /-- Quota of a subscription, `0` for unlimited. -/
  totalAmount : Int := 0
  quotaResetPeriod : String := "never"
  quotaResetCustomSeconds : Int := 0

def normalizeResetPeriod (period : String) : ResetPeriod :=
  match trimSpace period with
  | "daily" => .daily
  | "weekly" => .weekly
  | "monthly" => .monthly
  | "custom" => .custom
  | _ => .never

def Plan.resetPeriod (plan : Plan) : ResetPeriod := normalizeResetPeriod plan.quotaResetPeriod

variable (loc : Location)

def calcPlanEndTime (start : Int) (plan : Plan) : Except Error Int :=
  if plan.durationValue ≤ 0 ∧ plan.durationUnit ≠ .custom then .error .durationValueNotPositive
  else
    match plan.durationUnit with
    | .year => .ok (loc.addDate start plan.durationValue 0 0)
    | .month => .ok (loc.addDate start 0 plan.durationValue 0)
    | .day => .ok (addDuration start (wrap64 (wrap64 (plan.durationValue * 24) * (3600 * 10 ^ 9))))
    | .hour => .ok (addDuration start (duration plan.durationValue (3600 * 10 ^ 9)))
    | .custom =>
      if plan.customSeconds ≤ 0 then .error .customSecondsNotPositive
      else .ok (addDuration start (duration plan.customSeconds (10 ^ 9)))
    | .unknown unit => .error (.invalidDurationUnit unit)

/-- Midnight of the day after the base's. -/
def nextDay (base : Int) : Int :=
  loc.addDate (loc.date (loc.civil base).year (loc.civil base).month (loc.civil base).day 0) 0 0 1

/-- Monday midnight after the base: the weekday is counted from Monday `1` to Sunday `7`. -/
def nextMonday (base : Int) : Int :=
  let weekday := if loc.weekday base = 0 then 7 else loc.weekday base
  loc.addDate (loc.date (loc.civil base).year (loc.civil base).month (loc.civil base).day 0) 0 0
    (8 - weekday)

/-- Midnight of the first of the month after the base's. -/
def nextMonth (base : Int) : Int :=
  loc.addDate (loc.date (loc.civil base).year (loc.civil base).month 1 0) 0 1 0

/-- The first boundary after `base`, before the end of the subscription is looked at; `none` for a
plan that does not reset. -/
def nextBoundary (base : Int) (plan : Plan) : Option Int :=
  match plan.resetPeriod with
  | .never => none
  | .daily => some (nextDay loc base)
  | .weekly => some (nextMonday loc base)
  | .monthly => some (nextMonth loc base)
  | .custom =>
    if plan.quotaResetCustomSeconds ≤ 0 then none
    else some (addDuration base (duration plan.quotaResetCustomSeconds (10 ^ 9)))

/-- `0` stands for "no reset before the end". -/
def calcNextResetTime (base : Int) (plan : Plan) (endUnix : Int) : Int :=
  match nextBoundary loc base plan with
  | none => 0
  | some next => if 0 < endUnix ∧ endUnix < next then 0 else next

/-! ### Boundaries -/

def Plan.PeriodFits (plan : Plan) : Prop :=
  plan.resetPeriod = .custom → plan.quotaResetCustomSeconds * 10 ^ 9 < 2 ^ 63

instance (plan : Plan) : Decidable plan.PeriodFits :=
  inferInstanceAs (Decidable (_ → _))

/-- `t` is a reset boundary of the plan; custom periods are counted from `anchor`. -/
def IsBoundary (plan : Plan) (anchor t : Int) : Prop :=
  match plan.resetPeriod with
  | .never => False
  | .daily => ∃ d, loc.wall t = 86400 * d
  | .weekly => ∃ d, loc.wall t = 86400 * d ∧ weekdayOf d = 1
  | .monthly => ∃ year month, loc.wall t = 86400 * daysFromCivil year month 1
  | .custom => ∃ k : Nat, 0 < k ∧ t = anchor + k * plan.quotaResetCustomSeconds

variable {loc}

/-- `k` days after the midnight of the base's day is a midnight. -/
theorem addDate_dayStart (h : loc.Regular) {base : Int} (hbase : 0 < base) (k : Int) :
    loc.addDate (loc.dayStart (loc.dayNumber base)) 0 0 k = loc.dayStart (loc.dayNumber base + k) := by
  rw [Location.addDate_days, Location.dayStart,
    h.midnight base _ hbase (Location.monthDay_le base), ← mul_add, ← Location.dayStart]

/-- The boundary of a calendar period is the midnight of a later day. -/
theorem nextBoundary_eq (h : loc.Regular) {plan : Plan} {base next : Int} (hbase : 0 < base)
    (hcalendar : plan.resetPeriod ≠ .custom) (hnext : nextBoundary loc base plan = some next) :
    ∃ d, loc.dayNumber base < d ∧ next = loc.dayStart d ∧
      (plan.resetPeriod = .weekly → weekdayOf d = 1) ∧
      (plan.resetPeriod = .monthly → ∃ year month, d = daysFromCivil year month 1) := by
  unfold nextBoundary at hnext
  cases hp : plan.resetPeriod with simp only [hp, Option.some.injEq, reduceCtorEq] at hnext
  | custom => exact absurd hp hcalendar
  | daily =>
    refine ⟨loc.dayNumber base + 1, by omega, ?_, by simp, by simp⟩
    rw [← hnext, nextDay, Location.date_today, addDate_dayStart h hbase]
  | weekly =>
    refine ⟨loc.dayNumber base + (8 - if loc.weekday base = 0 then 7 else loc.weekday base),
      ?_, ?_, fun _ => ?_, by simp⟩
    · simp only [Location.weekday, weekdayOf]
      split_ifs <;> omega
    · rw [← hnext, nextMonday, Location.date_today, addDate_dayStart h hbase]
    · simp only [Location.weekday, weekdayOf]
      split_ifs <;> omega
  | monthly =>
    refine ⟨_, lt_daysFromCivil_next_month _, ?_, by simp, fun _ => ⟨_, _, rfl⟩⟩
    rw [← hnext, nextMonth, Location.date_first, h.addDate_month hbase]
    rfl

theorem lt_nextBoundary (h : loc.Regular) {plan : Plan} (hfits : plan.PeriodFits) {base next : Int}
    (hbase : 0 < base) (hnext : nextBoundary loc base plan = some next) : base < next := by
  by_cases hp : plan.resetPeriod = .custom
  · simp only [nextBoundary, hp] at hnext
    split_ifs at hnext with hpos
    cases hnext
    rw [addDuration_seconds (by omega) (hfits hp)]
    omega
  · obtain ⟨d, hd, rfl, -⟩ := nextBoundary_eq h hbase hp hnext
    exact h.lt_dayStart hbase hd

/-- The first boundary after a base is a boundary; a custom period continues from a base that is
itself a whole number of periods after the anchor. -/
theorem nextBoundary_isBoundary (h : loc.Regular) {plan : Plan} (hfits : plan.PeriodFits)
    {anchor base next : Int} (hpos : 0 < base)
    (hbase : plan.resetPeriod = .custom → ∃ k : Nat, base = anchor + k * plan.quotaResetCustomSeconds)
    (hnext : nextBoundary loc base plan = some next) : IsBoundary loc plan anchor next := by
  by_cases hp : plan.resetPeriod = .custom
  · simp only [nextBoundary, IsBoundary, hp] at hnext ⊢
    split_ifs at hnext
    cases hnext
    obtain ⟨k, rfl⟩ := hbase hp
    rw [addDuration_seconds (by omega) (hfits hp)]
    refine ⟨k + 1, by omega, ?_⟩
    push_cast
    ring
  · obtain ⟨d, hd, rfl, hweekly, hmonthly⟩ := nextBoundary_eq h hpos hp hnext
    have hwall := h.midnight base d hpos ((Location.monthDay_le base).trans hd.le)
    unfold IsBoundary
    cases hperiod : plan.resetPeriod with
    | never => simp [nextBoundary, hperiod] at hnext
    | daily => exact ⟨d, hwall⟩
    | weekly => exact ⟨d, hwall, hweekly hperiod⟩
    | monthly =>
      obtain ⟨year, month, rfl⟩ := hmonthly hperiod
      exact ⟨year, month, hwall⟩
    | custom => exact absurd hperiod hp

theorem nextBoundary_of_set {base endUnix : Int} {plan : Plan}
    (hset : calcNextResetTime loc base plan endUnix ≠ 0) :
    nextBoundary loc base plan = some (calcNextResetTime loc base plan endUnix) := by
  unfold calcNextResetTime at hset ⊢
  cases hnext : nextBoundary loc base plan with
  | none => simp [hnext] at hset
  | some next =>
    simp only [hnext] at hset ⊢
    rw [if_neg fun hend => hset (if_pos hend)]

theorem lt_calcNextResetTime (h : loc.Regular) {plan : Plan} (hfits : plan.PeriodFits)
    {base endUnix : Int} (hbase : 0 < base) (hset : calcNextResetTime loc base plan endUnix ≠ 0) :
    base < calcNextResetTime loc base plan endUnix :=
  lt_nextBoundary h hfits hbase (nextBoundary_of_set hset)

theorem calcNextResetTime_isBoundary (h : loc.Regular) {plan : Plan} (hfits : plan.PeriodFits)
    {anchor base endUnix : Int} (hpos : 0 < base)
    (hbase : plan.resetPeriod = .custom → ∃ k : Nat, base = anchor + k * plan.quotaResetCustomSeconds)
    (hset : calcNextResetTime loc base plan endUnix ≠ 0) :
    IsBoundary loc plan anchor (calcNextResetTime loc base plan endUnix) :=
  nextBoundary_isBoundary h hfits hpos hbase (nextBoundary_of_set hset)

end TokenEra.Subscription
