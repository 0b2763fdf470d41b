import TokenEra.Subscription.Store

/-!
# Whether the catch-up loop moves

`maybeResetUserSubscriptionWithPlanTx` walks from boundary to boundary while one is due, inside a
transaction. It comes to an end if every boundary lies after its base (`resetWalk_terminates`).

For the calendar periods that is a matter of the zone: what it finds for the reading of the clock at
the next boundary (`Plan.reading`) has to lie after every instant of the day, or month, from whose
midnight the reading is counted. A zone without skipped or repeated midnights is such a zone; where
a midnight is skipped, 23:00 of the day before can be its own next midnight. A custom period is any
positive number of seconds in any zone, and its product with `time.Second` wraps: the next boundary
lies after the base only if a whole second is left of it (`advances_iff`), and the walk comes to an
end unless less than a second is left: a product below zero leads back until it passes `0`
(`returns_custom_iff`).
-/

namespace TokenEra.Subscription

open Lib Lib.Calendar

/-! ### Admission -/

def ResetPeriod.text : ResetPeriod → String
  | .never => "never"
  | .daily => "daily"
  | .weekly => "weekly"
  | .monthly => "monthly"
  | .custom => "custom"

/-- What `AdminCreateSubscriptionPlan` and `AdminUpdateSubscriptionPlan` do about the reset period.
-/
def admitResetPeriod (plan : Plan) : Except String Plan :=
  let plan := { plan with quotaResetPeriod := plan.resetPeriod.text }
  if plan.quotaResetPeriod = "custom" ∧ plan.quotaResetCustomSeconds ≤ 0 then .error "自定义重置周期需大于0秒"
  else .ok plan

/-- A plan that was admitted; its seconds are an `int64`. -/
structure Plan.Admitted (plan : Plan) : Prop where
  admitted : ∃ request, admitResetPeriod request = .ok plan
  int64 : plan.quotaResetCustomSeconds < 2 ^ 63

theorem resetPeriod_text (period : ResetPeriod) : normalizeResetPeriod period.text = period := by
  cases period <;> decide +kernel

variable {plan : Plan} {loc : Location} {now : Int} {env : Env}

theorem Plan.Admitted.pos (h : plan.Admitted) (hcustom : plan.resetPeriod = .custom) :
    0 < plan.quotaResetCustomSeconds := by
  obtain ⟨request, hadmit⟩ := h.admitted
  rw [admitResetPeriod] at hadmit
  split_ifs at hadmit with hempty
  cases hadmit
  have hperiod : request.resetPeriod = .custom := (resetPeriod_text request.resetPeriod).symm.trans hcustom
  rw [hperiod] at hempty
  exact not_le.1 fun hle => hempty ⟨rfl, hle⟩

/-! ### One step -/

/-- The nanoseconds of a custom period as the code has them: the product is taken modulo `2 ^ 64`,
as a signed number. -/
def Plan.periodNanos (plan : Plan) : Int := duration plan.quotaResetCustomSeconds (10 ^ 9)

/-- The reading of the clock at the next boundary of a calendar period: from the midnight of the
day, a day or the days to Monday on; from the midnight of the first of the month, a month on. -/
def Plan.reading (loc : Location) (plan : Plan) (t : Int) : Option Int :=
  let midnight := loc.dayStart (loc.dayNumber t)
  let first := loc.dayStart (loc.monthDay t)
  match plan.resetPeriod with
  | .daily => some (loc.wall midnight + 86400)
  | .weekly => some (loc.wall midnight + 86400 * (7 - (loc.dayNumber t + 3) % 7))
  | .monthly =>
    some (86400 * daysFromCivil (loc.civil first).year ((loc.civil first).month + 1)
      (loc.civil first).day + loc.clock first)
  | _ => none

/-- A custom period keeps at least a second. The instants from `since` on come before what the zone
finds for the reading at the next boundary, unless that is the instant `0`. -/
structure Plan.StepsForward (loc : Location) (plan : Plan) (since : Int) : Prop where
  custom : plan.resetPeriod = .custom → 10 ^ 9 ≤ plan.periodNanos
  calendar : ∀ t, since ≤ t → ∀ w, plan.reading loc t = some w → loc.resolve w = 0 ∨ t < loc.resolve w

variable {base since : Int}

theorem nextBoundary_custom (hcustom : plan.resetPeriod = .custom)
    (hpos : 0 < plan.quotaResetCustomSeconds) :
    nextBoundary loc base plan = some (base + plan.periodNanos / 10 ^ 9) := by
  simp only [nextBoundary, hcustom, if_neg (not_le.2 hpos), addDuration, Plan.periodNanos]

theorem nextBoundary_calendar (h : plan.resetPeriod ≠ .custom) :
    nextBoundary loc base plan = (plan.reading loc base).map loc.resolve := by
  unfold nextBoundary Plan.reading
  cases hp : plan.resetPeriod with
  | never => rfl
  | daily => rw [nextDay, Location.date_today, Location.addDate_days, mul_one, Option.map_some]
  | weekly =>
    have hdays : 8 - (if loc.weekday base = 0 then 7 else loc.weekday base) =
        7 - (loc.dayNumber base + 3) % 7 := by
      simp only [Location.weekday, weekdayOf]
      split_ifs <;> omega
    rw [nextMonday, Location.date_today, Location.addDate_days, hdays, Option.map_some]
  | monthly =>
    rw [nextMonth, Location.date_first]
    simp only [Location.addDate, Location.date, add_zero, Option.map_some]
  | custom => exact absurd hp h

/-- From the bases `since` on, `calcNextResetTime` gives `0` or a time after the base. -/
def Advances (loc : Location) (plan : Plan) (since : Int) : Prop :=
  ∀ base endUnix, since ≤ base →
    calcNextResetTime loc base plan endUnix = 0 ∨ base < calcNextResetTime loc base plan endUnix

theorem calcNextResetTime_of_next {next : Int} (h : nextBoundary loc base plan = some next) :
    calcNextResetTime loc base plan 0 = next := by
  simp [calcNextResetTime, h]

theorem advances_iff (hadmitted : plan.Admitted) :
    Advances loc plan since ↔ plan.StepsForward loc since := by
  constructor
  · refine fun hadvances => ⟨fun hcustom => ?_, fun t ht w hw => ?_⟩
    · -- a base that the step does not take to `0`
      obtain ⟨base, hbase, hne⟩ : ∃ base, since ≤ base ∧ base + plan.periodNanos / 10 ^ 9 ≠ 0 := by
        by_cases hzero : since + plan.periodNanos / 10 ^ 9 = 0
        · exact ⟨since + 1, by omega, by omega⟩
        · exact ⟨since, le_rfl, hzero⟩
      have hstep := hadvances base 0 hbase
      rw [calcNextResetTime_of_next (nextBoundary_custom hcustom (hadmitted.pos hcustom))] at hstep
      omega
    · have hcalendar : plan.resetPeriod ≠ .custom := by
        intro hcustom
        simp [Plan.reading, hcustom] at hw
      have hstep := hadvances t 0 ht
      rwa [calcNextResetTime_of_next (by rw [nextBoundary_calendar hcalendar, hw]; rfl)] at hstep
  · refine fun hforward base endUnix hbase => or_iff_not_imp_left.2 fun hset => ?_
    have hnext := nextBoundary_of_set hset
    by_cases hcustom : plan.resetPeriod = .custom
    · rw [nextBoundary_custom hcustom (hadmitted.pos hcustom)] at hnext
      have hkept := hforward.custom hcustom
      rw [← Option.some.inj hnext]
      omega
    · rw [nextBoundary_calendar hcustom] at hnext
      obtain ⟨w, hw, hresolve⟩ := Option.map_eq_some_iff.1 hnext
      rw [← hresolve] at hset ⊢
      exact (hforward.calendar base hbase w hw).resolve_left hset

/-- In a zone without skipped or repeated midnights the calendar periods step forward. -/
theorem stepsForward_of_regular (hloc : loc.Regular) (hsince : 0 < since)
    (hcalendar : plan.resetPeriod ≠ .custom) : plan.StepsForward loc since where
  custom hcustom := absurd hcustom hcalendar
  calendar t ht w hw := Or.inr <| lt_nextBoundary hloc (fun hcustom => absurd hcustom hcalendar)
    (hsince.trans_le ht) (by rw [nextBoundary_calendar hcalendar, hw]; rfl)

/-! ### The loop -/

/-- The walk back ends too: every step leads down, and no base below `1` is due. -/
theorem resetWalk_back {next : Int → Int} (now : Int) (h : ∀ t, 0 < next t → next t < t) (turns : Nat)
    (base upcoming : Int) (hturns : upcoming < turns + 1) : ∃ r, resetWalk next now turns base upcoming = some r := by
  induction turns generalizing base upcoming with
  | zero =>
    rw [resetWalk, if_neg (by omega)]
    exact ⟨_, rfl⟩
  | succ turns ih =>
    rw [resetWalk]
    split_ifs with hdue
    · refine ih upcoming (next upcoming) ?_
      by_cases hpos : 0 < next upcoming
      · have := h upcoming hpos
        push_cast at hturns
        omega
      · omega
    · exact ⟨_, rfl⟩

/-- A base that is its own next boundary is due forever. -/
theorem resetWalk_stuck {next : Int → Int} {t : Int} (hfixed : next t = t) (hpos : 0 < t) (hdue : t ≤ now)
    (turns : Nat) (base : Int) : resetWalk next now turns base t = none := by
  induction turns generalizing base with
  | zero => rw [resetWalk, if_pos ⟨hpos, hdue⟩]
  | succ turns ih =>
    rw [resetWalk, if_pos ⟨hpos, hdue⟩, hfixed]
    exact ih t

/-- The loop is left, whatever the time, for the rows whose base is not before `since`. -/
def Returns (env : Env) (plan : Plan) (since : Int) : Prop :=
  ∀ sub now, since ≤ sub.resetBase →
    ∃ turns r, maybeResetUserSubscriptionWithPlanTx env turns sub plan now = some r

theorem maybeReset_returns {sub : UserSubscription} {turns : Nat} {r : Int × Int}
    (h : resetWalk (fun base => calcNextResetTime env.loc base plan sub.endTime) now turns sub.resetBase
      (calcNextResetTime env.loc sub.resetBase plan sub.endTime) = some r) :
    ∃ r, maybeResetUserSubscriptionWithPlanTx env turns sub plan now = some r := by
  rw [maybeResetUserSubscriptionWithPlanTx]
  simp only [h]
  split_ifs <;> exact ⟨_, rfl⟩

theorem returns_of_advances (h : Advances env.loc plan since) : Returns env plan since := by
  intro sub now hbase
  have hfirst := h sub.resetBase sub.endTime hbase
  set first := calcNextResetTime env.loc sub.resetBase plan sub.endTime
  obtain ⟨r, hr⟩ : ∃ r, resetWalk (fun base => calcNextResetTime env.loc base plan sub.endTime) now
      (now - first + 1).toNat sub.resetBase first = some r :=
    resetWalk_terminates (fun t ht hne => (h t sub.endTime ht).resolve_left hne) _ _ _
      (fun hpos => by omega) (by omega)
  exact ⟨_, maybeReset_returns hr⟩

def rowFrom (start : Int) : UserSubscription where
  id := 1
  userId := 1
  planId := 1
  amountTotal := 0
  amountUsed := 0
  startTime := start
  endTime := 0
  status := .active
  source := "order"
  lastResetTime := 0
  nextResetTime := 0
  allowWalletOverflow := true

/-- The loop does not return for this row if its base is its own next boundary. -/
theorem maybeReset_stuck (hperiod : plan.resetPeriod ≠ .never) (hpos : 0 < base)
    (hfixed : calcNextResetTime env.loc base plan 0 = base) (turns : Nat) :
    maybeResetUserSubscriptionWithPlanTx env turns (rowFrom base) plan base = none := by
  have hbase : (rowFrom base).resetBase = base := rfl
  have hend : (rowFrom base).endTime = 0 := rfl
  have hwalk : resetWalk (fun t => calcNextResetTime env.loc t plan 0) base turns base base = none :=
    resetWalk_stuck hfixed hpos le_rfl turns base
  rw [maybeResetUserSubscriptionWithPlanTx, if_neg (by simp [rowFrom]), if_neg hperiod]
  simp only [hbase, hend, hfixed, hwalk]

/-- The walk over custom periods ends if they keep a second or are less than nothing. -/
theorem returns_custom_iff (hadmitted : plan.Admitted) (hcustom : plan.resetPeriod = .custom) :
    Returns env plan since ↔ 10 ^ 9 ≤ plan.periodNanos ∨ plan.periodNanos < 0 := by
  have hpos := hadmitted.pos hcustom
  constructor
  · intro hreturns
    by_contra hstuck
    have hstep : plan.periodNanos / 10 ^ 9 = 0 := by omega
    have hfixed : calcNextResetTime env.loc (max since 1) plan 0 = max since 1 := by
      rw [calcNextResetTime_of_next (nextBoundary_custom hcustom hpos), hstep, add_zero]
    obtain ⟨turns, r, hr⟩ := hreturns (rowFrom (max since 1)) (max since 1) (le_max_left since 1)
    rw [maybeReset_stuck (by simp [hcustom]) (by omega) hfixed] at hr
    cases hr
  · rintro (hforward | hneg)
    · refine returns_of_advances ((advances_iff hadmitted).2 ⟨fun _ => hforward, ?_⟩)
      simp [Plan.reading, hcustom]
    · intro sub now _
      have hdown : ∀ t, 0 < calcNextResetTime env.loc t plan sub.endTime →
          calcNextResetTime env.loc t plan sub.endTime < t := by
        intro t hset
        have hnext := nextBoundary_of_set hset.ne'
        rw [nextBoundary_custom hcustom hpos] at hnext
        rw [← Option.some.inj hnext]
        omega
      obtain ⟨r, hr⟩ := resetWalk_back now hdown _ sub.resetBase
        (calcNextResetTime env.loc sub.resetBase plan sub.endTime) (Int.lt_add_one_of_le (Int.self_le_toNat _))
      exact ⟨_, maybeReset_returns hr⟩

def customPlan (seconds : Int) : Plan where
  id := 3
  quotaResetPeriod := "custom"
  quotaResetCustomSeconds := seconds

def dailyPlan : Plan where
  id := 3
  quotaResetPeriod := "daily"

theorem customPlan_admitted {seconds : Int} (hpos : 0 < seconds) (hmax : seconds < 2 ^ 63) :
    (customPlan seconds).Admitted where
  admitted := by
    have htext : (customPlan seconds).resetPeriod.text = "custom" := by
      have hperiod : normalizeResetPeriod "custom" = .custom := by decide +kernel
      exact congrArg ResetPeriod.text hperiod
    refine ⟨customPlan seconds, ?_⟩
    simp only [admitResetPeriod, htext]
    rw [if_neg fun h => absurd h.2 (not_le.2 hpos)]
    rfl
  int64 := hmax

/-- Four hours west of Greenwich, three from midnight on the third day of 1970. -/
def skipsMidnight : Location where
  lookup t := if t < 86400 * 2 + 14400 then ⟨-14400, -2 ^ 63, 86400 * 2 + 14400⟩
  else ⟨-10800, 86400 * 2 + 14400, 2 ^ 63 - 1⟩

end TokenEra.Subscription
