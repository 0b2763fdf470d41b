import TokenEra.Subscription.Ledger

/-!
# One automatic reset for each boundary

A subscription's reset clock is `LastResetTime`, or `StartTime` while there was no reset. Creation,
an automatic reset and an admin reset with `advanceResetTime` move it. What is proved is about the
log: between the last move of the clock and an automatic reset lies a boundary of the plan
(`Justified`).

The invariant of a row (`OnTime`) is that the boundary computed from the clock, if there is one,
lies after the last move, and that for a custom period the clock is a whole number of periods after
an anchor. The walk of `maybeResetUserSubscriptionWithPlanTx` keeps it, because it ends at a
boundary that is not due. An admin reset keeps it except when no boundary is left before the end of
the subscription: then `resetUserSubscriptionTx` writes `0` into `LastResetTime`, the clock falls
back to `StartTime`, and a boundary that was already used is due again (`Rewinds`).
-/

namespace TokenEra.Subscription

open Lib Lib.Calendar

-- A unifier that unfolds it goes on to evaluate the text of the plan.
attribute [local irreducible] IsBoundary

/-! ### The log -/

def ResetKind.movesClock : ResetKind → Bool
  | .created => true
  | .automatic => true
  | .admin advance => advance

/-- Whether custom periods are counted from the time of the reset. -/
def ResetKind.isAnchor : ResetKind → Bool
  | .created => true
  | .automatic => false
  | .admin advance => advance

def lastMove (id : Int) (log : List ResetEvent) : Option ResetEvent :=
  ((eventsOf id log).filter fun e => e.kind.movesClock).getLast?

/-- After the last move of the clock, and not after the reset, lies a boundary of the plan. -/
def Justified (env : Env) (log : List ResetEvent) (e : ResetEvent) : Prop :=
  ∃ plan last anchor b, env.plan e.planId = .ok plan ∧ lastMove e.subId log = some last ∧
    anchor ∈ eventsOf e.subId log ∧ anchor.kind.isAnchor = true ∧
    IsBoundary env.loc plan anchor.time b ∧ last.time < b ∧ b ≤ e.time

/-- Every automatic reset in the log is justified by what came before it. -/
def OncePerBoundary (env : Env) (log : List ResetEvent) : Prop :=
  ∀ before e after, log = before ++ e :: after → e.kind = .automatic → Justified env before e

theorem eventsOf_eventsOf (id : Int) (log : List ResetEvent) :
    eventsOf id (eventsOf id log) = eventsOf id log :=
  eventsOf_all fun e he => by simpa using (List.mem_filter.1 he).2

variable {env : Env} {log : List ResetEvent}

theorem justified_eventsOf {e : ResetEvent} :
    Justified env (eventsOf e.subId log) e ↔ Justified env log e := by
  simp only [Justified, lastMove, eventsOf_eventsOf]

theorem oncePerBoundary_of_eventsOf
    (h : ∀ id, OncePerBoundary env (eventsOf id log)) : OncePerBoundary env log := by
  intro before e after hlog hkind
  refine justified_eventsOf.1 (h e.subId _ e (eventsOf e.subId after) ?_ hkind)
  rw [hlog, eventsOf_append]
  simp [eventsOf]

theorem oncePerBoundary_nil : OncePerBoundary env [] := by
  intro before e after h
  simp at h

theorem OncePerBoundary.append_one {e : ResetEvent}
    (h : OncePerBoundary env log) (he : e.kind = .automatic → Justified env log e) :
    OncePerBoundary env (log ++ [e]) := by
  intro before x after hlog hkind
  rcases List.eq_nil_or_concat after with rfl | ⟨after', y, rfl⟩
  · obtain ⟨rfl, hx⟩ := List.append_inj' hlog rfl
    cases hx
    exact he hkind
  · have hlog' : log ++ [e] = (before ++ x :: after') ++ [y] := by simpa using hlog
    obtain ⟨rfl, -⟩ := List.append_inj' hlog' rfl
    exact h before x after' rfl hkind

/-! ### The clock of a row -/

/-- An admin reset at `now` falls back to a first boundary that is already past. -/
def Rewinds (env : Env) (now : Int) (x : UserSubscription) : Prop :=
  ∃ plan, env.plan x.planId = .ok plan ∧ calcNextResetTime env.loc now plan x.endTime = 0 ∧
    0 < calcNextResetTime env.loc x.startTime plan x.endTime ∧
    calcNextResetTime env.loc x.startTime plan x.endTime ≤ now

instance (env : Env) (now : Int) (x : UserSubscription) : Decidable (Rewinds env now x) :=
  match h : env.plan x.planId with
  | .error _ => isFalse fun ⟨_, hplan, _⟩ => by simp [h] at hplan
  | .ok plan =>
    decidable_of_iff (calcNextResetTime env.loc now plan x.endTime = 0 ∧
      0 < calcNextResetTime env.loc x.startTime plan x.endTime ∧
      calcNextResetTime env.loc x.startTime plan x.endTime ≤ now) (by simp [Rewinds, h])

structure OnTime (env : Env) (trace : List ResetEvent) (x : UserSubscription) : Prop where
  ids : ∀ e ∈ trace, e.subId = x.id
  start : 0 < x.startTime
  created : ∃ e ∈ trace, e.kind = .created ∧ e.time = x.startTime
  clock : x.status = .active → ∀ plan, env.plan x.planId = .ok plan →
    ∃ last anchor, lastMove x.id trace = some last ∧ anchor ∈ trace ∧ anchor.kind.isAnchor = true ∧
      (plan.resetPeriod = .custom →
        ∃ k : Nat, x.resetBase = anchor.time + k * plan.quotaResetCustomSeconds) ∧
      (calcNextResetTime env.loc x.resetBase plan x.endTime = 0 ∨
        last.time < calcNextResetTime env.loc x.resetBase plan x.endTime)

section

variable {env : Env} (hloc : env.loc.Regular) (hfits : ∀ plan ∈ env.plans, plan.PeriodFits)

variable {now : Int} {turns : Nat} {plan : Plan} {events trace : List ResetEvent} {x y : UserSubscription} {op : Op}

/-- What holds of the base and of the boundary after every base holds of the base that the walk
returns. -/
theorem resetWalk_base {next : Int → Int} {P : Int → Prop}
    (hnext : ∀ t, P t → next t ≠ 0 → P (next t)) {base upcoming : Int} {r : Int × Int}
    (h : resetWalk next now turns base upcoming = some r) (hbase : P base) (hup : upcoming = next base) :
    P r.1 := by
  induction turns generalizing base upcoming with rw [resetWalk] at h
  | zero =>
    split_ifs at h
    cases h
    exact hbase
  | succ turns ih =>
    split_ifs at h with hdue
    · exact ih h (hup ▸ hnext base hbase (by omega)) rfl
    · cases h
      exact hbase

/-! ### What one change does to the clock -/

theorem lastMove_append_one (id : Int) (trace : List ResetEvent) {e : ResetEvent} (he : e.subId = id) :
    lastMove id (trace ++ [e]) = if e.kind.movesClock then some e else lastMove id trace := by
  have hone : eventsOf id [e] = [e] := eventsOf_all (by simpa using he)
  unfold lastMove
  rw [eventsOf_append, hone, List.filter_append]
  cases hk : e.kind.movesClock <;> simp [hk]

theorem OnTime.keep (hx : OnTime env trace x)
    (hid : y.id = x.id) (hplanId : y.planId = x.planId) (hstart : y.startTime = x.startTime)
    (hactive : y.status = .active →
      x.status = .active ∧ y.endTime = x.endTime ∧ y.resetBase = x.resetBase)
    (hids : ∀ e ∈ events, e.subId = x.id) (hquiet : ∀ e ∈ events, e.kind.movesClock = false) :
    OnTime env (trace ++ events) y := by
  refine ⟨fun e he => ?_, by rw [hstart]; exact hx.start, ?_, fun hy plan hplan => ?_⟩
  · rw [hid]
    exact (List.mem_append.1 he).elim (hx.ids e) (hids e)
  · obtain ⟨e, he, hkind, htime⟩ := hx.created
    exact ⟨e, List.mem_append_left _ he, hkind, htime.trans hstart.symm⟩
  · obtain ⟨hxa, hend, hbase⟩ := hactive hy
    obtain ⟨last, anchor, hlast, hmem, hanchor, hcustom, hnext⟩ := hx.clock hxa plan (hplanId ▸ hplan)
    refine ⟨last, anchor, ?_, List.mem_append_left _ hmem, hanchor, ?_, ?_⟩
    · rw [← hlast, hid, lastMove, lastMove, eventsOf_append, List.filter_append]
      have hnone : (eventsOf x.id events).filter (fun e => e.kind.movesClock) = [] :=
        List.filter_eq_nil_iff.2 fun e he => by simp [hquiet e (List.mem_filter.1 he).1]
      rw [hnone, List.append_nil]
    · rwa [hbase]
    · rwa [hbase, hend]

theorem OnTime.resetBase_pos (hx : OnTime env trace x) : 0 < x.resetBase := by
  have := hx.start
  unfold UserSubscription.resetBase
  split_ifs <;> omega

/-- A change that sets the clock at `e`: the boundary after the new base lies after `e`. -/
theorem OnTime.move {e : ResetEvent}
    (hx : OnTime env trace x) (hid : y.id = x.id) (hstart : y.startTime = x.startTime)
    (he : e.subId = x.id) (hmoves : e.kind.movesClock = true)
    (hclock : ∀ plan, env.plan y.planId = .ok plan →
      (∃ anchor ∈ trace ++ [e], anchor.kind.isAnchor = true ∧ (plan.resetPeriod = .custom →
        ∃ k : Nat, y.resetBase = anchor.time + k * plan.quotaResetCustomSeconds)) ∧
      (calcNextResetTime env.loc y.resetBase plan y.endTime = 0 ∨
        e.time < calcNextResetTime env.loc y.resetBase plan y.endTime)) :
    OnTime env (trace ++ [e]) y := by
  refine ⟨fun e' he' => ?_, by rw [hstart]; exact hx.start, ?_, fun _ plan hplan => ?_⟩
  · rw [hid]
    rcases List.mem_append.1 he' with he' | he'
    · exact hx.ids e' he'
    · rwa [List.mem_singleton.1 he']
  · obtain ⟨c, hc, hkind, htime⟩ := hx.created
    exact ⟨c, List.mem_append_left _ hc, hkind, htime.trans hstart.symm⟩
  · obtain ⟨⟨anchor, hmem, hanchor, hcustom⟩, hnext⟩ := hclock plan hplan
    refine ⟨e, anchor, ?_, hmem, hanchor, hcustom, hnext⟩
    rw [lastMove_append_one _ _ (he.trans hid.symm), if_pos hmoves]

/-- The reset that `maybeResetUserSubscriptionWithPlanTx` makes, or the clock it leaves. -/
theorem maybeReset_cases {zeroed : Bool} (hstart : 0 < x.startTime)
    (h : maybeResetUserSubscriptionWithPlanTx env turns x plan now = some (y, zeroed)) :
    (zeroed = false ∧ y.resetBase = x.resetBase) ∨
    (zeroed = true ∧ 0 < calcNextResetTime env.loc x.resetBase plan x.endTime ∧
      calcNextResetTime env.loc x.resetBase plan x.endTime ≤ now ∧
      resetWalk (fun base => calcNextResetTime env.loc base plan x.endTime) now turns x.resetBase
        (calcNextResetTime env.loc x.resetBase plan x.endTime) =
          some (y.lastResetTime, y.nextResetTime)) := by
  unfold maybeResetUserSubscriptionWithPlanTx at h
  split_ifs at h with hfuture hnever
  · cases h
    exact Or.inl ⟨rfl, rfl⟩
  · cases h
    exact Or.inl ⟨rfl, rfl⟩
  dsimp only at h
  split at h
  · cases h
  rename_i base upcoming hwalk
  split_ifs at h with hdue hunset <;> cases h
  · exact Or.inr ⟨rfl, hdue.1, hdue.2, hwalk⟩
  · refine Or.inl ⟨rfl, ?_⟩
    -- nothing was due, so the walk returned the base it started from
    rw [resetWalk_of_not_due _ _ _ hdue] at hwalk
    cases hwalk
    simp only [UserSubscription.resetBase]
    split_ifs <;> omega
  · exact Or.inl ⟨rfl, rfl⟩

include hloc hfits in
/-- An automatic reset is justified, and its clock stays on time. -/
theorem onTime_automatic (hx : OnTime env trace x) (hactive : x.status = .active)
    (hplan : env.plan x.planId = .ok plan)
    (hreset : maybeResetUserSubscriptionWithPlanTx env turns x plan now = some (y, true)) :
    OnTime env (trace ++ [⟨x.id, x.planId, .automatic, now⟩]) y ∧
      Justified env trace ⟨x.id, x.planId, .automatic, now⟩ := by
  have hplanFits := hfits plan (plan_spec hplan).1
  obtain ⟨last, anchor, hlast, hmem, hanchor, hcustom, hnext⟩ := hx.clock hactive plan hplan
  obtain ⟨hfalse, -⟩ | ⟨-, hpos, hdue, hwalk⟩ := maybeReset_cases hx.start hreset
  · cases hfalse
  have hbasePos : 0 < x.resetBase := hx.resetBase_pos
  have hkeys := maybeReset_keys hreset
  obtain ⟨hup, hnot, hbase⟩ := resetWalk_spec hwalk rfl
  simp only at hup hnot hbase
  have hpos' : 0 < y.lastResetTime := by omega
  have hresetBase : y.resetBase = y.lastResetTime := if_neg (by omega)
  have hend : y.endTime = x.endTime := by rw [hkeys]
  have hplanId : y.planId = x.planId := by rw [hkeys]
  refine ⟨hx.move (by rw [hkeys]) (by rw [hkeys]) rfl rfl fun plan' hplan' => ?_, ?_⟩
  · obtain rfl : plan = plan' := by
      rw [hplanId, hplan] at hplan'
      cases hplan'
      rfl
    rw [hresetBase, hend]
    refine ⟨⟨anchor, List.mem_append_left _ hmem, hanchor, ?_⟩, ?_⟩
    · refine (resetWalk_base (P := fun t => 0 < t ∧ (plan.resetPeriod = .custom →
        ∃ k : Nat, t = anchor.time + k * plan.quotaResetCustomSeconds)) ?_ hwalk
        ⟨hbasePos, hcustom⟩ rfl).2
      rintro t ⟨ht, hcustom⟩ hne
      have hb := calcNextResetTime_isBoundary hloc hplanFits ht hcustom hne
      refine ⟨ht.trans (lt_calcNextResetTime hloc hplanFits ht hne), fun hc => ?_⟩
      simp only [IsBoundary, hc] at hb
      obtain ⟨k, -, hk⟩ := hb
      exact ⟨k, hk⟩
    · by_cases hzero : calcNextResetTime env.loc y.lastResetTime plan x.endTime = 0
      · exact Or.inl hzero
      · have hlt := lt_calcNextResetTime hloc hplanFits hpos' hzero
        rw [← hup] at hlt ⊢
        exact Or.inr (by simp only; omega)
  · have hmem' : anchor ∈ eventsOf x.id trace := by
      rw [eventsOf_all hx.ids]
      exact hmem
    have hb := calcNextResetTime_isBoundary hloc hplanFits hbasePos hcustom hpos.ne'
    exact ⟨plan, last, anchor, _, hplan, hlast, hmem', hanchor, hb, hnext.resolve_left hpos.ne', hdue⟩

include hloc hfits in
/-- An admin reset that moves the clock keeps it on time unless it rewinds. -/
theorem onTime_admin
    (hnow : 0 < now) (hx : OnTime env trace x) (hplan : env.plan x.planId = .ok plan)
    (hsafe : ¬Rewinds env now x) :
    OnTime env (trace ++ [⟨x.id, x.planId, .admin true, now⟩])
      (resetUserSubscriptionTx env plan now true x) := by
  have hplanFits := hfits plan (plan_spec hplan).1
  refine hx.move rfl rfl rfl rfl fun plan' hplan' => ?_
  obtain rfl : plan = plan' := by
    rw [show (resetUserSubscriptionTx env plan now true x).planId = x.planId from rfl, hplan] at hplan'
    cases hplan'
    rfl
  by_cases hzero : calcNextResetTime env.loc now plan x.endTime = 0
  · -- no boundary is left: the clock falls back to the start
    have hbase : (resetUserSubscriptionTx env plan now true x).resetBase = x.startTime := by
      simp [resetUserSubscriptionTx, UserSubscription.resetBase, hzero]
    rw [hbase]
    obtain ⟨c, hc, hkind, htime⟩ := hx.created
    refine ⟨⟨c, List.mem_append_left _ hc, by rw [hkind]; rfl, fun _ => ⟨0, by simp [htime]⟩⟩, ?_⟩
    by_cases hfirst : calcNextResetTime env.loc x.startTime plan x.endTime = 0
    · exact Or.inl hfirst
    · have hlt := lt_calcNextResetTime hloc hplanFits hx.start hfirst
      have hstart := hx.start
      refine Or.inr (not_le.1 fun hle => hsafe ⟨plan, hplan, hzero, ?_, hle⟩)
      omega
  · have hlt := lt_calcNextResetTime hloc hplanFits hnow hzero
    have hbase : (resetUserSubscriptionTx env plan now true x).resetBase = now := by
      have hpos : 0 < calcNextResetTime env.loc now plan x.endTime := by omega
      simp only [resetUserSubscriptionTx, UserSubscription.resetBase, if_true, if_pos hpos]
      exact if_neg (by omega)
    rw [hbase]
    exact ⟨⟨_, List.mem_append_right _ (List.mem_singleton_self _), rfl, fun _ => ⟨0, by simp⟩⟩, Or.inr hlt⟩

variable {adv : UserSubscription → Prop}

include hloc hfits in
theorem RowChange.onTime (h : RowChange env adv now x events y) (hnow : 0 < now)
    (hsafe : x.status = .active → adv x → ¬Rewinds env now x)
    (hx : OnTime env trace x) (hlog : OncePerBoundary env trace) :
    OnTime env (trace ++ events) y ∧ OncePerBoundary env (trace ++ events) := by
  obtain ⟨hid, hplanId, -, -, hstart, hevents⟩ := h.keys
  have hactive := h.active
  have hids : ∀ e ∈ events, e.subId = x.id := fun e he => (hevents e he).1
  cases h with
  | amount used =>
    exact ⟨hx.keep rfl rfl rfl (fun hy => ⟨hy, rfl, rfl⟩) hids (by simp), by simpa using hlog⟩
  | reset _ plan turns zeroed hxa hplan hreset =>
    cases zeroed with
    | true =>
      obtain ⟨hy, hjust⟩ := onTime_automatic hloc hfits hx hxa hplan hreset
      exact ⟨hy, hlog.append_one fun _ => hjust⟩
    | false =>
      have hbase : y.resetBase = x.resetBase := by
        rcases maybeReset_cases hx.start hreset with ⟨-, hbase⟩ | ⟨htrue, -⟩
        · exact hbase
        · cases htrue
      refine ⟨hx.keep hid hplanId hstart (fun hy => ?_) hids (by simp [resetEvents]), ?_⟩
      · exact ⟨(hactive hy).1, (hactive hy).2, hbase⟩
      · simpa [resetEvents] using hlog
  | admin plan advance hxa hplan hadv =>
    refine ⟨?_, hlog.append_one fun hkind => by cases hkind⟩
    cases advance with
    | true => exact onTime_admin hloc hfits hnow hx hplan (hsafe hxa (hadv rfl))
    | false => exact hx.keep rfl rfl rfl (fun hy => ⟨hy, rfl, rfl⟩) hids (by simp [ResetKind.movesClock])
  | expire =>
    exact ⟨hx.keep rfl rfl rfl (fun hy => by cases hy) hids (by simp), by simpa using hlog⟩
  | cancel =>
    exact ⟨hx.keep rfl rfl rfl (fun hy => by cases hy) hids (by simp), by simpa using hlog⟩

/-- The admin reset of a row is decided by columns that changes in the same call keep. -/
theorem advances_of_run
    (h : RowRun env adv now x events y) (hy : op.advances y) : op.advances x := by
  obtain ⟨-, hplanId, huser, -, -, -⟩ := h.keys
  cases op with
  | adminResetUser fault t userId planId advance =>
    cases advance with
    | false => exact hy
    | true =>
      obtain ⟨hu, hp, ha, ht⟩ := hy
      obtain ⟨hxa, hend⟩ := h.active ha
      exact ⟨huser ▸ hu, hplanId ▸ hp, hxa, hend ▸ ht⟩
  | adminResetPlan fault t planId advance =>
    cases advance with
    | false => exact hy
    | true =>
      obtain ⟨hp, ha, ht⟩ := hy
      obtain ⟨hxa, hend⟩ := h.active ha
      exact ⟨hplanId ▸ hp, hxa, hend ▸ ht⟩
  | _ => exact hy

include hloc hfits in
theorem RowRun.onTime (h : RowRun env op.advances now x events y) (hnow : 0 < now)
    (hsafe : op.advances x → ¬Rewinds env now x) (hx : OnTime env trace x)
    (hlog : OncePerBoundary env trace) :
    OnTime env (trace ++ events) y ∧ OncePerBoundary env (trace ++ events) := by
  induction h with
  | refl => simpa using ⟨hx, hlog⟩
  | @tail y z events events' hrun hchange ih =>
    obtain ⟨hy, hlog'⟩ := ih
    rw [← List.append_assoc]
    refine hchange.onTime hloc hfits hnow (fun hactive hadv hrewinds => ?_) hy hlog'
    obtain ⟨-, hplanId, -, -, hstart, -⟩ := hrun.keys
    rw [Rewinds, hplanId, hstart, (hrun.active hactive).2] at hrewinds
    exact hsafe (advances_of_run hrun hadv) hrewinds

include hloc hfits in
theorem Created.onTime {db : Db} (h : Created env now db y)
    (hnow : 0 < now) : OnTime env [⟨y.id, y.planId, .created, now⟩] y := by
  refine ⟨by simp, by rw [h.start]; exact hnow, ⟨_, List.mem_singleton_self _, rfl, h.start.symm⟩,
    fun _ plan hplan => ?_⟩
  obtain ⟨plan', hplan', hnext, hlast⟩ := h.clock
  have hbase : y.resetBase = now := by
    unfold UserSubscription.resetBase
    rw [hlast, h.start]
    split_ifs <;> omega
  refine ⟨⟨y.id, y.planId, .created, now⟩, _, ?_, List.mem_singleton_self _, rfl,
    fun _ => ⟨0, by simp [hbase]⟩, ?_⟩
  · exact (lastMove_append_one y.id [] rfl).trans (if_pos rfl)
  · rw [hbase]
    by_cases hzero : calcNextResetTime env.loc now plan y.endTime = 0
    · exact Or.inl hzero
    · exact Or.inr (lt_calcNextResetTime hloc (hfits plan (plan_spec hplan).1) hnow hzero)

/-! ### Runs -/

/-- The call has a Unix time after `0`, and is not an admin reset that rewinds a row. -/
def ClockSafe (env : Env) (s : Ledger) (op : Op) : Prop :=
  (∀ t ∈ op.time?, 0 < t) ∧ ∀ x ∈ s.db.subs, op.advances x → ¬Rewinds env (op.time?.getD 1) x

instance (op : Op) (x : UserSubscription) : Decidable (op.advances x) := by
  unfold Op.advances
  split <;> infer_instance

instance (env : Env) (s : Ledger) (op : Op) : Decidable (ClockSafe env s op) :=
  inferInstanceAs (Decidable (_ ∧ ∀ x ∈ s.db.subs, _))

structure ClocksOk (env : Env) (s : Ledger) : Prop where
  keyed : s.db.Keyed
  rows : ∀ x ∈ s.db.subs, OnTime env (eventsOf x.id s.log) x
  once : ∀ id, OncePerBoundary env (eventsOf id s.log)
  below : ∀ e ∈ s.log, e.subId < s.db.nextId

include hloc hfits in
theorem step_clocksOk {s t : Ledger} (hs : ClocksOk env s) (hsafe : ClockSafe env s op)
    (h : step env s op = some t) : ClocksOk env t := by
  obtain ⟨o, ho, rfl⟩ := step_eq_some h
  have heffect := exec_effect 1 hs.keyed ho
  have hnow : 0 < op.time?.getD 1 := by
    cases ht : op.time? with
    | none => exact Int.one_pos
    | some t => exact hsafe.1 t ht
  have hrow : ∀ y ∈ o.db.subs, OnTime env (eventsOf y.id (s.log ++ o.events)) y ∧
      OncePerBoundary env (eventsOf y.id (s.log ++ o.events)) := by
    intro y hy
    rw [eventsOf_append]
    rcases heffect.rows y hy with ⟨x, hx, hrun⟩ | ⟨hnew, hevents⟩
    · rw [hrun.keys.1] at hrun ⊢
      exact hrun.onTime hloc hfits hnow (hsafe.2 x hx) (hs.rows x hx) (hs.once x.id)
    · -- no reset can have been logged under an id that was not given out yet
      rw [hevents, eventsOf_none fun e he heq => ?_]
      · refine ⟨hnew.onTime hloc hfits hnow, oncePerBoundary_nil.append_one fun h => ?_⟩
        cases h
      · have := hs.below e he
        rw [heq, hnew.id] at this
        omega
  refine ⟨heffect.keyed, fun y hy => (hrow y hy).1, fun id => ?_, fun e he => ?_⟩
  · by_cases hnone : eventsOf id o.events = []
    · simpa [hnone] using hs.once id
    · obtain ⟨e, he⟩ := List.exists_mem_of_ne_nil _ hnone
      obtain ⟨he, hid⟩ := List.mem_filter.1 he
      obtain ⟨y, hy, hyid⟩ := heffect.logged e he
      have hyid' : y.id = id := by rw [hyid]; simpa using hid
      rw [← hyid']
      exact (hrow y hy).2
  · rcases List.mem_append.1 he with he | he
    · exact (hs.below e he).trans_le heffect.nextId
    · obtain ⟨y, hy, hyid⟩ := heffect.logged e he
      rw [← hyid]
      exact heffect.keyed.below y hy

end

/-- In every run without a rewinding admin reset, an automatic reset has a boundary of the plan
between the last move of the clock and itself; so it is later than that move. -/
theorem reset_once_per_boundary (env : Env) (hloc : env.loc.Regular)
    (hfits : ∀ plan ∈ env.plans, plan.PeriodFits) (l : List Op) (u : Ledger)
    (hsafe : Along (step env) (ClockSafe env) {} l) (hrun : run (step env) {} l = some u) :
    OncePerBoundary env u.log ∧
      ∀ before e after, u.log = before ++ e :: after → e.kind = .automatic →
        ∀ last, lastMove e.subId before = some last → last.time < e.time := by
  have hok : ClocksOk env u := by
    refine run_inv_along (fun s op t hs hc h => step_clocksOk hloc hfits hs hc h) ?_ hsafe hrun
    exact ⟨⟨by simp, by simp⟩, by simp, fun _ => oncePerBoundary_nil, by simp⟩
  have honce := oncePerBoundary_of_eventsOf hok.once
  refine ⟨honce, fun before e after hlog hkind last hlast => ?_⟩
  obtain ⟨plan, last', anchor, b, -, hlast', -, -, -, hlt, hle⟩ := honce before e after hlog hkind
  rw [hlast] at hlast'
  cases hlast'
  omega

def clockExample : Env where
  loc := .fixed 0
  plans :=
    [{ id := 3, durationUnit := .custom, customSeconds := 100000, totalAmount := 100,
       quotaResetPeriod := "daily" }]

/-- An admin reset before the midnight at `86400`, and the automatic one after it. -/
theorem reset_once_per_boundary_daily :
    ∃ u, run (step clockExample) {} [.create none 43200 7 3 "order", .preConsume none 9 50000 "a" 7 40,
        .adminResetUser none 60000 7 3 true, .preConsume none 9 90000 "b" 7 60] = some u ∧
      u.log.map ResetEvent.kind = [.created, .admin true, .automatic] ∧ OncePerBoundary clockExample u.log :=
  ⟨_, rfl, by decide, (reset_once_per_boundary clockExample (Location.fixed_regular 0) (by decide)
    [.create none 43200 7 3 "order", .preConsume none 9 50000 "a" 7 40,
      .adminResetUser none 60000 7 3 true, .preConsume none 9 90000 "b" 7 60] _ (by decide) rfl).1⟩

/-- The subscription ends at `143200`, before the midnight after the admin reset at `100000`. In the
same second the used amount is set to `0` again, for the midnight at `86400` whose reset was made at
`90000`. -/
theorem admin_reset_rewinds :
    ∃ u, run (step clockExample) {} [.create none 43200 7 3 "order", .preConsume none 9 90000 "a" 7 40,
        .adminResetUser none 100000 7 3 true, .preConsume none 9 100000 "b" 7 60] = some u ∧
      ¬OncePerBoundary clockExample u.log := by
  have hlog : (run (step clockExample) {} [.create none 43200 7 3 "order", .preConsume none 9 90000 "a" 7 40,
      .adminResetUser none 100000 7 3 true, .preConsume none 9 100000 "b" 7 60]).map Ledger.log =
    some [⟨1, 3, .created, 43200⟩, ⟨1, 3, .automatic, 90000⟩, ⟨1, 3, .admin true, 100000⟩,
      ⟨1, 3, .automatic, 100000⟩] := by decide +kernel
  obtain ⟨u, hu, hlog⟩ := Option.map_eq_some_iff.1 hlog
  refine ⟨u, hu, fun h => ?_⟩
  obtain ⟨plan, last, anchor, b, -, hlast, -, -, -, hlt, hle⟩ := h
    [⟨1, 3, .created, 43200⟩, ⟨1, 3, .automatic, 90000⟩, ⟨1, 3, .admin true, 100000⟩]
    ⟨1, 3, .automatic, 100000⟩ [] hlog rfl
  obtain rfl : (⟨1, 3, .admin true, 100000⟩ : ResetEvent) = last := by
    have hcomputed : lastMove 1 [⟨1, 3, .created, 43200⟩, ⟨1, 3, .automatic, 90000⟩,
      ⟨1, 3, .admin true, 100000⟩] = some ⟨1, 3, .admin true, 100000⟩ := by decide
    exact Option.some.inj (hcomputed.symm.trans hlast)
  exact absurd (lt_of_lt_of_le hlt hle) (lt_irrefl _)

end TokenEra.Subscription
