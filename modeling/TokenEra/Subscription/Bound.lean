import TokenEra.Subscription.Ledger

/-!
# The bound on the used amount

Six functions write `AmountUsed`, each with its own guard. Every one of their row changes keeps
`0 ≤ AmountUsed`, and `AmountUsed ≤ AmountTotal` on a limited subscription (`RowChange.bounded`).
The code adds in `int64`: its calls are those with exact sums as long as the sums fit
(`exec_wrap64`), so the bound holds in every state that such calls lead to. An unlimited
subscription has no guard against a sum that does not fit (`unlimited_overflows`).

A call that fails leaves the rows as they were, because it is one transaction. The two batch jobs
are a transaction for each user or row instead: what they committed before the failure stays
(`KeptOnError`).
-/

namespace TokenEra.Subscription

open Lib Lib.Calendar

variable {adv : UserSubscription → Prop}

/-- The used amount is not negative, and within the total when there is one. -/
def UserSubscription.Bounded (x : UserSubscription) : Prop :=
  0 ≤ x.amountUsed ∧ (0 < x.amountTotal → x.amountUsed ≤ x.amountTotal)

variable {env : Env} {now : Int} {x : UserSubscription} {db : Db} {e : Error} {fault : Option String} {α : Type}

theorem RowChange.bounded {y : UserSubscription} {events : List ResetEvent}
    (h : RowChange env adv now x events y) (hx : x.Bounded) : y.Bounded := by
  obtain ⟨hlow, hhigh⟩ := hx
  cases h with
  | amount used hlow' hhigh' => exact ⟨by simp only; omega, hhigh'⟩
  | reset _ plan turns zeroed hactive hplan h =>
    rw [maybeReset_keys h]
    cases zeroed with
    | true => exact ⟨le_refl _, le_of_lt⟩
    | false => exact ⟨hlow, hhigh⟩
  | admin plan advance hactive hplan hadv =>
    cases advance <;> exact ⟨le_refl _, le_of_lt⟩
  | expire => exact ⟨hlow, hhigh⟩
  | cancel => exact ⟨hlow, hhigh⟩

theorem RowRun.bounded {y : UserSubscription} {events : List ResetEvent}
    (h : RowRun env adv now x events y) (hx : x.Bounded) : y.Bounded := by
  induction h with
  | refl => exact hx
  | tail _ hchange ih => exact hchange.bounded ih

theorem step_bounded {s t : Ledger} {op : Op} (hkeyed : s.db.Keyed)
    (hs : ∀ x ∈ s.db.subs, x.Bounded) (h : step env s op = some t) :
    t.db.Keyed ∧ ∀ x ∈ t.db.subs, x.Bounded := by
  obtain ⟨o, ho, rfl⟩ := step_eq_some h
  have heffect := exec_effect 0 hkeyed ho
  refine ⟨heffect.keyed, fun y hy => ?_⟩
  rcases heffect.rows y hy with ⟨x, hx, hrun⟩ | ⟨hnew, -⟩
  · exact hrun.bounded (hs x hx)
  · exact ⟨hnew.used.ge, fun hpos => by rw [hnew.used]; exact hpos.le⟩

/-! ### Failed calls -/

theorem transaction_error {body : Except Error (α × Db × List ResetEvent)}
    (h : (transaction fault db body).result = .error e) : (transaction fault db body).db = db := by
  rcases transaction_cases fault db body with ⟨hsame, -, -⟩ | ⟨a, db', events, -, -, heq⟩
  · exact hsame
  · rw [heq] at h
    cases h

/-- A call that checks its arguments and then runs a transaction. -/
theorem guarded_error {p : Prop} [Decidable p]
    {body : Except Error (α × Db × List ResetEvent)} {e' : Error} {o : Outcome α}
    (ho : o = if p then ⟨db, .error e', []⟩ else transaction fault db body) (h : o.result = .error e) :
    o.db = db := by
  subst ho
  split_ifs at h ⊢
  · rfl
  · exact transaction_error h

variable {w : Int → Int}

theorem postConsume_error {subId delta : Int}
    (h : (postConsumeUserSubscriptionDelta fault subId delta db w).result = .error e) :
    (postConsumeUserSubscriptionDelta fault subId delta db w).db = db := by
  rcases postConsume_cases fault subId delta db w with ⟨hsame, -, -⟩ | ⟨-, heq⟩ | ⟨_, _, -, -, -, heq⟩
  · exact hsame
  · rw [heq]
  · rw [heq] at h
    cases h

/-- A failed refund that is not half-committed changed nothing. -/
theorem refund_error {faults : RefundFaults} {requestId : String}
    (hhalf : halfCommits faults requestId db w = false)
    (h : (refundSubscriptionPreConsume faults requestId db w).result = .error e) :
    (refundSubscriptionPreConsume faults requestId db w).db = db := by
  rcases refund_cases faults requestId db w with
    ⟨-, hdb, -, -⟩ | ⟨r, -, -, ⟨-, -, heq⟩ | ⟨-, inner, -, ⟨hhalf', -⟩ | ⟨-, heq⟩⟩⟩
  · exact hdb
  · rw [heq] at h
    cases h
  · rw [hhalf] at hhalf'
    cases hhalf'
  · rw [heq] at h
    cases h

theorem preConsume_error {turns : Nat} {requestId : String} {userId amount : Int}
    {o : Outcome PreConsumeResult}
    (h : preConsumeUserSubscription env fault turns now requestId userId amount db w = some o)
    (herr : o.result = .error e) : o.db = db := by
  unfold preConsumeUserSubscription at h
  split_ifs at h
  · cases h
    rfl
  · cases h
    rfl
  · cases h
    rfl
  · obtain ⟨body, -, rfl⟩ := Option.map_eq_some_iff.1 h
    exact transaction_error herr

/-- What a call that fails leaves. A batch job keeps the transactions it committed before the
failure; nothing is said about a refund whose inner transaction committed and whose outer one
failed. -/
def KeptOnError (env : Env) (db db' : Db) : Op → Prop
  | .expireDue _ _ _ now _ =>
    db'.subs.map UserSubscription.id = db.subs.map UserSubscription.id ∧
    ∀ y ∈ db'.subs, y ∈ db.subs ∨
      ∃ x ∈ db.subs, isExpirable now x = true ∧ y = { x with status := .expired }
  | .resetDue _ _ turns now _ =>
    db'.subs.map UserSubscription.id = db.subs.map UserSubscription.id ∧
    ∀ y ∈ db'.subs, y ∈ db.subs ∨ ∃ x ∈ db.subs, y = (resetRow env turns now x).2
  | .refund faults requestId => halfCommits faults requestId db wrap64 = false → db'.subs = db.subs
  | _ => db'.subs = db.subs

theorem void_error {o : Outcome α} (h : o.void.result = .error e) :
    o.result = .error e := by
  obtain ⟨db, result, events⟩ := o
  cases result with
  | error e' =>
    cases h
    rfl
  | ok => cases h

theorem exec_error {op : Op} {o : Outcome Unit} (hdb : db.Keyed)
    (h : exec env db op wrap64 = some o) (herr : o.result = .error e) :
    KeptOnError env db o.db op := by
  cases op with
  | create fault now userId planId source =>
    cases h
    exact congrArg Db.subs (transaction_error (void_error herr))
  | preConsume fault turns now requestId userId amount =>
    obtain ⟨out, hout, rfl⟩ := Option.map_eq_some_iff.1 h
    exact congrArg Db.subs (preConsume_error hout (void_error herr))
  | postConsume fault id delta =>
    cases h
    exact congrArg Db.subs (postConsume_error herr)
  | refund faults requestId =>
    cases h
    exact fun hhalf => congrArg Db.subs (refund_error hhalf herr)
  | resetDue select fault turns now limit =>
    obtain ⟨out, hout, rfl⟩ := Option.map_eq_some_iff.1 h
    obtain ⟨hrw, hrows⟩ : Rewrites env (fun _ => False) now db out ∧ _ := resetDue_rewrites hdb hout
    exact ⟨hrw.1.ids, fun y hy => (hrows y hy).imp And.left fun ⟨x, hx, hyx, _⟩ => ⟨x, hx, hyx⟩⟩
  | adminResetUser fault now userId planId advance =>
    cases h
    have hsame := guarded_error rfl (void_error herr)
    exact congrArg Db.subs hsame
  | adminResetPlan fault now planId advance =>
    cases h
    have hsame := guarded_error rfl (void_error herr)
    exact congrArg Db.subs hsame
  | expireDue select fault order now limit =>
    cases h
    obtain ⟨hrw, hrows⟩ : Rewrites env (fun _ => False) now db _ ∧ _ :=
      expireDue_rewrites env select fault order now limit db
    exact ⟨hrw.1.ids, hrows⟩
  | invalidate fault now id =>
    cases h
    exact congrArg Db.subs (guarded_error rfl herr)
  | delete fault id =>
    cases h
    exact congrArg Db.subs (guarded_error rfl herr)

/-! ### Sums in 64 bits -/

def step64 (env : Env) (s : Ledger) (op : Op) : Option Ledger :=
  (exec env s.db op wrap64).map fun o => ⟨o.db, s.log ++ o.events⟩

/-- The row, after its reset, whose used amount a call moves, and by what. -/
def Op.charge (env : Env) (db : Db) : Op → Option (UserSubscription × Int)
  | .preConsume _ turns now requestId userId amount =>
    if db.record? requestId = none then
      (((visitCandidates env turns now amount (db.activeSubs userId now)).bind Except.toOption).bind
        Visit.chosen).map (·, amount)
    else none
  | .postConsume _ id delta => (db.sub? id).map (·, delta)
  | .refund _ requestId =>
    (db.record? requestId).bind fun r => if r.status = .refunded ∨ r.preConsumed ≤ 0 then none
      else (db.sub? r.userSubscriptionId).map (·, -r.preConsumed)
  | _ => none

/-- The totals are `int64`s, and so is the sum of a used amount and what a call moves it by. -/
def SumFits (env : Env) (s : Ledger) (op : Op) : Prop :=
  (∀ x ∈ s.db.subs, x.amountTotal < 2 ^ 63) ∧
    ∀ c ∈ op.charge env s.db, -2 ^ 63 ≤ c.1.amountUsed + c.2 ∧ c.1.amountUsed + c.2 < 2 ^ 63

instance (env : Env) (s : Ledger) (op : Op) : Decidable (SumFits env s op) :=
  inferInstanceAs (Decidable (_ ∧ _))

theorem visitCandidates_wrap64 {turns : Nat} {amount : Int} {subs : List UserSubscription}
    (h : ∀ x ∈ subs, x.Bounded ∧ x.amountTotal < 2 ^ 63) :
    visitCandidates env turns now amount subs wrap64 = visitCandidates env turns now amount subs := by
  induction subs with
  | nil => rfl
  | cons x rest ih =>
    obtain ⟨⟨⟨hlow, hhigh⟩, htotal⟩, hrest⟩ := List.forall_mem_cons.1 h
    rw [visitCandidates, visitCandidates, ih hrest]
    cases env.plan x.planId with
    | error e => rfl
    | ok plan =>
      dsimp only
      cases hreset : maybeResetUserSubscriptionWithPlanTx env turns x plan now with
      | none => rfl
      | some r =>
        obtain ⟨y, zeroed⟩ := r
        have hremain : 0 < y.amountTotal →
            wrap64 (y.amountTotal - y.amountUsed) = y.amountTotal - y.amountUsed := by
          rw [maybeReset_keys hreset]
          intro hpos
          have := hhigh hpos
          cases zeroed <;> exact wrap64_of_fits (by simp; omega) (by simp; omega)
        by_cases hpos : 0 < y.amountTotal
        · simp only [hremain hpos, id_eq]
        · simp [hpos]

variable {delta : Int}

theorem applyDelta_wrap64 (h : -2 ^ 63 ≤ x.amountUsed + delta) (h' : x.amountUsed + delta < 2 ^ 63) :
    applyDelta x delta wrap64 = applyDelta x delta := by
  simp only [applyDelta, wrap64_of_fits h h', id_eq]

theorem postConsume_wrap64 {subId : Int} (h : ∀ x, db.sub? subId = some x →
    -2 ^ 63 ≤ x.amountUsed + delta ∧ x.amountUsed + delta < 2 ^ 63) :
    postConsumeUserSubscriptionDelta fault subId delta db wrap64 =
      postConsumeUserSubscriptionDelta fault subId delta db := by
  unfold postConsumeUserSubscriptionDelta
  cases hsub : db.sub? subId with
  | none => rfl
  | some x => simp only [applyDelta_wrap64 (h x hsub).1 (h x hsub).2]

theorem preConsumeBody_wrap64 {turns : Nat} {requestId : String} {userId amount : Int}
    (hrows : ∀ x ∈ db.subs, x.Bounded ∧ x.amountTotal < 2 ^ 63) (hdb : db.Keyed)
    (h : ∀ c ∈ (Op.preConsume fault turns now requestId userId amount).charge env db,
      -2 ^ 63 ≤ c.1.amountUsed + c.2 ∧ c.1.amountUsed + c.2 < 2 ^ 63) :
    preConsumeBody env turns now requestId userId amount db wrap64 =
      preConsumeBody env turns now requestId userId amount db := by
  unfold preConsumeBody
  cases hrecord : db.record? requestId with
  | some existing => rfl
  | none =>
    have hactive := (activeSubs_spec hdb userId now).2
    simp only [visitCandidates_wrap64 fun x hx => hrows x (hactive x hx).1]
    cases hvisit : visitCandidates env turns now amount (db.activeSubs userId now) with
    | none => rfl
    | some r =>
      cases r with
      | error e => rfl
      | ok v =>
        cases hchosen : v.chosen with
        | none => simp [hchosen]
        | some sub =>
          have hsum := h (sub, amount) (by simp [Op.charge, hrecord, hvisit, Except.toOption, hchosen])
          simp [hchosen, preConsumeResult, wrap64_of_fits hsum.1 hsum.2]

/-- As long as the sums fit, the code's calls are those with exact sums. -/
theorem exec_wrap64 {s : Ledger} {op : Op} (hdb : s.db.Keyed)
    (hrows : ∀ x ∈ s.db.subs, x.Bounded) (h : SumFits env s op) :
    exec env s.db op wrap64 = exec env s.db op := by
  obtain ⟨htotal, hsum⟩ := h
  cases op with
  | preConsume fault turns now requestId userId amount =>
    have hbody := preConsumeBody_wrap64 (fun x hx => ⟨hrows x hx, htotal x hx⟩) hdb hsum
    simp only [exec, preConsumeUserSubscription, hbody]
  | postConsume fault subId delta =>
    simp only [exec]
    rw [postConsume_wrap64 fun x hx => hsum (x, delta) (by simp [Op.charge, hx])]
  | refund faults requestId =>
    simp only [exec, refundSubscriptionPreConsume]
    cases hr : s.db.record? requestId with
    | none => rfl
    | some r =>
      by_cases hrefunded : r.status = .refunded
      · simp only [if_pos hrefunded]
      by_cases hzero : r.preConsumed ≤ 0
      · simp only [if_pos hzero]
      · have hgiven : postConsumeUserSubscriptionDelta faults.inner r.userSubscriptionId
            (-r.preConsumed) s.db wrap64 = postConsumeUserSubscriptionDelta faults.inner
              r.userSubscriptionId (-r.preConsumed) s.db :=
          postConsume_wrap64 fun x hx =>
            hsum (x, -r.preConsumed) (by simp [Op.charge, hr, hx, hrefunded, hzero])
        simp only [hgiven]
  | _ => rfl

/-- In every state that calls lead to whose sums fit, every used amount is within its bounds, and a
call that fails there leaves the rows as `KeptOnError` says. -/
theorem ledger_bound (env : Env) (l : List Op) (u : Ledger) (hrun : run (step64 env) {} l = some u)
    (hfits : Along (step64 env) (SumFits env) {} l) :
    (∀ x ∈ u.db.subs, 0 ≤ x.amountUsed ∧ (0 < x.amountTotal → x.amountUsed ≤ x.amountTotal)) ∧
    ∀ op o e, exec env u.db op wrap64 = some o → o.result = .error e →
      KeptOnError env u.db o.db op := by
  have hinv : u.db.Keyed ∧ ∀ x ∈ u.db.subs, x.Bounded := by
    refine run_inv_along (I := fun s : Ledger => s.db.Keyed ∧ ∀ x ∈ s.db.subs, x.Bounded) ?_
      ⟨⟨by simp, by simp⟩, by simp⟩ hfits hrun
    rintro s op t ⟨hkeyed, hrows⟩ hop hstep
    rw [step64, exec_wrap64 hkeyed hrows hop] at hstep
    exact step_bounded hkeyed hrows hstep
  exact ⟨hinv.2, fun op o e h herr => exec_error hinv.1 h herr⟩

/-- A server in UTC that sells a plan of `100` units and an unlimited one. -/
def boundExample : Env where
  loc := .fixed 0
  plans := [{ id := 3, durationUnit := .custom, customSeconds := 60, totalAmount := 100 },
    { id := 4, durationUnit := .custom, customSeconds := 60 }]

theorem ledger_bound_consumed :
    let calls : List Op := [.create none 1000 7 3 "order", .preConsume none 10 1010 "r" 7 40,
      .postConsume none 1 25, .adminResetUser none 1020 7 3 true, .postConsume none 1 7]
    ∃ u, run (step64 boundExample) {} calls = some u ∧
      u.db.subs.map UserSubscription.amountUsed = [7] ∧
      ∀ x ∈ u.db.subs, 0 ≤ x.amountUsed ∧ (0 < x.amountTotal → x.amountUsed ≤ x.amountTotal) := by
  intro calls
  have hamounts : (run (step64 boundExample) {} calls).map (fun u =>
      u.db.subs.map UserSubscription.amountUsed) = some [7] := by decide +kernel
  obtain ⟨u, hrun, hused⟩ := Option.map_eq_some_iff.1 hamounts
  exact ⟨u, hrun, hused, (ledger_bound boundExample calls u hrun (by decide +kernel)).1⟩

/-- Three amounts below `2 ^ 62` take the used amount of an unlimited subscription below zero. And
where the second user's transaction fails, the call fails and the first user's row stays expired. -/
theorem unlimited_overflows :
    ((run (step64 boundExample) {} [.create none 1000 7 4 "order",
        .preConsume none 10 1010 "a" 7 (2 ^ 62 - 1), .preConsume none 10 1010 "b" 7 (2 ^ 62 - 1),
        .preConsume none 10 1010 "c" 7 (2 ^ 62 - 1)]).map fun u =>
      u.db.subs.map UserSubscription.amountUsed) = some [-(2 ^ 62) - 3] ∧
    ∃ u o, run (step64 boundExample) {} [.create none 1000 7 3 "order",
        .create none 1000 8 3 "order"] = some u ∧
      exec boundExample u.db (.expireDue none (fun userId => if userId = 8 then
        some "lock wait timeout" else none) id 2000 0) wrap64 = some o ∧
      o.result = .error (.db "lock wait timeout") ∧ o.db.subs ≠ u.db.subs :=
  ⟨by decide +kernel, _, _, rfl, rfl, by decide, by decide⟩

/-- The same subscription later on, active only if it was, with the same end. -/
def UserSubscription.Continues (x y : UserSubscription) : Prop :=
  y.id = x.id ∧ y.planId = x.planId ∧ y.userId = x.userId ∧ y.amountTotal = x.amountTotal ∧
    (y.status = .active → x.status = .active ∧ y.endTime = x.endTime)

/-- No call revives or extends a subscription, or gives its id out again: after any calls, a row
with an id below the next one continues a row that was there. -/
theorem rows_continue (env : Env) (l : List Op) (s u : Ledger) (hkeyed : s.db.Keyed)
    (hrun : run (step env) s l = some u) :
    ∀ y ∈ u.db.subs, y.id < s.db.nextId → ∃ x ∈ s.db.subs, x.Continues y := by
  refine (run_inv (I := fun t : Ledger => t.db.Keyed ∧ s.db.nextId ≤ t.db.nextId ∧ ∀ y ∈ t.db.subs,
    y.id < s.db.nextId → ∃ x ∈ s.db.subs, x.Continues y) ?_ ⟨hkeyed, le_rfl, fun y hy _ => ?_⟩ hrun).2.2
  · rintro t op v ⟨ht, hle, hrows⟩ hstep
    obtain ⟨o, ho, rfl⟩ := step_eq_some hstep
    have heffect := exec_effect 0 ht ho
    refine ⟨heffect.keyed, hle.trans heffect.nextId, fun z hz hid => ?_⟩
    rcases heffect.rows z hz with ⟨y, hy, hzy⟩ | ⟨hnew, -⟩
    · obtain ⟨hzid, hplan, huser, htotal, -⟩ := hzy.keys
      obtain ⟨x, hx, hyid, hyplan, hyuser, hytotal, hactive⟩ := hrows y hy (hzid ▸ hid)
      refine ⟨x, hx, hzid.trans hyid, hplan.trans hyplan, huser.trans hyuser, htotal.trans hytotal, fun hz => ?_⟩
      obtain ⟨hy, hend⟩ := hzy.active hz
      exact ⟨(hactive hy).1, hend.trans (hactive hy).2⟩
    · have := hnew.id
      omega
  · exact ⟨y, hy, rfl, rfl, rfl, rfl, fun h => ⟨h, rfl⟩⟩

theorem rows_continue_invalidated :
    let s : Ledger := { db := { subs := [⟨1, 7, 3, 100, 7, 1000, 1060, .active, "order", 0, 0, true⟩], nextId := 2 } }
    ∃ u, run (step boundExample) s [.invalidate none 1010 1] = some u ∧
      ∀ y ∈ u.db.subs, y.id < 2 → ∃ x ∈ s.db.subs, x.Continues y :=
  ⟨_, rfl, rows_continue boundExample [.invalidate none 1010 1] _ _ ⟨by decide, by decide⟩ rfl⟩

end TokenEra.Subscription
