import TokenEra.Subscription.Refund

/-!
# The subscription ledger

`Op` is one call of a function that writes `user_subscriptions`, with the database failures it
meets, and `step` performs it on the tables and a log of resets. What a call can do is said once: a
row changes only through the `RowChange`s (an amount, an automatic reset, an admin reset, expiry,
cancellation), several of them in one call (`RowRun`), and `exec_effect` says that after any call
every row came from a row with its id by such changes, with exactly the resets the call logged for
it, or was created by the call. The theorems about amounts and about the reset clock follow from
what one `RowChange` keeps.
-/

namespace TokenEra.Subscription

open Lib Lib.Calendar

/-! ### Calls -/

inductive Op
  | create (fault : Option String) (now userId planId : Int) (source : String)
  | preConsume (fault : Option String) (turns : Nat) (now : Int) (requestId : String)
      (userId amount : Int)
  | postConsume (fault : Option String) (id delta : Int)
  | refund (faults : RefundFaults) (requestId : String)
  | resetDue (select : Option String) (fault : Int → Option String) (turns : Nat) (now limit : Int)
  | adminResetUser (fault : Option String) (now userId planId : Int) (advanceResetTime : Bool)
  | adminResetPlan (fault : Option String) (now planId : Int) (advanceResetTime : Bool)
  | expireDue (select : Option String) (fault : Int → Option String) (order : List Int → List Int)
      (now limit : Int)
  | invalidate (fault : Option String) (now id : Int)
  | delete (fault : Option String) (id : Int)

/-- The database time of the call, where the function reads it. -/
def Op.time? : Op → Option Int
  | .create _ now .. => some now
  | .preConsume _ _ now .. => some now
  | .postConsume .. => none
  | .refund .. => none
  | .resetDue _ _ _ now _ => some now
  | .adminResetUser _ now .. => some now
  | .adminResetPlan _ now .. => some now
  | .expireDue _ _ _ now _ => some now
  | .invalidate _ now _ => some now
  | .delete .. => none

/-- The rows whose reset clock the call moves as an admin. -/
def Op.advances : Op → UserSubscription → Prop
  | .adminResetUser _ now userId planId true, x =>
    x.userId = userId ∧ x.planId = planId ∧ x.status = .active ∧ now < x.endTime
  | .adminResetPlan _ now planId true, x => x.planId = planId ∧ x.status = .active ∧ now < x.endTime
  | _, _ => False

def Outcome.void {α : Type} (o : Outcome α) : Outcome Unit := ⟨o.db, o.result.map fun _ => (), o.events⟩

def exec (env : Env) (db : Db) (op : Op) (w : Int → Int := id) : Option (Outcome Unit) :=
  match op with
  | .create fault now userId planId source =>
    some (createSubscription env fault now userId planId source db).void
  | .preConsume fault turns now requestId userId amount =>
    (preConsumeUserSubscription env fault turns now requestId userId amount db w).map Outcome.void
  | .postConsume fault id delta => some (postConsumeUserSubscriptionDelta fault id delta db w)
  | .refund faults requestId => some (refundSubscriptionPreConsume faults requestId db w)
  | .resetDue select fault turns now limit =>
    (resetDueSubscriptions env select fault turns now limit db).map Outcome.void
  | .adminResetUser fault now userId planId advance =>
    some (adminResetUserSubscriptionsByPlan env fault now userId planId advance db).void
  | .adminResetPlan fault now planId advance =>
    some (adminResetPlanSubscriptions env fault now planId advance db).void
  | .expireDue select fault order now limit =>
    some (expireDueSubscriptions select fault order now limit db).void
  | .invalidate fault now id => some (adminInvalidateUserSubscription fault now id db)
  | .delete fault id => some (adminDeleteUserSubscription fault id db)

structure Ledger where
  db : Db := {}
  log : List ResetEvent := []
deriving DecidableEq, Repr

/-- A call; `none` while the reset walk has not ended within its turns. -/
def step (env : Env) (s : Ledger) (op : Op) : Option Ledger :=
  (exec env s.db op).map fun o => ⟨o.db, s.log ++ o.events⟩

/-! ### Row changes -/

variable {adv : UserSubscription → Prop}

/-- What one write does to a row, and the resets it logs; `adv` holds of the rows whose reset clock
an admin reset may move. -/
inductive RowChange (env : Env) (adv : UserSubscription → Prop) (now : Int) :
    UserSubscription → List ResetEvent → UserSubscription → Prop
  | amount (x : UserSubscription) (used : Int) (hlow : 0 ≤ used ∨ x.amountUsed ≤ used)
      (hhigh : 0 < x.amountTotal → used ≤ x.amountTotal) :
      RowChange env adv now x [] { x with amountUsed := used }
  | reset (x y : UserSubscription) (plan : Plan) (turns : Nat) (zeroed : Bool)
      (hactive : x.status = .active) (hplan : env.plan x.planId = .ok plan)
      (h : maybeResetUserSubscriptionWithPlanTx env turns x plan now = some (y, zeroed)) :
      RowChange env adv now x (resetEvents x now zeroed) y
  | admin (x : UserSubscription) (plan : Plan) (advance : Bool) (hactive : x.status = .active)
      (hplan : env.plan x.planId = .ok plan) (hadv : advance = true → adv x) :
      RowChange env adv now x [⟨x.id, x.planId, .admin advance, now⟩]
        (resetUserSubscriptionTx env plan now advance x)
  | expire (x : UserSubscription) : RowChange env adv now x [] { x with status := .expired }
  | cancel (x : UserSubscription) :
      RowChange env adv now x [] { x with status := .cancelled, endTime := now }

inductive RowRun (env : Env) (adv : UserSubscription → Prop) (now : Int) :
    UserSubscription → List ResetEvent → UserSubscription → Prop
  | refl (x : UserSubscription) : RowRun env adv now x [] x
  | tail {x y z : UserSubscription} {events events' : List ResetEvent} (h : RowRun env adv now x events y)
      (hchange : RowChange env adv now y events' z) : RowRun env adv now x (events ++ events') z

variable {env : Env} {events : List ResetEvent} {now id amount userId : Int}
  {x y sub : UserSubscription} {plan : Plan} {turns : Nat}
  {subs xs : List UserSubscription} {db db' : Db} {v : Visit} {α : Type} {fault : Option String}

theorem RowChange.run (h : RowChange env adv now x events y) : RowRun env adv now x events y :=
  RowRun.tail (.refl x) h

theorem RowRun.trans {z : UserSubscription}
    {events' : List ResetEvent} (h : RowRun env adv now x events y)
    (h' : RowRun env adv now y events' z) : RowRun env adv now x (events ++ events') z := by
  induction h' with
  | refl => simpa using h
  | tail _ hchange ih =>
    rw [← List.append_assoc]
    exact ih.tail hchange

theorem maybeReset_keys {zeroed : Bool}
    (h : maybeResetUserSubscriptionWithPlanTx env turns x plan now = some (y, zeroed)) :
    y = { x with
      amountUsed := if zeroed then 0 else x.amountUsed
      lastResetTime := y.lastResetTime
      nextResetTime := y.nextResetTime } := by
  unfold maybeResetUserSubscriptionWithPlanTx at h
  split_ifs at h
  · cases h
    rfl
  · cases h
    rfl
  · dsimp only at h
    split at h
    · cases h
    · split_ifs at h <;> cases h <;> rfl

theorem RowChange.keys (h : RowChange env adv now x events y) :
    y.id = x.id ∧ y.planId = x.planId ∧ y.userId = x.userId ∧ y.amountTotal = x.amountTotal ∧
      y.startTime = x.startTime ∧ ∀ e ∈ events, e.subId = x.id ∧ e.planId = x.planId := by
  cases h with
  | amount used => simp
  | reset _ plan turns zeroed hactive hplan h =>
    rw [maybeReset_keys h]
    cases zeroed <;> simp [resetEvents]
  | admin plan advance hactive hplan => cases advance <;> simp [resetUserSubscriptionTx]
  | expire => simp
  | cancel => simp

theorem RowChange.active (h : RowChange env adv now x events y) (hy : y.status = .active) :
    x.status = .active ∧ y.endTime = x.endTime := by
  cases h with
  | amount used => exact ⟨hy, rfl⟩
  | reset _ plan turns zeroed hactive hplan h =>
    rw [maybeReset_keys h]
    exact ⟨hactive, rfl⟩
  | admin plan advance hactive hplan hadv =>
    cases advance <;> exact ⟨hactive, rfl⟩
  | expire => cases hy
  | cancel => cases hy

theorem RowRun.active (h : RowRun env adv now x events y) (hy : y.status = .active) :
    x.status = .active ∧ y.endTime = x.endTime := by
  induction h with
  | refl => exact ⟨hy, rfl⟩
  | tail _ hchange ih =>
    obtain ⟨hactive, hend⟩ := hchange.active hy
    exact ⟨(ih hactive).1, hend.trans (ih hactive).2⟩

theorem RowRun.keys (h : RowRun env adv now x events y) :
    y.id = x.id ∧ y.planId = x.planId ∧ y.userId = x.userId ∧ y.amountTotal = x.amountTotal ∧
      y.startTime = x.startTime ∧ ∀ e ∈ events, e.subId = x.id ∧ e.planId = x.planId := by
  induction h with
  | refl => simp
  | tail _ hchange ih =>
    obtain ⟨hid, hplan, huser, htotal, hstart, hevents⟩ := ih
    obtain ⟨hid', hplan', huser', htotal', hstart', hevents'⟩ := hchange.keys
    refine ⟨hid'.trans hid, hplan'.trans hplan, huser'.trans huser, htotal'.trans htotal,
      hstart'.trans hstart, fun e he => ?_⟩
    rcases List.mem_append.1 he with he | he
    · exact hevents e he
    · rw [← hid, ← hplan]
      exact hevents' e he

/-! ### Rewrites of the table -/

def eventsOf (id : Int) (events : List ResetEvent) : List ResetEvent :=
  events.filter fun e => e.subId = id

@[simp] theorem eventsOf_append (id : Int) (l l' : List ResetEvent) :
    eventsOf id (l ++ l') = eventsOf id l ++ eventsOf id l' :=
  List.filter_append ..

theorem eventsOf_all (h : ∀ e ∈ events, e.subId = id) :
    eventsOf id events = events :=
  List.filter_eq_self.2 fun e he => by simp [h e he]

theorem eventsOf_none (h : ∀ e ∈ events, e.subId ≠ id) :
    eventsOf id events = [] :=
  List.filter_eq_nil_iff.2 fun e he => by simp [h e he]

/-- Every row changed by `RowChange`s that logged the given resets, and none came or went. -/
structure Rewrite (env : Env) (adv : UserSubscription → Prop) (now : Int) (subs subs' : List UserSubscription)
    (events : List ResetEvent) : Prop where
  ids : subs'.map UserSubscription.id = subs.map UserSubscription.id
  rows : ∀ y ∈ subs', ∃ x ∈ subs, RowRun env adv now x (eventsOf y.id events) y
  logged : ∀ e ∈ events, ∃ x ∈ subs, x.id = e.subId

theorem Rewrite.refl (env : Env) (now : Int) (subs : List UserSubscription) :
    Rewrite env adv now subs subs [] :=
  ⟨rfl, fun y hy => ⟨y, hy, .refl y⟩, by simp⟩

theorem Rewrite.trans {subs' subs'' : List UserSubscription}
    {events' : List ResetEvent} (h : Rewrite env adv now subs subs' events)
    (h' : Rewrite env adv now subs' subs'' events') :
    Rewrite env adv now subs subs'' (events ++ events') := by
  refine ⟨h'.ids.trans h.ids, fun z hz => ?_, fun e he => ?_⟩
  · obtain ⟨y, hy, hyz⟩ := h'.rows z hz
    obtain ⟨x, hx, hxy⟩ := h.rows y hy
    refine ⟨x, hx, ?_⟩
    rw [eventsOf_append]
    rw [← hyz.keys.1] at hxy
    exact hxy.trans hyz
  · rcases List.mem_append.1 he with he | he
    · exact h.logged e he
    · obtain ⟨y, hy, hid⟩ := h'.logged e he
      obtain ⟨x, hx, hxy⟩ := h.rows y hy
      exact ⟨x, hx, hxy.keys.1.symm.trans hid⟩

theorem eq_of_id_eq (hnodup : (subs.map UserSubscription.id).Nodup)
    (hx : x ∈ subs) (hy : y ∈ subs) (h : x.id = y.id) : x = y :=
  List.inj_on_of_nodup_map hnodup hx hy h

theorem Rewrite.saveRow (hx : x ∈ subs) (h : RowRun env adv now x events y) :
    Rewrite env adv now subs (Lib.saveRow UserSubscription.id y subs) events := by
  obtain ⟨hid, -, -, -, -, hevents⟩ := h.keys
  refine ⟨map_key_saveRow y subs, fun z hz => ?_, fun e he => ⟨x, hx, (hevents e he).1.symm⟩⟩
  rcases mem_saveRow hz with rfl | ⟨hz, hne⟩
  · refine ⟨x, hx, ?_⟩
    rwa [eventsOf_all fun e he => (hevents e he).1.trans hid.symm]
  · refine ⟨z, hz, ?_⟩
    rw [eventsOf_none fun e he heq => hne (by rw [hid, ← (hevents e he).1, heq])]
    exact .refl z

/-- Save several changed rows: `f` gives the resets and the new row of each. -/
theorem Rewrite.saveRows {f : UserSubscription → List ResetEvent × UserSubscription}
    (hnodup : (xs.map UserSubscription.id).Nodup)
    (hmem : ∀ x ∈ xs, x ∈ subs) (hrun : ∀ x ∈ xs, RowRun env adv now x (f x).1 (f x).2) :
    Rewrite env adv now subs (Lib.saveRows UserSubscription.id (xs.map fun x => (f x).2) subs)
      (xs.flatMap fun x => (f x).1) := by
  induction xs generalizing subs with
  | nil => exact .refl env now subs
  | cons x xs ih =>
    simp only [List.map_cons, List.nodup_cons, List.mem_map, not_exists, not_and] at hnodup
    have hfirst := Rewrite.saveRow (hmem x List.mem_cons_self) (hrun x List.mem_cons_self)
    refine hfirst.trans (ih hnodup.2 (fun z hz => ?_) fun z hz => hrun z (List.mem_cons_of_mem _ hz))
    refine mem_saveRow_of_ne (hmem z (List.mem_cons_of_mem _ hz)) ?_
    rw [(hrun x List.mem_cons_self).keys.1]
    exact hnodup.1 z hz

/-! ### What each call does -/

structure Db.Keyed (db : Db) : Prop where
  nodup : (db.subs.map UserSubscription.id).Nodup
  below : ∀ x ∈ db.subs, x.id < db.nextId

theorem Db.Keyed.of_ids (hdb : db.Keyed)
    (hids : db'.subs.map UserSubscription.id = db.subs.map UserSubscription.id)
    (hnext : db'.nextId = db.nextId) : db'.Keyed := by
  refine ⟨hids ▸ hdb.nodup, fun y hy => ?_⟩
  obtain ⟨x, hx, hid⟩ := List.mem_map.1 (hids ▸ List.mem_map_of_mem hy)
  rw [← hid, hnext]
  exact hdb.below x hx

theorem sub?_mem (h : db.sub? id = some x) :
    x ∈ db.subs ∧ x.id = id :=
  findRow_eq_some h

theorem sub?_of_mem (hdb : db.Keyed) (hx : x ∈ db.subs) :
    db.sub? x.id = some x := by
  obtain ⟨y, hy⟩ := findRow_isSome_of_mem UserSubscription.id hx
  obtain ⟨hmem, hid⟩ := findRow_eq_some hy
  rw [Db.sub?, hy, eq_of_id_eq hdb.nodup hmem hx hid]

theorem Db.Keyed.saveSubs (hdb : db.Keyed) (saved : List UserSubscription) :
    (db.saveSubs saved).Keyed :=
  hdb.of_ids (map_key_saveRows saved db.subs) rfl

theorem sub?_saveSubs {saved : List UserSubscription} (hdb : db.Keyed)
    (hnodup : (saved.map UserSubscription.id).Nodup) (hy : y ∈ saved)
    (hid : y.id ∈ db.subs.map UserSubscription.id) : (db.saveSubs saved).sub? y.id = some y :=
  sub?_of_mem (hdb.saveSubs saved) (mem_saveRows hy hnodup hid)

theorem map_id_nodup_of_sublist (h : xs.Sublist subs)
    (hnodup : (subs.map UserSubscription.id).Nodup) : (xs.map UserSubscription.id).Nodup :=
  hnodup.sublist (h.map _)

/-- The rows that a `SELECT … ORDER BY` returns have distinct ids and are in the table. -/
theorem selected {r : UserSubscription → UserSubscription → Prop} [DecidableRel r]
    (p : UserSubscription → Bool) (hnodup : (subs.map UserSubscription.id).Nodup) :
    (((subs.filter p).insertionSort r).map UserSubscription.id).Nodup ∧
      ∀ x ∈ (subs.filter p).insertionSort r, x ∈ subs ∧ p x = true := by
  have hperm := List.perm_insertionSort r (subs.filter p)
  refine ⟨?_, fun x hx => List.mem_filter.1 (hperm.mem_iff.1 hx)⟩
  exact (hperm.map UserSubscription.id).nodup_iff.2 (map_id_nodup_of_sublist List.filter_sublist hnodup)

theorem activeSubs_spec (hdb : db.Keyed) (userId now : Int) :
    ((db.activeSubs userId now).map UserSubscription.id).Nodup ∧
      ∀ x ∈ db.activeSubs userId now,
        x ∈ db.subs ∧ x.userId = userId ∧ x.status = .active ∧ now < x.endTime := by
  obtain ⟨hnodup, hmem⟩ := selected (r := fun a b : UserSubscription =>
    a.endTime < b.endTime ∨ (a.endTime = b.endTime ∧ a.id ≤ b.id))
    (fun s => s.userId = userId ∧ s.status = .active ∧ now < s.endTime) hdb.nodup
  refine ⟨hnodup, fun x hx => ?_⟩
  obtain ⟨hx, hp⟩ := hmem x hx
  exact ⟨hx, by simpa using hp⟩

def resetRow (env : Env) (turns : Nat) (now : Int) (x : UserSubscription) :
    List ResetEvent × UserSubscription :=
  match env.plan x.planId with
  | .error _ => ([], x)
  | .ok plan =>
    match maybeResetUserSubscriptionWithPlanTx env turns x plan now with
    | none => ([], x)
    | some (y, zeroed) => (resetEvents y now zeroed, y)

theorem resetRow_id (env : Env) (turns : Nat) (now : Int) (x : UserSubscription) :
    (resetRow env turns now x).2.id = x.id := by
  unfold resetRow
  cases env.plan x.planId with
  | error => rfl
  | ok plan =>
    dsimp only
    cases h : maybeResetUserSubscriptionWithPlanTx env turns x plan now with
    | none => rfl
    | some r =>
      dsimp only
      rw [maybeReset_keys h]

theorem resetRow_used (env : Env) (turns : Nat) (now : Int) (x : UserSubscription) :
    (resetRow env turns now x).1 = [] ∧ (resetRow env turns now x).2.amountUsed = x.amountUsed ∨
      (∃ e, (resetRow env turns now x).1 = [e] ∧ e.subId = x.id) ∧
        (resetRow env turns now x).2.amountUsed = 0 := by
  unfold resetRow
  cases env.plan x.planId with
  | error => exact Or.inl ⟨rfl, rfl⟩
  | ok plan =>
    dsimp only
    cases hreset : maybeResetUserSubscriptionWithPlanTx env turns x plan now with
    | none => exact Or.inl ⟨rfl, rfl⟩
    | some r =>
      obtain ⟨y, zeroed⟩ := r
      have hkeys := maybeReset_keys hreset
      cases zeroed with
      | true => exact Or.inr ⟨⟨_, rfl, by rw [hkeys]⟩, by rw [hkeys]; rfl⟩
      | false => exact Or.inl ⟨rfl, by rw [hkeys]; rfl⟩

theorem resetRow_logged (env : Env) (turns : Nat) (now : Int) (x : UserSubscription) :
    ∀ e ∈ (resetRow env turns now x).1, e.subId = x.id := by
  rcases resetRow_used env turns now x with ⟨hnone, -⟩ | ⟨⟨e, hone, hid⟩, -⟩
  · rw [hnone]
    exact nofun
  · rw [hone]
    exact fun e' he' => by rw [List.mem_singleton.1 he', hid]

theorem eventsOf_resets (env : Env) (turns : Nat) (now : Int)
    (hnodup : (xs.map UserSubscription.id).Nodup) (hx : x ∈ xs) :
    eventsOf x.id (xs.flatMap fun z => (resetRow env turns now z).1) = (resetRow env turns now x).1 := by
  induction xs with
  | nil => cases hx
  | cons z xs ih =>
    obtain ⟨hz, hrest⟩ := List.nodup_cons.1 hnodup
    rw [List.flatMap_cons, eventsOf_append]
    rcases List.mem_cons.1 hx with rfl | hx
    · have hothers : eventsOf x.id (xs.flatMap fun z => (resetRow env turns now z).1) = [] := by
        refine eventsOf_none fun e he heq => ?_
        obtain ⟨y, hy, he⟩ := List.mem_flatMap.1 he
        rw [resetRow_logged env turns now y e he] at heq
        exact hz (heq ▸ List.mem_map_of_mem hy)
      rw [eventsOf_all (resetRow_logged env turns now x), hothers, List.append_nil]
    · rw [ih hrest hx, eventsOf_none fun e he heq => ?_, List.nil_append]
      rw [resetRow_logged env turns now z e he] at heq
      exact hz (heq ▸ List.mem_map_of_mem hx)

theorem map_id_resetRow (env : Env) (turns : Nat) (now : Int) (xs : List UserSubscription) :
    (xs.map fun x => (resetRow env turns now x).2).map UserSubscription.id = xs.map UserSubscription.id := by
  rw [List.map_map]
  exact List.map_congr_left fun x _ => resetRow_id env turns now x

theorem resetRow_run (env : Env) (turns : Nat) (now : Int) (hactive : x.status = .active) :
    RowRun env adv now x (resetRow env turns now x).1 (resetRow env turns now x).2 := by
  unfold resetRow
  cases hplan : env.plan x.planId with
  | error => exact .refl x
  | ok plan =>
    dsimp only
    cases h : maybeResetUserSubscriptionWithPlanTx env turns x plan now with
    | none => exact .refl x
    | some r =>
      dsimp only
      have hid : r.1.id = x.id ∧ r.1.planId = x.planId := by rw [maybeReset_keys h]; exact ⟨rfl, rfl⟩
      rw [resetEvents, hid.1, hid.2]
      exact (RowChange.reset x r.1 plan turns r.2 hactive hplan h).run

/-- The subscription is unlimited or has at least the amount left. -/
def UserSubscription.HasRoom (x : UserSubscription) (amount : Int) : Prop :=
  0 < x.amountTotal → x.amountUsed + amount ≤ x.amountTotal

instance (x : UserSubscription) (amount : Int) : Decidable (x.HasRoom amount) :=
  inferInstanceAs (Decidable (_ → _))

/-- The candidates are reset one by one up to the first with room for the amount. -/
theorem visitCandidates_spec {candidates : List UserSubscription}
    (h : visitCandidates env turns now amount candidates = some (.ok v)) :
    ∃ xs : List UserSubscription, xs.Sublist candidates ∧
      v.saved = xs.map (fun x => (resetRow env turns now x).2) ∧
      v.events = xs.flatMap (fun x => (resetRow env turns now x).1) ∧
      ∀ sub, v.chosen = some sub → sub ∈ v.saved ∧ sub.HasRoom amount ∧
        ∃ x, candidates.find? (fun x => (resetRow env turns now x).2.HasRoom amount) = some x ∧
          (resetRow env turns now x).2 = sub := by
  induction candidates generalizing v with
  | nil =>
    cases h
    exact ⟨[], .slnil, rfl, rfl, by simp⟩
  | cons x rest ih =>
    rw [visitCandidates] at h
    cases hplan : env.plan x.planId with
    | error e => simp [hplan] at h
    | ok plan =>
      simp only [hplan] at h
      cases hreset : maybeResetUserSubscriptionWithPlanTx env turns x plan now with
      | none => simp [hreset] at h
      | some r =>
        have hrow : resetRow env turns now x = (resetEvents r.1 now r.2, r.1) := by
          simp [resetRow, hplan, hreset]
        simp only [hreset, id_eq] at h
        split_ifs at h with hshort
        · obtain ⟨w, hw, hv⟩ := Option.map_eq_some_iff.1 h
          cases w with
          | error e => cases hv
          | ok w =>
            cases hv
            obtain ⟨xs, hsub, hsaved, hevents, hchosen⟩ := ih hw
            refine ⟨x :: xs, hsub.cons_cons x, ?_, ?_, fun sub hs => ?_⟩
            · simp [hsaved, hrow]
            · simp [hevents, hrow]
            · obtain ⟨hin, hroom, first, hfirst, heq⟩ := hchosen sub hs
              refine ⟨List.mem_cons_of_mem _ hin, hroom, first, ?_, heq⟩
              rwa [List.find?_cons_of_neg]
              simp only [hrow, UserSubscription.HasRoom, decide_eq_true_eq]
              omega
        · cases h
          refine ⟨[x], by simp, by simp [hrow], by simp [hrow], fun sub hs => ?_⟩
          cases hs
          have hroom : r.1.HasRoom amount := fun hpos => by omega
          exact ⟨by simp, hroom, x, List.find?_cons_of_pos (by simpa [hrow] using hroom), by rw [hrow]⟩

/-- The loop over a user's active subscriptions: the row to charge is one of the saved ones. -/
theorem visit_spec (hdb : db.Keyed)
    (hvisit : visitCandidates env turns now amount (db.activeSubs userId now) = some (.ok v))
    (hchosen : v.chosen = some sub) :
    ∃ xs : List UserSubscription, (xs.map UserSubscription.id).Nodup ∧
      (∀ x ∈ xs, x ∈ db.subs ∧ x.status = .active) ∧
      v.saved = xs.map (fun x => (resetRow env turns now x).2) ∧
      v.events = xs.flatMap (fun x => (resetRow env turns now x).1) ∧
      (∃ x ∈ xs, sub = (resetRow env turns now x).2) ∧ (db.saveSubs v.saved).sub? sub.id = some sub ∧
      (0 < sub.amountTotal → sub.amountUsed + amount ≤ sub.amountTotal) := by
  obtain ⟨xs, hsub, hsaved, hevents, hcharge⟩ := visitCandidates_spec hvisit
  obtain ⟨hin, henough, -⟩ := hcharge sub hchosen
  obtain ⟨hnodup, hmem⟩ := activeSubs_spec hdb userId now
  have hids : (xs.map UserSubscription.id).Nodup := map_id_nodup_of_sublist hsub hnodup
  have hxs : ∀ x ∈ xs, x ∈ db.subs ∧ x.status = .active := fun x hx => by
    obtain ⟨hx, -, hactive, -⟩ := hmem x (hsub.subset hx)
    exact ⟨hx, hactive⟩
  obtain ⟨x, hx, hreset⟩ := List.mem_map.1 (hsaved ▸ hin)
  refine ⟨xs, hids, hxs, hsaved, hevents, ⟨x, hx, hreset.symm⟩, sub?_saveSubs hdb ?_ hin ?_, henough⟩
  · rw [hsaved, map_id_resetRow]
    exact hids
  · rw [← hreset, resetRow_id]
    exact List.mem_map_of_mem (hxs x hx).1

theorem visit_charge_rewrite (hdb : db.Keyed)
    (hvisit : visitCandidates env turns now amount (db.activeSubs userId now) = some (.ok v))
    (hchosen : v.chosen = some sub) (hamount : 0 < amount) :
    Rewrite env adv now db.subs
      ((db.saveSubs v.saved).saveSub { sub with amountUsed := sub.amountUsed + amount }).subs
      v.events := by
  obtain ⟨xs, hids, hxs, hsaved, hevents, -, hrow, henough⟩ := visit_spec hdb hvisit hchosen
  have hfirst : Rewrite env adv now db.subs (db.saveSubs v.saved).subs v.events := by
    rw [hsaved, hevents]
    exact Rewrite.saveRows hids (fun x hx => (hxs x hx).1) fun x hx => resetRow_run env turns now (hxs x hx).2
  have hpaid : RowChange env adv now sub [] { sub with amountUsed := sub.amountUsed + amount } :=
    .amount sub _ (Or.inr (by omega)) henough
  have hlast := Rewrite.saveRow (sub?_mem hrow).1 hpaid.run
  rw [← List.append_nil v.events]
  exact hfirst.trans hlast

def Rewrites {α : Type} (env : Env) (adv : UserSubscription → Prop) (now : Int) (db : Db) (o : Outcome α) : Prop :=
  Rewrite env adv now db.subs o.db.subs o.events ∧ o.db.nextId = db.nextId

theorem rewrites_unchanged {o : Outcome α} (hdb : o.db = db)
    (hevents : o.events = []) : Rewrites env adv now db o := by
  rw [Rewrites, hdb, hevents]
  exact ⟨.refl env now db.subs, rfl⟩

theorem transaction_rewrites {body : Except Error (α × Db × List ResetEvent)}
    (h : ∀ a db' events, body = .ok (a, db', events) →
      Rewrite env adv now db.subs db'.subs events ∧ db'.nextId = db.nextId) :
    Rewrites env adv now db (transaction fault db body) := by
  rcases transaction_cases fault db body with ⟨hsame, hevents, -⟩ | ⟨a, db', events, -, hbody, heq⟩
  · exact rewrites_unchanged hsame hevents
  · rw [heq]
    exact h a db' events hbody

/-- A pre-consume call fails and changes nothing, finds the record of an earlier call, or charges a
row and records it. -/
theorem preConsume_cases {requestId : String} {o : Outcome PreConsumeResult}
    (h : preConsumeUserSubscription env fault turns now requestId userId amount db = some o) :
    (o.db = db ∧ o.events = [] ∧ ∃ e, o.result = .error e) ∨
    (∃ existing sub, db.record? requestId = some existing ∧
      db.sub? existing.userSubscriptionId = some sub ∧
      o = ⟨db, .ok (preConsumeResult sub existing.preConsumed 0), []⟩) ∨
    ∃ v sub, db.record? requestId = none ∧ trimSpace requestId ≠ "" ∧ 0 < amount ∧
      visitCandidates env turns now amount (db.activeSubs userId now) = some (.ok v) ∧
      v.chosen = some sub ∧
      o = ⟨{ (db.saveSubs v.saved).saveSub { sub with amountUsed := sub.amountUsed + amount } with
              records := db.records ++ [⟨requestId, userId, sub.id, amount, .consumed⟩] },
            .ok (preConsumeResult sub amount amount), v.events⟩ := by
  unfold preConsumeUserSubscription at h
  split_ifs at h with huser hid hamount
  · cases h
    exact Or.inl ⟨rfl, rfl, _, rfl⟩
  · cases h
    exact Or.inl ⟨rfl, rfl, _, rfl⟩
  · cases h
    exact Or.inl ⟨rfl, rfl, _, rfl⟩
  obtain ⟨body, hbody, rfl⟩ := Option.map_eq_some_iff.1 h
  rcases transaction_cases fault db body with hfail | ⟨a, db', events, -, rfl, heq⟩
  · exact Or.inl hfail
  rw [heq]
  refine Or.inr ?_
  unfold preConsumeBody at hbody
  cases hrecord : db.record? requestId with
  | some existing =>
    simp only [hrecord, Option.some.injEq] at hbody
    split_ifs at hbody
    cases hsub : db.sub? existing.userSubscriptionId with
    | none => simp [hsub] at hbody
    | some sub =>
      simp only [hsub] at hbody
      cases hbody
      exact Or.inl ⟨existing, sub, rfl, hsub, rfl⟩
  | none =>
    simp only [hrecord] at hbody
    split_ifs at hbody
    · cases hbody
    obtain ⟨r, hvisit, hr⟩ := Option.map_eq_some_iff.1 hbody
    cases r with
    | error e => cases hr
    | ok v =>
      dsimp only at hr
      cases hchosen : v.chosen with
      | none => simp [hchosen] at hr
      | some sub =>
        simp only [hchosen] at hr
        cases hr
        exact Or.inr ⟨v, sub, rfl, hid, not_le.1 hamount, hvisit, hchosen, rfl⟩

theorem preConsume_rewrites {requestId : String} {o : Outcome PreConsumeResult} (hdb : db.Keyed)
    (h : preConsumeUserSubscription env fault turns now requestId userId amount db = some o) :
    Rewrites env adv now db o := by
  rcases preConsume_cases h with
    ⟨hsame, hevents, -⟩ | ⟨existing, sub, -, -, rfl⟩ | ⟨v, sub, -, -, hamount, hvisit, hchosen, rfl⟩
  · exact rewrites_unchanged hsame hevents
  · exact rewrites_unchanged rfl rfl
  · exact ⟨visit_charge_rewrite hdb hvisit hchosen hamount, rfl⟩

theorem postConsume_rewrites (env : Env) (now : Int) (fault : Option String) (id delta : Int) (db : Db) :
    Rewrites env adv now db (postConsumeUserSubscriptionDelta fault id delta db) := by
  rcases postConsume_cases fault id delta db with
    ⟨hdb, hevents, -⟩ | ⟨-, heq⟩ | ⟨sub, sub', -, hsub, happly, heq⟩
  · exact rewrites_unchanged hdb hevents
  · rw [heq]
    exact rewrites_unchanged rfl rfl
  · rw [heq]
    obtain ⟨rfl, hhigh⟩ := applyDelta_ok happly
    refine ⟨Rewrite.saveRow (sub?_mem hsub).1 ?_, rfl⟩
    exact (RowChange.amount sub _ (Or.inl (le_max_left ..)) hhigh).run

theorem refund_rewrites (env : Env) (now : Int) (faults : RefundFaults) (requestId : String) (db : Db) :
    Rewrites env adv now db (refundSubscriptionPreConsume faults requestId db) := by
  rcases refund_cases faults requestId db with
    ⟨-, hdb, hevents, -⟩ | ⟨r, -, -, ⟨-, -, heq⟩ | ⟨-, inner, hinner, hcase⟩⟩
  · exact rewrites_unchanged hdb hevents
  · rw [heq]
    exact ⟨.refl env now db.subs, rfl⟩
  · -- the record's status is not part of the rows, so only the inner transaction counts
    have hrewrites : Rewrites env adv now db _ := postConsume_rewrites env now faults.inner
      r.userSubscriptionId (-r.preConsumed) db
    rw [hinner] at hrewrites
    rcases hcase with ⟨-, e, heq⟩ | ⟨-, heq⟩ <;> rw [heq]
    · exact hrewrites
    · exact hrewrites

theorem plan_spec (h : env.plan id = .ok plan) :
    plan ∈ env.plans ∧ plan.id = id := by
  unfold Env.plan at h
  split_ifs at h
  cases hfind : findRow Plan.id id env.plans with
  | none => simp [hfind] at h
  | some p =>
    simp only [hfind, Except.ok.injEq] at h
    rw [← h]
    exact findRow_eq_some hfind

theorem plan_self (h : env.plan id = .ok plan) :
    env.plan plan.id = .ok plan := by
  rw [(plan_spec h).2, h]

variable {advance : Bool}

theorem resetMatched_rewrite {planId : Int} (hplan : env.plan planId = .ok plan)
    (hnodup : (subs.map UserSubscription.id).Nodup)
    (hmem : ∀ x ∈ subs, x ∈ db.subs ∧ x.status = .active ∧ x.planId = plan.id)
    (hadv : ∀ x ∈ subs, advance = true → adv x) :
    Rewrite env adv now db.subs (resetMatched env plan now advance subs db).2.1.subs
      (resetMatched env plan now advance subs db).2.2 := by
  have hevents : (resetMatched env plan now advance subs db).2.2 =
      subs.flatMap fun x => [⟨x.id, x.planId, .admin advance, now⟩] := List.map_eq_flatMap
  rw [hevents]
  refine Rewrite.saveRows (f := fun x => ([⟨x.id, x.planId, .admin advance, now⟩],
    resetUserSubscriptionTx env plan now advance x)) hnodup (fun x hx => (hmem x hx).1) fun x hx => ?_
  obtain ⟨-, hactive, hid⟩ := hmem x hx
  have hx' : env.plan x.planId = .ok plan := by rw [hid, plan_self hplan]
  exact (RowChange.admin x plan advance hactive hx' (hadv x hx)).run

variable {planId : Int}

theorem adminResetUser_rewrites (hdb : db.Keyed) :
    Rewrites env (Op.adminResetUser fault now userId planId advance).advances now db
      (adminResetUserSubscriptionsByPlan env fault now userId planId advance db) := by
  unfold adminResetUserSubscriptionsByPlan
  split_ifs with hid
  · exact rewrites_unchanged rfl rfl
  refine transaction_rewrites fun a db' events hbody => ?_
  cases hplan : env.plan planId with
  | error e => simp [hplan] at hbody
  | ok plan =>
    simp only [hplan] at hbody
    split_ifs at hbody with hnone
    simp only [resetMatched] at hbody
    cases hbody
    obtain ⟨hnodup, hmem⟩ := activeSubs_spec hdb userId now
    have hrow : ∀ x ∈ (db.activeSubs userId now).filter (fun s => s.planId = plan.id),
        x ∈ db.subs ∧ (x.userId = userId ∧ x.status = .active ∧ now < x.endTime) ∧ x.planId = plan.id :=
      fun x hx => by
        obtain ⟨hx, hpid⟩ := List.mem_filter.1 hx
        obtain ⟨hx, hp⟩ := hmem x hx
        exact ⟨hx, hp, by simpa using hpid⟩
    refine ⟨resetMatched_rewrite hplan
      (map_id_nodup_of_sublist List.filter_sublist hnodup) (fun x hx => ?_) fun x hx hadv => ?_, rfl⟩
    · obtain ⟨hx, hp, hpid⟩ := hrow x hx
      exact ⟨hx, hp.2.1, hpid⟩
    · obtain ⟨-, hp, hpid⟩ := hrow x hx
      subst hadv
      exact ⟨hp.1, by rw [hpid, (plan_spec hplan).2], hp.2⟩

theorem adminResetPlan_rewrites (hdb : db.Keyed) :
    Rewrites env (Op.adminResetPlan fault now planId advance).advances now db
      (adminResetPlanSubscriptions env fault now planId advance db) := by
  unfold adminResetPlanSubscriptions
  split_ifs with hid
  · exact rewrites_unchanged rfl rfl
  refine transaction_rewrites fun a db' events hbody => ?_
  cases hplan : env.plan planId with
  | error e => simp [hplan] at hbody
  | ok plan =>
    simp only [hplan, resetMatched] at hbody
    cases hbody
    obtain ⟨hnodup, hmem⟩ := selected (r := fun a b : UserSubscription =>
      a.userId < b.userId ∨ (a.userId = b.userId ∧
        (a.endTime < b.endTime ∨ (a.endTime = b.endTime ∧ a.id ≤ b.id))))
      (fun s => s.planId = plan.id ∧ s.status = .active ∧ now < s.endTime) hdb.nodup
    refine ⟨resetMatched_rewrite hplan hnodup (fun x hx => ?_) fun x hx hadv => ?_, rfl⟩
    · obtain ⟨hx, hp⟩ := hmem x hx
      simp only [decide_eq_true_eq] at hp
      exact ⟨hx, hp.2.1, hp.1⟩
    · obtain ⟨-, hp⟩ := hmem x hx
      simp only [decide_eq_true_eq] at hp
      subst hadv
      exact ⟨by rw [hp.1, (plan_spec hplan).2], hp.2⟩

theorem Rewrite.keyed
    (h : Rewrite env adv now db.subs db'.subs events) (hnext : db'.nextId = db.nextId) (hdb : db.Keyed) :
    db'.Keyed :=
  hdb.of_ids h.ids hnext

theorem resetDueRow_cases {out : Outcome Bool} (hdb : db.Keyed) (hx : x ∈ db.subs)
    (hplan : env.plan x.planId = .ok plan)
    (h : resetDueRow env fault turns now plan x.id db = some out) :
    (out.db = db ∧ out.events = []) ∨
      (out.db = db.saveSub (resetRow env turns now x).2 ∧ out.events = (resetRow env turns now x).1) := by
  unfold resetDueRow at h
  rw [sub?_of_mem hdb hx] at h
  by_cases hdue : 0 < x.nextResetTime ∧ x.nextResetTime ≤ now
  · simp only [Option.filter_some, hdue, and_self, decide_true, if_true] at h
    obtain ⟨r, hreset, rfl⟩ := Option.map_eq_some_iff.1 h
    have hrow : resetRow env turns now x = (resetEvents r.1 now r.2, r.1) := by
      simp [resetRow, hplan, hreset]
    rw [hrow]
    cases fault with
    | some text => exact Or.inl ⟨rfl, rfl⟩
    | none => exact Or.inr ⟨rfl, rfl⟩
  · simp only [Option.filter_some, hdue, decide_false, Bool.false_eq_true, if_false] at h
    cases h
    cases fault <;> exact Or.inl ⟨rfl, rfl⟩

theorem resetDueRows_rewrite {fault : Int → Option String}
    {rest : List UserSubscription} {count : Nat} {o : Outcome Nat}
    (hdb : db.Keyed) (hrest : ∀ x ∈ rest, x ∈ db.subs ∧ x.status = .active)
    (hnodup : (rest.map UserSubscription.id).Nodup)
    (h : resetDueRows env fault turns now rest count events db = some o) :
    ∃ events', o.events = events ++ events' ∧ Rewrite env adv now db.subs o.db.subs events' ∧
      o.db.nextId = db.nextId ∧
      ∀ y ∈ o.db.subs, (y ∈ db.subs ∧ eventsOf y.id events' = []) ∨
        ∃ x ∈ rest, y = (resetRow env turns now x).2 ∧ eventsOf y.id events' = (resetRow env turns now x).1 := by
  induction rest generalizing count events db with
  | nil =>
    cases h
    exact ⟨[], by simp, .refl env now db.subs, rfl, fun y hy => Or.inl ⟨hy, rfl⟩⟩
  | cons x rest ih =>
    obtain ⟨hx, hactive⟩ := hrest x List.mem_cons_self
    simp only [List.map_cons, List.nodup_cons, List.mem_map, not_exists, not_and] at hnodup
    rw [resetDueRows] at h
    cases hplan : env.plan x.planId with simp only [hplan] at h
    | error e =>
      obtain ⟨events', hev, hrw, hnext, hrows⟩ :=
        ih hdb (fun z hz => hrest z (List.mem_cons_of_mem _ hz)) hnodup.2 h
      refine ⟨events', hev, hrw, hnext, fun y hy => (hrows y hy).imp_right ?_⟩
      exact fun ⟨z, hz, hzy⟩ => ⟨z, List.mem_cons_of_mem _ hz, hzy⟩
    | ok plan =>
      cases hrow : resetDueRow env (fault x.id) turns now plan x.id db with
      | none => simp [hrow] at h
      | some out =>
        have hrun : RowRun env adv now x _ _ := resetRow_run env turns now hactive
        have hid := hrun.keys.1
        have hlogged := fun e he => (hrun.keys.2.2.2.2.2 e he).1
        have hout : Rewrite env adv now db.subs out.db.subs out.events ∧ out.db.nextId = db.nextId ∧
            (∀ z ∈ db.subs, z.id ≠ x.id → z ∈ out.db.subs) ∧ (∀ k, k ≠ x.id → eventsOf k out.events = []) ∧
            ∀ y ∈ out.db.subs, (y ∈ db.subs ∧ eventsOf y.id out.events = []) ∨
              (y = (resetRow env turns now x).2 ∧ eventsOf y.id out.events = (resetRow env turns now x).1) := by
          rcases resetDueRow_cases hdb hx hplan hrow with ⟨hsame, hev⟩ | ⟨hsame, hev⟩ <;> rw [hsame, hev]
          · exact ⟨.refl env now db.subs, rfl, fun z hz _ => hz, fun _ _ => rfl, fun y hy => Or.inl ⟨hy, rfl⟩⟩
          · have hothers : ∀ k, k ≠ x.id → eventsOf k (resetRow env turns now x).1 = [] := fun k hk =>
              eventsOf_none fun e he heq => hk (by rw [← heq, hlogged e he])
            refine ⟨Rewrite.saveRow hx hrun, rfl, fun z hz hne => ?_, hothers, fun y hy => ?_⟩
            · exact mem_saveRow_of_ne hz (by rwa [hid])
            · rcases mem_saveRow hy with rfl | ⟨hmem, hne⟩
              · exact Or.inr ⟨rfl, eventsOf_all fun e he => by rw [hlogged e he, hid]⟩
              · exact Or.inl ⟨hmem, hothers _ (by rwa [hid] at hne)⟩
        obtain ⟨hfirst, hnext, hkeep, hothers, hmem⟩ := hout
        simp only [hrow] at h
        cases hres : out.result with simp only [hres] at h
        | error e =>
          cases h
          refine ⟨out.events, rfl, hfirst, hnext, fun y hy => (hmem y hy).imp_right ?_⟩
          exact fun hreset => ⟨x, List.mem_cons_self, hreset⟩
        | ok counted =>
          obtain ⟨events', hev, hrw, hnext', hrows⟩ := ih (hfirst.keyed hnext hdb)
            (fun z hz => ⟨hkeep z (hrest z (List.mem_cons_of_mem _ hz)).1 (hnodup.1 z hz),
              (hrest z (List.mem_cons_of_mem _ hz)).2⟩) hnodup.2 h
          refine ⟨out.events ++ events', by rw [hev, List.append_assoc], hfirst.trans hrw,
            hnext'.trans hnext, fun y hy => ?_⟩
          rw [eventsOf_append]
          rcases hrows y hy with ⟨hy, hnone⟩ | ⟨z, hz, hzy, hlater⟩
          · rw [hnone, List.append_nil]
            exact (hmem y hy).imp_right fun hreset => ⟨x, List.mem_cons_self, hreset⟩
          · have hne : y.id ≠ x.id := by
              rw [hzy, resetRow_id]
              exact hnodup.1 z hz
            rw [hothers _ hne, List.nil_append]
            exact Or.inr ⟨z, List.mem_cons_of_mem _ hz, hzy, hlater⟩

theorem resetDue_rewrites {select : Option String} {fault : Int → Option String}
    {limit : Int} {o : Outcome Nat} (hdb : db.Keyed)
    (h : resetDueSubscriptions env select fault turns now limit db = some o) :
    Rewrites env adv now db o ∧
      ∀ y ∈ o.db.subs, (y ∈ db.subs ∧ eventsOf y.id o.events = []) ∨
        ∃ x ∈ db.subs, y = (resetRow env turns now x).2 ∧ eventsOf y.id o.events = (resetRow env turns now x).1 := by
  cases select with
  | some text =>
    cases h
    exact ⟨rewrites_unchanged rfl rfl, fun y hy => Or.inl ⟨hy, rfl⟩⟩
  | none =>
    obtain ⟨hnodup, hmem⟩ := selected (r := fun a b : UserSubscription =>
      a.nextResetTime ≤ b.nextResetTime)
      (fun s => 0 < s.nextResetTime ∧ s.nextResetTime ≤ now ∧ s.status = .active) hdb.nodup
    have hdue : ∀ x ∈ db.dueSubs now limit, x ∈ db.subs ∧ x.status = .active := fun x hx => by
      obtain ⟨hx, hp⟩ := hmem x (List.mem_of_mem_take hx)
      simp only [decide_eq_true_eq] at hp
      exact ⟨hx, hp.2.2⟩
    obtain ⟨events', hev, hrw, hnext, hrows⟩ := resetDueRows_rewrite hdb hdue
      (map_id_nodup_of_sublist (List.take_sublist ..) hnodup) h
    rw [List.nil_append] at hev
    rw [Rewrites, hev]
    exact ⟨⟨hrw, hnext⟩, fun y hy => (hrows y hy).imp_right fun ⟨x, hx, hy⟩ => ⟨x, (hdue x hx).1, hy⟩⟩

theorem expireUsers_rewrite (env : Env) (fault : Int → Option String) (now : Int) (users : List Int)
    (count : Nat) (db : Db) :
    Rewrites env adv now db (expireUsers fault now users count db) ∧
      ∀ y ∈ (expireUsers fault now users count db).db.subs, y ∈ db.subs ∨
        ∃ x ∈ db.subs, isExpirable now x = true ∧ y = { x with status := .expired } := by
  induction users generalizing count db with
  | nil => exact ⟨rewrites_unchanged rfl rfl, fun y hy => Or.inl hy⟩
  | cons userId users ih =>
    rw [expireUsers]
    cases fault userId with
    | some text => exact ⟨rewrites_unchanged rfl rfl, fun y hy => Or.inl hy⟩
    | none =>
      dsimp only
      obtain ⟨⟨hrw, hnext⟩, hrows⟩ := ih
        (count + (db.subs.filter fun s => s.userId = userId ∧ isExpirable now s).length)
        (expireUser now userId db)
      have hone : Rewrite env adv now db.subs (expireUser now userId db).subs [] := by
        refine ⟨?_, fun y hy => ?_, by simp⟩
        · simp only [expireUser, List.map_map]
          refine List.map_congr_left fun x _ => ?_
          simp only [Function.comp_apply]
          split_ifs <;> rfl
        · obtain ⟨x, hx, rfl⟩ := List.mem_map.1 hy
          refine ⟨x, hx, ?_⟩
          split_ifs
          · exact (RowChange.expire x).run
          · exact .refl x
      refine ⟨⟨hone.trans hrw, hnext⟩, fun y hy => ?_⟩
      rcases hrows y hy with hy | ⟨z, hz, hexp, rfl⟩
      · obtain ⟨x, hx, rfl⟩ := List.mem_map.1 hy
        split_ifs with hcond
        · exact Or.inr ⟨x, hx, hcond.2, rfl⟩
        · exact Or.inl hx
      · obtain ⟨x, hx, rfl⟩ := List.mem_map.1 hz
        -- a row that this user's transaction expired cannot be expired by a later one
        split_ifs at hexp ⊢ with hcond
        · simp [isExpirable] at hexp
        · exact Or.inr ⟨x, hx, hexp, rfl⟩

theorem expireDue_rewrites (env : Env) (select : Option String) (fault : Int → Option String)
    (order : List Int → List Int) (now limit : Int) (db : Db) :
    Rewrites env adv now db (expireDueSubscriptions select fault order now limit db) ∧
      ∀ y ∈ (expireDueSubscriptions select fault order now limit db).db.subs, y ∈ db.subs ∨
        ∃ x ∈ db.subs, isExpirable now x = true ∧ y = { x with status := .expired } := by
  cases select with
  | some text => exact ⟨rewrites_unchanged rfl rfl, fun y hy => Or.inl hy⟩
  | none => exact expireUsers_rewrite env fault now _ 0 db

theorem invalidate_rewrites :
    Rewrites env adv now db (adminInvalidateUserSubscription fault now id db) := by
  unfold adminInvalidateUserSubscription
  split_ifs
  · exact rewrites_unchanged rfl rfl
  refine transaction_rewrites fun a db' events hbody => ?_
  cases hsub : db.sub? id with
  | none => simp [hsub] at hbody
  | some sub =>
    simp only [hsub] at hbody
    cases hbody
    exact ⟨Rewrite.saveRow (sub?_mem hsub).1 (RowChange.cancel sub).run, rfl⟩

/-! ### Every call -/

structure Created (env : Env) (now : Int) (db : Db) (y : UserSubscription) : Prop where
  id : y.id = db.nextId
  used : y.amountUsed = 0
  start : y.startTime = now
  active : y.status = .active
  clock : ∃ plan, env.plan y.planId = .ok plan ∧
    y.nextResetTime = calcNextResetTime env.loc now plan y.endTime ∧
    y.lastResetTime = if 0 < y.nextResetTime then now else 0

/-- What a call did: every row is an old one with its changes, or the one created. -/
structure Effect (env : Env) (adv : UserSubscription → Prop) (now : Int) (db : Db) (o : Outcome Unit) : Prop where
  keyed : o.db.Keyed
  rows : ∀ y ∈ o.db.subs, (∃ x ∈ db.subs, RowRun env adv now x (eventsOf y.id o.events) y) ∨
    (Created env now db y ∧ eventsOf y.id o.events = [⟨y.id, y.planId, .created, now⟩])
  logged : ∀ e ∈ o.events, ∃ y ∈ o.db.subs, y.id = e.subId
  nextId : db.nextId ≤ o.db.nextId

theorem Rewrites.effect {o : Outcome Unit} (hdb : db.Keyed)
    (h : Rewrites env adv now db o) : Effect env adv now db o := by
  refine ⟨h.1.keyed h.2 hdb, fun y hy => Or.inl (h.1.rows y hy), fun e he => ?_, h.2.ge⟩
  obtain ⟨x, hx, hid⟩ := h.1.logged e he
  have hmem : x.id ∈ o.db.subs.map UserSubscription.id := h.1.ids ▸ List.mem_map_of_mem hx
  obtain ⟨y, hy, hyx⟩ := List.mem_map.1 hmem
  exact ⟨y, hy, hyx.trans hid⟩

theorem transaction_effect {body : Except Error (α × Db × List ResetEvent)} (hdb : db.Keyed)
    (h : ∀ a db' events, body = .ok (a, db', events) → Effect env adv now db ⟨db', .ok (), events⟩) :
    Effect env adv now db (transaction fault db body).void := by
  rcases transaction_cases fault db body with ⟨hsame, hevents, -⟩ | ⟨a, db', events, -, hbody, heq⟩
  · exact Rewrites.effect hdb (rewrites_unchanged hsame hevents)
  · obtain ⟨hkeyed, hrows, hlogged, hnext⟩ := h a db' events hbody
    rw [heq]
    exact ⟨hkeyed, hrows, hlogged, hnext⟩

theorem createTx_ok {planId : Int} {source : String}
    {seen : Db} (hplan : env.plan planId = .ok plan)
    (h : createUserSubscriptionFromPlanTx env now userId plan source seen db = .ok (sub, db')) :
    Created env now db sub ∧ db' = { db with subs := db.subs ++ [sub], nextId := db.nextId + 1 } := by
  unfold createUserSubscriptionFromPlanTx at h
  split_ifs at h
  cases hend : calcPlanEndTime env.loc now plan with
  | error e => simp [hend] at h
  | ok endUnix =>
    simp only [hend] at h
    cases h
    exact ⟨⟨rfl, rfl, rfl, rfl, plan, plan_self hplan, by dsimp only, by dsimp only⟩, rfl⟩

theorem create_effect (source : String) (hdb : db.Keyed) :
    Effect env adv now db (createSubscription env fault now userId planId source db).void := by
  refine transaction_effect hdb fun a db' events hbody => ?_
  cases hplan : env.plan planId with
  | error e => simp [hplan] at hbody
  | ok plan =>
    cases hcreate : createUserSubscriptionFromPlanTx env now userId plan source db db with
    | error e => simp [hplan, hcreate] at hbody
    | ok r =>
      simp only [hplan, hcreate] at hbody
      cases hbody
      obtain ⟨hnew, hdb'⟩ := createTx_ok hplan hcreate
      have hfresh : ∀ x ∈ db.subs, x.id ≠ r.1.id := fun x hx => by
        rw [hnew.id]
        exact (hdb.below x hx).ne
      rw [hdb']
      refine ⟨⟨?_, ?_⟩, ?_, ?_, ?_⟩
      · simp only [List.map_append, List.map_cons, List.map_nil]
        refine List.nodup_append.2 ⟨hdb.nodup, by simp, ?_⟩
        simp only [List.mem_map, List.mem_singleton]
        rintro _ ⟨x, hx, rfl⟩ _ rfl
        exact hfresh x hx
      · intro y hy
        rcases List.mem_append.1 hy with hy | hy
        · exact (hdb.below y hy).trans (by simp)
        · rw [List.mem_singleton.1 hy, hnew.id]
          simp
      · intro y hy
        rcases List.mem_append.1 hy with hy | hy
        · refine Or.inl ⟨y, hy, ?_⟩
          rw [eventsOf_none (by simpa using (hfresh y hy).symm)]
          exact .refl y
        · rw [List.mem_singleton.1 hy]
          exact Or.inr ⟨hnew, eventsOf_all (by simp)⟩
      · simp
      · simp

theorem delete_effect
    (hdb : db.Keyed) : Effect env adv now db (adminDeleteUserSubscription fault id db) := by
  unfold adminDeleteUserSubscription
  split_ifs
  · exact Rewrites.effect hdb (rewrites_unchanged rfl rfl)
  rcases transaction_cases fault db _ with ⟨hsame, hevents, -⟩ | ⟨a, db', events, -, hbody, heq⟩
  · exact Rewrites.effect hdb (rewrites_unchanged hsame hevents)
  rw [heq]
  cases hsub : db.sub? id with
  | none => simp [hsub] at hbody
  | some sub =>
    simp only [hsub] at hbody
    cases hbody
    refine ⟨⟨map_id_nodup_of_sublist List.filter_sublist hdb.nodup, fun y hy => ?_⟩, fun y hy => ?_, by simp,
      le_refl _⟩
    · exact hdb.below y (List.mem_filter.1 hy).1
    · exact Or.inl ⟨y, (List.mem_filter.1 hy).1, .refl y⟩

theorem exec_effect {op : Op} {o : Outcome Unit} (clock : Int) (hdb : db.Keyed)
    (h : exec env db op = some o) : Effect env op.advances (op.time?.getD clock) db o := by
  cases op with
  | create fault now userId planId source =>
    cases h
    exact create_effect source hdb
  | preConsume fault turns now requestId userId amount =>
    obtain ⟨out, hout, rfl⟩ := Option.map_eq_some_iff.1 h
    exact Rewrites.effect hdb (preConsume_rewrites hdb hout)
  | postConsume fault id delta =>
    cases h
    exact Rewrites.effect hdb (postConsume_rewrites env clock fault id delta db)
  | refund faults requestId =>
    cases h
    exact Rewrites.effect hdb (refund_rewrites env clock faults requestId db)
  | resetDue select fault turns now limit =>
    obtain ⟨out, hout, rfl⟩ := Option.map_eq_some_iff.1 h
    exact Rewrites.effect hdb (resetDue_rewrites hdb hout).1
  | adminResetUser fault now userId planId advance =>
    cases h
    exact Rewrites.effect hdb (adminResetUser_rewrites hdb)
  | adminResetPlan fault now planId advance =>
    cases h
    exact Rewrites.effect hdb (adminResetPlan_rewrites hdb)
  | expireDue select fault order now limit =>
    cases h
    exact Rewrites.effect hdb (expireDue_rewrites env select fault order now limit db).1
  | invalidate fault now id =>
    cases h
    exact Rewrites.effect hdb invalidate_rewrites
  | delete fault id =>
    cases h
    exact delete_effect hdb

theorem step_eq_some {s t : Ledger} {op : Op} (h : step env s op = some t) :
    ∃ o, exec env s.db op = some o ∧ t = ⟨o.db, s.log ++ o.events⟩ := by
  obtain ⟨o, ho, rfl⟩ := Option.map_eq_some_iff.1 h
  exact ⟨o, ho, rfl⟩

end TokenEra.Subscription
