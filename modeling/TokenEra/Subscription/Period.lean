import TokenEra.Subscription.Bound

/-!
# Amounts and periods

The used amount of a subscription is set to `0` when a period ends. A charge may be taken back
later, by a negative delta or a refund, and neither says when it was made: what was charged in an
earlier period is taken off the amount of the present one (`earlier_charge_refunded`).

`Period` keeps, beside the tables, the charges to one subscription since its last reset. A request
may be charged before a reset and again after it, so a charge is a pre-consume or one delta, not a
request. The used amount is the sum of the charges exactly as long as whatever is taken back is of
such a charge and is there (`accounted_iff`), at whatever times the calls are made.
-/

namespace TokenEra.Subscription

open Lib

/-- What an amount was charged by: the pre-consume of a request, or the call of that number. -/
inductive Charge
  | preConsume (requestId : String)
  | delta (call : Nat)
  deriving DecidableEq

/-- The calls that charge, with the charge that a negative delta is of. -/
inductive PeriodCall
  | preConsume (fault : Option String) (turns : Nat) (now : Int) (requestId : String) (userId amount : Int)
  | postConsume (fault : Option String) (charge : Charge) (id delta : Int)
  | refund (faults : RefundFaults) (requestId : String)
  | resetDue (select : Option String) (fault : Int → Option String) (turns : Nat) (now limit : Int)

def PeriodCall.op : PeriodCall → Op
  | .preConsume fault turns now requestId userId amount => .preConsume fault turns now requestId userId amount
  | .postConsume fault _ id delta => .postConsume fault id delta
  | .refund faults requestId => .refund faults requestId
  | .resetDue select fault turns now limit => .resetDue select fault turns now limit

structure Period where
  ledger : Ledger
  /-- What was charged since the last reset, and what was taken back of it. -/
  charges : List (Charge × Int)
  /-- The calls so far. -/
  calls : Nat

/-- The record whose amount a refund gives back: the inner transaction is committed. -/
def givenBack (faults : RefundFaults) (requestId : String) (db : Db) : Option PreConsumeRecord :=
  (db.record? requestId).filter fun r => r.status = .consumed ∧ 0 < r.preConsumed ∧
    (halfCommits faults requestId db = true ∨ (refundSubscriptionPreConsume faults requestId db).result.isOk)

def takesBack (id : Int) (db : Db) : PeriodCall → Option (Charge × Int)
  | .postConsume fault charge id' delta =>
    if id' = id ∧ delta < 0 ∧ (postConsumeUserSubscriptionDelta fault id' delta db).result.isOk then
      some (charge, -delta) else none
  | .refund faults requestId =>
    ((givenBack faults requestId db).filter fun r => r.userSubscriptionId = id).map fun r =>
      (.preConsume requestId, r.preConsumed)
  | _ => none

/-- What the call of a number charges to a subscription. -/
def newCharge (id : Int) (calls : Nat) (db db' : Db) : PeriodCall → Option (Charge × Int)
  | .preConsume _ _ _ requestId _ _ =>
    if db.record? requestId = none then
      ((db'.record? requestId).filter fun r => r.userSubscriptionId = id).map fun r =>
        (.preConsume requestId, r.preConsumed)
    else none
  | .postConsume fault _ id' delta =>
    if id' = id ∧ 0 < delta ∧ (postConsumeUserSubscriptionDelta fault id' delta db).result.isOk then
      some (.delta calls, delta) else none
  | _ => none

def Period.IsCurrent (s : Period) (charge : Charge) : Prop := charge ∈ s.charges.map Prod.fst

instance (s : Period) (charge : Charge) : Decidable (s.IsCurrent charge) :=
  inferInstanceAs (Decidable (charge ∈ s.charges.map Prod.fst))

def periodStep (env : Env) (id : Int) (s : Period) (call : PeriodCall) : Option Period :=
  (exec env s.ledger.db call.op).map fun o =>
    { ledger := ⟨o.db, s.ledger.log ++ o.events⟩
      charges := (if eventsOf id o.events = [] then s.charges else []) ++
        (newCharge id s.calls s.ledger.db o.db call).toList ++
        (((takesBack id s.ledger.db call).filter fun c => s.IsCurrent c.1).map fun c => (c.1, -c.2)).toList
      calls := s.calls + 1 }

/-- The used amount is what was charged since the last reset, less what was taken back of it. -/
def Accounted (id : Int) (s : Period) : Prop :=
  ∀ x, s.ledger.db.sub? id = some x → x.amountUsed = (s.charges.map Prod.snd).sum

/-- What a call takes back was charged since the last reset and is there, or there is nothing. -/
def InPeriod (id : Int) (s : Period) (call : PeriodCall) : Prop :=
  ∀ c, takesBack id s.ledger.db call = some c → ∀ x, s.ledger.db.sub? id = some x →
    if s.IsCurrent c.1 then c.2 ≤ x.amountUsed else x.amountUsed = 0

instance (id : Int) (s : Period) (call : PeriodCall) : Decidable (InPeriod id s call) :=
  match htake : takesBack id s.ledger.db call, hx : s.ledger.db.sub? id with
  | some c, some x => decidable_of_iff (if s.IsCurrent c.1 then c.2 ≤ x.amountUsed else x.amountUsed = 0)
      (by simp [InPeriod, htake, hx])
  | none, _ => isTrue (by simp [InPeriod, htake])
  | some _, none => isTrue (by simp [InPeriod, hx])

/-! ### One row -/

variable {db : Db} {id : Int} {n : Nat} {x : UserSubscription} {call : PeriodCall} {o : Outcome Unit} {env : Env}

theorem sub?_saveSub_of_ne {sub : UserSubscription} (h : id ≠ sub.id) :
    (db.saveSub sub).sub? id = db.sub? id := by
  rw [Db.sub?, Db.saveSub, findRow_saveRow_of_ne h]
  rfl

/-- A row after the resets of several: the amount is kept, or the reset is logged. -/
theorem sub?_resets (turns : Nat) (now : Int) (hdb : db.Keyed) {xs : List UserSubscription}
    (hnodup : (xs.map UserSubscription.id).Nodup) (hxs : ∀ z ∈ xs, z ∈ db.subs)
    (hx : db.sub? id = some x) :
    ∃ y, (db.saveSubs (xs.map fun z => (resetRow env turns now z).2)).sub? id = some y ∧
      y.amountUsed = if eventsOf id (xs.flatMap fun z => (resetRow env turns now z).1) =
        [] then x.amountUsed else 0 := by
  obtain ⟨hmem, rfl⟩ := sub?_mem hx
  by_cases hin : x ∈ xs
  · refine ⟨(resetRow env turns now x).2, ?_, ?_⟩
    · have hsaved : (resetRow env turns now x).2 ∈ xs.map fun z => (resetRow env turns now z).2 :=
        List.mem_map_of_mem hin
      have hfound := sub?_saveSubs hdb (by rw [map_id_resetRow]; exact hnodup) hsaved
        (by rw [resetRow_id]; exact List.mem_map_of_mem hmem)
      rwa [resetRow_id] at hfound
    · rw [eventsOf_resets env turns now hnodup hin]
      rcases resetRow_used env turns now x with ⟨hnone, hused⟩ | ⟨⟨e, hone, -⟩, hused⟩
      · rw [if_pos hnone, hused]
      · rw [if_neg (by simp [hone]), hused]
  · have hne : ∀ z ∈ xs, z.id ≠ x.id := fun z hz heq => hin (eq_of_id_eq hdb.nodup (hxs z hz) hmem heq ▸ hz)
    refine ⟨x, ?_, ?_⟩
    · rw [Db.sub?, Db.saveSubs, findRow_saveRows_of_ne]
      · exact hx
      · intro r hr
        obtain ⟨z, hz, rfl⟩ := List.mem_map.1 hr
        rw [resetRow_id]
        exact (hne z hz).symm
    · rw [if_pos]
      refine eventsOf_none fun e he heq => ?_
      obtain ⟨z, hz, he⟩ := List.mem_flatMap.1 he
      exact hne z hz (by rw [← resetRow_logged env turns now z e he, heq])

structure RowAfter (id : Int) (n : Nat) (call : PeriodCall) (db : Db) (o : Outcome Unit)
    (x y : UserSubscription) : Prop where
  found : o.db.sub? id = some y
  untouched : takesBack id db call = none →
    y.amountUsed = (if eventsOf id o.events = [] then x.amountUsed else 0) +
      ((newCharge id n db o.db call).map Prod.snd).getD 0
  taken : ∀ c, takesBack id db call = some c →
    0 < c.2 ∧ eventsOf id o.events = [] ∧ newCharge id n db o.db call = none ∧ y.amountUsed = max 0 (x.amountUsed - c.2)

theorem rowAfter_unchanged
    (hx : db.sub? id = some x) (hsame : o.db.sub? id = db.sub? id) (hevents : eventsOf id o.events = [])
    (htake : takesBack id db call = none) (hcharge : ((newCharge id n db o.db call).map Prod.snd).getD 0 = 0) :
    RowAfter id n call db o x x where
  found := hsame.trans hx
  untouched _ := by rw [if_pos hevents, hcharge, add_zero]
  taken c hc := by
    rw [htake] at hc
    cases hc

theorem preConsume_rowAfter {fault : Option String} {turns : Nat} {now : Int} {requestId : String}
    {userId amount : Int} {out : Outcome PreConsumeResult} (hdb : db.Keyed)
    (hx : db.sub? id = some x)
    (h : preConsumeUserSubscription env fault turns now requestId userId amount db = some out) :
    ∃ y, RowAfter id n (.preConsume fault turns now requestId userId amount) db out.void x y := by
  rcases preConsume_cases h with
    ⟨hsame, hevents, -⟩ | ⟨existing, sub, hrecord, -, rfl⟩ | ⟨v, sub, hrecord, -, hamount, hvisit, hchosen, rfl⟩
  · refine ⟨x, rowAfter_unchanged hx (by rw [Outcome.void, hsame]) (by rw [Outcome.void, hevents]; rfl) rfl ?_⟩
    rw [newCharge, Outcome.void, hsame]
    cases hr : db.record? requestId <;> simp
  · refine ⟨x, rowAfter_unchanged hx rfl rfl rfl ?_⟩
    simp [newCharge, hrecord]
  · obtain ⟨xs, hids, hxs, hsaved, hevents, -, hrow, -⟩ := visit_spec hdb hvisit hchosen
    obtain ⟨y, hy, hused⟩ := sub?_resets turns now hdb hids (fun z hz => (hxs z hz).1) hx
    rw [← hsaved] at hy
    rw [← hevents] at hused
    let record : PreConsumeRecord := ⟨requestId, userId, sub.id, amount, .consumed⟩
    have hfree : findRow PreConsumeRecord.requestId record.requestId db.records = none := hrecord
    have hnew : findRow PreConsumeRecord.requestId requestId (db.records ++ [record]) =
        some record := findRow_append_one hfree
    have hcharge : ∀ db' : Db, db'.records = db.records ++ [record] →
        newCharge id n db db' (.preConsume fault turns now requestId userId amount) =
          if sub.id = id then some (.preConsume requestId, amount) else none := by
      intro db' hrecords
      rw [newCharge, if_pos hrecord, Db.record?, hrecords, hnew, Option.filter_some]
      by_cases hid : sub.id = id <;> simp [record, hid]
    by_cases hid : sub.id = id
    · subst hid
      obtain rfl : sub = y := Option.some.inj (hrow.symm.trans hy)
      refine ⟨{ sub with amountUsed := sub.amountUsed + amount }, sub?_saveSub hrow rfl, fun _ => ?_, nofun⟩
      rw [hcharge _ rfl, if_pos rfl, Option.map_some, Option.getD_some]
      exact congrArg (· + amount) hused
    · have hother : id ≠ ({ sub with amountUsed := sub.amountUsed + amount } : UserSubscription).id := Ne.symm hid
      refine ⟨y, (sub?_saveSub_of_ne hother).trans hy, fun _ => ?_, nofun⟩
      rw [hcharge _ rfl, if_neg hid, Option.map_none, Option.getD_none, add_zero]
      exact hused

theorem resetDue_rowAfter {select : Option String} {fault : Int → Option String} {turns : Nat} {now limit : Int}
    {out : Outcome Nat} (hdb : db.Keyed) (hx : db.sub? id = some x)
    (h : resetDueSubscriptions env select fault turns now limit db = some out) :
    ∃ y, RowAfter id n (.resetDue select fault turns now limit) db out.void x y := by
  obtain ⟨hrw, hrows⟩ : Rewrites env (fun _ => False) now db out ∧ _ := resetDue_rewrites hdb h
  obtain ⟨hmem, rfl⟩ := sub?_mem hx
  have hkeyed := hrw.1.keyed hrw.2 hdb
  obtain ⟨y, hy, hid⟩ : ∃ y ∈ out.db.subs, y.id = x.id := by
    have hin : x.id ∈ out.db.subs.map UserSubscription.id := hrw.1.ids ▸ List.mem_map_of_mem hmem
    exact List.mem_map.1 hin
  refine ⟨y, by rw [← hid]; exact sub?_of_mem hkeyed hy, fun _ => ?_, nofun⟩
  show y.amountUsed = (if eventsOf x.id out.events = [] then x.amountUsed else 0) + 0
  rw [add_zero]
  rw [← hid]
  rcases hrows y hy with ⟨hold, hnone⟩ | ⟨z, hz, rfl, hlogged⟩
  · rw [if_pos hnone, eq_of_id_eq hdb.nodup hold hmem hid]
  · rw [resetRow_id] at hid
    obtain rfl := eq_of_id_eq hdb.nodup hz hmem hid
    rw [hlogged]
    rcases resetRow_used env turns now z with ⟨hnone, hused⟩ | ⟨⟨e, hone, -⟩, hused⟩
    · rw [if_pos hnone, hused]
    · rw [if_neg (by simp [hone]), hused]

variable {fault : Option String} {delta : Int}

/-- A delta that goes through: the amount does not fall below zero. -/
theorem delta_spec (fault : Option String) (delta : Int) (hx : db.sub? id = some x)
    (hpos : 0 ≤ x.amountUsed) :
    let o := postConsumeUserSubscriptionDelta fault id delta db
    o.events = [] ∧ ((o.result.isOk = false ∧ o.db = db) ∨
      (o.result.isOk = true ∧ ∃ y, o.db.sub? id = some y ∧ y.amountUsed = max 0 (x.amountUsed + delta))) := by
  intro o
  rcases postConsume_cases fault id delta db with ⟨hsame, hevents, e, herr⟩ | ⟨hzero, heq⟩ | ⟨sub,
    sub', -, hsub, happly, heq⟩
  · exact ⟨hevents, Or.inl ⟨by rw [herr]; rfl, hsame⟩⟩
  · simp only [o, heq]
    exact ⟨trivial, Or.inr ⟨rfl, x, hx, by omega⟩⟩
  · obtain rfl : x = sub := Option.some.inj (hx.symm.trans hsub)
    obtain ⟨-, rfl⟩ := sub?_mem hx
    obtain ⟨rfl, -⟩ := applyDelta_ok happly
    simp only [o, heq]
    exact ⟨trivial, Or.inr ⟨rfl, _, sub?_saveSub hx rfl, rfl⟩⟩

theorem delta_other {id' : Int} (h : id ≠ id') :
    (postConsumeUserSubscriptionDelta fault id' delta db).events = [] ∧
      (postConsumeUserSubscriptionDelta fault id' delta db).db.sub? id = db.sub? id := by
  rcases postConsume_cases fault id' delta db with ⟨hsame, hevents, -⟩ | ⟨-, heq⟩ | ⟨sub, sub', -, hsub, happly, heq⟩
  · exact ⟨hevents, by rw [hsame]⟩
  · rw [heq]
    exact ⟨rfl, rfl⟩
  · obtain ⟨-, rfl⟩ := sub?_mem hsub
    obtain ⟨rfl, -⟩ := applyDelta_ok happly
    rw [heq]
    exact ⟨rfl, sub?_saveSub_of_ne h⟩

variable {requestId : String} {charge : Charge}

theorem postConsume_rowAfter (id' : Int) (hx : db.sub? id = some x) (hpos : 0 ≤ x.amountUsed) :
    ∃ y, RowAfter id n (.postConsume fault charge id' delta) db
      (postConsumeUserSubscriptionDelta fault id' delta db) x y := by
  by_cases hid : id' = id
  swap
  · obtain ⟨hevents, hsame⟩ := delta_other (Ne.symm hid)
    exact ⟨x, rowAfter_unchanged hx hsame (by rw [hevents]; rfl) (by simp [takesBack, hid]) (by simp [newCharge, hid])⟩
  subst hid
  obtain ⟨hevents, ⟨hfail, hsame⟩ | ⟨hok, y, hy, hused⟩⟩ := delta_spec fault delta hx hpos
  · exact ⟨x, rowAfter_unchanged hx (by rw [hsame]) (by rw [hevents]; rfl) (by simp [takesBack, hfail])
      (by simp [newCharge, hfail])⟩
  have hnone : eventsOf id' (postConsumeUserSubscriptionDelta fault id' delta db).events = [] := by rw [hevents]; rfl
  refine ⟨y, hy, fun htake => ?_, fun c hc => ?_⟩
  · have hdelta : 0 ≤ delta := by
      by_contra hneg
      simp [takesBack, hok, not_le.1 hneg] at htake
    rw [if_pos hnone, hused, newCharge]
    by_cases hcharge : 0 < delta
    · rw [if_pos ⟨rfl, hcharge, hok⟩]
      simp only [Option.map_some, Option.getD_some]
      omega
    · rw [if_neg fun hall => hcharge hall.2.1]
      simp only [Option.map_none, Option.getD_none]
      omega
  · simp only [takesBack, hok, Option.ite_none_right_eq_some, true_and, and_true, Option.some.injEq] at hc
    obtain ⟨hneg, rfl⟩ := hc
    refine ⟨by simpa using hneg, hnone, ?_, by rw [hused]; simp⟩
    rw [newCharge, if_neg fun hall => by omega]

theorem refund_rowAfter (faults : RefundFaults)
    (hx : db.sub? id = some x) (hpos : 0 ≤ x.amountUsed) :
    ∃ y, RowAfter id n (.refund faults requestId) db (refundSubscriptionPreConsume faults requestId db) x y := by
  rcases refund_cases faults requestId db with
    ⟨hhalf, hsame, hevents, herr⟩ | ⟨r, hr, hstatus, ⟨hzero, hhalf, heq⟩ | ⟨hamount, inner, hinner, hcase⟩⟩
  · refine ⟨x, rowAfter_unchanged hx (by rw [hsame]) (by rw [hevents]; rfl) ?_ rfl⟩
    have hnone : givenBack faults requestId db = none := by
      rw [givenBack, Option.filter_eq_none_iff]
      intro r hr hgiven
      simp only [hhalf, Bool.false_eq_true, false_or, decide_eq_true_eq] at hgiven
      obtain ⟨e, herror⟩ := herr r hr hgiven.1
      rw [herror] at hgiven
      cases hgiven.2.2
    rw [takesBack, hnone]
    rfl
  · refine ⟨x, rowAfter_unchanged hx (by rw [heq]; rfl) (by rw [heq]; rfl) ?_ rfl⟩
    simp [takesBack, givenBack, hr, not_lt.2 hzero]
  · have hgiven : givenBack faults requestId db = some r := by
      rw [givenBack, hr, Option.filter_some, if_pos]
      rw [decide_eq_true_eq]
      refine ⟨hstatus, hamount, ?_⟩
      rcases hcase with ⟨hhalf, -⟩ | ⟨-, heq⟩
      · exact Or.inl hhalf
      · rw [heq]
        exact Or.inr rfl
    -- the status of the record is not part of the row
    have hrow : (refundSubscriptionPreConsume faults requestId db).events = [] ∧
        (refundSubscriptionPreConsume faults requestId db).db.sub? id = inner.sub? id := by
      rcases hcase with ⟨-, e, heq⟩ | ⟨-, heq⟩ <;> rw [heq]
      · exact ⟨rfl, rfl⟩
      · exact ⟨rfl, rfl⟩
    have hnone : eventsOf id (refundSubscriptionPreConsume faults requestId db).events = [] := by rw [hrow.1]; rfl
    by_cases hid : r.userSubscriptionId = id
    · subst hid
      have hdelta := delta_spec faults.inner (-r.preConsumed) hx hpos
      rw [hinner] at hdelta
      obtain ⟨-, ⟨hfail, -⟩ | ⟨-, y, hy, hused⟩⟩ := hdelta
      · cases hfail
      refine ⟨y, hrow.2.trans hy, fun htake => ?_, fun c hc => ?_⟩
      · simp [takesBack, hgiven] at htake
      · simp only [takesBack, hgiven, Option.filter_some, decide_true, if_true, Option.map_some] at hc
        cases hc
        exact ⟨hamount, hnone, rfl, hused⟩
    · obtain ⟨-, hother⟩ := delta_other (Ne.symm hid)
      rw [hinner] at hother
      refine ⟨x, rowAfter_unchanged hx (hrow.2.trans hother) hnone ?_ rfl⟩
      simp [takesBack, hgiven, hid]

/-! ### Runs -/

theorem exec_rowAfter
    (hdb : db.Keyed) (hx : db.sub? id = some x) (hpos : 0 ≤ x.amountUsed) (h : exec env db call.op = some o) :
    ∃ y, RowAfter id n call db o x y := by
  cases call with
  | preConsume fault turns now requestId userId amount =>
    obtain ⟨out, hout, rfl⟩ := Option.map_eq_some_iff.1 h
    exact preConsume_rowAfter hdb hx hout
  | postConsume fault charge id' delta =>
    cases h
    exact postConsume_rowAfter id' hx hpos
  | refund faults requestId =>
    cases h
    exact refund_rowAfter faults hx hpos
  | resetDue select fault turns now limit =>
    obtain ⟨out, hout, rfl⟩ := Option.map_eq_some_iff.1 h
    exact resetDue_rowAfter hdb hx hout

theorem sub?_none_of_exec (hdb : db.Keyed)
    (hnone : db.sub? id = none) (h : exec env db call.op = some o) : o.db.sub? id = none := by
  have hids : o.db.subs.map UserSubscription.id = db.subs.map UserSubscription.id := by
    cases call with
    | preConsume fault turns now requestId userId amount =>
      obtain ⟨out, hout, rfl⟩ := Option.map_eq_some_iff.1 h
      exact (show Rewrites env (fun _ => False) now db out from preConsume_rewrites hdb hout).1.ids
    | postConsume fault charge id' delta =>
      cases h
      exact (show Rewrites env (fun _ => False) 0 db _ from postConsume_rewrites env 0 fault id' delta db).1.ids
    | refund faults requestId =>
      cases h
      exact (show Rewrites env (fun _ => False) 0 db _ from refund_rewrites env 0 faults requestId db).1.ids
    | resetDue select fault turns now limit =>
      obtain ⟨out, hout, rfl⟩ := Option.map_eq_some_iff.1 h
      exact (show Rewrites env (fun _ => False) now db out ∧ _ from resetDue_rewrites hdb hout).1.1.ids
  cases hy : o.db.sub? id with
  | none => rfl
  | some y =>
    obtain ⟨hmem, hid⟩ := sub?_mem hy
    obtain ⟨x, hx, hxid⟩ := List.mem_map.1 (hids ▸ List.mem_map_of_mem hmem)
    exact absurd (hxid.trans hid) (findRow_eq_none hnone x hx)

/-- One call keeps the account exactly if it takes back within the period. -/
theorem accounted_step_iff {s t : Period} (hdb : s.ledger.db.Keyed)
    (hbounded : ∀ x ∈ s.ledger.db.subs, x.Bounded) (hs : Accounted id s) (h : periodStep env id s call = some t) :
    Accounted id t ↔ InPeriod id s call := by
  obtain ⟨o, ho, rfl⟩ := Option.map_eq_some_iff.1 h
  cases hx : s.ledger.db.sub? id with
  | none =>
    refine iff_of_true (fun y hy => ?_) fun c _ x hsome => ?_
    · rw [sub?_none_of_exec hdb hx ho] at hy
      cases hy
    · rw [hx] at hsome
      cases hsome
  | some x =>
    have hpos : 0 ≤ x.amountUsed := (hbounded x (sub?_mem hx).1).1
    obtain ⟨y, hy, huntouched, htaken⟩ := exec_rowAfter (n := s.calls) hdb hx hpos ho
    have hused := hs x hx
    have haccounted : ∀ charges, Accounted id ⟨⟨o.db, s.ledger.log ++ o.events⟩, charges, s.calls + 1⟩ ↔
        y.amountUsed = (charges.map Prod.snd).sum := by
      intro charges
      rw [Accounted, hy]
      simp
    rw [haccounted, InPeriod, hx]
    cases htake : takesBack id s.ledger.db call with
    | none =>
      refine iff_of_true ?_ nofun
      rw [huntouched htake]
      cases newCharge id s.calls s.ledger.db o.db call <;> split_ifs <;> simp [hused]
    | some c =>
      obtain ⟨hc, hevents, hcharge, hafter⟩ := htaken c htake
      have hcond : (∀ c', some c = some c' → ∀ x', some x = some x' →
          if s.IsCurrent c'.1 then c'.2 ≤ x'.amountUsed else x'.amountUsed = 0) ↔
            if s.IsCurrent c.1 then c.2 ≤ x.amountUsed else x.amountUsed = 0 := by simp
      rw [hafter, hevents, if_pos rfl, hcharge, hcond, Option.filter_some]
      by_cases hcurrent : s.IsCurrent c.1
      · rw [if_pos (decide_eq_true hcurrent), if_pos hcurrent]
        simp only [Option.toList_none, List.append_nil, Option.map_some, Option.toList_some,
          List.map_append, List.map_singleton,
          List.sum_append, List.sum_singleton, ← hused]
        omega
      · rw [if_neg (by simpa using hcurrent), if_neg hcurrent]
        simp only [Option.toList_none, List.append_nil, Option.map_none, ← hused]
        omega

/-- **The used amount is the account of the period exactly as long as every call takes back within
the period.** -/
theorem accounted_iff (env : Env) (id : Int) (s : Period) (hdb : s.ledger.db.Keyed)
    (hbounded : ∀ x ∈ s.ledger.db.subs, x.Bounded) (hs : Accounted id s) (calls : List PeriodCall) :
    Along (periodStep env id) (fun s call => ∀ t, periodStep env id s call = some t → Accounted id t) s calls ↔
      Along (periodStep env id) (InPeriod id) s calls := by
  induction calls generalizing s with
  | nil => exact Iff.rfl
  | cons call calls ih =>
    cases hstep : periodStep env id s call with
    | none =>
      -- only the walk of a reset may take more turns, and a call with a reset takes nothing back
      have hin : InPeriod id s call := by
        have hexec : exec env s.ledger.db call.op = none := by simpa [periodStep] using hstep
        cases call with
        | preConsume => exact nofun
        | resetDue => exact nofun
        | postConsume => cases hexec
        | refund => cases hexec
      rw [Along, Along, hstep]
      exact iff_of_true ⟨nofun, nofun⟩ ⟨hin, nofun⟩
    | some t =>
      have hstepped := accounted_step_iff hdb hbounded hs hstep
      obtain ⟨o, ho, rfl⟩ := Option.map_eq_some_iff.1 hstep
      have hledger : step env s.ledger call.op = some ⟨o.db, s.ledger.log ++ o.events⟩ := by
        rw [step, ho]
        rfl
      obtain ⟨hkeyed, hrows⟩ := step_bounded hdb hbounded hledger
      rw [Along, Along, hstep]
      simp only [Option.some.injEq, forall_eq']
      rw [hstepped]
      exact and_congr_right fun hin => ih _ hkeyed hrows (hstepped.2 hin)

def minutePlan : Env where
  loc := .fixed 0
  plans := [{ id := 3, durationUnit := .custom, customSeconds := 600, totalAmount := 100, quotaResetPeriod := "custom",
              quotaResetCustomSeconds := 60 }]

def freshPeriod : Period :=
  ⟨⟨{ subs := [⟨1, 7, 3, 100, 0, 1000, 1600, .active, "order", 1000, 1060, true⟩], nextId := 2 },
    []⟩, [], 0⟩

def twoPeriods : List PeriodCall :=
  [.preConsume none 10 1010 "a" 7 10, .resetDue none (fun _ => none) 10 1060 0, .preConsume none 10 1070 "b" 7 20]

def amounts (s : Period) : List Int × List (Charge × Int) :=
  (s.ledger.db.subs.map UserSubscription.amountUsed, s.charges)

theorem accounted_settled :
    let calls := twoPeriods ++
      [.postConsume none (.preConsume "b") 1 (-5), .postConsume none (.preConsume "a") 1 8,
        .postConsume none (.delta 4) 1 (-2)]
    Along (periodStep minutePlan 1) (fun s call => ∀ t, periodStep minutePlan 1 s call = some t →
      Accounted 1 t) freshPeriod calls ∧
      (run (periodStep minutePlan 1) freshPeriod calls).map amounts =
        some ([21], [(.preConsume "b", 20), (.preConsume "b", -5), (.delta 4, 8), (.delta 4, -2)]) := by
  intro calls
  refine ⟨(accounted_iff minutePlan 1 freshPeriod ⟨by decide, by decide⟩ ?_ ?_ calls).2 ?_, ?_⟩
  · intro x hx
    rw [List.mem_singleton.1 hx]
    exact ⟨le_rfl, by decide⟩
  · intro x hx
    cases hx
    rfl
  · decide +kernel
  · decide +kernel

/-- The refund of the first request is taken off the amount of the second; also when the first was
charged again after the reset, for its pre-consume is of the time before. -/
theorem earlier_charge_refunded :
    (run (periodStep minutePlan 1) freshPeriod (twoPeriods ++ [.refund {} "a"])).map amounts =
        some ([10], [(.preConsume "b", 20)]) ∧
      (run (periodStep minutePlan 1) freshPeriod (twoPeriods ++
        [.postConsume none (.preConsume "a") 1 5, .refund {} "a"])).map amounts =
        some ([15], [(.preConsume "b", 20), (.delta 3, 5)]) := by
  decide +kernel

end TokenEra.Subscription
