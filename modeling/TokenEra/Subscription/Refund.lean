import TokenEra.Lib.Run
import TokenEra.Subscription.Store

/-!
# Refunding a pre-consume record

`RefundSubscriptionPreConsume` gives the used amount back in the transaction that
`PostConsumeUserSubscriptionDelta` opens on the global handle, and marks the record in its own one.
The first can commit and the second fail (`halfCommits`): the amount is back and the record still
says `consumed`, so the next attempt gives it back again.

`RefundRun` counts what all attempts on one request id gave back, over any number of attempts with
any failures, while other functions move the used amount in between. Each half-committed attempt
adds the record's amount once and so does the attempt that marks the record (`refund_released`);
hence the amount is given back once or not at all, in step with the record, exactly when no attempt
is half-committed.
-/

namespace TokenEra.Subscription

open Lib

/-- The attempt commits the inner transaction and then fails to save or commit the record. -/
def halfCommits (faults : RefundFaults) (requestId : String) (db : Db) (w : Int → Int := id) :
    Bool :=
  trimSpace requestId ≠ "" && faults.lookup.isNone && faults.late.isSome &&
    match db.record? requestId with
    | none => false
    | some record =>
      record.status = .consumed && 0 < record.preConsumed &&
        match (postConsumeUserSubscriptionDelta faults.inner record.userSubscriptionId
          (-record.preConsumed) db w).result with
        | .error _ => false
        | .ok _ => true

@[simp] theorem usedOf_saveRecord (db : Db) (record : PreConsumeRecord) (id : Int) :
    usedOf (db.saveRecord record) id = usedOf db id := rfl

variable {db : Db} {requestId : String} {r : PreConsumeRecord} {s : RefundRun}

theorem record?_saveRecord {record record' : PreConsumeRecord}
    (h : db.record? requestId = some record) (hid : record'.requestId = record.requestId) :
    (db.saveRecord record').record? requestId = some record' := by
  have hkey : record.requestId = requestId := (findRow_eq_some h).2
  rw [← hkey, ← hid] at h ⊢
  exact findRow_saveRow_self h

/-- What one attempt does. It changes nothing, which is a failure unless the record is already
refunded; it marks a record without an amount; or its inner transaction gives the amount back, and
then the record is marked unless the attempt is half-committed. -/
theorem refund_cases (faults : RefundFaults) (requestId : String) (db : Db) (w : Int → Int := id) :
    (halfCommits faults requestId db w = false ∧
      (refundSubscriptionPreConsume faults requestId db w).db = db ∧
      (refundSubscriptionPreConsume faults requestId db w).events = [] ∧
      ∀ r, db.record? requestId = some r → r.status = .consumed →
        ∃ e, (refundSubscriptionPreConsume faults requestId db w).result = .error e) ∨
    ∃ r, db.record? requestId = some r ∧ r.status = .consumed ∧
      ((r.preConsumed ≤ 0 ∧ halfCommits faults requestId db w = false ∧
        refundSubscriptionPreConsume faults requestId db w =
          ⟨db.saveRecord { r with status := .refunded }, .ok (), []⟩) ∨
      (0 < r.preConsumed ∧ ∃ inner,
        postConsumeUserSubscriptionDelta faults.inner r.userSubscriptionId (-r.preConsumed) db w =
          ⟨inner, .ok (), []⟩ ∧
        ((halfCommits faults requestId db w = true ∧
          ∃ e, refundSubscriptionPreConsume faults requestId db w = ⟨inner, .error e, []⟩) ∨
        (halfCommits faults requestId db w = false ∧
          refundSubscriptionPreConsume faults requestId db w =
            ⟨inner.saveRecord { r with status := .refunded }, .ok (), []⟩)))) := by
  unfold refundSubscriptionPreConsume
  by_cases hid : trimSpace requestId = ""
  · rw [if_pos hid]
    exact Or.inl ⟨by simp [halfCommits, hid], rfl, rfl, fun _ _ _ => ⟨_, rfl⟩⟩
  rw [if_neg hid]
  cases hlookup : faults.lookup with
  | some text => exact Or.inl ⟨by simp [halfCommits, hlookup], rfl, rfl, fun _ _ _ => ⟨_, rfl⟩⟩
  | none =>
    dsimp only
    cases hr : db.record? requestId with
    | none => exact Or.inl ⟨by simp [halfCommits, hr], rfl, rfl, fun r h => by cases h⟩
    | some r =>
      dsimp only
      by_cases hrefunded : r.status = .refunded
      · rw [if_pos hrefunded]
        refine Or.inl ⟨by simp [halfCommits, hr, hrefunded], ?_, ?_, fun r' hr' hstatus => ?_⟩
        · cases faults.commit <;> rfl
        · cases faults.commit <;> rfl
        · cases hr'
          rw [hrefunded] at hstatus
          cases hstatus
      have hstatus : r.status = .consumed := by
        cases h : r.status with
        | consumed => rfl
        | refunded => exact absurd h hrefunded
      rw [if_neg hrefunded]
      by_cases hzero : r.preConsumed ≤ 0
      · have hhalf : halfCommits faults requestId db w = false := by simp [halfCommits, hr, hzero]
        simp only [if_pos hzero]
        cases faults.late with
        | some text => exact Or.inl ⟨hhalf, rfl, rfl, fun _ _ _ => ⟨_, rfl⟩⟩
        | none => exact Or.inr ⟨r, rfl, hstatus, Or.inl ⟨hzero, hhalf, rfl⟩⟩
      have hpos : 0 < r.preConsumed := not_le.1 hzero
      simp only [if_neg hzero]
      rcases postConsume_cases faults.inner r.userSubscriptionId (-r.preConsumed) db w with
        ⟨hdb, -, e, herr⟩ | ⟨hdelta, -⟩ | ⟨sub, sub', -, -, -, heq⟩
      · rw [herr]
        exact Or.inl ⟨by simp [halfCommits, hr, herr], hdb, rfl, fun _ _ _ => ⟨e, rfl⟩⟩
      · omega
      · refine Or.inr ⟨r, rfl, hstatus, Or.inr ⟨hpos, db.saveSub sub', heq, ?_⟩⟩
        rw [heq]
        cases hlate : faults.late with
        | some text =>
          exact Or.inl ⟨by simp [halfCommits, hid, hlookup, hlate, hr, hstatus, hpos, heq], _, rfl⟩
        | none => exact Or.inr ⟨by simp [halfCommits, hlate], rfl⟩

theorem inner_spec {fault : Option String} {id a : Int} {inner : Db} (ha : 0 < a)
    (hcovered : a ≤ usedOf db id)
    (h : postConsumeUserSubscriptionDelta fault id (-a) db = ⟨inner, .ok (), []⟩) :
    usedOf inner id = usedOf db id - a ∧ ∀ requestId, inner.record? requestId = db.record? requestId := by
  rcases postConsume_cases fault id (-a) db with
    ⟨-, -, e, herr⟩ | ⟨hzero, -⟩ | ⟨sub, sub', -, hsub, happly, heq⟩
  · rw [h] at herr
    cases herr
  · omega
  · rw [h] at heq
    cases heq
    obtain ⟨hsub', -⟩ := applyDelta_ok happly
    have hid : sub.id = id := (findRow_eq_some hsub).2
    subst hid
    have hused : usedOf db sub.id = sub.amountUsed := by rw [usedOf, hsub]; rfl
    refine ⟨?_, fun _ => rfl⟩
    rw [usedOf_saveSub hsub (by rw [hsub']), hsub']
    rw [hused] at hcovered ⊢
    simp only
    omega

variable {faults : RefundFaults}

/-- One attempt on a consumed record: it half-commits, fails and changes nothing, or gives the
amount back and marks the record. -/
theorem refund_consumed (hr : db.record? requestId = some r) (ha : 0 < r.preConsumed)
    (hcovered : r.preConsumed ≤ usedOf db r.userSubscriptionId) :
    (halfCommits faults requestId db = true ∧
      (refundSubscriptionPreConsume faults requestId db).db.record? requestId = some r ∧
      usedOf (refundSubscriptionPreConsume faults requestId db).db r.userSubscriptionId =
        usedOf db r.userSubscriptionId - r.preConsumed) ∨
    (halfCommits faults requestId db = false ∧
      (refundSubscriptionPreConsume faults requestId db).db = db) ∨
    (halfCommits faults requestId db = false ∧
      (refundSubscriptionPreConsume faults requestId db).db.record? requestId =
        some { r with status := .refunded } ∧
      usedOf (refundSubscriptionPreConsume faults requestId db).db r.userSubscriptionId =
        usedOf db r.userSubscriptionId - r.preConsumed) := by
  rcases refund_cases faults requestId db with ⟨hhalf, hdb, -, -⟩ | ⟨r', hr', -, hcase⟩
  · exact Or.inr (Or.inl ⟨hhalf, hdb⟩)
  obtain rfl : r = r' := Option.some.inj (hr.symm.trans hr')
  rcases hcase with ⟨hzero, -, -⟩ | ⟨-, inner, hinner, hcase⟩
  · omega
  obtain ⟨hused, hrecords⟩ := inner_spec ha hcovered hinner
  have hrecord : inner.record? requestId = some r := (hrecords requestId).trans hr
  rcases hcase with ⟨hhalf, e, heq⟩ | ⟨hhalf, heq⟩
  · rw [heq]
    exact Or.inl ⟨hhalf, hrecord, hused⟩
  · rw [heq]
    exact Or.inr (Or.inr ⟨hhalf, record?_saveRecord hrecord rfl, hused⟩)

theorem refund_refunded (hr : db.record? requestId = some r) (hstatus : r.status = .refunded) :
    halfCommits faults requestId db = false ∧
      (refundSubscriptionPreConsume faults requestId db).db = db := by
  rcases refund_cases faults requestId db with ⟨hhalf, hdb, -, -⟩ | ⟨r', hr', hconsumed, -⟩
  · exact ⟨hhalf, hdb⟩
  · obtain rfl : r = r' := Option.some.inj (hr.symm.trans hr')
    rw [hstatus] at hconsumed
    cases hconsumed

/-! ### Attempts in sequence -/

/-- An attempt with its failures, or another function setting the used amount of the subscription.
-/
inductive RefundAction
  | attempt (faults : RefundFaults)
  | others (used : Int)
deriving DecidableEq, Repr

/-- `released` is the total by which the attempts lowered the used amount. -/
structure RefundRun where
  db : Db
  released : Int := 0
deriving DecidableEq, Repr

def recordSub (requestId : String) (db : Db) : Int :=
  ((db.record? requestId).map PreConsumeRecord.userSubscriptionId).getD 0

def setUsed (db : Db) (id used : Int) : Db :=
  match db.sub? id with
  | none => db
  | some sub => db.saveSub { sub with amountUsed := used }

def refundStep (requestId : String) (s : RefundRun) : RefundAction → Option RefundRun
  | .attempt faults =>
    let id := recordSub requestId s.db
    let db := (refundSubscriptionPreConsume faults requestId s.db).db
    some ⟨db, s.released + (usedOf s.db id - usedOf db id)⟩
  | .others used => some ⟨setUsed s.db (recordSub requestId s.db) used, s.released⟩

/-- The used amount covers the record for as long as the record is not refunded. -/
def Covered (requestId : String) (s : RefundRun) (_ : RefundAction) : Prop :=
  ∀ r ∈ s.db.record? requestId, r.status = .consumed →
    r.preConsumed ≤ usedOf s.db r.userSubscriptionId

instance (requestId : String) (s : RefundRun) (a : RefundAction) :
    Decidable (Covered requestId s a) :=
  inferInstanceAs (Decidable (∀ r ∈ s.db.record? requestId, r.status = .consumed →
    r.preConsumed ≤ usedOf s.db r.userSubscriptionId))

def NotHalfCommitted (requestId : String) (s : RefundRun) : RefundAction → Prop
  | .attempt faults => halfCommits faults requestId s.db = false
  | .others _ => True

def halfCommitCount (requestId : String) : RefundRun → List RefundAction → Nat
  | _, [] => 0
  | s, a :: l =>
    (match a with
      | .attempt faults => if halfCommits faults requestId s.db then 1 else 0
      | .others _ => 0) +
    match refundStep requestId s a with
    | none => 0
    | some t => halfCommitCount requestId t l

theorem record?_setUsed (id used : Int) :
    (setUsed db id used).record? requestId = db.record? requestId := by
  unfold setUsed
  cases db.sub? id <;> rfl

theorem refundStep_attempt {faults : RefundFaults} {t : RefundRun}
    (hr : s.db.record? requestId = some r)
    (ht : refundStep requestId s (.attempt faults) = some t) :
    t.db = (refundSubscriptionPreConsume faults requestId s.db).db ∧
      t.released = s.released +
        (usedOf s.db r.userSubscriptionId - usedOf t.db r.userSubscriptionId) := by
  simp only [refundStep, recordSub, hr, Option.map_some, Option.getD_some, Option.some.injEq] at ht
  rw [← ht]
  exact ⟨rfl, rfl⟩

/-- Each half-committed attempt releases the record's amount, and so does the attempt that marks the
record. -/
theorem refund_released {l : List RefundAction} {u : RefundRun}
    (hr : s.db.record? requestId = some r) (ha : 0 < r.preConsumed)
    (hcovered : Along (refundStep requestId) (Covered requestId) s l)
    (hrun : run (refundStep requestId) s l = some u) :
    ∃ r', u.db.record? requestId = some r' ∧ (r.status = .refunded → r'.status = .refunded) ∧
      u.released = s.released + halfCommitCount requestId s l * r.preConsumed +
        (if r.status = .consumed ∧ r'.status = .refunded then r.preConsumed else 0) := by
  induction l generalizing s r with
  | nil =>
    cases hrun
    refine ⟨r, hr, id, ?_⟩
    cases r.status <;> simp [halfCommitCount]
  | cons a l ih =>
    obtain ⟨t, ht, hu⟩ := run_cons_eq_some.1 hrun
    have hrest := hcovered.2 t ht
    cases a with
    | others used =>
      have hdb : t.db.record? requestId = some r := by
        cases ht
        exact (record?_setUsed _ _).trans hr
      have hreleased : t.released = s.released := by
        cases ht
        rfl
      obtain ⟨r', hr', hkeep, hrel⟩ := ih hdb ha hrest hu
      refine ⟨r', hr', hkeep, ?_⟩
      rw [hrel, hreleased]
      simp [halfCommitCount, ht]
    | attempt faults =>
      obtain ⟨hdb, hreleased⟩ := refundStep_attempt hr ht
      have hcount : halfCommitCount requestId s (.attempt faults :: l) =
          (if halfCommits faults requestId s.db then 1 else 0) + halfCommitCount requestId t l := by
        simp only [halfCommitCount, ht]
      rw [hcount]
      cases hstatus : r.status with
      | refunded =>
        obtain ⟨hno, hsame⟩ := refund_refunded hr hstatus
        rw [hsame] at hdb
        obtain ⟨r', hr', hkeep, hrel⟩ := ih (hdb ▸ hr) ha hrest hu
        refine ⟨r', hr', fun _ => hkeep hstatus, ?_⟩
        rw [hrel, hreleased, hdb, hno]
        simp [hstatus]
      | consumed =>
        rcases refund_consumed hr ha (hcovered.1 r hr hstatus) with
          ⟨hhalf, hrec, hused⟩ | ⟨hno, hsame⟩ | ⟨hno, hrec, hused⟩
        · rw [← hdb] at hrec hused
          obtain ⟨r', hr', -, hrel⟩ := ih hrec ha hrest hu
          refine ⟨r', hr', by simp, ?_⟩
          rw [hrel, hreleased, hhalf, hused, hstatus]
          push_cast
          simp only [if_true]
          ring
        · rw [hsame] at hdb
          obtain ⟨r', hr', -, hrel⟩ := ih (hdb ▸ hr) ha hrest hu
          refine ⟨r', hr', by simp, ?_⟩
          rw [hrel, hreleased, hno, hdb, hstatus]
          simp
        · rw [← hdb] at hrec hused
          obtain ⟨r', hr', hkeep, hrel⟩ := ih hrec ha hrest hu
          refine ⟨r', hr', by simp, ?_⟩
          rw [hrel, hreleased, hno, hused, hkeep rfl]
          simp
          ring

theorem halfCommitCount_eq_zero {l : List RefundAction} {u : RefundRun}
    (hrun : run (refundStep requestId) s l = some u) :
    halfCommitCount requestId s l = 0 ↔ Along (refundStep requestId) (NotHalfCommitted requestId) s l := by
  induction l generalizing s with
  | nil => simp [halfCommitCount, Along]
  | cons a l ih =>
    obtain ⟨t, ht, hu⟩ := run_cons_eq_some.1 hrun
    simp only [halfCommitCount, Along, ht, Option.some.injEq, forall_eq', Nat.add_eq_zero_iff, ih hu]
    refine and_congr_left fun _ => ?_
    cases a with
    | attempt faults => cases h : halfCommits faults requestId s.db <;> simp [NotHalfCommitted, h]
    | others used => simp [NotHalfCommitted]

/-- The attempts take the record's amount off the used amount once or never, and exactly once when
the record ends refunded, precisely when none of them is half-committed. -/
theorem refund_exactly_once_iff (requestId : String) (db : Db) (r : PreConsumeRecord)
    (l : List RefundAction) (u : RefundRun) (hr : db.record? requestId = some r)
    (hstatus : r.status = .consumed) (ha : 0 < r.preConsumed)
    (hcovered : Along (refundStep requestId) (Covered requestId) ⟨db, 0⟩ l)
    (hrun : run (refundStep requestId) ⟨db, 0⟩ l = some u) :
    ((u.released = 0 ∨ u.released = r.preConsumed) ∧
      (u.released = r.preConsumed ↔
        ∃ r', u.db.record? requestId = some r' ∧ r'.status = .refunded)) ↔
      Along (refundStep requestId) (NotHalfCommitted requestId) ⟨db, 0⟩ l := by
  obtain ⟨r', hr', -, hrel⟩ := refund_released (s := ⟨db, 0⟩) hr ha hcovered hrun
  rw [← halfCommitCount_eq_zero hrun]
  generalize halfCommitCount requestId ⟨db, 0⟩ l = k at hrel ⊢
  have hmany (hk : k ≠ 0) : r.preConsumed ≤ k * r.preConsumed := by
    have : (1 : Int) ≤ k := by omega
    nlinarith
  simp only [hr', Option.some.injEq, exists_eq_left']
  cases hend : r'.status with
  | consumed =>
    simp only [hstatus, hend, reduceCtorEq, and_false, if_false, iff_false] at hrel ⊢
    constructor
    · rintro ⟨h | h, hne⟩
      · by_contra hk
        have := hmany hk
        omega
      · exact absurd h hne
    · rintro rfl
      exact ⟨Or.inl (by simpa using hrel), by simp at hrel; omega⟩
  | refunded =>
    simp only [hstatus, hend, and_self, if_true, iff_true] at hrel ⊢
    constructor
    · rintro ⟨-, h⟩
      by_contra hk
      have := hmany hk
      omega
    · rintro rfl
      have : u.released = r.preConsumed := by simpa using hrel
      exact ⟨Or.inr this, this⟩

def refundExample : Db where
  subs := [⟨1, 7, 3, 100, 10, 0, 1000, .active, "order", 0, 0, true⟩]
  records := [⟨"r", 7, 1, 5, .consumed⟩]
  nextId := 2

theorem refund_exactly_once_retried :
    let l : List RefundAction :=
      [.attempt { inner := some "deadlock" }, .attempt {}, .others 8, .attempt {}]
    ∃ u, run (refundStep "r") ⟨refundExample, 0⟩ l = some u ∧ u.released = 5 ∧
      (((u.released = 0 ∨ u.released = 5) ∧
        (u.released = 5 ↔ ∃ r', u.db.record? "r" = some r' ∧ r'.status = .refunded)) ↔
        Along (refundStep "r") (NotHalfCommitted "r") ⟨refundExample, 0⟩ l) := by
  refine ⟨_, rfl, by decide, ?_⟩
  exact refund_exactly_once_iff "r" refundExample ⟨"r", 7, 1, 5, .consumed⟩ _ _ rfl rfl (by decide)
    (by decide) rfl

/-! ### `refundWithRetry` -/

def retryLoop (fn : Nat → Db → Outcome Unit) : Nat → Nat → Except Error Unit → Db → Outcome Unit
  | 0, _, lastErr, db => ⟨db, lastErr, []⟩
  | left + 1, i, _, db =>
    match (fn i db).result with
    | .ok () => fn i db
    | .error e => retryLoop fn left (i + 1) (.error e) (fn i db).db

/-- `refundWithRetry`; `fn i` is the call of turn `i`, with the failures it meets. -/
def refundWithRetry (fn : Nat → Db → Outcome Unit) (db : Db) : Outcome Unit :=
  retryLoop fn 3 0 (.ok ()) db

theorem retryLoop_run (faults : Nat → RefundFaults) (requestId : String) (left i : Nat)
    (lastErr : Except Error Unit) (s : RefundRun) :
    ∃ (l : List RefundFaults) (u : RefundRun), l.length ≤ left ∧
      run (refundStep requestId) s (l.map .attempt) = some u ∧
      u.db = (retryLoop (fun i => refundSubscriptionPreConsume (faults i) requestId) left i lastErr
        s.db).db := by
  induction left generalizing i lastErr s with
  | zero => exact ⟨[], s, le_refl _, rfl, rfl⟩
  | succ left ih =>
    rw [retryLoop]
    obtain ⟨t, ht⟩ : ∃ t, refundStep requestId s (.attempt (faults i)) = some t := ⟨_, rfl⟩
    have hdb : t.db = (refundSubscriptionPreConsume (faults i) requestId s.db).db := by
      simp only [refundStep, Option.some.injEq] at ht
      rw [← ht]
    cases (refundSubscriptionPreConsume (faults i) requestId s.db).result with
    | ok => exact ⟨[faults i], t, by simp, run_cons_eq_some.2 ⟨t, ht, rfl⟩, hdb⟩
    | error e =>
      obtain ⟨l, u, hlen, hrun, hu⟩ := ih (i + 1) (.error e) t
      refine ⟨faults i :: l, u, by simpa using hlen, run_cons_eq_some.2 ⟨t, ht, hrun⟩, ?_⟩
      rw [hu, hdb]

/-- A call of `refundWithRetry` is a run of at most three attempts. -/
theorem refundWithRetry_run (faults : Nat → RefundFaults) :
    ∃ (l : List RefundFaults) (u : RefundRun), l.length ≤ 3 ∧
      run (refundStep requestId) s (l.map .attempt) = some u ∧
      u.db = (refundWithRetry (fun i => refundSubscriptionPreConsume (faults i) requestId) s.db).db :=
  retryLoop_run faults requestId 3 0 (.ok ()) s

/-- The commit of the record fails once: the retry succeeds, and `10` are given back for a record of
`5`. -/
theorem refundWithRetry_twice :
    let faults : Nat → RefundFaults := fun i => if i = 0 then { commit := some "lost" } else {}
    let out := refundWithRetry (fun i => refundSubscriptionPreConsume (faults i) "r") refundExample
    out.result = .ok () ∧ out.db.record? "r" = some ⟨"r", 7, 1, 5, .refunded⟩ ∧
      usedOf refundExample 1 - usedOf out.db 1 = 10 := by
  decide

end TokenEra.Subscription
