import TokenEra.Lib.Run
import TokenEra.Subscription.Ledger

/-!
# Concurrent pre-consume calls for one request id

Any number of `PreConsumeUserSubscription` transactions with one request id, interleaved statement
by statement: the lookup of the record, the locking read of the user's active subscriptions (blocked
while another transaction holds one of the rows), the insert of the record (blocked while another
one's insert is uncommitted, a duplicate once it is committed), the lookup after a duplicate, and
the commit. What the lookup after a duplicate sees depends on the database (`Isolation`).

`grown` is what the calls added to each used amount, measured on the committed rows at each commit
against the committed rows with the resets of that commit. The invariant is that a transaction's
locked rows are the committed ones, and that there is one insert, committed or not. The result of
the call that inserted and of the calls that found the record first name the recorded subscription;
a call that meets a duplicate returns the candidate it chose itself.
-/

namespace TokenEra.Subscription.PreConsumeRace

open Lib

inductive Isolation
  /-- Every statement sees what is committed when it runs. -/
  | mysqlReadCommitted
  /-- Plain reads see the snapshot of the first one; locking reads see what is committed. -/
  | mysqlRepeatableRead
  /-- Read committed, but a failed statement aborts the transaction. -/
  | postgres
deriving DecidableEq, Repr

structure Calls (n : Nat) where
  env : Env
  isolation : Isolation
  turns : Nat
  requestId : String
  userId : Int
  now : Fin n → Int
  amount : Fin n → Int

inductive Phase
  | start
  /-- The lookup found a record; `seen` is the database it was read from. -/
  | found (existing : PreConsumeRecord) (seen : Db)
  | missing
  | locked (rows : List UserSubscription)
  /-- The insert for the chosen candidate failed. -/
  | duplicate (rows : List UserSubscription) (visit : Visit) (sub : UserSubscription)
  /-- The body returned: commit the reset rows, and the charged row with the record. -/
  | returning (rows saved : List UserSubscription) (charge : Option (UserSubscription × PreConsumeRecord))
      (result : PreConsumeResult)
  | done (result : Except Error PreConsumeResult)

def Phase.held : Phase → List UserSubscription
  | .locked rows => rows
  | .duplicate rows _ _ => rows
  | .returning rows _ _ _ => rows
  | _ => []

def Phase.inserted : Phase → Bool
  | .returning _ _ charge _ => charge.isSome
  | _ => false

structure State (n : Nat) where
  db : Db
  phase : Fin n → Phase
  grown : Int → Int

def initial (n : Nat) (db : Db) : State n := ⟨db, fun _ => .start, fun _ => 0⟩

inductive Action (n : Nat)
  | advance (i : Fin n)
  | abort (i : Fin n) (text : String)

variable {n : Nat} (c : Calls n)

def State.set (s : State n) (i : Fin n) (q : Phase) : State n :=
  { s with phase := Function.update s.phase i q }

def usedAfterReset (i : Fin n) (saved : List UserSubscription) (db : Db) (id : Int) : Int :=
  match db.sub? id with
  | none => 0
  | some x =>
    if id ∈ saved.map UserSubscription.id then (resetRow c.env c.turns (c.now i) x).2.amountUsed
    else x.amountUsed

def committed (db : Db) (saved : List UserSubscription) :
    Option (UserSubscription × PreConsumeRecord) → Db
  | none => db.saveSubs saved
  | some (charged, record) =>
    { (db.saveSubs saved).saveSub charged with records := db.records ++ [record] }

def commit (s : State n) (i : Fin n) (saved : List UserSubscription)
    (charge : Option (UserSubscription × PreConsumeRecord)) (result : PreConsumeResult) : State n where
  db := committed s.db saved charge
  phase := Function.update s.phase i (.done (.ok result))
  grown id := s.grown id +
    (usedOf (committed s.db saved charge) id - usedAfterReset c i saved s.db id)

/-- The next statement of a transaction; `none` while it is blocked or has ended. -/
def advance (s : State n) (i : Fin n) : Option (State n) :=
  match s.phase i with
  | .start =>
    some <| s.set i <|
      if c.userId ≤ 0 then .done (.error .invalidUserId)
      else if trimSpace c.requestId = "" then .done (.error .requestIdEmpty)
      else if c.amount i ≤ 0 then .done (.error .amountNotPositive)
      else
        match s.db.record? c.requestId with
        | some existing => .found existing s.db
        | none => .missing
  | .found existing seen =>
    some <| s.set i <|
      if existing.status = .refunded then .done (.error .alreadyRefunded)
      else
        let visible := if c.isolation = .mysqlRepeatableRead then seen else s.db
        match visible.sub? existing.userSubscriptionId with
        | none => .done (.error .recordNotFound)
        | some sub => .returning [] [] none (preConsumeResult sub existing.preConsumed 0)
  | .missing =>
    let rows := s.db.activeSubs c.userId (c.now i)
    if ∃ j, j ≠ i ∧ ∃ y ∈ (s.phase j).held, y.id ∈ rows.map UserSubscription.id then none
    else
      some <| s.set i <|
        if rows = [] then .done (.error .noActiveSubscription) else .locked rows
  | .locked rows =>
    match visitCandidates c.env c.turns (c.now i) (c.amount i) rows with
    | none => none
    | some (.error e) => some (s.set i (.done (.error e)))
    | some (.ok visit) =>
      match visit.chosen with
      | none => some (s.set i (.done (.error (.quotaInsufficient (c.amount i)))))
      | some sub =>
        if ∃ j, j ≠ i ∧ (s.phase j).inserted = true then none
        else
          some <| s.set i <|
            match s.db.record? c.requestId with
            | some _ => .duplicate rows visit sub
            | none =>
              .returning rows visit.saved
                (some ({ sub with amountUsed := sub.amountUsed + c.amount i },
                  ⟨c.requestId, c.userId, sub.id, c.amount i, .consumed⟩))
                (preConsumeResult sub (c.amount i) (c.amount i))
  | .duplicate rows visit sub =>
    some <| s.set i <|
      match c.isolation, s.db.record? c.requestId with
      | .mysqlReadCommitted, some dup =>
        if dup.status = .refunded then .done (.error .alreadyRefunded)
        else .returning rows visit.saved none (preConsumeResult sub dup.preConsumed 0)
      -- the snapshot was taken before the record was committed; after an error nothing can be read
      | _, _ => .done (.error (.db "duplicate request_id"))
  | .returning _ saved charge result => some (commit c s i saved charge result)
  | .done _ => none

def step (s : State n) : Action n → Option (State n)
  | .advance i => advance c s i
  | .abort i text =>
    match s.phase i with
    | .done _ => none
    | _ => some (s.set i (.done (.error (.db text))))

/-- When a transaction is about to choose and the record is committed, the first of its locked rows
with room for its amount, each row as it is after its reset, is the recorded subscription. Only
where the transaction could read that record later. -/
def SameCandidate (s : State n) : Action n → Prop
  | .advance i =>
    match s.phase i with
    | .locked rows =>
      c.isolation = .mysqlReadCommitted → ∀ dup ∈ s.db.record? c.requestId,
        ∀ x ∈ rows.find? (fun x => (resetRow c.env c.turns (c.now i) x).2.HasRoom (c.amount i)),
          x.id = dup.userSubscriptionId
    | _ => True
  | .abort _ _ => True

instance (s : State n) (a : Action n) : Decidable (SameCandidate c s a) := by
  unfold SameCandidate
  split
  · split <;> infer_instance
  · infer_instance

/-! ### The invariant -/

def Agrees (db : Db) (result : PreConsumeResult) : Prop :=
  ∃ record, db.record? c.requestId = some record ∧
    result.userSubscriptionId = record.userSubscriptionId ∧ result.preConsumed = record.preConsumed

def ResetOf (i : Fin n) (rows saved : List UserSubscription) : Prop :=
  ∃ xs : List UserSubscription, xs.Sublist rows ∧
    saved = xs.map fun x => (resetRow c.env c.turns (c.now i) x).2

def PhaseOk (db : Db) (i : Fin n) : Phase → Prop
  | .found existing _ => db.record? c.requestId = some existing
  | .duplicate rows visit sub =>
    ResetOf c i rows visit.saved ∧ ∃ record, db.record? c.requestId = some record ∧
      (c.isolation = .mysqlReadCommitted → sub.id = record.userSubscriptionId)
  | .returning rows saved none result => ResetOf c i rows saved ∧ Agrees c db result
  | .returning rows saved (some (charged, record)) result =>
    ResetOf c i rows saved ∧ ∃ sub ∈ saved,
      charged = { sub with amountUsed := sub.amountUsed + c.amount i } ∧
      record = ⟨c.requestId, c.userId, sub.id, c.amount i, .consumed⟩ ∧
      result = preConsumeResult sub (c.amount i) (c.amount i)
  | .done (.ok result) => Agrees c db result
  | _ => True

structure Inv (s : State n) : Prop where
  keyed : s.db.Keyed
  /-- Locked rows are the committed ones. -/
  current : ∀ i, ((s.phase i).held.map UserSubscription.id).Nodup ∧ ∀ x ∈ (s.phase i).held, x ∈ s.db.subs
  /-- No row is locked twice. -/
  exclusive : ∀ i j, i ≠ j → ∀ x ∈ (s.phase i).held, ∀ y ∈ (s.phase j).held, x.id ≠ y.id
  phases : ∀ i, PhaseOk c s.db i (s.phase i)
  /-- An uncommitted insert is the only one. -/
  inserted : ∀ i, (s.phase i).inserted = true →
    s.db.record? c.requestId = none ∧ ∀ j, j ≠ i → (s.phase j).inserted = false
  single : (s.db.records.filter fun r => r.requestId = c.requestId).length ≤ 1
  grown : ∀ id, s.grown id =
    match s.db.record? c.requestId with
    | none => 0
    | some record => if record.userSubscriptionId = id then record.preConsumed else 0

variable {c} {s : State n} {i : Fin n}

theorem Inv.set (h : Inv c s) {q : Phase}
    (hcurrent : (q.held.map UserSubscription.id).Nodup ∧ ∀ x ∈ q.held, x ∈ s.db.subs)
    (hexclusive : ∀ j, j ≠ i → ∀ x ∈ q.held, ∀ y ∈ (s.phase j).held, x.id ≠ y.id)
    (hphase : PhaseOk c s.db i q) (hinserted : q.inserted = true →
      s.db.record? c.requestId = none ∧ ∀ j, j ≠ i → (s.phase j).inserted = false) :
    Inv c (s.set i q) := by
  constructor
  case keyed => exact h.keyed
  case current =>
    exact (Function.forall_update_iff s.phase (p := fun _ (q : Phase) =>
      (q.held.map UserSubscription.id).Nodup ∧ ∀ x ∈ q.held, x ∈ s.db.subs)).2
      ⟨hcurrent, fun j _ => h.current j⟩
  case exclusive =>
    exact pairwise_update (R := fun p q : Phase => ∀ x ∈ p.held, ∀ y ∈ q.held, x.id ≠ y.id)
      (fun _ _ hpq x hx y hy => (hpq y hy x hx).symm) h.exclusive hexclusive
  case phases =>
    exact (Function.forall_update_iff s.phase (p := fun j (q : Phase) => PhaseOk c s.db j q)).2
      ⟨hphase, fun j _ => h.phases j⟩
  case inserted =>
    have hnone : ∀ j, ((s.set i q).phase j).inserted = true → s.db.record? c.requestId = none :=
      (Function.forall_update_iff s.phase (p := fun _ (q : Phase) => q.inserted = true →
        s.db.record? c.requestId = none)).2
        ⟨fun hq => (hinserted hq).1, fun j _ hj => (h.inserted j hj).1⟩
    have halone := pairwise_update (R := fun p q : Phase => p.inserted = true → q.inserted = false)
      (fun _ _ hpq hq => by
        by_contra hp
        rw [hpq (by simpa using hp)] at hq
        cases hq)
      (fun j k hjk hj => (h.inserted j hj).2 k hjk.symm) fun j hj hq => (hinserted hq).2 j hj
    exact fun j hj => ⟨hnone j hj, fun k hk => halone j k hk.symm hj⟩
  case single => exact h.single
  case grown => exact h.grown

theorem Inv.fail (h : Inv c s) (e : Error) : Inv c (s.set i (.done (.error e))) :=
  h.set (by simp [Phase.held]) (by simp [Phase.held]) trivial
    (by simp [Phase.inserted])

theorem Inv.keep (h : Inv c s) {q : Phase} (hheld : q.held = (s.phase i).held)
    (hphase : PhaseOk c s.db i q) (hinserted : q.inserted = true →
      s.db.record? c.requestId = none ∧ ∀ j, j ≠ i → (s.phase j).inserted = false) :
    Inv c (s.set i q) := by
  refine h.set ?_ (fun j hj => ?_) hphase hinserted
  · rw [hheld]
    exact h.current i
  · rw [hheld]
    exact h.exclusive i j hj.symm

/-! ### The commit -/

section

variable {db : Db} {rows saved : List UserSubscription}

theorem ResetOf.saved_mem (h : ResetOf c i rows saved) (hrows : ∀ x ∈ rows, x ∈ db.subs)
    {y : UserSubscription} (hy : y ∈ saved) : ∃ x ∈ rows, x ∈ db.subs ∧ x.id = y.id ∧
      y = (resetRow c.env c.turns (c.now i) x).2 := by
  obtain ⟨xs, hsub, rfl⟩ := h
  obtain ⟨x, hx, rfl⟩ := List.mem_map.1 hy
  exact ⟨x, hsub.subset hx, hrows x (hsub.subset hx), (resetRow_id ..).symm, rfl⟩

theorem ResetOf.saved_nodup (h : ResetOf c i rows saved)
    (hnodup : (rows.map UserSubscription.id).Nodup) : (saved.map UserSubscription.id).Nodup := by
  obtain ⟨xs, hsub, rfl⟩ := h
  rw [map_id_resetRow]
  exact map_id_nodup_of_sublist hsub hnodup

theorem ResetOf.sub?_saved (h : ResetOf c i rows saved) (hdb : db.Keyed)
    (hcurrent : (rows.map UserSubscription.id).Nodup ∧ ∀ x ∈ rows, x ∈ db.subs) {y : UserSubscription}
    (hy : y ∈ saved) : (db.saveSubs saved).sub? y.id = some y := by
  refine sub?_saveSubs hdb (h.saved_nodup hcurrent.1) hy ?_
  obtain ⟨x, -, hx, hid, -⟩ := h.saved_mem hcurrent.2 hy
  rw [← hid]
  exact List.mem_map_of_mem hx

theorem ResetOf.usedOf_saved (h : ResetOf c i rows saved) (hdb : db.Keyed)
    (hcurrent : (rows.map UserSubscription.id).Nodup ∧ ∀ x ∈ rows, x ∈ db.subs) (id : Int) :
    usedOf (db.saveSubs saved) id = usedAfterReset c i saved db id := by
  unfold usedAfterReset
  by_cases hid : id ∈ saved.map UserSubscription.id
  · obtain ⟨y, hy, rfl⟩ := List.mem_map.1 hid
    obtain ⟨x, -, hx, hxy, hreset⟩ := h.saved_mem hcurrent.2 hy
    rw [usedOf, h.sub?_saved hdb hcurrent hy, ← hxy, sub?_of_mem hdb hx, hxy]
    simp only [if_pos hid, ← hreset]
    rfl
  · have hsame : (db.saveSubs saved).sub? id = db.sub? id :=
      findRow_saveRows_of_ne fun y hy heq => hid (heq ▸ List.mem_map_of_mem hy)
    rw [usedOf, hsame]
    cases db.sub? id with
    | none => rfl
    | some x =>
      simp only [if_neg hid]
      rfl

theorem ResetOf.usedOf_charged (h : ResetOf c i rows saved) (hdb : db.Keyed)
    (hcurrent : (rows.map UserSubscription.id).Nodup ∧ ∀ x ∈ rows, x ∈ db.subs)
    {sub charged : UserSubscription} {amount : Int} (hsub : sub ∈ saved)
    (hcharged : charged = { sub with amountUsed := sub.amountUsed + amount }) (id : Int) :
    usedOf ((db.saveSubs saved).saveSub charged) id =
      usedAfterReset c i saved db id + (if sub.id = id then amount else 0) := by
  have hrow := h.sub?_saved hdb hcurrent hsub
  have hcid : charged.id = sub.id := by rw [hcharged]
  rw [← h.usedOf_saved hdb hcurrent id]
  by_cases hid : sub.id = id
  · subst hid
    rw [usedOf_saveSub hrow hcid, usedOf, hrow, if_pos rfl, hcharged]
    rfl
  · rw [usedOf_saveSub_of_ne (fun heq => hid (heq.trans hcid).symm), if_neg hid, add_zero]

/-- Rows that another transaction holds survive the commit. -/
theorem ResetOf.mem_committed (h : ResetOf c i rows saved)
    {charge : Option (UserSubscription × PreConsumeRecord)}
    (hcharge : ∀ p ∈ charge, ∃ sub ∈ saved, p.1.id = sub.id) {z : UserSubscription} (hz : z ∈ db.subs)
    (hne : ∀ x ∈ rows, z.id ≠ x.id) : z ∈ (committed db saved charge).subs := by
  obtain ⟨xs, hsub, rfl⟩ := h
  have hother : ∀ y ∈ xs.map (fun x => (resetRow c.env c.turns (c.now i) x).2), z.id ≠ y.id := by
    intro y hy
    obtain ⟨x, hx, rfl⟩ := List.mem_map.1 hy
    rw [resetRow_id]
    exact hne x (hsub.subset hx)
  have hsaved : z ∈ (db.saveSubs (xs.map fun x => (resetRow c.env c.turns (c.now i) x).2)).subs :=
    mem_saveRows_of_ne hz hother
  cases charge with
  | none => exact hsaved
  | some p =>
    obtain ⟨sub, hin, hid⟩ := hcharge p rfl
    exact mem_saveRow_of_ne hsaved (hid ▸ hother sub hin)

theorem committed_ids (charge : Option (UserSubscription × PreConsumeRecord)) :
    (committed db saved charge).subs.map UserSubscription.id = db.subs.map UserSubscription.id := by
  cases charge with
  | none => exact map_key_saveRows saved db.subs
  | some p => exact (map_key_saveRow p.1 _).trans (map_key_saveRows saved db.subs)

end

theorem phaseOk_congr {db db' : Db} {q : Phase} (hrecord : db'.record? c.requestId = db.record? c.requestId)
    (h : PhaseOk c db i q) : PhaseOk c db' i q := by
  unfold PhaseOk Agrees at *
  rwa [hrecord]

/-- Before there is a record, only the transaction that inserted it knows anything. -/
theorem phaseOk_of_none {db : Db} {q : Phase} (hnone : db.record? c.requestId = none)
    (hinserted : q.inserted = false) (h : PhaseOk c db i q) (db' : Db) : PhaseOk c db' i q := by
  cases q with
  | found existing seen => simp [PhaseOk, hnone] at h
  | duplicate rows visit sub => simp [PhaseOk, hnone] at h
  | returning rows saved charge result =>
    cases charge with
    | none => simp [PhaseOk, Agrees, hnone] at h
    | some p => simp [Phase.inserted] at hinserted
  | done result =>
    cases result with
    | error e => trivial
    | ok result => simp [PhaseOk, Agrees, hnone] at h
  | start => trivial
  | missing => trivial
  | locked rows => trivial

section

variable {rows saved : List UserSubscription} {charge : Option (UserSubscription × PreConsumeRecord)}
  {result : PreConsumeResult}

theorem commit_phase_self : (commit c s i saved charge result).phase i = .done (.ok result) :=
  Function.update_self ..

theorem commit_phase_of_ne {j : Fin n} (hj : j ≠ i) :
    (commit c s i saved charge result).phase j = s.phase j :=
  Function.update_of_ne hj _ _

/-- A commit keeps the ids, and the rows that other transactions hold. -/
theorem Inv.commit_rows (h : Inv c s) (hphase : s.phase i = .returning rows saved charge result)
    (hreset : ResetOf c i rows saved) (hcharge : ∀ p ∈ charge, ∃ sub ∈ saved, p.1.id = sub.id) :
    (commit c s i saved charge result).db.Keyed ∧
    (∀ j, (((commit c s i saved charge result).phase j).held.map UserSubscription.id).Nodup ∧
      ∀ x ∈ ((commit c s i saved charge result).phase j).held,
        x ∈ (commit c s i saved charge result).db.subs) ∧
    ∀ j k, j ≠ k → ∀ x ∈ ((commit c s i saved charge result).phase j).held,
      ∀ y ∈ ((commit c s i saved charge result).phase k).held, x.id ≠ y.id := by
  have hother : ∀ j, j ≠ i → ∀ x ∈ (s.phase j).held, ∀ y ∈ rows, x.id ≠ y.id := fun j hj x hx y hy =>
    h.exclusive j i hj x hx y (by rwa [hphase])
  refine ⟨h.keyed.of_ids (committed_ids charge) (by cases charge <;> rfl), fun j => ?_,
    fun j k hjk x hx y hy => ?_⟩
  · by_cases hj : j = i
    · subst hj
      rw [commit_phase_self]
      simp [Phase.held]
    · rw [commit_phase_of_ne hj]
      refine ⟨(h.current j).1, fun x hx => ?_⟩
      exact hreset.mem_committed hcharge ((h.current j).2 x hx) (hother j hj x hx)
  · by_cases hj : j = i
    · subst hj
      simp [commit_phase_self, Phase.held] at hx
    by_cases hk : k = i
    · subst hk
      simp [commit_phase_self, Phase.held] at hy
    rw [commit_phase_of_ne hj] at hx
    rw [commit_phase_of_ne hk] at hy
    exact h.exclusive j k hjk x hx y hy

theorem Inv.commit_resets (h : Inv c s) (hphase : s.phase i = .returning rows saved none result) :
    Inv c (commit c s i saved none result) := by
  have hok := h.phases i
  have hcurrent := h.current i
  rw [hphase] at hok hcurrent
  obtain ⟨hreset, hagrees⟩ := hok
  obtain ⟨hkeyed, hcurrent', hexclusive⟩ := h.commit_rows hphase hreset (by simp)
  refine ⟨hkeyed, hcurrent', hexclusive, fun j => ?_, fun j hj => ?_, h.single, fun id => ?_⟩
  · by_cases hj : j = i
    · subst hj
      rw [commit_phase_self]
      exact hagrees
    · rw [commit_phase_of_ne hj]
      exact phaseOk_congr rfl (h.phases j)
  · by_cases hji : j = i
    · subst hji
      simp [commit_phase_self, Phase.inserted] at hj
    · rw [commit_phase_of_ne hji] at hj
      refine ⟨(h.inserted j hj).1, fun k hk => ?_⟩
      by_cases hki : k = i
      · subst hki
        rw [commit_phase_self]
        rfl
      · rw [commit_phase_of_ne hki]
        exact (h.inserted j hj).2 k hk
  · have hsame : usedOf (committed s.db saved none) id = usedAfterReset c i saved s.db id :=
      hreset.usedOf_saved h.keyed hcurrent id
    simp only [commit, hsame, sub_self, add_zero]
    exact h.grown id

theorem Inv.commit_charge (h : Inv c s) {charged : UserSubscription} {record : PreConsumeRecord}
    (hphase : s.phase i = .returning rows saved (some (charged, record)) result) :
    Inv c (commit c s i saved (some (charged, record)) result) := by
  have hok := h.phases i
  have hcurrent := h.current i
  rw [hphase] at hok hcurrent
  obtain ⟨hreset, sub, hsub, hcharged, hrecord, hresult⟩ := hok
  obtain ⟨hnone, hothers⟩ := h.inserted i (by rw [hphase]; rfl)
  obtain ⟨hkeyed, hcurrent', hexclusive⟩ := h.commit_rows hphase hreset (by
    rintro p ⟨⟩
    exact ⟨sub, hsub, by rw [hcharged]⟩)
  have hnew : (commit c s i saved (some (charged, record)) result).db.record? c.requestId = some record := by
    have hkey : record.requestId = c.requestId := by rw [hrecord]
    rw [← hkey] at hnone ⊢
    exact findRow_append_one hnone
  refine ⟨hkeyed, hcurrent', hexclusive, fun j => ?_, fun j hj => ?_, ?_, fun id => ?_⟩
  · by_cases hj : j = i
    · subst hj
      rw [commit_phase_self]
      refine ⟨record, hnew, ?_, ?_⟩
      · rw [hresult, hrecord]
        rfl
      · rw [hresult, hrecord]
        rfl
    · rw [commit_phase_of_ne hj]
      exact phaseOk_of_none hnone (hothers j hj) (h.phases j) _
  · by_cases hji : j = i
    · subst hji
      simp [commit_phase_self, Phase.inserted] at hj
    · rw [commit_phase_of_ne hji, hothers j hji] at hj
      cases hj
  · have hempty : s.db.records.filter (fun r => r.requestId = c.requestId) = [] :=
      List.filter_eq_nil_iff.2 fun r hr => by simpa using findRow_eq_none hnone r hr
    simp only [commit, committed, List.filter_append, hempty, List.nil_append]
    exact (List.length_filter_le _ _).trans (by simp)
  · rw [hnew]
    have hgrown := h.grown id
    rw [hnone] at hgrown
    have hused : usedOf (committed s.db saved (some (charged, record))) id = _ :=
      hreset.usedOf_charged h.keyed hcurrent hsub hcharged id
    simp only [commit, hgrown, hused]
    rw [hrecord]
    simp only
    omega

end

/-! ### Runs -/

theorem visit_resetOf {rows : List UserSubscription} {visit : Visit} {sub : UserSubscription}
    (hvisit : visitCandidates c.env c.turns (c.now i) (c.amount i) rows = some (.ok visit))
    (hchosen : visit.chosen = some sub) : ResetOf c i rows visit.saved ∧ sub ∈ visit.saved ∧
      ∃ x, rows.find? (fun x => (resetRow c.env c.turns (c.now i) x).2.HasRoom (c.amount i)) = some x ∧
        sub.id = x.id := by
  obtain ⟨xs, hsub, hsaved, -, hcharge⟩ := visitCandidates_spec hvisit
  obtain ⟨hin, -, x, hfirst, rfl⟩ := hcharge sub hchosen
  exact ⟨⟨xs, hsub, hsaved⟩, hin, x, hfirst, resetRow_id ..⟩

theorem advance_inv {t : State n} (h : Inv c s) (hsame : SameCandidate c s (.advance i))
    (ht : advance c s i = some t) : Inv c t := by
  unfold advance at ht
  cases hphase : s.phase i with
  | start =>
    simp only [hphase] at ht
    cases ht
    split_ifs
    · exact h.fail _
    · exact h.fail _
    · exact h.fail _
    cases hrecord : s.db.record? c.requestId with
    | none => exact h.keep (by rw [hphase]; rfl) trivial (by simp [Phase.inserted])
    | some existing => exact h.keep (by rw [hphase]; rfl) hrecord (by simp [Phase.inserted])
  | found existing seen =>
    have hok := h.phases i
    rw [hphase] at hok
    simp only [hphase] at ht
    cases ht
    split_ifs
    · exact h.fail _
    all_goals
      split
      · exact h.fail _
      · rename_i sub hsub
        refine h.keep (by rw [hphase]; rfl) ⟨⟨[], by simp, rfl⟩, existing, hok, ?_, rfl⟩
          (by simp [Phase.inserted])
        exact (sub?_mem hsub).2
  | missing =>
    simp only [hphase] at ht
    split_ifs at ht with hblocked hempty <;> cases ht
    · exact h.fail _
    · obtain ⟨hnodup, hmem⟩ := activeSubs_spec h.keyed c.userId (c.now i)
      refine h.set ⟨hnodup, fun x hx => (hmem x hx).1⟩ (fun j hj x hx y hy heq => ?_) trivial
        (by simp [Phase.inserted])
      exact hblocked ⟨j, hj, y, hy, heq ▸ List.mem_map_of_mem hx⟩
  | locked rows =>
    simp only [hphase] at ht
    cases hvisit : visitCandidates c.env c.turns (c.now i) (c.amount i) rows with
    | none => simp [hvisit] at ht
    | some r =>
      cases r with
      | error e =>
        simp only [hvisit] at ht
        cases ht
        exact h.fail e
      | ok visit =>
        cases hchosen : visit.chosen with simp only [hvisit, hchosen] at ht
        | none =>
          cases ht
          exact h.fail _
        | some sub =>
          split_ifs at ht with hblocked
          cases ht
          obtain ⟨hreset, hsub, first, hfirst, hid⟩ := visit_resetOf hvisit hchosen
          cases hrecord : s.db.record? c.requestId with
          | some record =>
            simp only [SameCandidate, hphase] at hsame
            exact h.keep (by rw [hphase]; rfl) ⟨hreset, record, hrecord, fun hisolation =>
              hid.trans (hsame hisolation record hrecord first hfirst)⟩ (by simp [Phase.inserted])
          | none =>
            refine h.keep (by rw [hphase]; rfl) ⟨hreset, sub, hsub, rfl, rfl, rfl⟩ fun _ => ?_
            refine ⟨hrecord, fun j hj => ?_⟩
            by_contra hins
            exact hblocked ⟨j, hj, by simpa using hins⟩
  | duplicate rows visit sub =>
    have hok := h.phases i
    rw [hphase] at hok
    obtain ⟨hreset, record, hrecord, hid⟩ := hok
    simp only [hphase] at ht
    cases ht
    split
    · rename_i dup hisolation hdup
      obtain rfl : record = dup := Option.some.inj (hrecord.symm.trans hdup)
      split_ifs
      · exact h.fail _
      · exact h.keep (by rw [hphase]; rfl) ⟨hreset, record, hrecord, hid hisolation, rfl⟩
          (by simp [Phase.inserted])
    · exact h.fail _
  | returning rows saved charge result =>
    simp only [hphase] at ht
    cases ht
    cases charge with
    | none => exact h.commit_resets hphase
    | some p => exact h.commit_charge hphase
  | done result => simp [hphase] at ht

theorem step_inv {t : State n} {a : Action n} (h : Inv c s) (hsame : SameCandidate c s a)
    (ht : step c s a = some t) : Inv c t := by
  cases a with
  | advance i => exact advance_inv h hsame ht
  | abort i text =>
    simp only [step] at ht
    split at ht <;> cases ht
    · exact h.fail _

/-- In every interleaving in which the rows that a call locks after the record is committed lead it
to the recorded subscription, there is at most one record, every call that succeeded returned its
subscription and amount, and the used amounts grew by that amount, once. -/
theorem preConsume_idempotent (c : Calls n) (db : Db) (hdb : db.Keyed)
    (hfresh : db.record? c.requestId = none) (l : List (Action n)) (s : State n)
    (hsame : Along (step c) (SameCandidate c) (initial n db) l)
    (hrun : run (step c) (initial n db) l = some s) :
    (s.db.records.filter fun r => r.requestId = c.requestId).length ≤ 1 ∧
    (∀ i result, s.phase i = .done (.ok result) →
      ∃ record, s.db.record? c.requestId = some record ∧
        result.userSubscriptionId = record.userSubscriptionId ∧
        result.preConsumed = record.preConsumed) ∧
    ∀ id, s.grown id =
      match s.db.record? c.requestId with
      | none => 0
      | some record => if record.userSubscriptionId = id then record.preConsumed else 0 := by
  have hempty : db.records.filter (fun r => r.requestId = c.requestId) = [] :=
    List.filter_eq_nil_iff.2 fun r hr => by simpa using findRow_eq_none hfresh r hr
  have hinv : Inv c s := by
    refine run_inv_along (fun s a t hs hc ht => step_inv hs hc ht) ?_ hsame hrun
    refine ⟨hdb, by simp [initial, Phase.held], by simp [initial, Phase.held],
      fun i => trivial, by simp [initial, Phase.inserted], by simp [initial, hempty], fun id => ?_⟩
    simp [initial, hfresh]
  refine ⟨hinv.single, fun i result hdone => ?_, hinv.grown⟩
  have hok := hinv.phases i
  rwa [hdone] at hok

def twoCalls : Calls 2 where
  env := { loc := .fixed 0, plans := [{ id := 3, durationUnit := .day, durationValue := 1 }] }
  isolation := .mysqlReadCommitted
  turns := 0
  requestId := "r"
  userId := 7
  now _ := 1000
  amount _ := 60

def bothMissing (i j : Fin 2) : List (Action 2) :=
  [.advance i, .advance j, .advance i, .advance i, .advance i, .advance j, .advance j, .advance j, .advance j]

def limitedSub : UserSubscription := ⟨1, 7, 3, 100, 0, 0, 5000, .active, "order", 0, 0, true⟩

def unlimitedSub : UserSubscription := ⟨2, 7, 3, 0, 0, 0, 9000, .active, "order", 0, 0, true⟩

theorem preConsume_idempotent_one_sub :
    ∃ s, run (step twoCalls) (initial 2 { subs := [unlimitedSub], nextId := 3 }) (bothMissing 0 1) = some s ∧
      s.phase 1 = .done (.ok ⟨2, 60, 0, 60, 60⟩) ∧ s.grown 2 = 60 ∧
      ∀ i result, s.phase i = .done (.ok result) →
        ∃ record, s.db.record? "r" = some record ∧
          result.userSubscriptionId = record.userSubscriptionId ∧
          result.preConsumed = record.preConsumed :=
  ⟨_, rfl, rfl, by decide, (preConsume_idempotent twoCalls { subs := [unlimitedSub], nextId := 3 }
    ⟨by decide, by decide⟩ (by decide) (bothMissing 0 1) _ (by decide) rfl).2.1⟩

/-- The first call leaves `40` units on the limited subscription, so the second one chooses the
unlimited one, meets the record, and returns the subscription it chose. -/
theorem preConsume_other_candidate :
    ∃ s, run (step twoCalls) (initial 2 { subs := [limitedSub, unlimitedSub], nextId := 3 }) (bothMissing 0 1) =
        some s ∧
      s.phase 0 = .done (.ok ⟨1, 60, 100, 0, 60⟩) ∧ s.phase 1 = .done (.ok ⟨2, 60, 0, 0, 0⟩) ∧
      s.db.record? "r" = some ⟨"r", 7, 1, 60, .consumed⟩ :=
  ⟨_, rfl, rfl, rfl, by decide⟩

end TokenEra.Subscription.PreConsumeRace
