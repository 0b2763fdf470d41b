import TokenEra.Lib.Run

/-!
# The lock of the second factor

Calls of `ValidateTOTPAndUpdateUsage` and `ValidateBackupCodeAndUpdateUsage` on one record,
interleaved at the load of the record, the lock check, the code check, and the statements that
update the counter. The outcome of a code check is any; the clock does not go back.

The lock check is made on the record that the caller loaded. If the record has changed since, or
another call has failed its check and has not counted it yet, more codes are checked than the
counter allows (`unbounded_guesses`). `Fresh` says that neither is so when a code is checked, and
then guessing is bounded: `guesses_bounded`.
-/

namespace TokenEra.TwoFA.Lockout

open Lib

def maxFailAttempts : Nat := 5

def lockoutDuration : Int := 300

def maxUpdateRetries : Nat := 5

/-- The columns of the record that change, with times in seconds. -/
structure Record where
  failedAttempts : Nat
  lockedUntil : Option Int
  lastUsedAt : Option Int
deriving DecidableEq, Repr

def Record.isLocked (r : Record) (now : Int) : Bool :=
  match r.lockedUntil with
  | none => false
  | some lockedUntil => now < lockedUntil

inductive Kind
  | validateTOTPAndUpdateUsage
  | validateBackupCodeAndUpdateUsage
deriving DecidableEq, Repr

/-- The outcome of a code check. A recovery code that is malformed is an error, and no code is
checked. -/
inductive Outcome
  | valid
  | invalid
  | malformed
deriving DecidableEq, Repr

inductive CallError
  | locked
  | malformed
deriving DecidableEq, Repr

inductive Phase
  | start
  | loaded (record : Record)
  | unlocked (record : Record)
  /-- The code is invalid; `IncrementFailedAttempts` has this many tries left. -/
  | invalid (left : Nat)
  | counting (left : Nat) (current : Record) (now : Int)
  /-- The code is valid; whether the stored record was locked when it was checked. -/
  | valid (whileLocked : Bool)
  | done (result : Except CallError Bool)
deriving DecidableEq

/-- The code has been checked, and the record does not show it yet. -/
def Phase.settling : Phase → Bool
  | .invalid _ | .counting .. | .valid _ => true
  | _ => false

structure State (n : Nat) where
  record : Record
  now : Int
  phase : Fin n → Phase
  /-- A lock has been stored since the start. -/
  lockStored : Bool
  /-- The number of codes checked before that. -/
  checksBeforeLock : Nat
  /-- The number of codes checked while the stored record was locked. -/
  checksWhileLocked : Nat
  /-- The number of locks removed before their expiry by a call that checked its code while the
  record was locked. -/
  wrongUnlocks : Nat
  succeeded : Bool

inductive Action (n : Nat)
  | load (i : Fin n)
  | checkLock (i : Fin n) (now : Int)
  | checkCode (i : Fin n) (now : Int) (outcome : Outcome)
  | readCurrent (i : Fin n) (now : Int)
  | increment (i : Fin n)
  | updateUsageState (i : Fin n) (now : Int)
deriving DecidableEq

variable {n : Nat} (kind : Fin n → Kind)

def init (record : Record) (now : Int) : State n where
  record := record
  now := now
  phase _ := .start
  lockStored := false
  checksBeforeLock := 0
  checksWhileLocked := 0
  wrongUnlocks := 0
  succeeded := false

def State.set (s : State n) (i : Fin n) (now : Int) (q : Phase) : State n :=
  { s with now := now, phase := Function.update s.phase i q }

/-! ### The steps -/

def checkLock (record : Record) (now : Int) : Phase :=
  if record.isLocked now then .done (.error .locked) else .unlocked record

def afterCheck (whileLocked : Bool) : Outcome → Phase
  | .valid => .valid whileLocked
  | .invalid => .invalid maxUpdateRetries
  | .malformed => .done (.error .malformed)

def State.countCheck (s : State n) (now : Int) : State n :=
  { s with
    checksBeforeLock := if s.lockStored then s.checksBeforeLock else s.checksBeforeLock + 1
    checksWhileLocked := if s.record.isLocked now then s.checksWhileLocked + 1 else s.checksWhileLocked }

def checkCode (s : State n) (i : Fin n) (now : Int) (outcome : Outcome) : Option (State n) :=
  match outcome with
  | .malformed =>
    if kind i = .validateBackupCodeAndUpdateUsage then some (s.set i now (.done (.error .malformed))) else none
  | _ => some ((s.countCheck now).set i now (afterCheck (s.record.isLocked now) outcome))

def readCurrent (current : Record) (left : Nat) (now : Int) : Phase :=
  if current.isLocked now then .done (.ok false) else .counting left current now

def nextRecord (record current : Record) (now : Int) : Record :=
  { record with
    failedAttempts := current.failedAttempts + 1
    lockedUntil :=
      if maxFailAttempts ≤ current.failedAttempts + 1 then some (now + lockoutDuration) else current.lockedUntil }

def mayIncrement (record current : Record) (now : Int) : Bool :=
  record.failedAttempts = current.failedAttempts && !record.isLocked now

/-- The conditional update: when it changes no row, the next round, and in the end an error that is
only logged. -/
def increment (s : State n) (i : Fin n) (left : Nat) (current : Record) (now : Int) : State n :=
  if mayIncrement s.record current now then
    { s.set i s.now (.done (.ok false)) with
      record := nextRecord s.record current now
      lockStored := s.lockStored || decide (maxFailAttempts ≤ current.failedAttempts + 1) }
  else if left ≤ 1 then s.set i s.now (.done (.ok false))
  else s.set i s.now (.invalid (left - 1))

/-- The call succeeds: the counter and the lock are reset, whatever they are. -/
def updateUsageState (s : State n) (i : Fin n) (now : Int) (whileLocked : Bool) : State n :=
  { s.set i now (.done (.ok true)) with
    record := ⟨0, none, some now⟩
    wrongUnlocks := if s.record.isLocked now ∧ whileLocked then s.wrongUnlocks + 1 else s.wrongUnlocks
    succeeded := true }

def step (s : State n) : Action n → Option (State n)
  | .load i => if s.phase i = .start then some (s.set i s.now (.loaded s.record)) else none
  | .checkLock i now =>
    match s.phase i with
    | .loaded r => if s.now ≤ now then some (s.set i now (checkLock r now)) else none
    | _ => none
  | .checkCode i now outcome =>
    match s.phase i with
    | .unlocked _ => if s.now ≤ now then checkCode kind s i now outcome else none
    | _ => none
  | .readCurrent i now =>
    match s.phase i with
    | .invalid left => if s.now ≤ now then some (s.set i now (readCurrent s.record left now)) else none
    | _ => none
  | .increment i =>
    match s.phase i with
    | .counting left current now => some (increment s i left current now)
    | _ => none
  | .updateUsageState i now =>
    match s.phase i with
    | .valid whileLocked => if s.now ≤ now then some (updateUsageState s i now whileLocked) else none
    | _ => none

/-! ### Guessing is bounded -/

/-- If no call has succeeded, no more codes than allowed have been checked before the record was
locked, and none while it was; and no lock was removed early by a call that checked its code under
the lock. -/
def GuessesBounded (s : State n) : Prop :=
  (s.succeeded = false → s.checksBeforeLock ≤ maxFailAttempts ∧ s.checksWhileLocked = 0) ∧ s.wrongUnlocks = 0

/-- A code is checked only while the record is as the call loaded it and no other call has a checked
code that the record does not show yet. -/
def Fresh (s : State n) : Action n → Prop
  | .checkCode i _ _ => s.phase i = .unlocked s.record ∧ ∀ j, (s.phase j).settling = false
  | _ => True

instance (s : State n) (a : Action n) : Decidable (Fresh s a) :=
  match a with
  | .checkCode .. => inferInstanceAs (Decidable (_ ∧ _))
  | .load .. | .checkLock .. | .readCurrent .. | .increment .. | .updateUsageState .. => .isTrue trivial

/-- The number of calls whose code is checked but not settled, which is one at most. -/
def State.pending (s : State n) : Nat := if ∃ i, (s.phase i).settling = true then 1 else 0

def PhaseOk (record : Record) (now : Int) : Phase → Prop
  | .unlocked r => r.isLocked now = false
  | .invalid left => record.isLocked now = false ∧ 1 ≤ left
  | .counting _ current t =>
    record.isLocked now = false ∧ record.isLocked t = false ∧ current.failedAttempts = record.failedAttempts ∧
      current.lockedUntil = record.lockedUntil
  | .valid whileLocked => whileLocked = false
  | _ => True

def Apart (p q : Phase) : Prop := ¬ (p.settling = true ∧ q.settling = true)

/-- The codes checked before the first lock are counted in the record, except the pending one. -/
structure Counted (s : State n) : Prop where
  counted : s.checksBeforeLock ≤ s.record.failedAttempts + s.pending
  below : s.checksBeforeLock ≤ s.pending ∨ s.record.failedAttempts < maxFailAttempts

structure Inv (s : State n) : Prop where
  phases : ∀ i, PhaseOk s.record s.now (s.phase i)
  one : ∀ i j, i ≠ j → Apart (s.phase i) (s.phase j)
  counted : s.succeeded = false → s.lockStored = false → Counted s
  bound : s.succeeded = false → s.checksBeforeLock ≤ maxFailAttempts
  none_locked : s.checksWhileLocked = 0
  no_unlock : s.wrongUnlocks = 0

variable {kind}

theorem inv_init (record : Record) (now : Int) : Inv (init (n := n) record now) where
  phases _ := trivial
  one _ _ _ h := by cases h.1
  counted _ _ := ⟨Nat.zero_le _, .inl (Nat.zero_le _)⟩
  bound _ := Nat.zero_le _
  none_locked := rfl
  no_unlock := rfl

theorem Record.isLocked_mono {r : Record} {t now : Int} (h : r.isLocked t = false) (hle : t ≤ now) :
    r.isLocked now = false := by
  unfold Record.isLocked at h ⊢
  split
  · rfl
  · rename_i u hu
    rw [hu] at h
    simp only [decide_eq_false_iff_not, not_lt] at h ⊢
    omega

theorem PhaseOk.later {record : Record} {t now : Int} {p : Phase} (h : PhaseOk record t p) (hle : t ≤ now) :
    PhaseOk record now p := by
  cases p with
  | unlocked r => exact Record.isLocked_mono h hle
  | invalid left => exact ⟨Record.isLocked_mono h.1 hle, h.2⟩
  | counting left current t' => exact ⟨Record.isLocked_mono h.1 hle, h.2⟩
  | valid whileLocked => exact h
  | start | loaded | done => trivial

/-- What holds of a call that has nothing to settle does not depend on the stored record. -/
theorem PhaseOk.of_not_settling {record record' : Record} {now : Int} {p : Phase} (h : PhaseOk record now p)
    (hp : p.settling = false) : PhaseOk record' now p := by
  cases p with
  | unlocked r => exact h
  | start | loaded | done => trivial
  | invalid | counting | valid => cases hp

theorem pending_eq_one {s : State n} {i : Fin n} (h : (s.phase i).settling = true) : s.pending = 1 :=
  if_pos ⟨i, h⟩

theorem pending_eq_zero {s : State n} (h : ∀ i, (s.phase i).settling = false) : s.pending = 0 :=
  if_neg fun ⟨i, hi⟩ => by
    rw [h i] at hi
    cases hi

theorem pending_set {s : State n} {i : Fin n} {now : Int} {q : Phase} (hq : q.settling = (s.phase i).settling) :
    (s.set i now q).pending = s.pending := by
  have hsame : ∀ j, ((s.set i now q).phase j).settling = (s.phase j).settling := by
    intro j
    by_cases hj : j = i
    · subst hj
      simpa [State.set] using hq
    · simp [State.set, hj]
  simp only [State.pending, hsame]

theorem Inv.others {s : State n} (h : Inv s) {i : Fin n} (hi : (s.phase i).settling = true) (j : Fin n) (hj : j ≠ i) :
    (s.phase j).settling = false := by
  have hone : OneInside Phase.settling s.phase := h.one
  exact hone.others hi j hj

theorem Inv.settled_others {s : State n} (h : Inv s) {i : Fin n} (hi : (s.phase i).settling = true)
    (r : Except CallError Bool) (j : Fin n) : (Function.update s.phase i (.done r) j).settling = false := by
  exact (Function.forall_update_iff s.phase (p := fun _ (q : Phase) => q.settling = false)).2 ⟨rfl, h.others hi⟩ j

theorem phases_set {s : State n} (h : Inv s) {i : Fin n} {now : Int} {q : Phase} (hnow : s.now ≤ now)
    (hq : PhaseOk s.record now q) (j : Fin n) : PhaseOk s.record now (Function.update s.phase i q j) := by
  exact (Function.forall_update_iff s.phase fun _ => PhaseOk s.record now).2
    ⟨hq, fun j _ => (h.phases j).later hnow⟩ j

theorem Inv.set {s : State n} (h : Inv s) {i : Fin n} {now : Int} {q : Phase} (hnow : s.now ≤ now)
    (hq : PhaseOk s.record now q) (hsame : q.settling = (s.phase i).settling) : Inv (s.set i now q) := by
  refine ⟨phases_set h hnow hq, ?_, ?_, h.bound, h.none_locked, h.no_unlock⟩
  · have hone : OneInside Phase.settling s.phase := h.one
    exact hone.update fun hq => hone.others (hsame ▸ hq)
  · intro hsucc hlock
    obtain ⟨hcounted, hbelow⟩ := h.counted hsucc hlock
    refine ⟨?_, ?_⟩
    · rw [pending_set hsame]
      exact hcounted
    · rw [pending_set hsame]
      exact hbelow

theorem Inv.checkLock {s : State n} (h : Inv s) {i : Fin n} {r : Record} {now : Int} (hi : s.phase i = .loaded r)
    (hnow : s.now ≤ now) : Inv (s.set i now (checkLock r now)) := by
  unfold Lockout.checkLock
  split_ifs with hlocked
  · exact h.set hnow trivial (by rw [hi]; rfl)
  · exact h.set hnow (by simpa [PhaseOk] using hlocked) (by rw [hi]; rfl)

/-- A code is checked while nothing is pending and the record is not locked. -/
theorem Inv.countCheck {s : State n} (h : Inv s) {i : Fin n} {now : Int} {q : Phase} (hnow : s.now ≤ now)
    (hlocked : s.record.isLocked now = false) (hfree : ∀ j, (s.phase j).settling = false)
    (hq : PhaseOk s.record now q) (hsettling : q.settling = true) : Inv ((s.countCheck now).set i now q) := by
  have hzero := pending_eq_zero hfree
  have hpending : ((s.countCheck now).set i now q).pending = 1 :=
    pending_eq_one (i := i) (by simpa [State.set] using hsettling)
  have hbound : s.succeeded = false → s.lockStored = false → s.checksBeforeLock + 1 ≤ maxFailAttempts := by
    intro hsucc hlock
    obtain ⟨hcounted, hbelow⟩ := h.counted hsucc hlock
    rw [hzero] at hcounted hbelow
    unfold maxFailAttempts at hbelow ⊢
    omega
  refine ⟨phases_set h hnow hq, ?_, ?_, ?_, ?_, h.no_unlock⟩
  · have hone : OneInside Phase.settling s.phase := h.one
    exact hone.update fun _ j _ => hfree j
  · intro hsucc hlock
    have hlock : s.lockStored = false := hlock
    obtain ⟨hcounted, hbelow⟩ := h.counted hsucc hlock
    rw [hzero] at hcounted hbelow
    have hchecks : ((s.countCheck now).set i now q).checksBeforeLock = s.checksBeforeLock + 1 :=
      if_neg (by simp [hlock])
    have hrecord : ((s.countCheck now).set i now q).record = s.record := rfl
    refine ⟨?_, ?_⟩
    · rw [hchecks, hrecord, hpending]
      omega
    · rw [hchecks, hrecord, hpending]
      omega
  · intro hsucc
    show (if s.lockStored then s.checksBeforeLock else s.checksBeforeLock + 1) ≤ maxFailAttempts
    split_ifs with hlock
    · exact h.bound hsucc
    · exact hbound hsucc (by simpa using hlock)
  · show (if s.record.isLocked now then s.checksWhileLocked + 1 else s.checksWhileLocked) = 0
    rw [if_neg (by simp [hlocked])]
    exact h.none_locked

theorem Inv.checkCode {s s' : State n} (h : Inv s) {i : Fin n} {now : Int} {outcome : Outcome} (hnow : s.now ≤ now)
    (hi : s.phase i = .unlocked s.record) (hfree : ∀ j, (s.phase j).settling = false)
    (hs : checkCode kind s i now outcome = some s') : Inv s' := by
  have hlocked : s.record.isLocked now = false := by
    have hok := h.phases i
    rw [hi] at hok
    exact Record.isLocked_mono hok hnow
  cases outcome with
  | malformed =>
    simp only [Lockout.checkCode] at hs
    split_ifs at hs
    cases hs
    exact h.set hnow trivial (by rw [hi]; rfl)
  | valid =>
    cases hs
    exact h.countCheck hnow hlocked hfree hlocked rfl
  | invalid =>
    cases hs
    exact h.countCheck hnow hlocked hfree ⟨hlocked, by decide⟩ rfl

theorem Inv.readCurrent {s : State n} (h : Inv s) {i : Fin n} {left : Nat} {now : Int} (hi : s.phase i = .invalid left)
    (hnow : s.now ≤ now) : Inv (s.set i now (readCurrent s.record left now)) := by
  have hok := h.phases i
  rw [hi] at hok
  have hlocked := Record.isLocked_mono hok.1 hnow
  unfold Lockout.readCurrent
  rw [if_neg (by simp [hlocked])]
  exact h.set hnow ⟨hlocked, hlocked, rfl, rfl⟩ (by rw [hi]; rfl)

/-- Nothing has changed the record since the call read it, so its update counts the failure. -/
theorem Inv.increment {s : State n} (h : Inv s) {i : Fin n} {left : Nat} {current : Record} {t : Int}
    (hi : s.phase i = .counting left current t) : Inv (increment s i left current t) := by
  have hok := h.phases i
  rw [hi] at hok
  obtain ⟨hnow, ht, hfailed, hlockedUntil⟩ := hok
  have hsettling : (s.phase i).settling = true := by rw [hi]; rfl
  have hothers := h.settled_others hsettling (.ok false)
  have hmay : mayIncrement s.record current t = true := by simp [mayIncrement, hfailed, ht]
  unfold Lockout.increment
  rw [if_pos hmay]
  refine ⟨?_, ?_, ?_, h.bound, h.none_locked, h.no_unlock⟩
  · intro j
    have hphase := phases_set h le_rfl (i := i) (q := .done (.ok false)) trivial j
    exact hphase.of_not_settling (hothers j)
  · intro j k _ hboth
    have hj : (Function.update s.phase i (.done (.ok false)) j).settling = true := hboth.1
    rw [hothers j] at hj
    cases hj
  · intro hsucc hlock
    obtain ⟨hlock, hlow⟩ := Bool.or_eq_false_iff.1 hlock
    have hlow : ¬ maxFailAttempts ≤ current.failedAttempts + 1 := by simpa using hlow
    obtain ⟨hcounted, -⟩ := h.counted hsucc hlock
    rw [pending_eq_one hsettling] at hcounted
    refine ⟨?_, .inr ?_⟩
    · show s.checksBeforeLock ≤ current.failedAttempts + 1 + _
      omega
    · show current.failedAttempts + 1 < maxFailAttempts
      omega

theorem Inv.updateUsageState {s : State n} (h : Inv s) {i : Fin n} {whileLocked : Bool} {now : Int}
    (hi : s.phase i = .valid whileLocked) (hnow : s.now ≤ now) : Inv (updateUsageState s i now whileLocked) := by
  have hok : whileLocked = false := by
    have hok := h.phases i
    rwa [hi] at hok
  subst hok
  have hothers := h.settled_others (i := i) (by rw [hi]; rfl) (.ok true)
  refine ⟨?_, ?_, nofun, nofun, h.none_locked, ?_⟩
  · intro j
    have hphase := phases_set h hnow (i := i) (q := .done (.ok true)) trivial j
    exact hphase.of_not_settling (hothers j)
  · intro j k _ hboth
    have hj : (Function.update s.phase i (.done (.ok true)) j).settling = true := hboth.1
    rw [hothers j] at hj
    cases hj
  · show (if s.record.isLocked now ∧ false = true then s.wrongUnlocks + 1 else s.wrongUnlocks) = 0
    rw [if_neg (by simp)]
    exact h.no_unlock

theorem Inv.step {s s' : State n} {a : Action n} (h : Inv s) (hfresh : Fresh s a) (hstep : step kind s a = some s') :
    Inv s' := by
  cases a with simp only [Lockout.step] at hstep
  | load i =>
    split_ifs at hstep with hi
    cases hstep
    exact h.set le_rfl trivial (by rw [hi]; rfl)
  | checkLock i now =>
    split at hstep
    · rename_i r hi
      split_ifs at hstep with hnow
      cases hstep
      exact h.checkLock hi hnow
    · cases hstep
  | checkCode i now outcome =>
    split at hstep
    · split_ifs at hstep with hnow
      exact h.checkCode hnow hfresh.1 hfresh.2 hstep
    · cases hstep
  | readCurrent i now =>
    split at hstep
    · rename_i left hi
      split_ifs at hstep with hnow
      cases hstep
      exact h.readCurrent hi hnow
    · cases hstep
  | increment i =>
    split at hstep
    · rename_i left current t hi
      cases hstep
      exact h.increment hi
    · cases hstep
  | updateUsageState i now =>
    split at hstep
    · rename_i whileLocked hi
      split_ifs at hstep with hnow
      cases hstep
      exact h.updateUsageState hi hnow
    · cases hstep

/-- Guessing is bounded in every run in which a code is checked only while the record is as the call
loaded it and no other call has a checked code that the record does not show yet. -/
theorem guesses_bounded (kind : Fin n → Kind) (record : Record) (now : Int) (l : List (Action n)) (s : State n)
    (hrun : run (step kind) (init record now) l = some s) (hfresh : Along (step kind) Fresh (init record now) l) :
    GuessesBounded s := by
  have hinv : Inv s := run_inv_along (fun _ _ _ h hC hstep => h.step hC hstep) (inv_init record now) hfresh hrun
  exact ⟨fun hsucc => ⟨hinv.bound hsucc, hinv.none_locked⟩, hinv.no_unlock⟩

def wrongGuess (i : Fin n) : List (Action n) :=
  [.load i, .checkLock i 10, .checkCode i 10 .invalid, .readCurrent i 10, .increment i]

def oneByOne : List (Action 6) :=
  (List.finRange 6).flatMap fun i => if i.val < 5 then wrongGuess i else [.load i, .checkLock i 11]

theorem guesses_bounded_one_by_one :
    ∃ s, run (step fun _ => .validateTOTPAndUpdateUsage) (init ⟨0, none, none⟩ 10) oneByOne = some s ∧
      s.record.isLocked 11 = true ∧ s.checksBeforeLock = 5 ∧ GuessesBounded s := by
  obtain ⟨s, hs, h⟩ : ∃ s, run (step fun _ => .validateTOTPAndUpdateUsage) (init ⟨0, none, none⟩ 10) oneByOne = some s ∧
      s.record.isLocked 11 = true ∧ s.checksBeforeLock = 5 := ⟨_, rfl, by decide +kernel⟩
  exact ⟨s, hs, h.1, h.2, guesses_bounded _ _ _ _ s hs (by decide +kernel)⟩

/-- Six calls load the record before any of them has counted its failure. -/
def atOnce : List (Action 6) :=
  (List.finRange 6).map .load ++ (List.finRange 6).map (.checkLock · 10) ++
    (List.finRange 6).map (.checkCode · 10 .invalid)

theorem unbounded_guesses :
    ¬ ∀ (kind : Fin 6 → Kind) (record : Record) (now : Int) (l : List (Action 6)) (s : State 6),
      run (step kind) (init record now) l = some s → GuessesBounded s := by
  intro h
  obtain ⟨s, hs, hchecks⟩ : ∃ s,
    run (step fun _ => .validateTOTPAndUpdateUsage) (init ⟨0, none, none⟩ 10) atOnce = some s ∧
      s.succeeded = false ∧ s.checksBeforeLock = 6 := ⟨_, rfl, by decide +kernel⟩
  have hbound := ((h _ _ _ _ s hs).1 hchecks.1).1
  rw [hchecks.2] at hbound
  exact absurd hbound (by decide)

end TokenEra.TwoFA.Lockout
