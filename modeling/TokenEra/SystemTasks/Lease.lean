import TokenEra.Lib.Run
import TokenEra.Lib.Table

/-!
# The leases of system tasks

A system task is a row of `system_tasks`; the runners of the nodes claim pending tasks and run them
under a lease, a row of `system_task_locks` with the task's type as its key. There is no
transaction: every function is a sequence of single SQL statements, and other nodes' statements come
in between.

A party is a goroutine of some node. It calls one of the functions with any arguments (`Call`),
which reads the clock once, and then executes the statements one by one; a statement may also fail,
and the party may stop at any point. The claim of a task is the longest: read the pending task,
insert the lock row or take over an expired one, mark the task of the expired lock as failed, and
only then move the claimed task to running.
-/

namespace TokenEra.SystemTasks

open Lib

/-! ### The tables -/

inductive Status
  | pending | running | succeeded | failed
  deriving DecidableEq, Repr

def Status.Active (s : Status) : Prop := s = .pending ∨ s = .running

instance (s : Status) : Decidable s.Active := inferInstanceAs (Decidable (_ ∨ _))

inductive Terminal
  | succeeded | failed
  deriving DecidableEq, Repr

def Terminal.status : Terminal → Status
  | .succeeded => .succeeded
  | .failed => .failed

structure SystemTask where
  id : Nat
  taskID : String
  type : String
  status : Status
  activeKey : Option String
  state : String
  result : String
  error : String
  lockedBy : String
  updatedAt : Int
  deriving DecidableEq, Repr

structure SystemTaskLock where
  type : String
  taskID : String
  lockedBy : String
  lockedUntil : Int
  updatedAt : Int
  deriving DecidableEq, Repr

/-! ### The functions -/

inductive Call
  | createSystemTask (taskID type state : String)
  | claimSystemTask (id : Nat) (type runnerID : String) (lockUntil : Int)
  | updateSystemTaskState (taskID lockedBy state : String)
  | renewSystemTaskLock (taskID lockedBy : String) (lockUntil : Int)
  | finishSystemTask (taskID lockedBy : String) (status : Terminal) (result error : String)
  | releaseSystemTaskLock (taskID lockedBy : String)
  | expireStaleSystemTaskLocks
  deriving DecidableEq, Repr

structure Claim where
  id : Nat
  type : String
  taskID : String
  runnerID : String
  now : Int
  lockUntil : Int
  deriving DecidableEq, Repr

inductive Phase
  | idle
  | create (taskID type state : String) (now : Int)
  | claimRead (id : Nat) (type runnerID : String) (now lockUntil : Int)
  | acquireInsert (c : Claim)
  | acquireRead (c : Claim)
  | takeover (c : Claim) (expiredTaskID : String)
  | claimMark (c : Claim) (expiredTaskID : String)
  | claimSwap (c : Claim)
  | claimReload (c : Claim)
  | updateState (taskID lockedBy state : String) (now : Int)
  | renew (taskID lockedBy : String) (lockUntil now : Int)
  | finish (taskID lockedBy : String) (status : Terminal) (result error : String) (now : Int)
  | release (taskID lockedBy : String)
  | expireRead (now : Int)
  | expireMark (now : Int) (lock : SystemTaskLock) (rest : List SystemTaskLock)
  | expireDelete (now : Int) (lock : SystemTaskLock) (rest : List SystemTaskLock)
  deriving DecidableEq, Repr

def Call.start (now : Int) : Call → Phase
  | .createSystemTask taskID type state => .create taskID type state now
  | .claimSystemTask id type runnerID lockUntil => .claimRead id type runnerID now lockUntil
  | .updateSystemTaskState taskID lockedBy state => .updateState taskID lockedBy state now
  | .renewSystemTaskLock taskID lockedBy lockUntil => .renew taskID lockedBy lockUntil now
  | .finishSystemTask taskID lockedBy status result error => .finish taskID lockedBy status result error now
  | .releaseSystemTaskLock taskID lockedBy => .release taskID lockedBy
  | .expireStaleSystemTaskLocks => .expireRead now

/-- Where a party goes on when its statement fails. An insert of the lock row that fails for any
reason is followed by a read of it. -/
def Phase.failed : Phase → Phase
  | .acquireInsert c => .acquireRead c
  | .claimMark c _ => .release c.taskID c.runnerID
  | .claimSwap c => .release c.taskID c.runnerID
  | _ => .idle

def nextExpired (now : Int) : List SystemTaskLock → Phase
  | [] => .idle
  | lock :: rest => .expireMark now lock rest

structure State (n : Nat) where
  now : Int
  tasks : List SystemTask
  locks : List SystemTaskLock
  phase : Fin n → Phase
  /-- The tasks moved from pending to running, by `ClaimSystemTask`. -/
  claimed : List Nat
  /-- For each success of `UpdateSystemTaskState` and `FinishSystemTask`, whether another runner had
  an unexpired lock of the task's type. -/
  wrote : List Bool
  /-- For each task that was moved to failed with its lease expired, whether somebody had an
  unexpired lock for it. -/
  expired : List Bool

def init (n : Nat) : State n where
  now := 0
  tasks := []
  locks := []
  phase := fun _ => .idle
  claimed := []
  wrote := []
  expired := []

variable {n : Nat}

def State.setPhase (s : State n) (p : Fin n) (q : Phase) : State n :=
  { s with phase := Function.update s.phase p q }

/-! ### The statements -/

def OtherHolds (locks : List SystemTaskLock) (type lockedBy : String) (now : Int) : Prop :=
  ∃ l ∈ locks, l.type = type ∧ now ≤ l.lockedUntil ∧ l.lockedBy ≠ lockedBy

def Held (locks : List SystemTaskLock) (taskID : String) (now : Int) : Prop :=
  ∃ l ∈ locks, l.taskID = taskID ∧ now ≤ l.lockedUntil

instance (locks : List SystemTaskLock) (type lockedBy : String) (now : Int) :
    Decidable (OtherHolds locks type lockedBy now) := inferInstanceAs (Decidable (∃ l ∈ locks, _))

instance (locks : List SystemTaskLock) (taskID : String) (now : Int) : Decidable (Held locks taskID now) :=
  inferInstanceAs (Decidable (∃ l ∈ locks, _))

/-- The condition of the updates that `UpdateSystemTaskState` and `FinishSystemTask` make. -/
def Guarded (locks : List SystemTaskLock) (taskID lockedBy : String) (now : Int) (t : SystemTask) : Prop :=
  t.taskID = taskID ∧ t.status = .running ∧ t.lockedBy = lockedBy ∧
    ∃ l ∈ locks, l.taskID = t.taskID ∧ l.lockedBy = lockedBy ∧ now ≤ l.lockedUntil

instance (locks : List SystemTaskLock) (taskID lockedBy : String) (now : Int) :
    DecidablePred (Guarded locks taskID lockedBy now) := fun _ =>
  inferInstanceAs (Decidable (_ ∧ _ ∧ _ ∧ ∃ l ∈ locks, _))

/-- An update under that condition; `none` is `ErrSystemTaskLockLost`. -/
def State.guardedUpdate (s : State n) (taskID lockedBy : String) (now : Int) (f : SystemTask → SystemTask) :
    Option (State n) :=
  let affected := s.tasks.filter (Guarded s.locks taskID lockedBy now)
  if affected = [] then none
  else some { s with
    tasks := updateWhere (Guarded s.locks taskID lockedBy now) f s.tasks
    wrote := s.wrote ++ affected.map fun t => decide (OtherHolds s.locks t.type lockedBy s.now) }

def setState (state : String) (now : Int) (t : SystemTask) : SystemTask :=
  { t with state := state, updatedAt := now }

def setFinished (status : Terminal) (result error : String) (now : Int) (t : SystemTask) : SystemTask :=
  { t with status := status.status, activeKey := none, result := result, error := error, updatedAt := now }

def RunningTask (taskID : String) (t : SystemTask) : Prop := t.taskID = taskID ∧ t.status = .running

instance (taskID : String) : DecidablePred (RunningTask taskID) := fun _ => inferInstanceAs (Decidable (_ ∧ _))

/-- What `MarkSystemTaskLeaseExpired` sets. -/
def setLeaseExpired (now : Int) (t : SystemTask) : SystemTask :=
  { t with status := .failed, activeKey := none, error := "task lease expired", updatedAt := now }

def State.markSystemTaskLeaseExpired (s : State n) (taskID : String) : State n :=
  { s with
    tasks := updateWhere (RunningTask taskID) (setLeaseExpired s.now) s.tasks
    expired := s.expired ++
      (s.tasks.filter (RunningTask taskID)).map fun t => decide (Held s.locks t.taskID s.now) }

def State.insertTask (s : State n) (taskID type state : String) (now : Int) : State n :=
  if taskID ∈ s.tasks.map (·.taskID) ∨ some type ∈ s.tasks.map (·.activeKey) then s
  else { s with
    tasks := s.tasks ++ [⟨s.tasks.length + 1, taskID, type, .pending, some type, state, "", "", "", now⟩] }

def Claimable (c : Claim) (t : SystemTask) : Prop := t.id = c.id ∧ t.type = c.type ∧ t.status = .pending

instance (c : Claim) : DecidablePred (Claimable c) := fun _ => inferInstanceAs (Decidable (_ ∧ _ ∧ _))

def setClaimed (c : Claim) (t : SystemTask) : SystemTask :=
  { t with status := .running, lockedBy := c.runnerID, updatedAt := c.now }

def Claim.lock (c : Claim) : SystemTaskLock := ⟨c.type, c.taskID, c.runnerID, c.lockUntil, c.now⟩

def Expired (c : Claim) (l : SystemTaskLock) : Prop := l.type = c.type ∧ l.lockedUntil < c.now

instance (c : Claim) : DecidablePred (Expired c) := fun _ => inferInstanceAs (Decidable (_ ∧ _))

def Renewable (taskID lockedBy : String) (now : Int) (l : SystemTaskLock) : Prop :=
  l.taskID = taskID ∧ l.lockedBy = lockedBy ∧ now ≤ l.lockedUntil

instance (taskID lockedBy : String) (now : Int) : DecidablePred (Renewable taskID lockedBy now) := fun _ =>
  inferInstanceAs (Decidable (_ ∧ _ ∧ _))

def setRenewed (lockUntil now : Int) (l : SystemTaskLock) : SystemTaskLock :=
  { l with lockedUntil := lockUntil, updatedAt := now }

def State.exec (s : State n) (p : Fin n) : Phase → State n
  | .idle => s
  | .create taskID type state now => (s.insertTask taskID type state now).setPhase p .idle
  | .claimRead id type runnerID now lockUntil =>
    match s.tasks.find? fun t => t.id = id ∧ t.type = type ∧ t.status = .pending with
    | none => s.setPhase p .idle
    | some t => s.setPhase p (.acquireInsert ⟨id, type, t.taskID, runnerID, now, lockUntil⟩)
  | .acquireInsert c =>
    if c.type ∈ s.locks.map (·.type) then s.setPhase p (.acquireRead c)
    else { s.setPhase p (.claimSwap c) with locks := s.locks ++ [c.lock] }
  | .acquireRead c =>
    match s.locks.find? fun l => l.type = c.type with
    | none => s.setPhase p .idle
    | some l => if c.now ≤ l.lockedUntil then s.setPhase p .idle else s.setPhase p (.takeover c l.taskID)
  | .takeover c expiredTaskID =>
    if s.locks.filter (Expired c) = [] then s.setPhase p .idle
    else
      let next := if expiredTaskID ≠ "" ∧ expiredTaskID ≠ c.taskID then .claimMark c expiredTaskID else .claimSwap c
      { s.setPhase p next with locks := updateWhere (Expired c) (fun _ => c.lock) s.locks }
  | .claimMark c expiredTaskID => (s.markSystemTaskLeaseExpired expiredTaskID).setPhase p (.claimSwap c)
  | .claimSwap c =>
    if s.tasks.filter (Claimable c) = [] then s.setPhase p (.release c.taskID c.runnerID)
    else { s.setPhase p (.claimReload c) with
      tasks := updateWhere (Claimable c) (setClaimed c) s.tasks
      claimed := s.claimed ++ [c.id] }
  | .claimReload _ => s.setPhase p .idle
  | .updateState taskID lockedBy state now =>
    ((s.guardedUpdate taskID lockedBy now (setState state now)).getD s).setPhase p .idle
  | .renew taskID lockedBy lockUntil now =>
    { s.setPhase p .idle with
      locks := updateWhere (Renewable taskID lockedBy now) (setRenewed lockUntil now) s.locks }
  | .finish taskID lockedBy status result error now =>
    match s.guardedUpdate taskID lockedBy now (setFinished status result error now) with
    | none => s.setPhase p .idle
    | some t => t.setPhase p (.release taskID lockedBy)
  | .release taskID lockedBy =>
    { s.setPhase p .idle with locks := s.locks.filter fun l => ¬ (l.taskID = taskID ∧ l.lockedBy = lockedBy) }
  | .expireRead now => s.setPhase p (nextExpired now (s.locks.filter fun l => l.lockedUntil < now))
  | .expireMark now lock rest => (s.markSystemTaskLeaseExpired lock.taskID).setPhase p (.expireDelete now lock rest)
  | .expireDelete now lock rest =>
    { s.setPhase p (nextExpired now rest) with
      locks := s.locks.filter fun l =>
        ¬ (l.type = lock.type ∧ l.taskID = lock.taskID ∧ l.lockedBy = lock.lockedBy ∧ l.lockedUntil < now) }

inductive Act (n : Nat)
  | tick (seconds : Nat)
  | call (p : Fin n) (c : Call)
  | exec (p : Fin n)
  | fail (p : Fin n)
  | crash (p : Fin n)
  deriving DecidableEq, Repr

def step (s : State n) : Act n → Option (State n)
  | .tick seconds => some { s with now := s.now + seconds }
  | .call p c => if s.phase p = .idle then some (s.setPhase p (c.start s.now)) else none
  | .exec p => some (s.exec p (s.phase p))
  | .fail p => some (s.setPhase p (s.phase p).failed)
  | .crash p => some (s.setPhase p .idle)

end TokenEra.SystemTasks
