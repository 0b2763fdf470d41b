import TokenEra.SystemTasks.Exclusion

/-!
# When a lease is declared expired

A party that has read an expired lock fails its task in a later statement,
`MarkSystemTaskLeaseExpired`, which does not look at the lock again. In between the lock can come
back to life: a claim that stopped after it had inserted its lock leaves the task pending, and the
next claim takes the expired lock over for the same task and runs it; and a renewal that has read
the clock in time may reach the table late. The mark then fails a task that a runner is working on.

`NoRevival` is that this does not happen: no statement gives somebody the lock of a task that
another party is still to mark. In a run that meets it, whenever a task is failed with its lease
expired, nobody holds an unexpired lock for it.
-/

namespace TokenEra.SystemTasks

open Lib

variable {n : Nat}

def pendingMarks : Phase → List String
  | .claimMark _ expiredTaskID => [expiredTaskID]
  | .expireMark _ lock rest => lock.taskID :: rest.map (·.taskID)
  | .expireDelete _ _ rest => rest.map (·.taskID)
  | _ => []

/-- The task for which the next statement of a party gives somebody a lock. -/
def granted (locks : List SystemTaskLock) : Phase → Option String
  | .acquireInsert c => if c.type ∈ locks.map (·.type) then none else some c.taskID
  | .takeover c _ => if locks.filter (Expired c) = [] then none else some c.taskID
  | .renew taskID lockedBy _ now => if locks.filter (Renewable taskID lockedBy now) = [] then none else some taskID
  | _ => none

def NoRevival (s : State n) : Act n → Prop
  | .exec p => ∀ x ∈ granted s.locks (s.phase p), ∀ q, x ∉ pendingMarks (s.phase q)
  | _ => True

instance (s : State n) (a : Act n) : Decidable (NoRevival s a) :=
  match a with
  | .exec p => inferInstanceAs (Decidable (∀ x ∈ granted s.locks (s.phase p), _))
  | .tick _ | .call .. | .fail _ | .crash _ => .isTrue trivial

/-! ### The invariant -/

structure Unheld (s : State n) : Prop where
  clock : ∀ p now, s.phase p = .expireRead now → now ≤ s.now
  marks : ∀ p, ∀ x ∈ pendingMarks (s.phase p), ¬ Held s.locks x s.now
  expired : ∀ live ∈ s.expired, live = false

theorem unheld_init : Unheld (init n) :=
  ⟨by simp [init], by simp [init, pendingMarks], by simp [init]⟩

variable {p : Fin n} {q : Phase} {s t : State n}

/-- A step of one party: a lock that it writes is not of a task that anybody is to mark. -/
theorem Unheld.move (h : Unheld s)
    (hphase : t.phase = Function.update s.phase p q) (hnow : t.now = s.now)
    (hlocks : ∀ l ∈ t.locks, l ∈ s.locks ∨ ∀ p', l.taskID ∉ pendingMarks (s.phase p'))
    (hclock : ∀ now, q = .expireRead now → now ≤ s.now) (hq : ∀ x ∈ pendingMarks q, ¬ Held t.locks x s.now)
    (hexpired : ∀ live ∈ t.expired, live ∈ s.expired ∨ live = false) : Unheld t := by
  refine ⟨?_, ?_, fun live hl => ?_⟩
  · rw [hphase, hnow]
    exact (Function.forall_update_iff s.phase fun _ q => ∀ now, q = .expireRead now → now ≤ s.now).2
      ⟨hclock, fun p' _ => h.clock p'⟩
  · rw [hphase, hnow]
    refine (Function.forall_update_iff s.phase fun _ q => ∀ x ∈ pendingMarks q,
      ¬ Held t.locks x s.now).2 ⟨hq, fun p' _ x hx => ?_⟩
    rintro ⟨l, hl, rfl, hlive⟩
    rcases hlocks l hl with hl | hl
    · exact h.marks p' _ hx ⟨l, hl, rfl, hlive⟩
    · exact hl p' hx
  · rcases hexpired live hl with hl | hl
    · exact h.expired live hl
    · exact hl

theorem Unheld.setPhase (h : Unheld s) (hclock : ∀ now, q = .expireRead now → now ≤ s.now)
    (hq : ∀ x ∈ pendingMarks q, x ∈ pendingMarks (s.phase p)) : Unheld (s.setPhase p q) :=
  h.move rfl rfl (fun _ hl => .inl hl) hclock (fun x hx => h.marks p x (hq x hx)) fun _ hl => .inl hl

theorem Unheld.unmarked (h : Unheld s)
    (hphase : t.phase = Function.update s.phase p q) (hnow : t.now = s.now)
    (hlocks : ∀ l ∈ t.locks, l ∈ s.locks ∨ ∀ p', l.taskID ∉ pendingMarks (s.phase p'))
    (hexpired : t.expired = s.expired) (hclock : ∀ now, q ≠ .expireRead now) (hq : pendingMarks q = []) : Unheld t := by
  refine h.move hphase hnow hlocks (fun now heq => absurd heq (hclock now)) (fun x hx => ?_)
    fun _ hl => .inl (hexpired ▸ hl)
  rw [hq] at hx
  cases hx

theorem Unheld.quiet (h : Unheld s)
    (hphase : t.phase = Function.update s.phase p q) (hnow : t.now = s.now) (hlocks : t.locks = s.locks)
    (hexpired : t.expired = s.expired) (hclock : ∀ now, q ≠ .expireRead now) (hq : pendingMarks q = []) : Unheld t :=
  h.unmarked hphase hnow (fun _ hl => .inl (hlocks ▸ hl)) hexpired hclock hq

theorem Unheld.mark (h : Unheld s) {taskID : String}
    (htask : taskID ∈ pendingMarks (s.phase p)) (hclock : ∀ now, q = .expireRead now → now ≤ s.now)
    (hq : ∀ x ∈ pendingMarks q, x ∈ pendingMarks (s.phase p)) :
    Unheld ((s.markSystemTaskLeaseExpired taskID).setPhase p q) := by
  refine h.move rfl rfl (fun _ hl => .inl hl) hclock (fun x hx => h.marks p x (hq x hx)) fun live hl => ?_
  rcases List.mem_append.1 hl with hl | hl
  · exact .inl hl
  · obtain ⟨t, ht, rfl⟩ := List.mem_map.1 hl
    have hrunning : t ∈ s.tasks ∧ RunningTask taskID t := by simpa using ht
    refine .inr (decide_eq_false ?_)
    rw [hrunning.2.1]
    exact h.marks p taskID htask

/-! ### Every step keeps it -/

variable {now : Int} {rest : List SystemTaskLock}

theorem nextExpired_ne_read (now' : Int) :
    nextExpired now rest ≠ .expireRead now' := by
  cases rest <;> simp [nextExpired]

theorem pendingMarks_nextExpired :
    pendingMarks (nextExpired now rest) = rest.map (·.taskID) := by
  cases rest <;> rfl

/-- A takeover removes the lock of the task that it is to mark. -/
theorem not_held_takeover (h : Inv s) {c : Claim} {x : String} (hne : x ≠ c.taskID)
    (hkey : (x, c.type) ∈ s.tasks.map SystemTask.key) (hsome : s.locks.filter (Expired c) ≠ []) :
    ¬ Held (updateWhere (Expired c) (fun _ => c.lock) s.locks) x now := by
  rintro ⟨l', hl', hx, -⟩
  obtain ⟨l, hl, ⟨hw, rfl⟩ | ⟨hw, rfl⟩⟩ := mem_updateWhere hl'
  · exact hne hx.symm
  · obtain ⟨l₀, hl₀⟩ := List.exists_mem_of_ne_nil _ hsome
    obtain ⟨hl₀, hexp⟩ : l₀ ∈ s.locks ∧ Expired c l₀ := by simpa using hl₀
    have htype : l'.type = c.type := h.locks.type_eq h.tasks.taskIDs hl (hx.symm ▸ hkey)
    obtain rfl := h.locks.eq_of_type hl hl₀ (htype.trans hexp.1.symm)
    exact hw hexp

/-- The locks that are read as expired are, and no other lock names their tasks. -/
theorem not_held_expired (h : Inv s) {now : Int} (hnow : now ≤ s.now) {x : String}
    (hx : x ∈ (s.locks.filter fun l => l.lockedUntil < now).map (·.taskID)) : ¬ Held s.locks x s.now := by
  rintro ⟨l', hl', hx', hlive⟩
  obtain ⟨l, hl, rfl⟩ := List.mem_map.1 hx
  obtain ⟨hl, hexp⟩ : l ∈ s.locks ∧ l.lockedUntil < now := by simpa using hl
  have htype : l'.type = l.type := h.locks.type_eq h.tasks.taskIDs hl' (hx'.symm ▸ h.locks.tasks l hl)
  obtain rfl := h.locks.eq_of_type hl' hl htype
  omega

/-- The locks after a statement: those there were, and the one that it grants. -/
theorem exec_locks :
    ∀ l ∈ (s.exec p q).locks, l ∈ s.locks ∨ granted s.locks q = some l.taskID := by
  intro l hl
  cases q with
  | acquireInsert c =>
    simp only [State.exec] at hl
    split_ifs at hl with htype
    · exact .inl hl
    · rcases List.mem_append.1 hl with hl | hl
      · exact .inl hl
      · rw [List.mem_singleton.1 hl, granted, if_neg htype]
        exact .inr rfl
  | takeover c expiredTaskID =>
    simp only [State.exec] at hl
    by_cases hnone : s.locks.filter (Expired c) = []
    · rw [if_pos hnone] at hl
      exact .inl hl
    · rw [if_neg hnone] at hl
      obtain ⟨l', hl', ⟨-, rfl⟩ | ⟨-, rfl⟩⟩ := mem_updateWhere hl
      · rw [granted, if_neg hnone]
        exact .inr rfl
      · exact .inl hl'
  | renew taskID lockedBy lockUntil now =>
    obtain ⟨l', hl', ⟨hw, rfl⟩ | ⟨-, rfl⟩⟩ := mem_updateWhere hl
    · have hsome : s.locks.filter (Renewable taskID lockedBy now) ≠ [] :=
        List.ne_nil_of_mem (List.mem_filter.2 ⟨hl', decide_eq_true hw⟩)
      rw [granted, if_neg hsome]
      exact .inr (congrArg some hw.1.symm)
    · exact .inl hl'
  | release | expireDelete => exact .inl (List.mem_of_mem_filter hl)
  | finish taskID lockedBy status result error now =>
    rw [State.exec, State.guardedUpdate] at hl
    by_cases hnone : s.tasks.filter (Guarded s.locks taskID lockedBy now) = []
    · rw [if_pos hnone] at hl
      exact .inl hl
    · rw [if_neg hnone] at hl
      exact .inl hl
  | create | claimRead | acquireRead | claimSwap | updateState =>
    -- The branches of these statements change tasks and phases only.
    simp only [State.exec, State.insertTask, State.guardedUpdate] at hl
    repeat' split at hl
    all_goals exact .inl hl
  | idle | claimMark | claimReload | expireRead | expireMark => exact .inl hl

theorem Unheld.exec (h : Unheld s) (hi : Inv s) (hc : NoRevival s (.exec p)) :
    Unheld (s.exec p (s.phase p)) := by
  have hlocks : ∀ l ∈ (s.exec p (s.phase p)).locks, l ∈ s.locks ∨ ∀ p', l.taskID ∉ pendingMarks (s.phase p') := by
    intro l hl
    rcases exec_locks l hl with hl | hl
    · exact .inl hl
    · exact .inr (hc l.taskID hl)
  have hok := hi.phase p
  cases hp : s.phase p with
  | idle => exact h
  | create taskID type state now =>
    rw [State.exec, State.insertTask]
    split_ifs <;> exact h.quiet rfl rfl rfl rfl (by simp) rfl
  | claimRead id type runnerID now lockUntil =>
    simp only [State.exec]
    split <;> exact h.quiet rfl rfl rfl rfl (by simp) rfl
  | acquireInsert c =>
    rw [hp] at hlocks
    simp only [State.exec] at hlocks ⊢
    split_ifs at hlocks ⊢
    · exact h.quiet rfl rfl rfl rfl (by simp) rfl
    · exact h.unmarked rfl rfl hlocks rfl (by simp) rfl
  | acquireRead c =>
    simp only [State.exec]
    split
    case h_1 => exact h.quiet rfl rfl rfl rfl (by simp) rfl
    case h_2 => split_ifs <;> exact h.quiet rfl rfl rfl rfl (by simp) rfl
  | takeover c expiredTaskID =>
    rw [hp] at hlocks hok
    simp only [State.exec] at hlocks ⊢
    by_cases hnone : s.locks.filter (Expired c) = []
    · rw [if_pos hnone]
      exact h.quiet rfl rfl rfl rfl (by simp) rfl
    rw [if_neg hnone] at hlocks ⊢
    by_cases hother : expiredTaskID ≠ "" ∧ expiredTaskID ≠ c.taskID
    · rw [if_pos hother] at hlocks ⊢
      refine h.move rfl rfl hlocks (by simp) (fun x hx => ?_) fun _ hl => .inl hl
      rw [List.mem_singleton.1 hx]
      exact not_held_takeover hi hother.2 hok.2 hnone
    · rw [if_neg hother] at hlocks ⊢
      exact h.unmarked rfl rfl hlocks rfl (by simp) rfl
  | claimMark c expiredTaskID =>
    exact h.mark (by rw [hp]; exact List.mem_singleton_self _) (by simp) (by simp [pendingMarks])
  | claimSwap c =>
    simp only [State.exec]
    split_ifs <;> exact h.quiet rfl rfl rfl rfl (by simp) rfl
  | claimReload c => exact h.quiet rfl rfl rfl rfl (by simp) rfl
  | updateState taskID lockedBy state now =>
    rw [State.exec, State.guardedUpdate]
    split_ifs <;> exact h.quiet rfl rfl rfl rfl (by simp) rfl
  | renew taskID lockedBy lockUntil now =>
    rw [hp] at hlocks
    exact h.unmarked rfl rfl hlocks rfl (by simp) rfl
  | finish taskID lockedBy status result error now =>
    rw [State.exec, State.guardedUpdate]
    by_cases hnone : s.tasks.filter (Guarded s.locks taskID lockedBy now) = []
    · rw [if_pos hnone]
      exact h.quiet rfl rfl rfl rfl (by simp) rfl
    · rw [if_neg hnone]
      exact h.quiet rfl rfl rfl rfl (by simp) rfl
  | release taskID lockedBy =>
    rw [hp] at hlocks
    exact h.unmarked rfl rfl hlocks rfl (by simp) rfl
  | expireRead now =>
    refine h.move rfl rfl (fun _ hl => .inl hl) (fun now' heq => absurd heq (nextExpired_ne_read now'))
      (fun x hx => ?_) fun _ hl => .inl hl
    rw [pendingMarks_nextExpired] at hx
    exact not_held_expired hi (h.clock p now hp) hx
  | expireMark now lock rest =>
    refine h.mark (by rw [hp]; exact List.mem_cons_self) (by simp) fun x hx => ?_
    rw [hp]
    exact List.mem_cons_of_mem _ hx
  | expireDelete now lock rest =>
    rw [hp] at hlocks
    refine h.move rfl rfl hlocks (fun now' heq => absurd heq (nextExpired_ne_read now')) (fun x hx => ?_)
      fun _ hl => .inl hl
    rw [pendingMarks_nextExpired] at hx
    rintro ⟨l, hl, hid, hlive⟩
    exact h.marks p x (by rw [hp]; exact hx) ⟨l, List.mem_of_mem_filter hl, hid, hlive⟩

theorem Unheld.step {a : Act n} (h : Unheld s) (hi : Inv s) (hc : NoRevival s a)
    (hstep : step s a = some t) : Unheld t := by
  cases a with
  | tick seconds =>
    cases hstep
    refine ⟨fun p now hp => (h.clock p now hp).trans (by simp), fun p x hx => ?_, h.expired⟩
    rintro ⟨l, hl, hid, hlive⟩
    exact h.marks p x hx ⟨l, hl, hid, (by simp : s.now ≤ s.now + seconds).trans hlive⟩
  | call p c =>
    obtain ⟨-, hstep⟩ := Option.ite_none_right_eq_some.1 hstep
    cases hstep
    refine h.setPhase (fun now heq => ?_) fun x hx => ?_
    · cases c <;> cases heq
      exact le_rfl
    · cases c <;> cases hx
  | exec p =>
    cases hstep
    exact h.exec hi hc
  | fail p =>
    cases hstep
    refine h.quiet rfl rfl rfl rfl (fun now heq => ?_) ?_
    · cases hp : s.phase p <;> rw [hp] at heq <;> cases heq
    · cases s.phase p <;> rfl
  | crash p =>
    cases hstep
    exact h.quiet rfl rfl rfl rfl (by simp) rfl

/-- In every run in which nobody is given the lock of a task that another party is still to mark,
whenever a task is failed with its lease expired nobody holds an unexpired lock for it. -/
theorem live_lease_not_expired {l : List (Act n)} {s : State n} (hrun : run step (init n) l = some s)
    (hrevive : Along step NoRevival (init n) l) : ∀ live ∈ s.expired, live = false := by
  have h : Inv s ∧ Unheld s :=
    run_inv_along (I := fun s => Inv s ∧ Unheld s)
      (fun _ _ _ hs hc hstep => ⟨hs.1.step hstep, hs.2.step hs.1 hc hstep⟩) ⟨inv_init, unheld_init⟩ hrevive hrun
  exact h.2.expired

/-- A runner claims a task, renews its lease and stops; the expired lease is found by a cleanup. -/
def stoppedRunner (p q : Fin 2) : List (Act 2) :=
  [.call p (.createSystemTask "A" "log_cleanup" ""), .exec p,
   .call p (.claimSystemTask 1 "log_cleanup" "r1" 60), .exec p, .exec p, .exec p, .exec p, .tick 20,
   .call p (.renewSystemTaskLock "A" "r1" 80), .exec p, .crash p, .tick 61,
   .call q .expireStaleSystemTaskLocks, .exec q, .exec q, .exec q]

theorem live_lease_not_expired_stopped :
    ∃ s : State 2, run step (init 2) (stoppedRunner 0 1) = some s ∧
      s.tasks.map (fun t => (t.status, t.error)) = [(.failed, "task lease expired")] ∧ s.expired = [false] ∧
      ∀ live ∈ s.expired, live = false := by
  obtain ⟨s, hs, ht, he⟩ : ∃ s : State 2, run step (init 2) (stoppedRunner 0 1) = some s ∧
      s.tasks.map (fun t => (t.status, t.error)) = [(.failed, "task lease expired")] ∧ s.expired = [false] :=
    ⟨_, rfl, rfl, rfl⟩
  exact ⟨s, hs, ht, he, live_lease_not_expired hs (by decide)⟩

/-- A claim stops after its insert; a cleanup reads the expired lock; another runner takes the lock
over for the same task, which is still pending, and runs it; the cleanup fails the task. -/
def takenOver (p q r : Fin 3) : List (Act 3) :=
  [.call p (.createSystemTask "A" "log_cleanup" ""), .exec p,
   .call p (.claimSystemTask 1 "log_cleanup" "r1" 60), .exec p, .exec p, .crash p, .tick 61,
   .call q .expireStaleSystemTaskLocks, .exec q,
   .call r (.claimSystemTask 1 "log_cleanup" "r2" 121), .exec r, .exec r, .exec r, .exec r, .exec r, .exec r,
   .exec q]

theorem live_lease_expired :
    ¬ ∀ (l : List (Act 3)) (s : State 3), run step (init 3) l = some s → ∀ live ∈ s.expired, live = false := by
  intro h
  obtain ⟨s, hs, he⟩ : ∃ s : State 3, run step (init 3) (takenOver 0 1 2) = some s ∧ s.expired = [true] := ⟨_, rfl, rfl⟩
  have hfalse := h (takenOver 0 1 2) s hs true (by rw [he]; exact List.mem_singleton_self _)
  cases hfalse

end TokenEra.SystemTasks
