import TokenEra.SystemTasks.Lease

/-!
# One active task and one lock for each type

Two unique columns carry the protocol. The active key of a task is its type while the task is
pending or running, and is cleared in the same statement that ends it, so the index admits one
active task of a type. The lock row has its type as key, and it names a task of that type; a write
of a runner requires a lock that names the task and the runner, and then no other lock of the type
exists.
-/

namespace TokenEra.SystemTasks

open Lib

variable {n : Nat}

/-! ### The tables -/

def SystemTask.key (t : SystemTask) : String × String := (t.taskID, t.type)

def SystemTask.keyFor (t : SystemTask) : Option String := if t.status.Active then some t.type else none

def Apart (t u : SystemTask) : Prop := ¬ (t.status.Active ∧ u.status.Active ∧ t.type = u.type)

structure TasksOk (tasks : List SystemTask) (claimed : List Nat) : Prop where
  keyed : ∀ t ∈ tasks, t.activeKey = t.keyFor
  single : tasks.Pairwise Apart
  taskIDs : (tasks.map (·.taskID)).Nodup
  ids : tasks.map (·.id) = List.range' 1 tasks.length
  bound : ∀ i ∈ claimed, i ≤ tasks.length
  moved : ∀ t ∈ tasks, t.id ∈ claimed → t.status ≠ .pending
  once : claimed.Nodup

structure LocksOk (tasks : List SystemTask) (locks : List SystemTaskLock) : Prop where
  types : (locks.map (·.type)).Nodup
  tasks : ∀ l ∈ locks, (l.taskID, l.type) ∈ tasks.map SystemTask.key

/-- A change of the rows that meet `w`: the task stays the same one, it is not pending afterwards,
and it is active only if it was and carries its key accordingly. -/
structure Moves (w : SystemTask → Prop) (f : SystemTask → SystemTask) : Prop where
  id : ∀ t, (f t).id = t.id
  key : ∀ t, (f t).key = t.key
  pending : ∀ t, w t → (f t).status ≠ .pending
  active : ∀ t, w t → (f t).status.Active → t.status.Active
  keyed : ∀ t, w t → t.activeKey = t.keyFor → (f t).activeKey = (f t).keyFor

variable {w : SystemTask → Prop} [DecidablePred w] {f : SystemTask → SystemTask} {tasks : List SystemTask}
  {locks : List SystemTaskLock} {claimed : List Nat}

theorem Moves.keys (hf : Moves w f) :
    (updateWhere w f tasks).map SystemTask.key = tasks.map SystemTask.key :=
  map_updateWhere hf.key tasks

theorem Moves.apart (hf : Moves w f) {t u : SystemTask} (h : Apart t u) :
    Apart (if w t then f t else t) (if w u then f u else u) := by
  have hactive : ∀ t : SystemTask, (if w t then f t else t).status.Active → t.status.Active := by
    intro t ht
    split_ifs at ht with hw
    · exact hf.active t hw ht
    · exact ht
  have htype : ∀ t : SystemTask, (if w t then f t else t).type = t.type := by
    intro t
    split_ifs
    · exact congrArg Prod.snd (hf.key t)
    · rfl
  rintro ⟨ht, hu, heq⟩
  rw [htype, htype] at heq
  exact h ⟨hactive t ht, hactive u hu, heq⟩

theorem TasksOk.update (h : TasksOk tasks claimed) (hf : Moves w f) :
    TasksOk (updateWhere w f tasks) claimed := by
  have hlength : (updateWhere w f tasks).length = tasks.length := List.length_map _
  refine ⟨fun x hx => ?_, List.pairwise_map.2 (h.single.imp hf.apart), ?_, ?_, ?_, fun x hx hi => ?_,
    h.once⟩
  · obtain ⟨t, ht, ⟨hw, rfl⟩ | ⟨-, rfl⟩⟩ := mem_updateWhere hx
    · exact hf.keyed t hw (h.keyed t ht)
    · exact h.keyed x ht
  · have htaskID : ∀ t, (f t).taskID = t.taskID := fun t => congrArg Prod.fst (hf.key t)
    rw [map_updateWhere htaskID]
    exact h.taskIDs
  · rw [map_updateWhere hf.id, hlength]
    exact h.ids
  · rw [hlength]
    exact h.bound
  · obtain ⟨t, ht, ⟨hw, rfl⟩ | ⟨-, rfl⟩⟩ := mem_updateWhere hx
    · exact hf.pending t hw
    · exact h.moved x ht hi

theorem moves_claimed (c : Claim) : Moves (Claimable c) (setClaimed c) where
  id _ := rfl
  key _ := rfl
  pending _ _ := by simp [setClaimed]
  active _ hw _ := .inl hw.2.2
  keyed t hw hk := by
    rw [SystemTask.keyFor, if_pos (.inl hw.2.2)] at hk
    rw [SystemTask.keyFor, if_pos (.inr rfl)]
    exact hk

/-- A claim moves a pending task, which was not claimed before. -/
theorem TasksOk.claim (h : TasksOk tasks claimed) {c : Claim} (hc : tasks.filter (Claimable c) ≠ []) :
    TasksOk (updateWhere (Claimable c) (setClaimed c) tasks) (claimed ++ [c.id]) := by
  obtain ⟨t, ht⟩ := List.exists_mem_of_ne_nil _ hc
  obtain ⟨ht, hid, htype, hpending⟩ : t ∈ tasks ∧ Claimable c t := by simpa using ht
  have hids : (tasks.map (·.id)).Nodup := by
    rw [h.ids]
    exact List.nodup_range'
  have hnew : c.id ∉ claimed := fun hmem => h.moved t ht (hid ▸ hmem) hpending
  have hbound : c.id ≤ tasks.length := by
    have hmem : t.id ∈ tasks.map (·.id) := List.mem_map_of_mem ht
    rw [h.ids, List.mem_range'_1] at hmem
    omega
  have hmoved := h.update (moves_claimed c)
  refine ⟨hmoved.keyed, hmoved.single, hmoved.taskIDs, hmoved.ids, fun i hi => ?_, fun x hx hi => ?_, ?_⟩
  · rcases List.mem_append.1 hi with hi | hi
    · exact hmoved.bound i hi
    · rw [List.mem_singleton.1 hi, updateWhere, List.length_map]
      exact hbound
  · rcases List.mem_append.1 hi with hi | hi
    · exact hmoved.moved x hx hi
    · obtain ⟨u, hu, ⟨hw, rfl⟩ | ⟨hw, rfl⟩⟩ := mem_updateWhere hx
      · exact (moves_claimed c).pending u hw
      · have heq : x = t := List.inj_on_of_nodup_map hids hu ht ((List.mem_singleton.1 hi).trans hid.symm)
        subst heq
        exact absurd ⟨hid, htype, hpending⟩ hw
  · exact List.nodup_append.2 ⟨h.once, List.nodup_singleton _, fun i hi j hj heq =>
      hnew (List.mem_singleton.1 hj ▸ heq ▸ hi)⟩

variable {lockedBy taskID : String} {now : Int} {q : Phase} {p : Fin n} {s t : State n}

theorem moves_guarded (state : String) :
    Moves (Guarded locks taskID lockedBy now) (setState state now) where
  id _ := rfl
  key _ := rfl
  pending t hw := by
    change t.status ≠ .pending
    rw [hw.2.1]
    decide
  active _ _ ha := ha
  keyed _ _ hk := hk

theorem not_active_terminal (status : Terminal) : ¬ status.status.Active := by
  cases status <;> decide

theorem moves_finished (status : Terminal) (result error : String) :
    Moves (Guarded locks taskID lockedBy now) (setFinished status result error now) where
  id _ := rfl
  key _ := rfl
  pending _ _ hp := not_active_terminal status (.inl hp)
  active _ _ ha := absurd ha (not_active_terminal status)
  keyed _ _ _ := (if_neg (not_active_terminal status)).symm

theorem moves_leaseExpired (taskID : String) (now : Int) : Moves (RunningTask taskID) (setLeaseExpired now) where
  id _ := rfl
  key _ := rfl
  pending _ _ := by simp [setLeaseExpired]
  active t hw _ := .inr hw.2
  keyed _ _ _ := (if_neg (not_active_terminal .failed)).symm

theorem TasksOk.insert (h : TasksOk tasks claimed) {type state : String}
    (hid : taskID ∉ tasks.map (·.taskID)) (hkey : some type ∉ tasks.map (·.activeKey)) :
    TasksOk (tasks ++ [⟨tasks.length + 1, taskID, type, .pending, some type, state, "", "", "", now⟩]) claimed := by
  refine ⟨fun t ht => ?_, ?_, ?_, ?_, fun i hi => ?_, fun t ht hi => ?_, h.once⟩
  · rcases List.mem_append.1 ht with ht | ht
    · exact h.keyed t ht
    · rw [List.mem_singleton.1 ht]
      rfl
  · refine List.pairwise_append.2 ⟨h.single, List.pairwise_singleton _ _, fun t ht u hu => ?_⟩
    rintro ⟨hactive, -, htype⟩
    rw [List.mem_singleton.1 hu] at htype
    refine hkey (List.mem_map.2 ⟨t, ht, ?_⟩)
    rw [h.keyed t ht, SystemTask.keyFor, if_pos hactive, htype]
  · rw [List.map_append, List.map_singleton, List.nodup_append]
    refine ⟨h.taskIDs, List.nodup_singleton _, fun x hx y hy heq => hid ?_⟩
    obtain rfl : y = taskID := List.mem_singleton.1 hy
    exact heq ▸ hx
  · rw [List.map_append, h.ids, List.length_append, List.length_singleton, List.range'_concat]
    simp [Nat.add_comm]
  · rw [List.length_append]
    exact (h.bound i hi).trans (Nat.le_add_right _ _)
  · rcases List.mem_append.1 ht with ht | ht
    · exact h.moved t ht hi
    · rw [List.mem_singleton.1 ht] at hi
      exact absurd (h.bound _ hi) (Nat.not_succ_le_self _)

theorem LocksOk.mono {tasks' : List SystemTask} (h : LocksOk tasks locks)
    (hkeys : ∀ k ∈ tasks.map SystemTask.key, k ∈ tasks'.map SystemTask.key) : LocksOk tasks' locks :=
  ⟨h.types, fun l hl => hkeys _ (h.tasks l hl)⟩

theorem LocksOk.filter (h : LocksOk tasks locks) (keep : SystemTaskLock → Bool) : LocksOk tasks (locks.filter keep) :=
  ⟨h.types.sublist (List.filter_sublist.map _), fun l hl => h.tasks l (List.mem_filter.1 hl).1⟩

theorem LocksOk.update (h : LocksOk tasks locks) {w : SystemTaskLock → Prop} [DecidablePred w]
    {f : SystemTaskLock → SystemTaskLock} (htype : ∀ l, w l → (f l).type = l.type)
    (hkey : ∀ l ∈ locks, w l → ((f l).taskID, (f l).type) ∈ tasks.map SystemTask.key) :
    LocksOk tasks (updateWhere w f locks) := by
  refine ⟨?_, fun x hx => ?_⟩
  · have hsame : (updateWhere w f locks).map (·.type) = locks.map (·.type) := by
      rw [updateWhere, List.map_map]
      refine List.map_congr_left fun l _ => ?_
      by_cases hw : w l
      · simp [hw, htype l hw]
      · simp [hw]
    rw [hsame]
    exact h.types
  · obtain ⟨l, hl, ⟨hw, rfl⟩ | ⟨-, rfl⟩⟩ := mem_updateWhere hx
    · exact hkey l hl hw
    · exact h.tasks x hl

theorem LocksOk.insert (h : LocksOk tasks locks) {lock : SystemTaskLock} (htype : lock.type ∉ locks.map (·.type))
    (hkey : (lock.taskID, lock.type) ∈ tasks.map SystemTask.key) : LocksOk tasks (locks ++ [lock]) := by
  refine ⟨?_, fun l hl => ?_⟩
  · rw [List.map_append, List.map_singleton, List.nodup_append]
    refine ⟨h.types, List.nodup_singleton _, fun x hx y hy heq => htype ?_⟩
    obtain rfl : y = lock.type := List.mem_singleton.1 hy
    exact heq ▸ hx
  · rcases List.mem_append.1 hl with hl | hl
    · exact h.tasks l hl
    · rw [List.mem_singleton.1 hl]
      exact hkey

theorem LocksOk.type_eq (h : LocksOk tasks locks) (hids : (tasks.map (·.taskID)).Nodup) {l : SystemTaskLock}
    (hl : l ∈ locks) {type : String} (hkey : (l.taskID, type) ∈ tasks.map SystemTask.key) : l.type = type := by
  obtain ⟨t, ht, heq⟩ := List.mem_map.1 (h.tasks l hl)
  obtain ⟨u, hu, hequ⟩ := List.mem_map.1 hkey
  have hid : t.taskID = u.taskID := (congrArg Prod.fst heq).trans (congrArg Prod.fst hequ).symm
  obtain rfl : t = u := List.inj_on_of_nodup_map hids ht hu hid
  exact (congrArg Prod.snd heq).symm.trans (congrArg Prod.snd hequ)

theorem LocksOk.eq_of_type (h : LocksOk tasks locks) {l l' : SystemTaskLock} (hl : l ∈ locks) (hl' : l' ∈ locks)
    (htype : l.type = l'.type) : l = l' :=
  List.inj_on_of_nodup_map h.types hl hl' htype

/-- Whoever writes under a lock is the only one who holds a lock of the type. -/
theorem not_otherHolds (ht : TasksOk tasks claimed) (hl : LocksOk tasks locks)
    {now' : Int} {t : SystemTask} (hmem : t ∈ tasks) (hg : Guarded locks taskID lockedBy now t) :
    ¬ OtherHolds locks t.type lockedBy now' := by
  rintro ⟨l', hl', htype', -, hne⟩
  obtain ⟨-, -, -, l, hlmem, hid, hby, -⟩ := hg
  have hkey : (l.taskID, t.type) ∈ tasks.map SystemTask.key :=
    List.mem_map.2 ⟨t, hmem, by rw [hid, SystemTask.key]⟩
  have htype : l.type = t.type := hl.type_eq ht.taskIDs hlmem hkey
  obtain rfl := hl.eq_of_type hlmem hl' (htype.trans htype'.symm)
  exact hne hby

/-! ### The invariant -/

def PhaseOk (tasks : List SystemTask) : Phase → Prop
  | .acquireInsert c => (c.taskID, c.type) ∈ tasks.map SystemTask.key
  | .acquireRead c => (c.taskID, c.type) ∈ tasks.map SystemTask.key
  | .takeover c expiredTaskID =>
    (c.taskID, c.type) ∈ tasks.map SystemTask.key ∧ (expiredTaskID, c.type) ∈ tasks.map SystemTask.key
  | _ => True

structure Inv (s : State n) : Prop where
  tasks : TasksOk s.tasks s.claimed
  locks : LocksOk s.tasks s.locks
  phase : ∀ p, PhaseOk s.tasks (s.phase p)
  wrote : ∀ other ∈ s.wrote, other = false

theorem inv_init : Inv (init n) where
  tasks := ⟨by simp [init], .nil, .nil, rfl, by simp [init], by simp [init], .nil⟩
  locks := ⟨.nil, by simp [init]⟩
  phase _ := trivial
  wrote := by simp [init]

theorem PhaseOk.mono {tasks' : List SystemTask} (h : PhaseOk tasks q)
    (hkeys : ∀ k ∈ tasks.map SystemTask.key, k ∈ tasks'.map SystemTask.key) : PhaseOk tasks' q := by
  cases q with
  | acquireInsert | acquireRead => exact hkeys _ h
  | takeover => exact ⟨hkeys _ h.1, hkeys _ h.2⟩
  | _ => trivial

theorem Inv.move (h : Inv s) (hphase : t.phase = Function.update s.phase p q)
    (hkeys : ∀ k ∈ s.tasks.map SystemTask.key, k ∈ t.tasks.map SystemTask.key)
    (htasks : TasksOk t.tasks t.claimed) (hlocks : LocksOk t.tasks t.locks) (hq : PhaseOk t.tasks q)
    (hwrote : ∀ other ∈ t.wrote, other ∈ s.wrote ∨ other = false) : Inv t := by
  refine ⟨htasks, hlocks, ?_, fun other ho => ?_⟩
  · rw [hphase]
    exact (Function.forall_update_iff s.phase fun _ => PhaseOk t.tasks).2
      ⟨hq, fun p' _ => (h.phase p').mono hkeys⟩
  · rcases hwrote other ho with ho | ho
    · exact h.wrote other ho
    · exact ho

theorem Inv.setPhase (h : Inv s) (hq : PhaseOk s.tasks q) :
    Inv (s.setPhase p q) :=
  h.move rfl (fun _ hk => hk) h.tasks h.locks hq fun _ ho => .inl ho

theorem Inv.setLocks (h : Inv s) {locks : List SystemTaskLock}
    (hlocks : LocksOk s.tasks locks) (hq : PhaseOk s.tasks q) : Inv { s.setPhase p q with locks := locks } :=
  h.move rfl (fun _ hk => hk) h.tasks hlocks hq fun _ ho => .inl ho

theorem Inv.mark (h : Inv s) (hq : PhaseOk s.tasks q) :
    Inv ((s.markSystemTaskLeaseExpired taskID).setPhase p q) := by
  have hmoves := moves_leaseExpired taskID s.now
  have hkeys : ∀ k ∈ s.tasks.map SystemTask.key, k ∈ (s.markSystemTaskLeaseExpired taskID).tasks.map SystemTask.key :=
    fun k hk => (hmoves.keys).symm ▸ hk
  exact h.move rfl hkeys (h.tasks.update hmoves) (h.locks.mono hkeys) (hq.mono hkeys) fun _ ho => .inl ho

theorem Inv.guardedUpdate (h : Inv s)
    {f : SystemTask → SystemTask} (hf : Moves (Guarded s.locks taskID lockedBy now) f)
    (hq : PhaseOk s.tasks q) (ht : s.guardedUpdate taskID lockedBy now f = some t) : Inv (t.setPhase p q) := by
  obtain ⟨-, ht⟩ := Option.ite_none_left_eq_some.1 ht
  cases ht
  have hkeys : ∀ k ∈ s.tasks.map SystemTask.key,
      k ∈ (updateWhere (Guarded s.locks taskID lockedBy now) f s.tasks).map SystemTask.key :=
    fun k hk => (hf.keys).symm ▸ hk
  refine h.move rfl hkeys (h.tasks.update hf) (h.locks.mono hkeys) (hq.mono hkeys) fun other ho => ?_
  rcases List.mem_append.1 ho with ho | ho
  · exact .inl ho
  · obtain ⟨u, hu, rfl⟩ := List.mem_map.1 ho
    obtain ⟨hmem, hg⟩ : u ∈ s.tasks ∧ Guarded s.locks taskID lockedBy now u := by simpa using hu
    exact .inr (decide_eq_false (not_otherHolds h.tasks h.locks hmem hg))

/-! ### Every step -/

theorem phaseOk_nextExpired (rest : List SystemTaskLock) : PhaseOk tasks (nextExpired now rest) := by
  cases rest <;> trivial

theorem phaseOk_failed (h : PhaseOk tasks q) : PhaseOk tasks q.failed := by
  cases q with
  | acquireInsert => exact h
  | _ => trivial

theorem phaseOk_start (c : Call) : PhaseOk tasks (c.start now) := by
  cases c <;> trivial

theorem Inv.exec (h : Inv s) (hq : PhaseOk s.tasks q) : Inv (s.exec p q) := by
  cases q with
  | idle => exact h
  | create taskID type state now =>
    rw [State.exec, State.insertTask]
    split_ifs with hindex
    · exact h.setPhase trivial
    · rw [not_or] at hindex
      have hkeys : ∀ k ∈ s.tasks.map SystemTask.key,
          k ∈ (s.tasks ++ [(⟨s.tasks.length + 1, taskID, type, .pending, some type, state, "", "", "", now⟩ :
            SystemTask)]).map SystemTask.key := fun k hk => by
        rw [List.map_append]
        exact List.mem_append_left _ hk
      exact h.move rfl hkeys (h.tasks.insert hindex.1 hindex.2) (h.locks.mono hkeys) trivial fun _ ho => .inl ho
  | claimRead id type runnerID now lockUntil =>
    simp only [State.exec]
    split
    case h_1 => exact h.setPhase trivial
    case h_2 t ht =>
      have hfound : t.id = id ∧ t.type = type ∧ t.status = .pending := by simpa using List.find?_some ht
      refine h.setPhase (List.mem_map.2 ⟨t, List.mem_of_find?_eq_some ht, ?_⟩)
      rw [SystemTask.key, hfound.2.1]
  | acquireInsert c =>
    simp only [State.exec]
    split_ifs with htype
    · exact h.setPhase hq
    · exact h.setLocks (h.locks.insert htype hq) trivial
  | acquireRead c =>
    simp only [State.exec]
    split
    case h_1 => exact h.setPhase trivial
    case h_2 l hl =>
      have htype : l.type = c.type := by simpa using List.find?_some hl
      split_ifs
      · exact h.setPhase trivial
      · exact h.setPhase ⟨hq, htype ▸ h.locks.tasks l (List.mem_of_find?_eq_some hl)⟩
  | takeover c expiredTaskID =>
    simp only [State.exec]
    split_ifs with hnone hother
    · exact h.setPhase trivial
    · exact h.setLocks (h.locks.update (fun l hw => hw.1.symm) fun _ _ _ => hq.1) trivial
    · exact h.setLocks (h.locks.update (fun l hw => hw.1.symm) fun _ _ _ => hq.1) trivial
  | claimMark c expiredTaskID => exact h.mark trivial
  | claimSwap c =>
    simp only [State.exec]
    split_ifs with hnone
    · exact h.setPhase trivial
    · have hkeys : ∀ k ∈ s.tasks.map SystemTask.key,
          k ∈ (updateWhere (Claimable c) (setClaimed c) s.tasks).map SystemTask.key :=
        fun k hk => ((moves_claimed c).keys).symm ▸ hk
      exact h.move rfl hkeys (h.tasks.claim hnone) (h.locks.mono hkeys) trivial fun _ ho => .inl ho
  | claimReload c => exact h.setPhase trivial
  | updateState taskID lockedBy state now =>
    rw [State.exec]
    cases hu : s.guardedUpdate taskID lockedBy now (setState state now) with
    | none => exact h.setPhase trivial
    | some t => exact h.guardedUpdate (moves_guarded state) trivial hu
  | renew taskID lockedBy lockUntil now =>
    exact h.setLocks (h.locks.update (fun _ _ => rfl) fun l hl _ => h.locks.tasks l hl) trivial
  | finish taskID lockedBy status result error now =>
    rw [State.exec]
    cases hu : s.guardedUpdate taskID lockedBy now (setFinished status result error now) with
    | none => exact h.setPhase trivial
    | some t => exact h.guardedUpdate (moves_finished status result error) trivial hu
  | release taskID lockedBy => exact h.setLocks (h.locks.filter _) trivial
  | expireRead now => exact h.setPhase (phaseOk_nextExpired _)
  | expireMark now lock rest => exact h.mark trivial
  | expireDelete now lock rest => exact h.setLocks (h.locks.filter _) (phaseOk_nextExpired rest)

theorem Inv.step {a : Act n} (h : Inv s) (hstep : step s a = some t) : Inv t := by
  cases a with
  | tick seconds =>
    cases hstep
    exact { h with }
  | call p c =>
    obtain ⟨-, hstep⟩ := Option.ite_none_right_eq_some.1 hstep
    cases hstep
    exact h.setPhase (phaseOk_start c)
  | exec p =>
    cases hstep
    exact h.exec (h.phase p)
  | fail p =>
    cases hstep
    exact h.setPhase (phaseOk_failed (h.phase p))
  | crash p =>
    cases hstep
    exact h.setPhase trivial

/-- In every run: not two tasks of a type are pending or running, and exactly the pending and
running tasks carry an active key, their type; no task is moved from pending to running twice; and
no write of a runner succeeded while another runner held an unexpired lock of the task's type. -/
theorem lease_protocol {l : List (Act n)} {s : State n} (hrun : run step (init n) l = some s) :
    s.tasks.Pairwise (fun t u => ¬ (t.status.Active ∧ u.status.Active ∧ t.type = u.type)) ∧
    (∀ t ∈ s.tasks, t.activeKey = if t.status.Active then some t.type else none) ∧
    s.claimed.Nodup ∧ ∀ other ∈ s.wrote, other = false := by
  have h : Inv s := run_inv (fun _ _ _ hs hstep => Inv.step hs hstep) inv_init hrun
  exact ⟨h.tasks.single, h.tasks.keyed, h.tasks.once, h.wrote⟩

/-- A runner claims a task and stops; its lease expires; the next task of the type is created after
the old one was failed, and another runner claims it, reports and finishes. -/
def twoRunners (p q : Fin 2) : List (Act 2) :=
  [.call p (.createSystemTask "A" "log_cleanup" ""), .exec p,
   .call p (.claimSystemTask 1 "log_cleanup" "r1" 60), .exec p, .exec p, .exec p, .exec p,
   .call p (.updateSystemTaskState "A" "r1" "10"), .exec p, .crash p, .tick 61,
   .call q .expireStaleSystemTaskLocks, .exec q, .exec q, .exec q,
   .call q (.createSystemTask "B" "log_cleanup" ""), .exec q,
   .call q (.claimSystemTask 2 "log_cleanup" "r2" 121), .exec q, .exec q, .exec q, .exec q,
   .call p (.finishSystemTask "A" "r1" .succeeded "" ""), .exec p,
   .call q (.finishSystemTask "B" "r2" .succeeded "" ""), .exec q, .exec q]

theorem lease_protocol_two_runners :
    ∃ s : State 2, run step (init 2) (twoRunners 0 1) = some s ∧ s.tasks.map (·.status) = [.failed, .succeeded] ∧
      s.claimed = [1, 2] ∧ s.wrote = [false, false] ∧ s.claimed.Nodup := by
  obtain ⟨s, hs, ht, hc, hw⟩ : ∃ s : State 2, run step (init 2) (twoRunners 0 1) = some s ∧
      s.tasks.map (·.status) = [.failed, .succeeded] ∧ s.claimed = [1, 2] ∧ s.wrote = [false, false] :=
    ⟨_, rfl, rfl, rfl, rfl⟩
  exact ⟨s, hs, ht, hc, hw, (lease_protocol hs).2.2.1⟩

end TokenEra.SystemTasks
