import TokenEra.Channel.MultiKey
import TokenEra.Lib.Run

/-!
# Polling and key statuses

Calls of `GetNextEnabledKey` and `UpdateChannelStatus` for one channel, with the memory cache off.
The caller of `GetNextEnabledKey` has loaded the channel before; then the call takes the channel's
lock, reads the cursor from the database, and writes `channel_info` from the caller's copy.
`UpdateChannelStatus` takes the lock before it reads. All writes are under the lock, so taking it
and the first read under it are one step.

An update saves what it has read under the lock, so it never moves the cursor. A poll saves the
statuses of the caller's copy: a key that was disabled after the copy was loaded is enabled again
(`disabled_key_enabled`). Disabled keys stay so if none is enabled in the copy (`Current`,
`keys_stay_disabled`).
-/

namespace TokenEra.Channels.Polling

open Lib

inductive Call
  | getNextEnabledKey
  | updateChannelStatus (usingKey : String) (status : Int) (reason : String)
deriving DecidableEq, Repr

inductive Phase
  | start
  | loaded (channel : Channel)
  /-- The copy that is about to be saved, and the key that will be returned. -/
  | polled (channel : Channel) (key : Except KeyError (String × Nat))
  /-- The channel that the update is about to save. -/
  | updated (channel : Channel)
  | key (result : Except KeyError (String × Nat))
  | done (result : Bool)
deriving DecidableEq

def Phase.hasLock : Phase → Bool
  | .polled .. | .updated _ => true
  | _ => false

def Phase.copy? : Phase → Option Channel
  | .polled channel _ => some channel
  | _ => none

structure State (n : Nat) where
  row : Channel
  phase : Fin n → Phase
  /-- The status that the last update of a key that has returned true gave it. -/
  returned : Dict Int Int

inductive Action (n : Nat)
  | load (i : Fin n)
  | poll (i : Fin n) (draw : Nat)
  | savePoll (i : Fin n)
  | readStatus (i : Fin n) (now : Int)
  | saveStatus (i : Fin n)
  | fail (i : Fin n)
deriving DecidableEq

structure Calls (n : Nat) where
  unmarshal : String → Option (List String)
  call : Fin n → Call

variable {n : Nat} (c : Calls n)

def Calls.keys (channel : Channel) : List String := getKeys c.unmarshal channel.key

def init (row : Channel) : State n := ⟨row, fun _ => .start, []⟩

def State.set (s : State n) (i : Fin n) (q : Phase) : State n := { s with phase := Function.update s.phase i q }

def State.isFree (s : State n) (i : Fin n) : Prop := ∀ j, j ≠ i → (s.phase j).hasLock = false

instance (s : State n) (i : Fin n) : Decidable (s.isFree i) :=
  inferInstanceAs (Decidable (∀ j, j ≠ i → (s.phase j).hasLock = false))

def pollPhase (row channel : Channel) (draw : Nat) : Phase :=
  match beforePolling (c.keys channel) draw channel with
  | some result => .key result
  | none =>
    let polled := pollKey (c.keys channel) channel row.channelInfo.multiKeyPollingIndex
    .polled polled.1 polled.2

def readPhase (row : Channel) (usingKey : String) (status : Int) (reason : String) (now : Int) : Phase :=
  if row.status = status then .done false
  else .updated (updateStatus (c.keys row) row usingKey status reason now)

/-- The key of an update that returns true has the status of the update. -/
def noteStatus (returned : Dict Int Int) (k : Option Nat) (status : Int) : Dict Int Int :=
  match k with
  | some k => returned.set k status
  | none => returned

def step (s : State n) : Action n → Option (State n)
  | .load i =>
    match s.phase i, c.call i with
    | .start, .getNextEnabledKey => some (s.set i (.loaded s.row))
    | _, _ => none
  | .poll i draw =>
    match s.phase i with
    | .loaded channel => if s.isFree i then some (s.set i (pollPhase c s.row channel draw)) else none
    | _ => none
  | .savePoll i =>
    match s.phase i with
    | .polled channel key => some ({ s with row := saveChannelInfo s.row channel }.set i (.key key))
    | _ => none
  | .readStatus i now =>
    match s.phase i, c.call i with
    | .start, .updateChannelStatus usingKey status reason =>
      if s.isFree i then some (s.set i (readPhase c s.row usingKey status reason now)) else none
    | _, _ => none
  | .saveStatus i =>
    match s.phase i, c.call i with
    | .updated channel, .updateChannelStatus usingKey status _ =>
      some
        { s.set i (.done true) with
          row := saveStatusState s.row channel
          returned := noteStatus s.returned (keyIndex (c.keys s.row) usingKey) status }
    | _, _ => none
  | .fail i =>
    match s.phase i, c.call i with
    | .start, .updateChannelStatus .. => some (s.set i (.done false))
    | .loaded _, _ => some (s.set i (.key (.error .getChannelFailed)))
    -- a failed save of a poll is ignored
    | .polled _ key, _ => some (s.set i (.key key))
    | .updated _, _ => some (s.set i (.done false))
    | _, _ => none

/-! ### Keys stay disabled -/

/-- A key that an update has disabled is disabled until an update enables it. -/
def KeysStayDisabled (s : State n) : Prop :=
  ∀ k status, s.returned.get? k = some status → status ≠ channelStatusEnabled →
    s.row.channelInfo.keyStatus k ≠ channelStatusEnabled

def CursorKept (s : State n) : Prop :=
  ∀ i s', step c s (.saveStatus i) = some s' →
    s'.row.channelInfo.multiKeyPollingIndex = s.row.channelInfo.multiKeyPollingIndex

/-- A poll saves a copy in which every key is disabled that is disabled in the database. -/
def Current (s : State n) : Action n → Prop
  | .savePoll i => ∀ channel ∈ (s.phase i).copy?, ∀ k ∈ s.row.channelInfo.multiKeyStatusList.keys,
      s.row.channelInfo.keyStatus k ≠ channelStatusEnabled → channel.channelInfo.keyStatus k ≠ channelStatusEnabled
  | _ => True

instance (s : State n) (a : Action n) : Decidable (Current s a) :=
  match a with
  | .savePoll i => inferInstanceAs (Decidable (∀ channel ∈ (s.phase i).copy?, _))
  | .load .. | .poll .. | .readStatus .. | .saveStatus .. | .fail .. => .isTrue trivial

/-- What holds of the copies: they are of a channel with several keys, and an update is about to
save the row with its change. -/
def PhaseOk (s : State n) (i : Fin n) : Phase → Prop
  | .loaded channel | .polled channel _ => channel.channelInfo.isMultiKey = true
  | .updated channel => ∃ usingKey status reason now, c.call i = .updateChannelStatus usingKey status reason ∧
      channel = handlerMultiKeyUpdate (c.keys s.row) s.row usingKey status reason now
  | _ => True

def OneHolds (p q : Phase) : Prop := ¬ (p.hasLock = true ∧ q.hasLock = true)

structure Inv (s : State n) : Prop where
  multi : s.row.channelInfo.isMultiKey = true
  phases : ∀ i, PhaseOk c s i (s.phase i)
  lock : ∀ i j, i ≠ j → OneHolds (s.phase i) (s.phase j)

variable {c}

variable {row : Channel} {i : Fin n} {s s' : State n}

theorem inv_init (h : row.channelInfo.isMultiKey = true) : Inv c (init row) :=
  ⟨h, fun _ => trivial, fun _ _ _ h => by cases h.1⟩

theorem Inv.set (h : Inv c s) {q : Phase} (hq : PhaseOk c s i q)
    (hlock : q.hasLock = true → s.isFree i) : Inv c (s.set i q) where
  multi := h.multi
  phases := (Function.forall_update_iff s.phase (PhaseOk c s)).2 ⟨hq, fun j _ => h.phases j⟩
  lock :=
    have hone : OneInside Phase.hasLock s.phase := h.lock
    hone.update hlock

theorem Inv.isFree (h : Inv c s) (hi : (s.phase i).hasLock = true) : s.isFree i := by
  have hone : OneInside Phase.hasLock s.phase := h.lock
  exact hone.others hi

theorem Inv.setRow (h : Inv c s) (row : Channel) {q : Phase} {returned : Dict Int Int}
    (hi : (s.phase i).hasLock = true) (hrow : row.channelInfo.isMultiKey = true) (hq : PhaseOk c s i q)
    (hlock : q.hasLock = false) : Inv c { s.set i q with row := row, returned := returned } := by
  have hset := h.set hq (fun hheld => absurd hheld (by rw [hlock]; exact Bool.false_ne_true))
  have hfree := h.isFree hi
  refine ⟨hrow, fun j => ?_, hset.lock⟩
  have hold := hset.phases j
  -- no other call is about to save an update
  have hheld := (Function.forall_update_iff s.phase (p := fun _ (q : Phase) => q.hasLock = false)).2 ⟨hlock, hfree⟩ j
  show PhaseOk c _ j (Function.update s.phase i q j)
  change PhaseOk c s j (Function.update s.phase i q j) at hold
  cases hp : Function.update s.phase i q j with
  | updated channel =>
    rw [hp] at hheld
    cases hheld
  | start | key | done => trivial
  | loaded | polled =>
    rw [hp] at hold
    exact hold

theorem phaseOk_pollPhase {channel : Channel} {draw : Nat}
    (h : channel.channelInfo.isMultiKey = true) : PhaseOk c s i (pollPhase c row channel draw) := by
  unfold pollPhase
  split
  · trivial
  · obtain ⟨idx, hidx⟩ := pollKey_info (c.keys channel) channel row.channelInfo.multiKeyPollingIndex
    show (pollKey (c.keys channel) channel row.channelInfo.multiKeyPollingIndex).1.channelInfo.isMultiKey = true
    rw [hidx]
    exact h

theorem phaseOk_readPhase {usingKey : String} {status : Int} {reason : String} {now : Int}
    (h : Inv c s) (hcall : c.call i = .updateChannelStatus usingKey status reason) :
    PhaseOk c s i (readPhase c s.row usingKey status reason now) := by
  unfold readPhase
  split_ifs
  · trivial
  · refine ⟨usingKey, status, reason, now, hcall, ?_⟩
    rw [updateStatus, if_pos h.multi]

theorem channelInfo_saveStatusState {channel : Channel} (h : channel.channelInfo.isMultiKey = true) :
    (saveStatusState row channel).channelInfo = channel.channelInfo := by
  rw [saveStatusState, if_pos h]

theorem Inv.step {a : Action n} (h : Inv c s) (hstep : step c s a = some s') : Inv c s' := by
  cases a with simp only [Polling.step] at hstep
  | load i =>
    split at hstep <;> cases hstep
    · exact h.set (q := .loaded s.row) h.multi (fun hheld => by cases hheld)
  | poll i draw =>
    split at hstep
    · rename_i channel hi
      split_ifs at hstep with hfree
      cases hstep
      have hmulti : PhaseOk c s i (s.phase i) := h.phases i
      rw [hi] at hmulti
      exact h.set (phaseOk_pollPhase hmulti) fun _ => hfree
    · cases hstep
  | savePoll i =>
    split at hstep
    · rename_i channel key hi
      cases hstep
      have hmulti : PhaseOk c s i (s.phase i) := h.phases i
      rw [hi] at hmulti
      exact h.setRow (saveChannelInfo s.row channel) (by rw [hi]; rfl) hmulti (q := .key key) trivial rfl
    · cases hstep
  | readStatus i now =>
    split at hstep
    · rename_i usingKey status reason hi hcall
      split_ifs at hstep with hfree
      cases hstep
      exact h.set (phaseOk_readPhase h hcall) fun _ => hfree
    · cases hstep
  | saveStatus i =>
    split at hstep
    · rename_i channel usingKey status reason hi hcall
      cases hstep
      have hok : PhaseOk c s i (s.phase i) := h.phases i
      rw [hi] at hok
      obtain ⟨usingKey', status', reason', now, -, rfl⟩ := hok
      have hmulti : (handlerMultiKeyUpdate (c.keys s.row) s.row usingKey' status' reason' now).channelInfo.isMultiKey =
          true := by
        rw [(handlerMultiKeyUpdate_frame ..).1, h.multi]
      refine h.setRow _ (by rw [hi]; rfl) ?_ (q := .done true) trivial rfl
      rw [channelInfo_saveStatusState hmulti, hmulti]
    · cases hstep
  | fail i =>
    split at hstep <;> cases hstep
    · exact h.set (q := .done false) trivial (fun hheld => by cases hheld)
    · exact h.set (q := .key _) trivial (fun hheld => by cases hheld)
    · exact h.set (q := .key _) trivial (fun hheld => by cases hheld)
    · exact h.set (q := .done false) trivial (fun hheld => by cases hheld)

theorem Inv.saveStatus (h : Inv c s) (hstep : Polling.step c s (.saveStatus i) = some s') :
    ∃ usingKey status reason now, s'.returned = noteStatus s.returned (keyIndex (c.keys s.row) usingKey) status ∧
      s'.row.channelInfo = (handlerMultiKeyUpdate (c.keys s.row) s.row usingKey status reason now).channelInfo := by
  simp only [Polling.step] at hstep
  split at hstep
  · rename_i channel usingKey status reason hi hcall
    cases hstep
    have hok : PhaseOk c s i (s.phase i) := h.phases i
    rw [hi] at hok
    obtain ⟨usingKey', status', reason', now, hcall', rfl⟩ := hok
    rw [hcall] at hcall'
    cases hcall'
    refine ⟨usingKey, status, reason, now, rfl, channelInfo_saveStatusState ?_⟩
    rw [(handlerMultiKeyUpdate_frame ..).1, h.multi]
  · cases hstep

theorem Inv.cursorKept (h : Inv c s) : CursorKept c s := by
  intro i s' hstep
  obtain ⟨usingKey, status, reason, now, -, hinfo⟩ := h.saveStatus hstep
  rw [hinfo, (handlerMultiKeyUpdate_frame ..).2]

theorem mem_keys_of_disabled {info : ChannelInfo} {k : Int} (h : info.keyStatus k ≠ channelStatusEnabled) :
    k ∈ info.multiKeyStatusList.keys := by
  by_contra hmem
  refine h ?_
  have hnone : (info.multiKeyStatusList.find? fun e => e.1 = k) = none := by
    refine List.find?_eq_none.2 fun e he hk => hmem (List.mem_map.2 ⟨e, he, ?_⟩)
    simpa using hk
  rw [ChannelInfo.keyStatus, Dict.get?, hnone]
  rfl

theorem KeysStayDisabled.step {a : Action n} (h : KeysStayDisabled s) (hinv : Inv c s)
    (ha : Current s a) (hstep : step c s a = some s') : KeysStayDisabled s' := by
  cases a with simp only [Polling.step] at hstep
  | savePoll i =>
    split at hstep
    · rename_i channel key hi
      cases hstep
      intro k status hk hstatus
      have hdisabled := h k status hk hstatus
      exact ha channel (by rw [hi]; rfl) k (mem_keys_of_disabled hdisabled) hdisabled
    · cases hstep
  | saveStatus i =>
    obtain ⟨usingKey, status, reason, now, hreturned, hinfo⟩ := hinv.saveStatus hstep
    intro k status' hk hstatus'
    rw [hreturned] at hk
    rw [hinfo, keyStatus_handlerMultiKeyUpdate]
    cases hidx : keyIndex (c.keys s.row) usingKey with
    | none =>
      rw [hidx] at hk
      exact h k status' hk hstatus'
    | some k₀ =>
      rw [hidx, noteStatus, Dict.get?_set] at hk
      by_cases heq : k = k₀
      · rw [if_pos heq] at hk
        cases hk
        rwa [if_pos (by rw [heq]; rfl)]
      · rw [if_neg heq] at hk
        have hne : (some k₀).map Int.ofNat ≠ some k := fun hsome => heq (Option.some.inj hsome).symm
        rw [if_neg hne]
        exact h k status' hk hstatus'
  | load i =>
    split at hstep <;> cases hstep
    exact h
  | poll i draw =>
    split at hstep
    · split_ifs at hstep
      cases hstep
      exact h
    · cases hstep
  | readStatus i now =>
    split at hstep
    · split_ifs at hstep
      cases hstep
      exact h
    · cases hstep
  | fail i =>
    split at hstep <;> cases hstep <;> exact h

/-- However the calls interleave, no update moves the cursor; and if every poll saves a copy in
which the keys are disabled that are disabled in the database, a key that an update has disabled
stays disabled until an update enables it. -/
theorem keys_stay_disabled (c : Calls n) (row : Channel) (hmulti : row.channelInfo.isMultiKey = true)
    (l : List (Action n)) (s : State n) (hrun : run (step c) (init row) l = some s) :
    CursorKept c s ∧ (Along (step c) Current (init row) l → KeysStayDisabled s) := by
  have hinv : Inv c s := run_inv (fun _ _ _ h hstep => h.step hstep) (inv_init hmulti) hrun
  refine ⟨hinv.cursorKept, fun hl => ?_⟩
  have hboth : Inv c s ∧ KeysStayDisabled s := by
    refine run_inv_along (I := fun s => Inv c s ∧ KeysStayDisabled s) ?_ ⟨inv_init hmulti, ?_⟩ hl hrun
    · intro s a t h ha hstep
      exact ⟨h.1.step hstep, h.2.step h.1 ha hstep⟩
    · intro k status hk
      cases hk
  exact hboth.2

def twoKeys : Channel where
  id := 1
  type := 1
  key := "a\nb"
  status := channelStatusEnabled
  otherInfo := []
  channelInfo := ⟨true, 2, [], [], [], 0, .polling⟩
  otherSettings := ""

def pollAndDisable : Calls 2 where
  unmarshal _ := none
  call i := if i = 0 then .getNextEnabledKey else .updateChannelStatus "a" channelStatusAutoDisabled "rejected"

theorem keys_stay_disabled_load_after :
    ∃ s, run (step pollAndDisable) (init twoKeys) [.readStatus 1 5, .saveStatus 1, .load 0, .poll 0 0, .savePoll 0] =
        some s ∧
      s.phase 0 = .key (.ok ("b", 1)) ∧ s.returned = [(0, channelStatusAutoDisabled)] ∧ CursorKept pollAndDisable s ∧
      KeysStayDisabled s := by
  have hread : (run (step pollAndDisable) (init twoKeys)
      [.readStatus 1 5, .saveStatus 1, .load 0, .poll 0 0, .savePoll 0]).map (fun s => (s.phase 0, s.returned)) =
        some (.key (.ok ("b", 1)), [(0, channelStatusAutoDisabled)]) := by decide +kernel
  obtain ⟨s, hs, hst⟩ := Option.map_eq_some_iff.1 hread
  rw [Prod.mk.injEq] at hst
  have hkeys := keys_stay_disabled pollAndDisable twoKeys rfl _ s hs
  exact ⟨s, hs, hst.1, hst.2, hkeys.1, hkeys.2 (by decide +kernel)⟩

/-- The copy is loaded before the update: the poll enables the key again. -/
theorem disabled_key_enabled :
    ¬ ∀ (c : Calls 2) (row : Channel), row.channelInfo.isMultiKey = true → row.channelInfo.multiKeyMode = .polling →
      ∀ (l : List (Action 2)) (s : State 2), run (step c) (init row) l = some s →
        CursorKept c s ∧ KeysStayDisabled s := by
  intro h
  have hread : (run (step pollAndDisable) (init twoKeys)
      [.load 0, .readStatus 1 5, .saveStatus 1, .poll 0 0, .savePoll 0]).map
        (fun s => (s.returned.get? 0, s.row.channelInfo.keyStatus 0)) =
      some (some channelStatusAutoDisabled, channelStatusEnabled) := by decide +kernel
  obtain ⟨s, hs, hst⟩ := Option.map_eq_some_iff.1 hread
  rw [Prod.mk.injEq] at hst
  exact (h pollAndDisable twoKeys rfl rfl _ s hs).2 0 channelStatusAutoDisabled hst.1 (by decide) hst.2

end TokenEra.Channels.Polling
