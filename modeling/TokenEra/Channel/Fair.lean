import TokenEra.Channel.MultiKey
import TokenEra.Lib.RoundRobin

/-!
# Fair polling

`GetNextEnabledKey` with the memory cache on. Its callers have the cached channel itself, not a
copy: the cursor that a call reads through `CacheGetChannelInfo` is the one that the call before has
written, whoever made it. All that depends on the cursor is under the channel's lock, so any number
of callers is one sequence of calls, in the order of the lock.

As long as keys and statuses stay, the calls take turns of the enabled keys (`callKeys_eq`), from
any cursor.
-/

namespace TokenEra.Channels

open Lib

variable (unmarshal : String → Option (List String))

/-- The channel after a call, with the cursor, and what the call returns. `draw` is its random
choice. -/
def getNextEnabledKey (channel : Channel) (draw : Nat) : Channel × Except KeyError (String × Nat) :=
  match beforePolling (getKeys unmarshal channel.key) draw channel with
  | some result => (channel, result)
  | none => pollKey (getKeys unmarshal channel.key) channel channel.channelInfo.multiKeyPollingIndex

def callKeys : Channel → List Nat → List (Except KeyError (String × Nat))
  | _, [] => []
  | channel, draw :: draws =>
    (getNextEnabledKey unmarshal channel draw).2 :: callKeys (getNextEnabledKey unmarshal channel draw).1 draws

def startOf (m : Nat) (cursor : Int) : Nat := if cursor < 0 ∨ m ≤ cursor then 0 else cursor.toNat

theorem startOf_lt {m : Nat} (cursor : Int) (h : 0 < m) : startOf m cursor < m := by
  unfold startOf
  split_ifs <;> omega

theorem startOf_natCast {m i : Nat} (h : i < m) : startOf m i = i := by
  unfold startOf
  rw [if_neg (by omega), Int.toNat_natCast]

/-- The enabled keys in the order in which calls from a cursor come to them. -/
def ahead (keys : List String) (info : ChannelInfo) (cursor : Int) : List Nat :=
  (around keys.length (startOf keys.length cursor)).filter fun i => info.keyStatus i = channelStatusEnabled

theorem ahead_perm {keys : List String} (info : ChannelInfo) (cursor : Int) (h : enabledIdx keys info ≠ []) :
    (ahead keys info cursor).Perm (enabledIdx keys info) := by
  have hkeys : 0 < keys.length := by
    by_contra hempty
    refine h ?_
    rw [enabledIdx, Nat.eq_zero_of_not_pos hempty]
    rfl
  exact (around_perm (startOf_lt cursor hkeys)).filter _

structure Polls (keys : List String) (channel : Channel) : Prop where
  isMultiKey : channel.channelInfo.isMultiKey = true
  mode : channel.channelInfo.multiKeyMode = .polling
  enabled : enabledIdx keys channel.channelInfo ≠ []

theorem beforePolling_of_polls {keys : List String} {channel : Channel} (h : Polls keys channel) (draw : Nat) :
    beforePolling keys draw channel = none := by
  have hkeys : keys ≠ [] := by
    rintro rfl
    exact h.enabled rfl
  obtain ⟨first, rest, henabled⟩ := List.exists_cons_of_ne_nil h.enabled
  simp only [beforePolling, h.isMultiKey, not_true_eq_false, if_false, hkeys, henabled, h.mode]

/-- A call takes the first key ahead, and the next call has it last. -/
theorem getNextEnabledKey_spec {channel : Channel} (h : Polls (getKeys unmarshal channel.key) channel) (draw : Nat) :
    ∃ i rest cursor, ahead (getKeys unmarshal channel.key) channel.channelInfo
      channel.channelInfo.multiKeyPollingIndex = i :: rest ∧
      ahead (getKeys unmarshal channel.key) channel.channelInfo cursor = rest ++ [i] ∧
      getNextEnabledKey unmarshal channel draw =
        ({ channel with channelInfo := { channel.channelInfo with multiKeyPollingIndex := cursor } },
          .ok (keyAt (getKeys unmarshal channel.key) i)) := by
  set keys := getKeys unmarshal channel.key with hkeys
  have hperm := ahead_perm channel.channelInfo channel.channelInfo.multiKeyPollingIndex h.enabled
  have hnext : nextEnabled keys channel.channelInfo channel.channelInfo.multiKeyPollingIndex =
      (ahead keys channel.channelInfo channel.channelInfo.multiKeyPollingIndex).head? := List.head?_filter.symm
  cases hahead : ahead keys channel.channelInfo channel.channelInfo.multiKeyPollingIndex with
  | nil =>
    rw [hahead] at hperm
    exact absurd hperm.nil_eq.symm h.enabled
  | cons i rest =>
    rw [hahead, List.head?_cons] at hnext
    obtain ⟨rest', hbefore, hafter⟩ := filter_around_next hnext
    obtain ⟨-, rfl⟩ := List.cons.inj (hahead.symm.trans hbefore)
    have hpos : 0 < keys.length := by
      rw [List.length_pos_iff]
      rintro hempty
      rw [hempty] at h
      exact h.enabled rfl
    refine ⟨i, rest, ((i + 1) % keys.length : Nat), rfl, ?_, ?_⟩
    · rw [ahead, startOf_natCast (Nat.mod_lt _ hpos)]
      exact hafter
    · rw [getNextEnabledKey, ← hkeys, beforePolling_of_polls h]
      simp only [pollKey, hnext]

theorem callKeys_eq {channel : Channel} (h : Polls (getKeys unmarshal channel.key) channel) (draws : List Nat) :
    callKeys unmarshal channel draws =
      (turns draws.length
        (ahead (getKeys unmarshal channel.key) channel.channelInfo channel.channelInfo.multiKeyPollingIndex)).map
          fun i => .ok (keyAt (getKeys unmarshal channel.key) i) := by
  induction draws generalizing channel with
  | nil => rfl
  | cons draw draws ih =>
    obtain ⟨i, rest, cursor, hahead, hnext, hcall⟩ := getNextEnabledKey_spec unmarshal h draw
    have hpolls : Polls (getKeys unmarshal channel.key)
        { channel with channelInfo := { channel.channelInfo with multiKeyPollingIndex := cursor } } :=
      ⟨h.isMultiKey, h.mode, h.enabled⟩
    rw [callKeys, hcall, ih hpolls, hahead, List.length_cons, turns, List.map_cons]
    congr 3

/-- **Polling is fair: among as many calls in a row as there are enabled keys, each of these keys is
returned once, and no call returns another one.** -/
theorem polling_fair (channel : Channel) (h : Polls (getKeys unmarshal channel.key) channel) (draws : List Nat) :
    (callKeys unmarshal channel draws).length = draws.length ∧
      (∀ result ∈ callKeys unmarshal channel draws,
        ∃ i ∈ enabledIdx (getKeys unmarshal channel.key) channel.channelInfo,
        result = .ok (keyAt (getKeys unmarshal channel.key) i)) ∧
      ∀ before block after, callKeys unmarshal channel draws = before ++ block ++ after →
        block.length = (enabledIdx (getKeys unmarshal channel.key) channel.channelInfo).length →
        block.Perm ((enabledIdx (getKeys unmarshal channel.key) channel.channelInfo).map
          fun i => .ok (keyAt (getKeys unmarshal channel.key) i)) := by
  have hperm := ahead_perm channel.channelInfo channel.channelInfo.multiKeyPollingIndex h.enabled
  rw [callKeys_eq unmarshal h]
  refine ⟨?_, ?_, ?_⟩
  · rw [List.length_map, length_turns]
    intro hnil
    rw [hnil] at hperm
    exact h.enabled hperm.nil_eq.symm
  · intro result hresult
    obtain ⟨i, hi, rfl⟩ := List.mem_map.1 hresult
    exact ⟨i, hperm.mem_iff.1 (turns_subset _ _ hi), rfl⟩
  · intro before block after hsplit hblock
    obtain ⟨l, last, hturns, hl, -⟩ := List.map_eq_append_iff.1 hsplit
    obtain ⟨first, middle, rfl, -, hmiddle⟩ := List.map_eq_append_iff.1 hl
    rw [← hmiddle]
    rw [← hmiddle, List.length_map, ← hperm.length_eq] at hblock
    exact ((perm_of_turns hturns hblock).trans hperm).map _

def fourKeys : Channel where
  id := 1
  type := 1
  key := "a\nb\nc\nd"
  status := channelStatusEnabled
  otherInfo := []
  channelInfo := ⟨true, 4, [(1, channelStatusAutoDisabled)], [], [], 9, .polling⟩
  otherSettings := ""

theorem polling_fair_four_keys :
    let block := [.ok ("c", 2), .ok ("d", 3), .ok ("a", 0)]
    callKeys (fun _ => none) fourKeys [0, 0, 0, 0, 0] = [.ok ("a", 0)] ++ block ++ [.ok ("c", 2)] ∧
      block.Perm ((enabledIdx (getKeys (fun _ => none) fourKeys.key) fourKeys.channelInfo).map
        fun i => .ok (keyAt (getKeys (fun _ => none) fourKeys.key) i)) := by
  intro block
  have hpolls : Polls (getKeys (fun _ => none) fourKeys.key) fourKeys := by
    constructor <;> decide +kernel
  have hcalls : callKeys (fun _ => none) fourKeys [0, 0, 0, 0, 0] = [.ok ("a", 0)] ++ block ++ [.ok ("c", 2)] := by
    decide +kernel
  exact ⟨hcalls, (polling_fair (fun _ => none) fourKeys hpolls [0, 0, 0, 0, 0]).2.2 _ _ _ hcalls (by decide +kernel)⟩

end TokenEra.Channels
