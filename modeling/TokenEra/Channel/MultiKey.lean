import TokenEra.Channel.Model

/-!
# Channels with several keys

`channel_info` is one JSON column with the statuses of a channel's keys and the cursor of its
polling. `GetNextEnabledKey` chooses a key and moves the cursor; `UpdateChannelStatus` changes the
status of one key, or of the channel if it is given none.
-/

namespace TokenEra.Channels

open Lib

/-- `GetKeys`: the members of a JSON array, or the lines. -/
def getKeys (unmarshal : String → Option (List String)) (key : String) : List String :=
  if key = "" then []
  else
    let trimmed := trimSpace key
    match (if hasStart "[" trimmed then unmarshal trimmed else none) with
    | some arr => arr
    | none => ((key.toList.dropWhile (· = '\n')).rdropWhile (· = '\n')).splitOn '\n' |>.map String.ofList

/-- The status of a key; a key that is not in the list is enabled. -/
def ChannelInfo.keyStatus (info : ChannelInfo) (k : Int) : Int :=
  (info.multiKeyStatusList.get? k).getD channelStatusEnabled

/-! ### `GetNextEnabledKey` -/

inductive KeyError
  | noKeysAvailable
  | noEnabledKeys
  | getChannelFailed
deriving DecidableEq, Repr

def enabledIdx (keys : List String) (info : ChannelInfo) : List Nat :=
  (List.range keys.length).filter fun i => info.keyStatus i = channelStatusEnabled

def keyAt (keys : List String) (i : Nat) : String × Nat := (keys.getD i "", i)

/-- `GetNextEnabledKey` up to the point where it reads the cursor: what it returns before that, or
`none` if it goes on. `draw` is the random choice. -/
def beforePolling (keys : List String) (draw : Nat) (channel : Channel) : Option (Except KeyError (String × Nat)) :=
  if ¬ channel.channelInfo.isMultiKey then some (.ok (channel.key, 0))
  else if keys = [] then some (.error .noKeysAvailable)
  else
    match enabledIdx keys channel.channelInfo with
    | [] => some (.error .noEnabledKeys)
    | first :: rest =>
      match channel.channelInfo.multiKeyMode with
      | .random => some (.ok (keyAt keys ((first :: rest).getD (draw % (rest.length + 1)) first)))
      | .polling => none
      | .other _ => some (.ok (keyAt keys first))

def nextEnabled (keys : List String) (info : ChannelInfo) (cursor : Int) : Option Nat :=
  let start := if cursor < 0 ∨ keys.length ≤ cursor then 0 else cursor.toNat
  ((List.range keys.length).map fun i => (start + i) % keys.length).find? fun idx =>
    info.keyStatus idx = channelStatusEnabled

/-- The rest of `GetNextEnabledKey`, with the cursor that it has read: the caller's channel
afterwards, and the key. -/
def pollKey (keys : List String) (channel : Channel) (cursor : Int) : Channel × Except KeyError (String × Nat) :=
  match nextEnabled keys channel.channelInfo cursor with
  | some idx =>
    ({ channel with
        channelInfo := { channel.channelInfo with multiKeyPollingIndex := ((idx + 1) % keys.length : Nat) } },
      .ok (keyAt keys idx))
  | none => (channel, .ok (keyAt keys ((enabledIdx keys channel.channelInfo).headD 0)))

theorem pollKey_info (keys : List String) (channel : Channel) (cursor : Int) :
    ∃ idx, (pollKey keys channel cursor).1.channelInfo = { channel.channelInfo with multiKeyPollingIndex := idx } := by
  unfold pollKey
  split
  · exact ⟨_, rfl⟩
  · exact ⟨channel.channelInfo.multiKeyPollingIndex, rfl⟩

/-! ### `UpdateChannelStatus` -/

def hasEnabledMultiKey (keys : List String) (info : ChannelInfo) : Bool :=
  (List.range keys.length).any fun i => info.keyStatus i = channelStatusEnabled

def ChannelInfo.setKeyStatus (info : ChannelInfo) (k : Nat) (status : Int) (reason : String)
    (now : Int) : ChannelInfo :=
  if status = channelStatusEnabled then { info with multiKeyStatusList := info.multiKeyStatusList.delete k }
  else
    { info with
      multiKeyStatusList := info.multiKeyStatusList.set k status
      multiKeyDisabledReason := info.multiKeyDisabledReason.set k reason
      multiKeyDisabledTime := info.multiKeyDisabledTime.set k now }

def keyIndex (keys : List String) (usingKey : String) : Option Nat := keys.findIdx? (· = usingKey)

def handlerMultiKeyUpdate (keys : List String) (channel : Channel) (usingKey : String) (status : Int) (reason : String)
    (now : Int) : Channel :=
  if keys = [] then { channel with status := status }
  else
    match keyIndex keys usingKey with
    | none => if usingKey ≠ "" then channel else channel.setStatus status reason now
    | some k =>
      let updated := { channel with channelInfo := channel.channelInfo.setKeyStatus k status reason now }
      if ¬ hasEnabledMultiKey keys updated.channelInfo then
        updated.setStatus channelStatusAutoDisabled "All keys are disabled" now
      else if status = channelStatusEnabled then { updated with status := channelStatusEnabled }
      else updated

def updateStatus (keys : List String) (channel : Channel) (usingKey : String) (status : Int) (reason : String)
    (now : Int) : Channel :=
  if channel.channelInfo.isMultiKey then handlerMultiKeyUpdate keys channel usingKey status reason now
  else channel.setStatus status reason now

def saveStatusState (row channel : Channel) : Channel :=
  { row with
    status := channel.status
    otherInfo := channel.otherInfo
    channelInfo := if channel.channelInfo.isMultiKey then channel.channelInfo else row.channelInfo }

def saveChannelInfo (row channel : Channel) : Channel := { row with channelInfo := channel.channelInfo }

/-- What an update changes in `channel_info`: the key that it is about, if there is one. -/
theorem channelInfo_handlerMultiKeyUpdate (keys : List String) (channel : Channel) (usingKey : String) (status : Int)
    (reason : String) (now : Int) :
    (handlerMultiKeyUpdate keys channel usingKey status reason now).channelInfo =
      match keyIndex keys usingKey with
      | none => channel.channelInfo
      | some k => channel.channelInfo.setKeyStatus k status reason now := by
  unfold handlerMultiKeyUpdate
  by_cases hkeys : keys = []
  · subst hkeys
    rfl
  rw [if_neg hkeys]
  cases keyIndex keys usingKey with
  | none =>
    dsimp only
    split_ifs <;> rfl
  | some k =>
    dsimp only
    split_ifs <;> rfl

theorem keyStatus_setKeyStatus (info : ChannelInfo) (k : Nat) (status : Int) (reason : String) (now : Int) (k' : Int) :
    (info.setKeyStatus k status reason now).keyStatus k' = if k' = k then status else info.keyStatus k' := by
  unfold ChannelInfo.setKeyStatus
  split_ifs with hstatus hk hk
  · simp [ChannelInfo.keyStatus, Dict.get?_delete, hk, hstatus]
  · simp [ChannelInfo.keyStatus, Dict.get?_delete, hk]
  · simp [ChannelInfo.keyStatus, Dict.get?_set, hk]
  · simp [ChannelInfo.keyStatus, Dict.get?_set, hk]

theorem handlerMultiKeyUpdate_frame (keys : List String) (channel : Channel) (usingKey : String) (status : Int)
    (reason : String) (now : Int) :
    (handlerMultiKeyUpdate keys channel usingKey status reason now).channelInfo.isMultiKey =
        channel.channelInfo.isMultiKey ∧
      (handlerMultiKeyUpdate keys channel usingKey status reason now).channelInfo.multiKeyPollingIndex =
        channel.channelInfo.multiKeyPollingIndex := by
  rw [channelInfo_handlerMultiKeyUpdate]
  cases keyIndex keys usingKey with
  | none => exact ⟨rfl, rfl⟩
  | some k =>
    simp only [ChannelInfo.setKeyStatus]
    split_ifs <;> exact ⟨rfl, rfl⟩

theorem keyStatus_handlerMultiKeyUpdate (keys : List String) (channel : Channel) (usingKey : String) (status : Int)
    (reason : String) (now k : Int) :
    (handlerMultiKeyUpdate keys channel usingKey status reason now).channelInfo.keyStatus k =
      if (keyIndex keys usingKey).map Int.ofNat = some k then status else channel.channelInfo.keyStatus k := by
  rw [channelInfo_handlerMultiKeyUpdate]
  cases keyIndex keys usingKey with
  | none => rfl
  | some k' =>
    rw [keyStatus_setKeyStatus]
    simp [eq_comm]

end TokenEra.Channels
