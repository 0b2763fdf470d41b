import TokenEra.Channel.Choice
import TokenEra.Channel.MultiKey
import TokenEra.Lib.Run

/-!
# The statuses in the cache and in the database

`UpdateChannelStatus` of a channel with several keys, with the memory cache on. The update is made
twice, to the cached channel and to the row that it reads from the database, and the second time
only if the row does not have the status already. That is a question about the channel, while the
update may be about one of its keys: then the cache has an update that the database has not
(`key_enabled_in_cache`). The two stay equal exactly if that does not come up (`same_iff`).
-/

namespace TokenEra.Channels.Synced

open Lib Routing

structure State where
  channels : List Channel
  cache : Cache

structure Call where
  usingKey : String
  status : Int
  reason : String
  now : Int

variable (p : Parsers) (unmarshal : String → Option (List String)) (rows : List BindingRow) (id : Int)

/-- `InitChannelCache`. -/
def State.refresh (s : State) : State where
  channels := s.channels.map (repair p)
  cache := initChannelCache p s.cache s.channels rows

def updateCached (s : State) (call : Call) : Option State :=
  match findRow Channel.id id s.cache.channelsIDM with
  | none => none
  | some cached =>
    if cached.channelInfo.isMultiKey then
      let update := fun channel : Channel =>
        handlerMultiKeyUpdate (getKeys unmarshal channel.key) channel call.usingKey call.status call.reason call.now
      let cache := { s.cache with
        channelsIDM := updateWhere (fun channel => channel.id = id) update s.cache.channelsIDM }
      some { s with
        cache := if cached.status ≠ (update cached).status then cacheUpdateChannelStatus id
          (update cached).status cache else cache }
    else if cached.status = call.status then none
    else some { s with cache := cacheUpdateChannelStatus id call.status s.cache }

def updateStored (s : State) (call : Call) : State × Bool :=
  match findRow Channel.id id s.channels with
  | none => (s, false)
  | some row =>
    if row.status = call.status then (s, false)
    else
      let updated := updateStatus (getKeys unmarshal row.key) row call.usingKey call.status call.reason call.now
      let saved := { s with
        channels :=
          updateWhere (fun row => row.id = id) (fun row => saveStatusState row updated) s.channels }
      (if row.channelInfo.isMultiKey ∧ row.status = updated.status then saved else saved.refresh p rows, true)

def updateChannelStatus (s : State) (call : Call) : State × Bool :=
  match updateCached unmarshal id s call with
  | none => (s, false)
  | some s => updateStored p unmarshal rows id s call

/-! ### One channel -/

def Same (a b : Channel) : Prop :=
  a.status = b.status ∧ ∀ k, a.channelInfo.multiKeyStatusList.get? k = b.channelInfo.multiKeyStatusList.get? k

def entryOf (status : Int) : Option Int := if status = channelStatusEnabled then none else some status

variable {status now : Int} {reason : String}

theorem get?_setKeyStatus (info : ChannelInfo) (k : Nat) (k' : Int) :
    (info.setKeyStatus k status reason now).multiKeyStatusList.get? k' =
      if k' = k then entryOf status else info.multiKeyStatusList.get? k' := by
  unfold ChannelInfo.setKeyStatus entryOf
  split_ifs <;> simp [Dict.get?_delete, Dict.get?_set, *]

theorem hasEnabledMultiKey_congr {info info' : ChannelInfo} (keys : List String)
    (h : ∀ k, info.multiKeyStatusList.get? k = info'.multiKeyStatusList.get? k) :
    hasEnabledMultiKey keys info = hasEnabledMultiKey keys info' := by
  have hstatus : ∀ k, info.keyStatus k = info'.keyStatus k := fun k => by
    rw [ChannelInfo.keyStatus, ChannelInfo.keyStatus, h]
  simp only [hasEnabledMultiKey, hstatus]

variable {keys : List String} {cached stored : Channel} {s : State}

variable {channel : Channel}

theorem handler_of_key {usingKey : String} {k : Nat} (h : keyIndex keys usingKey = some k) :
    (∀ k', (handlerMultiKeyUpdate keys channel usingKey status reason now).channelInfo.multiKeyStatusList.get? k' =
        if k' = k then entryOf status else channel.channelInfo.multiKeyStatusList.get? k') ∧
      (handlerMultiKeyUpdate keys channel usingKey status reason now).status =
        if hasEnabledMultiKey keys (channel.channelInfo.setKeyStatus k status reason now) then
          if status = channelStatusEnabled then channelStatusEnabled else channel.status
        else channelStatusAutoDisabled := by
  constructor
  · intro k'
    rw [channelInfo_handlerMultiKeyUpdate, h]
    exact get?_setKeyStatus _ _ _
  · have hkeys : keys ≠ [] := by
      rintro rfl
      cases h
    rw [handlerMultiKeyUpdate, if_neg hkeys, h]
    dsimp only
    split_ifs <;> rfl

theorem handler_of_no_key {usingKey : String} (h : keyIndex keys usingKey = none) :
    (handlerMultiKeyUpdate keys channel usingKey status reason now).channelInfo = channel.channelInfo ∧
      (handlerMultiKeyUpdate keys channel usingKey status reason now).status =
        if keys ≠ [] ∧ usingKey ≠ "" then channel.status else status := by
  rw [channelInfo_handlerMultiKeyUpdate, h]
  refine ⟨rfl, ?_⟩
  unfold handlerMultiKeyUpdate
  rw [h]
  by_cases hkeys : keys = []
  · rw [if_pos hkeys, if_neg (fun hboth => hboth.1 hkeys)]
  · rw [if_neg hkeys]
    dsimp only
    split_ifs <;> first | rfl | tauto

theorem same_handler {a b : Channel} (h : Same a b) (call : Call) :
    Same (handlerMultiKeyUpdate keys a call.usingKey call.status call.reason call.now)
      (handlerMultiKeyUpdate keys b call.usingKey call.status call.reason call.now) := by
  cases hkey : keyIndex keys call.usingKey with
  | none =>
    obtain ⟨ha, hastatus⟩ := handler_of_no_key hkey
    obtain ⟨hb, hbstatus⟩ := handler_of_no_key hkey
    rw [Same, ha, hb, hastatus, hbstatus, h.1]
    exact ⟨rfl, h.2⟩
  | some k =>
    obtain ⟨ha, hastatus⟩ := handler_of_key hkey
    obtain ⟨hb, hbstatus⟩ := handler_of_key hkey
    have hentries : ∀ k', (a.channelInfo.setKeyStatus k call.status call.reason call.now).multiKeyStatusList.get? k' =
        (b.channelInfo.setKeyStatus k call.status call.reason call.now).multiKeyStatusList.get? k' := by
      intro k'
      rw [get?_setKeyStatus, get?_setKeyStatus, h.2]
    have henabled := hasEnabledMultiKey_congr keys hentries
    rw [Same, hastatus, hbstatus, henabled, h.1]
    exact ⟨rfl, fun k' => by rw [ha, hb, h.2]⟩

def Recorded (keys : List String) (channel : Channel) (usingKey : String) (status : Int) : Prop :=
  ∀ k, keyIndex keys usingKey = some k →
    channel.channelInfo.multiKeyStatusList.get? k = entryOf status ∧
      (status = channelStatusEnabled ∨ status = channelStatusAutoDisabled ∨ hasEnabledMultiKey keys channel.channelInfo)

/-- An update with the channel's own status changes nothing exactly if it is about no key or one
that has it. -/
theorem same_handler_self_iff {channel : Channel} {call : Call} (h : channel.status = call.status) :
    Same (handlerMultiKeyUpdate keys channel call.usingKey call.status call.reason call.now) channel ↔
      Recorded keys channel call.usingKey call.status := by
  cases hkey : keyIndex keys call.usingKey with
  | none =>
    obtain ⟨hinfo, hstatus⟩ := handler_of_no_key hkey
    rw [Same, hinfo, hstatus, h, ite_self]
    refine iff_of_true ⟨rfl, fun _ => rfl⟩ fun k hk => ?_
    rw [hkey] at hk
    cases hk
  | some k =>
    obtain ⟨hentries, hstatus⟩ := handler_of_key hkey
    have hlist : (∀ k', (handlerMultiKeyUpdate keys channel call.usingKey call.status call.reason
        call.now).channelInfo.multiKeyStatusList.get? k' = channel.channelInfo.multiKeyStatusList.get? k') ↔
          channel.channelInfo.multiKeyStatusList.get? k = entryOf call.status := by
      constructor
      · intro hsame
        rw [← hsame k, hentries, if_pos rfl]
      · intro hentry k'
        rw [hentries]
        split_ifs with hk
        · rw [hk, hentry]
        · rfl
    have hrecorded : Recorded keys channel call.usingKey call.status ↔
        channel.channelInfo.multiKeyStatusList.get? k = entryOf call.status ∧ (call.status = channelStatusEnabled ∨
          call.status = channelStatusAutoDisabled ∨ hasEnabledMultiKey keys channel.channelInfo) := by
      rw [Recorded, hkey]
      simp
    rw [hrecorded, Same, hlist, and_comm]
    refine and_congr_right fun hentry => ?_
    have henabled : hasEnabledMultiKey keys (channel.channelInfo.setKeyStatus k call.status call.reason call.now) =
        hasEnabledMultiKey keys channel.channelInfo := by
      refine hasEnabledMultiKey_congr keys fun k' => ?_
      rw [get?_setKeyStatus]
      split_ifs with hk
      · rw [hk, hentry]
      · rfl
    -- an enabled key is one of the enabled keys
    have hself : call.status = channelStatusEnabled → hasEnabledMultiKey keys channel.channelInfo = true := by
      intro hon
      rw [entryOf, if_pos hon] at hentry
      refine List.any_eq_true.2 ⟨k, List.mem_range.2 ?_, ?_⟩
      · exact (List.findIdx?_eq_some_iff_getElem.1 hkey).1
      · simp [ChannelInfo.keyStatus, hentry]
    rw [hstatus, henabled, h]
    by_cases hon : call.status = channelStatusEnabled
    · simp [hon, hself hon]
    · cases hasEnabledMultiKey keys channel.channelInfo <;> simp [hon, eq_comm]

/-! ### Calls -/

structure Cached (s : State) (cached stored : Channel) : Prop where
  inCache : findRow Channel.id id s.cache.channelsIDM = some cached
  inDatabase : findRow Channel.id id s.channels = some stored
  cachedMulti : cached.channelInfo.isMultiKey = true
  storedMulti : stored.channelInfo.isMultiKey = true
  key : cached.key = stored.key

theorem key_handlerMultiKeyUpdate (usingKey : String) :
    (handlerMultiKeyUpdate keys channel usingKey status reason now).id = channel.id ∧
      (handlerMultiKeyUpdate keys channel usingKey status reason now).key = channel.key := by
  unfold handlerMultiKeyUpdate
  by_cases hkeys : keys = []
  · rw [if_pos hkeys]
    exact ⟨rfl, rfl⟩
  rw [if_neg hkeys]
  cases keyIndex keys usingKey with
  | none =>
    dsimp only
    split_ifs <;> exact ⟨rfl, rfl⟩
  | some k =>
    dsimp only
    split_ifs <;> exact ⟨rfl, rfl⟩

theorem updateCached_spec (h : Cached id s cached stored) (call : Call) :
    ∃ t, updateCached unmarshal id s call = some t ∧
      Cached id t (handlerMultiKeyUpdate (getKeys unmarshal cached.key) cached call.usingKey
        call.status call.reason call.now)
        stored := by
  obtain ⟨hcache, hdb, hmulti, hstored, hkey⟩ := h
  set update := fun channel : Channel =>
    handlerMultiKeyUpdate (getKeys unmarshal channel.key) channel call.usingKey call.status
      call.reason call.now with hupdate
  have hid : ∀ channel, (update channel).id = channel.id := fun channel => (key_handlerMultiKeyUpdate _).1
  have hfind : findRow Channel.id id (updateWhere (fun channel => channel.id = id) update s.cache.channelsIDM) =
      some (update cached) := by
    rw [findRow_updateWhere hid, hcache, Option.map_some]
  rw [updateCached, hcache]
  dsimp only
  rw [if_pos hmulti]
  refine ⟨_, rfl, ?_, hdb, ?_, hstored, ?_⟩
  · split_ifs
    · rw [cacheUpdateChannelStatus]
      dsimp only
      rw [findRow_updateWhere (f := fun channel : Channel =>
        { channel with status := (update cached).status }) fun _ => rfl, hfind]
      rfl
    · exact hfind
  · exact (handlerMultiKeyUpdate_frame _ _ _ _ _ _).1.trans hmulti
  · exact (key_handlerMultiKeyUpdate _).2.trans hkey

theorem repair_eq :
    repair p channel = { channel with otherSettings := (repair p channel).otherSettings } := by
  unfold repair
  split_ifs <;> rfl

theorem rebuilt_frame (old : List Channel) (channel : Channel) :
    let rebuilt := keepPollingIndex old (repair p channel)
    rebuilt.key = channel.key ∧ rebuilt.channelInfo.isMultiKey = channel.channelInfo.isMultiKey ∧
      Same rebuilt channel := by
  have hkeep : ∀ c, ∃ cursor, keepPollingIndex old c =
      { c with channelInfo := { c.channelInfo with multiKeyPollingIndex := cursor } } := by
    intro c
    unfold keepPollingIndex
    split
    · split_ifs
      · exact ⟨_, rfl⟩
      · exact ⟨c.channelInfo.multiKeyPollingIndex, rfl⟩
    · exact ⟨c.channelInfo.multiKeyPollingIndex, rfl⟩
  intro rebuilt
  obtain ⟨cursor, hcursor⟩ := hkeep (repair p channel)
  simp only [rebuilt, hcursor]
  rw [repair_eq]
  exact ⟨rfl, rfl, rfl, fun _ => rfl⟩

theorem cached_refresh {row : Channel} (h : findRow Channel.id id s.channels = some row)
    (hmulti : row.channelInfo.isMultiKey = true) :
    ∃ cached stored, Cached id (s.refresh p rows) cached stored ∧ Same cached stored := by
  obtain ⟨hkey, hkept, hstatus, hlist⟩ := rebuilt_frame p s.cache.channelsIDM row
  refine ⟨keepPollingIndex s.cache.channelsIDM (repair p row), repair p row, ⟨?_, ?_, ?_, ?_, ?_⟩, ?_, fun k => ?_⟩
  · rw [State.refresh, findRow_channelsIDM, h, Option.map_some]
  · rw [State.refresh, findRow_map (id_repair p), h, Option.map_some]
  · rw [hkept, hmulti]
  · rw [repair_eq]
    exact hmulti
  · rw [hkey, repair_eq]
  · rw [hstatus, repair_eq]
  · rw [hlist, repair_eq]

theorem updateStored_spec (h : Cached id s cached stored) (call : Call) :
    ∃ cached' stored', Cached id (updateStored p unmarshal rows id s call).1 cached' stored' ∧
      (stored.status = call.status → cached' = cached ∧ stored' = stored) ∧
      (stored.status ≠ call.status →
        Same cached (handlerMultiKeyUpdate (getKeys unmarshal stored.key) stored call.usingKey
        call.status call.reason call.now) → Same cached' stored') := by
  rw [updateStored, h.inDatabase]
  dsimp only
  by_cases hstatus : stored.status = call.status
  · rw [if_pos hstatus]
    exact ⟨cached, stored, h, fun _ => ⟨rfl, rfl⟩, fun hne => absurd hstatus hne⟩
  rw [if_neg hstatus, updateStatus, if_pos h.storedMulti]
  set updated := handlerMultiKeyUpdate (getKeys unmarshal stored.key) stored call.usingKey
    call.status call.reason call.now
  have hmulti : updated.channelInfo.isMultiKey = true := (handlerMultiKeyUpdate_frame _ _ _ _ _ _).1.trans h.storedMulti
  have hfind : findRow Channel.id id
    (updateWhere (fun row => row.id = id) (fun row => saveStatusState row updated) s.channels) =
      some (saveStatusState stored updated) := by
    rw [findRow_updateWhere (f := fun row => saveStatusState row updated) fun _ => rfl, h.inDatabase, Option.map_some]
  have hinfo : (saveStatusState stored updated).channelInfo = updated.channelInfo := if_pos hmulti
  by_cases hsame : stored.channelInfo.isMultiKey = true ∧ stored.status = updated.status
  · rw [if_pos hsame]
    refine ⟨cached, _, ⟨h.inCache, hfind, h.cachedMulti, by rw [hinfo, hmulti], h.key⟩, fun heq =>
      absurd heq hstatus, ?_⟩
    rintro - ⟨hst, hlist⟩
    exact ⟨hst, fun k => by rw [hlist, hinfo]⟩
  · rw [if_neg hsame]
    obtain ⟨cached', stored', hcached, heq⟩ := cached_refresh p rows id
      (s := { s with
        channels :=
          updateWhere (fun row => row.id = id) (fun row => saveStatusState row updated) s.channels })
      hfind (by rw [hinfo, hmulti])
    exact ⟨cached', stored', hcached, fun hst => absurd hst hstatus, fun _ _ => heq⟩

/-! ### Runs of calls -/

def step (s : State) (call : Call) : Option State := some (updateChannelStatus p unmarshal rows id s call).1

def SameIn (s : State) : Prop := ∀ cached stored, Cached id s cached stored → Same cached stored

/-- A call with the status that the channel has is about no key, or about one that has the status
too. -/
def NoKeyLeft (s : State) (call : Call) : Prop :=
  ∀ channel, findRow Channel.id id s.cache.channelsIDM = some channel → channel.status = call.status →
    Recorded (getKeys unmarshal channel.key) channel call.usingKey call.status

theorem Cached.unique {cached' stored' : Channel} (h : Cached id s cached stored)
    (h' : Cached id s cached' stored') : cached' = cached ∧ stored' = stored :=
  ⟨Option.some.inj (h'.inCache.symm.trans h.inCache), Option.some.inj (h'.inDatabase.symm.trans h.inDatabase)⟩

/-- A call keeps the two equal exactly if it leaves no key. -/
theorem step_same_iff (h : Cached id s cached stored) (hsame : Same cached stored) (call : Call) :
    ∃ cached' stored', Cached id (updateChannelStatus p unmarshal rows id s call).1 cached' stored' ∧
      (Same cached' stored' ↔ NoKeyLeft unmarshal id s call) := by
  obtain ⟨t, ht, hcached⟩ := updateCached_spec unmarshal id h call
  obtain ⟨cached', stored', hafter, hkept, hsaved⟩ := updateStored_spec p unmarshal rows id hcached call
  refine ⟨cached', stored', by rwa [updateChannelStatus, ht], ?_⟩
  have hleft : NoKeyLeft unmarshal id s call ↔
      (cached.status = call.status → Recorded (getKeys unmarshal cached.key) cached call.usingKey call.status) := by
    rw [NoKeyLeft, h.inCache]
    simp
  rw [hleft]
  by_cases hstatus : cached.status = call.status
  · obtain ⟨rfl, rfl⟩ := hkept (hsame.1.symm.trans hstatus)
    rw [forall_prop_of_true hstatus, ← same_handler_self_iff hstatus]
    exact ⟨fun heq => ⟨heq.1.trans hsame.1.symm, fun k => (heq.2 k).trans (hsame.2 k).symm⟩,
      fun heq => ⟨heq.1.trans hsame.1, fun k => (heq.2 k).trans (hsame.2 k)⟩⟩
  · refine iff_of_true (hsaved (fun heq => hstatus (hsame.1.trans heq)) ?_) fun heq => absurd heq hstatus
    rw [← h.key]
    exact same_handler hsame call

/-- **The statuses in the cache and in the database stay equal exactly if no call with the status
that the channel has is about a key without it.** -/
theorem same_iff (s : State) (cached stored : Channel) (h : Cached id s cached stored) (hsame : Same cached stored)
    (calls : List Call) :
    Along (step p unmarshal rows id)
      (fun s call => SameIn id (updateChannelStatus p unmarshal rows id s call).1) s calls ↔
      Along (step p unmarshal rows id) (NoKeyLeft unmarshal id) s calls := by
  induction calls generalizing s cached stored with
  | nil => exact Iff.rfl
  | cons call calls ih =>
    obtain ⟨cached', stored', hcached, heq⟩ := step_same_iff p unmarshal rows id h hsame call
    have hsameIn : SameIn id (updateChannelStatus p unmarshal rows id s call).1 ↔ NoKeyLeft unmarshal id s call := by
      rw [← heq]
      refine ⟨fun hall => hall _ _ hcached, fun hthis c r hc => ?_⟩
      obtain ⟨rfl, rfl⟩ := Cached.unique id hcached hc
      exact hthis
    rw [Along, Along, hsameIn]
    refine and_congr_right fun hleft => ?_
    simp only [step, Option.some.injEq, forall_eq']
    exact ih _ _ _ hcached (heq.2 hleft)

def firstDisabled : Channel :=
  { channelRow 1 1 "" with
    key := "a\nb"
    channelInfo := ⟨true, 2, [(0, channelStatusAutoDisabled)], [], [], 0, .random⟩ }

def inStep : State := ⟨[firstDisabled], { emptyCache with channelsIDM := [firstDisabled] }⟩

theorem cached_inStep : Cached 1 inStep firstDisabled firstDisabled := ⟨rfl, rfl, rfl, rfl, rfl⟩

theorem same_last_key_disabled :
    let s := (updateChannelStatus noConfig (fun _ => none) [] 1 inStep ⟨"b", channelStatusAutoDisabled, "", 0⟩).1
    SameIn 1 s ∧ s.channels.map Channel.status = [channelStatusAutoDisabled] := by
  refine ⟨((same_iff noConfig (fun _ => none) [] 1 inStep _ _ cached_inStep ⟨rfl, fun _ => rfl⟩ [_]).2 ⟨?_, ?_⟩).1, ?_⟩
  · intro channel hchannel hstatus
    cases hchannel
    exact absurd hstatus (by decide)
  · exact fun _ _ => trivial
  · decide +kernel

/-- The first key of an enabled channel is enabled again, in the cache only. -/
theorem key_enabled_in_cache :
    let s := (updateChannelStatus noConfig (fun _ => none) [] 1 inStep ⟨"a", channelStatusEnabled, "", 0⟩).1
    s.cache.channelsIDM.map (fun c => c.channelInfo.multiKeyStatusList) = [[]] ∧
      s.channels.map (fun c => c.channelInfo.multiKeyStatusList) = [[(0, channelStatusAutoDisabled)]] := by
  decide +kernel

end TokenEra.Channels.Synced
