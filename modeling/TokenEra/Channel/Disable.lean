import TokenEra.Channel.MultiKey
import TokenEra.Channel.Routing
import TokenEra.Lib.Run

/-!
# Disabled channels

Calls of `UpdateChannelStatus` for channels with one key and rebuilds of the memory cache by
`InitChannelCache`, with the cache on. A rebuild reads the channels, saves those whose settings it
could not read, reads the bindings and publishes; only the publishing is under the lock that
`GetRandomSatisfiedChannel` takes. A call has a lock to itself, and ends with a rebuild of its own.
`GetRandomSatisfiedChannel` is one step that changes nothing.

A rebuild that has read a channel before it was disabled may publish afterwards: the channel has its
routes again (`disabled_channel_chosen`). If whatever a rebuild writes is enabled only where the
database still has it so (`Current`), a disabled channel is not chosen (`stays_disabled`).
-/

namespace TokenEra.Channels.Disable

open Lib Routing

inductive Rebuild
  | idle
  /-- The channels that it has read, and those that it is going to save. -/
  | repairing (channels todo : List Channel)
  | read (channels : List Channel) (rows : List BindingRow)

/-- A read that fails gives no rows, and a save that fails is ignored. -/
inductive RebuildStep
  | readChannels (ok : Bool)
  | saveRepaired (ok : Bool)
  | readBindings (ok : Bool)
  | publish
deriving DecidableEq

inductive Phase
  | start
  | checked
  | cacheUpdated
  | loaded (channel : Channel)
  | refreshing (saved : Bool) (rebuild : Rebuild)
  | done (result : Bool)

def Phase.hasLock : Phase → Bool
  | .start | .done _ => false
  | _ => true

structure State (n m : Nat) where
  channels : List Channel
  cache : Cache
  phase : Fin n → Phase
  rebuild : Fin m → Rebuild
  /-- The channels that a call has disabled and returned true, and that none has enabled since. -/
  disabled : List Int

inductive Action (n m : Nat)
  | check (i : Fin n)
  | updateCache (i : Fin n)
  | load (i : Fin n) (now : Int) (ok : Bool)
  | save (i : Fin n) (ok : Bool)
  | refresh (i : Fin n) (a : RebuildStep)
  | rebuild (j : Fin m) (a : RebuildStep)

structure Calls (n : Nat) where
  parsers : Parsers
  rows : List BindingRow
  channelId : Fin n → Int
  status : Fin n → Int
  reason : Fin n → String

variable {n m : Nat} (c : Calls n)

def init (channels : List Channel) (cache : Cache) : State n m :=
  ⟨channels, cache, fun _ => .start, fun _ => .idle, []⟩

def State.set (s : State n m) (i : Fin n) (q : Phase) : State n m := { s with phase := Function.update s.phase i q }

def State.isFree (s : State n m) : Prop := ∀ j, (s.phase j).hasLock = false

instance (s : State n m) : Decidable s.isFree := inferInstanceAs (Decidable (∀ j, (s.phase j).hasLock = false))

/-- A step of `InitChannelCache`: the channels in the database, the cache, and where it is
afterwards. -/
def rebuildStep (channels : List Channel) (cache : Cache) :
    Rebuild → RebuildStep → Option (List Channel × Cache × Rebuild)
  | .idle, .readChannels ok =>
    let read := if ok then channels else []
    some (channels, cache, .repairing read ((read.filter (needsRepair c.parsers)).map (repair c.parsers)))
  | .repairing read (channel :: todo), .saveRepaired ok =>
    some (if ok then saveRow Channel.id channel channels else channels, cache, .repairing read todo)
  | .repairing read [], .readBindings ok => some (channels, cache, .read read (if ok then c.rows else []))
  | .read read rows, .publish => some (channels, initChannelCache c.parsers cache read rows, .idle)
  | _, _ => none

/-- The check of the cached channel; channels with several keys are not in this system. -/
def checkPhase (cache : Cache) (id status : Int) : Option Phase :=
  match findRow Channel.id id cache.channelsIDM with
  | none => some (.done false)
  | some channel =>
    if channel.channelInfo.isMultiKey then none
    else if channel.status = status then some (.done false)
    else some .checked

def loadPhase (channels : List Channel) (id status : Int) (reason : String) (now : Int) : Option Phase :=
  match findRow Channel.id id channels with
  | none => some (.done false)
  | some channel =>
    if channel.channelInfo.isMultiKey then none
    else if channel.status = status then some (.done false)
    else some (.loaded (channel.setStatus status reason now))

def afterRefresh (saved : Bool) : Rebuild → Phase
  | .idle => .done saved
  | r => .refreshing saved r

/-- A call that has saved a status other than enabled has disabled its channel when it returns. -/
def noteReturn (disabled : List Int) (id status : Int) (saved : Bool) : Rebuild → List Int
  | .idle => if saved ∧ status ≠ channelStatusEnabled then id :: disabled else disabled
  | _ => disabled

def step (s : State n m) : Action n m → Option (State n m)
  | .check i =>
    match s.phase i with
    | .start => if s.isFree then (checkPhase s.cache (c.channelId i) (c.status i)).map (s.set i) else none
    | _ => none
  | .updateCache i =>
    match s.phase i with
    | .checked =>
      some { s.set i .cacheUpdated with cache := cacheUpdateChannelStatus (c.channelId i) (c.status i) s.cache }
    | _ => none
  | .load i now ok =>
    match s.phase i with
    | .cacheUpdated =>
      if ok then (loadPhase s.channels (c.channelId i) (c.status i) (c.reason i) now).map (s.set i)
      else some (s.set i (.done false))
    | _ => none
  | .save i ok =>
    match s.phase i with
    | .loaded channel =>
      if ok then
        some
          { s.set i (.refreshing true .idle) with
            channels := updateWhere (fun row => row.id = c.channelId i)
              (fun row => saveStatusState row channel) s.channels
            disabled :=
              if c.status i = channelStatusEnabled then s.disabled.filter (· ≠ c.channelId i) else s.disabled }
      else some (s.set i (.refreshing false .idle))
    | _ => none
  | .refresh i a =>
    match s.phase i with
    | .refreshing saved r =>
      (rebuildStep c s.channels s.cache r a).map fun next =>
        { s.set i (afterRefresh saved next.2.2) with
          channels := next.1
          cache := next.2.1
          disabled := noteReturn s.disabled (c.channelId i) (c.status i) saved next.2.2 }
    | _ => none
  | .rebuild j a =>
    (rebuildStep c s.channels s.cache (s.rebuild j) a).map fun next =>
      { s with channels := next.1, cache := next.2.1, rebuild := Function.update s.rebuild j next.2.2 }

/-! ### Disabled channels are not chosen -/

def StaysDisabled (s : State n m) : Prop :=
  ∀ id ∈ s.disabled, ∀ model retry requestPath x upstream,
    (getRandomSatisfiedChannel c.parsers s.cache model retry requestPath).result x ≠ .picked id upstream

def Rebuild.writes : Rebuild → List Channel
  | .repairing _ (channel :: _) => [channel]
  | .read channels _ => channels
  | _ => []

/-- What a rebuild writes is enabled only where the database has it so. -/
def CurrentStep (channels : List Channel) (r : Rebuild) : RebuildStep → Prop
  | .saveRepaired _ | .publish => ∀ channel ∈ r.writes, channel.status = channelStatusEnabled →
      ∃ row ∈ channels, row.id = channel.id ∧ row.status = channelStatusEnabled
  | _ => True

instance (channels : List Channel) (r : Rebuild) (a : RebuildStep) : Decidable (CurrentStep channels r a) :=
  match a with
  | .saveRepaired _ | .publish => inferInstanceAs (Decidable (∀ channel ∈ r.writes, _))
  | .readChannels _ | .readBindings _ => .isTrue trivial

def Phase.rebuild : Phase → Rebuild
  | .refreshing _ r => r
  | _ => .idle

def Current (s : State n m) : Action n m → Prop
  | .refresh i a => CurrentStep s.channels (s.phase i).rebuild a
  | .rebuild j a => CurrentStep s.channels (s.rebuild j) a
  | _ => True

instance (s : State n m) (a : Action n m) : Decidable (Current s a) :=
  match a with
  | .refresh i a => inferInstanceAs (Decidable (CurrentStep s.channels (s.phase i).rebuild a))
  | .rebuild j a => inferInstanceAs (Decidable (CurrentStep s.channels (s.rebuild j) a))
  | .check .. | .updateCache .. | .load .. | .save .. => .isTrue trivial

def IsOff (channels : List Channel) (id : Int) :
    Prop := ∀ row ∈ channels, row.id = id → row.status ≠ channelStatusEnabled

def NoRoute (cache : Cache) (id : Int) : Prop := ∀ name, ∀ route ∈ cache.model2routes name, route.channelId ≠ id

def OneHolds (p q : Phase) : Prop := ¬ (p.hasLock = true ∧ q.hasLock = true)

structure Inv (s : State n m) : Prop where
  off : ∀ id ∈ s.disabled, IsOff s.channels id ∧ NoRoute s.cache id
  loaded : ∀ i channel, s.phase i = .loaded channel → channel.status = c.status i
  saved : ∀ i r, s.phase i = .refreshing true r → c.status i ≠ channelStatusEnabled → IsOff s.channels (c.channelId i)
  lock : ∀ i j, i ≠ j → OneHolds (s.phase i) (s.phase j)

variable {c}

theorem inv_init (channels : List Channel) (cache : Cache) : Inv c (init channels cache : State n m) where
  off id hid := by cases hid
  loaded i channel hi := by cases hi
  saved i r hi := by cases hi
  lock i j _ h := by cases h.1

variable {s : State n m} {a : RebuildStep} {cache : Cache} {channels : List Channel} {id : Int}
  {r r' : Rebuild} {i : Fin n} {q : Phase}

theorem Inv.staysDisabled (h : Inv c s) : StaysDisabled c s := by
  intro id hid model retry requestPath x upstream hpicked
  obtain ⟨name, route, hroute, hroute_id⟩ := exists_route_of_picked hpicked
  exact (h.off id hid).2 name route hroute hroute_id

/-! ### A step of a rebuild -/

theorem rebuildStep_isOff {channels' : List Channel} {cache' : Cache}
    (hstep : rebuildStep c channels cache r a = some (channels', cache', r'))
    (hcurrent : CurrentStep channels r a) (hoff : IsOff channels id) : IsOff channels' id := by
  unfold rebuildStep at hstep
  split at hstep
  · cases hstep
    exact hoff
  · rename_i channel todo ok
    cases hstep
    cases ok with
    | false => exact hoff
    | true =>
      intro row hrow hid henabled
      rcases mem_saveRow hrow with rfl | ⟨hrow, -⟩
      · obtain ⟨row', hrow', hid', hstatus⟩ := hcurrent row List.mem_cons_self henabled
        exact hoff row' hrow' (hid'.trans hid) hstatus
      · exact hoff row hrow hid henabled
  · cases hstep
    exact hoff
  · cases hstep
    exact hoff
  · cases hstep

theorem noRoute_initChannelCache {p : Parsers} {old : Cache} {read : List Channel} {rows : List BindingRow}
    (hoff : IsOff channels id) (hcurrent : ∀ channel ∈ read, channel.status = channelStatusEnabled →
      ∃ row ∈ channels, row.id = channel.id ∧ row.status = channelStatusEnabled) :
    NoRoute (initChannelCache p old read rows) id := by
  intro name route hroute hid
  obtain ⟨channel, hfind, henabled⟩ := enabled_of_mem_buildRoutes hroute
  obtain ⟨hmem, hchannel⟩ := findRow_eq_some hfind
  obtain ⟨row, hrow, hrow_id, hstatus⟩ := hcurrent channel hmem henabled
  exact hoff row hrow (hrow_id.trans (hchannel.trans hid)) hstatus

theorem rebuildStep_noRoute {channels' : List Channel} {cache' : Cache}
    (hstep : rebuildStep c channels cache r a = some (channels', cache', r'))
    (hcurrent : CurrentStep channels r a) (hoff : IsOff channels id) (hroute : NoRoute cache id ∨ r' = .idle) :
    NoRoute cache' id := by
  unfold rebuildStep at hstep
  split at hstep <;> cases hstep
  · exact hroute.resolve_right nofun
  · exact hroute.resolve_right nofun
  · exact hroute.resolve_right nofun
  · exact noRoute_initChannelCache hoff hcurrent

/-! ### Steps -/

theorem noRoute_cacheUpdateChannelStatus (h : NoRoute cache id) (id' status : Int) :
    NoRoute (cacheUpdateChannelStatus id' status cache) id := by
  intro name route hroute
  simp only [cacheUpdateChannelStatus] at hroute
  split_ifs at hroute
  · exact h name route (List.mem_of_mem_filter hroute)
  · exact h name route hroute

theorem lock_update (h : Inv c s) (hq : q.hasLock = true → s.isFree ∨ (s.phase i).hasLock = true) :
    ∀ j k, j ≠ k → OneHolds (Function.update s.phase i q j) (Function.update s.phase i q k) := by
  have hone : OneInside Phase.hasLock s.phase := h.lock
  refine hone.update fun hheld j hj => ?_
  rcases hq hheld with hfree | hi
  · exact hfree j
  · exact hone.others hi j hj

def LoadedOk (c : Calls n) (i : Fin n) (q : Phase) : Prop :=
  ∀ channel, q = .loaded channel → channel.status = c.status i

def SavedOk (c : Calls n) (channels : List Channel) (i : Fin n) (q : Phase) : Prop :=
  ∀ r, q = .refreshing true r → c.status i ≠ channelStatusEnabled → IsOff channels (c.channelId i)

theorem Inv.set (h : Inv c s) (cache : Cache) (hcache : ∀ id, NoRoute s.cache id → NoRoute cache id)
    (hloaded : LoadedOk c i q) (hsaved : ∀ r, q ≠ .refreshing true r)
    (hq : q.hasLock = true → s.isFree ∨ (s.phase i).hasLock = true) :
    Inv c { s.set i q with cache := cache } where
  off id hid := ⟨(h.off id hid).1, hcache id (h.off id hid).2⟩
  loaded := (Function.forall_update_iff s.phase (LoadedOk c)).2 ⟨hloaded, fun j _ => h.loaded j⟩
  saved := (Function.forall_update_iff s.phase (SavedOk c s.channels)).2
    ⟨fun r hr => absurd hr (hsaved r), fun j _ => h.saved j⟩
  lock := lock_update h hq

theorem Inv.setPhase (h : Inv c s) (hloaded : LoadedOk c i q) (hsaved : ∀ r, q ≠ .refreshing true r)
    (hq : q.hasLock = true → s.isFree ∨ (s.phase i).hasLock = true) : Inv c (s.set i q) :=
  h.set s.cache (fun _ hid => hid) hloaded hsaved hq

theorem Inv.check (h : Inv c s) (hfree : s.isFree)
    (hq : checkPhase s.cache (c.channelId i) (c.status i) = some q) : Inv c (s.set i q) := by
  have hcases : q = .done false ∨ q = .checked := by
    unfold checkPhase at hq
    split at hq
    · cases hq
      exact .inl rfl
    · split_ifs at hq <;> cases hq
      · exact .inl rfl
      · exact .inr rfl
  rcases hcases with rfl | rfl
  · exact h.setPhase (fun _ hq => by cases hq) (fun _ hq => by cases hq) fun _ => .inl hfree
  · exact h.setPhase (fun _ hq => by cases hq) (fun _ hq => by cases hq) fun _ => .inl hfree

theorem Inv.load (h : Inv c s) {now : Int} (hi : s.phase i = .cacheUpdated)
    (hq : loadPhase s.channels (c.channelId i) (c.status i) (c.reason i) now = some q) : Inv c (s.set i q) := by
  have hlock : (s.phase i).hasLock = true := by
    rw [hi]
    rfl
  have hcases : q = .done false ∨ ∃ channel, q = .loaded channel ∧ channel.status = c.status i := by
    unfold loadPhase at hq
    split at hq
    · cases hq
      exact .inl rfl
    · split_ifs at hq
      · cases hq
        exact .inl rfl
      · cases hq
        exact .inr ⟨_, rfl, rfl⟩
  rcases hcases with rfl | ⟨channel, rfl, hstatus⟩
  · exact h.setPhase (fun _ hq => by cases hq) (fun _ hq => by cases hq)
      fun _ => .inr hlock
  · refine h.setPhase (fun channel' hq => ?_) (fun _ hq => by cases hq)
      fun _ => .inr hlock
    cases hq
    exact hstatus

theorem Inv.save (h : Inv c s) {channel : Channel} (hi : s.phase i = .loaded channel) :
    Inv c { s.set i (.refreshing true .idle) with
      channels := updateWhere (fun row => row.id = c.channelId i) (fun row => saveStatusState row channel) s.channels
      disabled := if c.status i = channelStatusEnabled then s.disabled.filter (· ≠ c.channelId i)
      else s.disabled } := by
  have hstatus := h.loaded i channel hi
  have hlock : (s.phase i).hasLock = true := by
    rw [hi]
    rfl
  -- the row of the call gets its status, the others stay as they are
  have hrow : ∀ row ∈ updateWhere (fun row => row.id = c.channelId i)
      (fun row => saveStatusState row channel) s.channels,
      (row.id = c.channelId i ∧ row.status = c.status i) ∨ (row ∈ s.channels ∧ row.id ≠ c.channelId i) := by
    intro row hrow
    obtain ⟨old, hold, ⟨hid, rfl⟩ | ⟨hne, rfl⟩⟩ := mem_updateWhere hrow
    · exact .inl ⟨hid, hstatus⟩
    · exact .inr ⟨hold, hne⟩
  refine ⟨fun id hid => ?_, ?_, fun j r hj hdisable => ?_, lock_update h fun _ => .inr hlock⟩
  · have hcases : id ∈ s.disabled ∧ (id = c.channelId i → c.status i ≠ channelStatusEnabled) := by
      change id ∈ (if c.status i = channelStatusEnabled then s.disabled.filter (· ≠ c.channelId i)
      else s.disabled) at hid
      split_ifs at hid with henabled
      · obtain ⟨hmem, hne⟩ := List.mem_filter.1 hid
        exact ⟨hmem, fun heq => absurd heq (by simpa using hne)⟩
      · exact ⟨hid, fun _ => henabled⟩
    refine ⟨fun row hmem hrow_id => ?_, (h.off id hcases.1).2⟩
    rcases hrow row hmem with ⟨hid', hrow_status⟩ | ⟨hmem, -⟩
    · rw [hrow_status]
      exact hcases.2 (hrow_id.symm.trans hid')
    · exact (h.off id hcases.1).1 row hmem hrow_id
  · refine (Function.forall_update_iff s.phase (LoadedOk c)).2 ⟨fun _ hq => ?_, fun j _ => h.loaded j⟩
    cases hq
  · change Function.update s.phase i _ j = _ at hj
    by_cases hji : j = i
    · subst hji
      intro row hmem hrow_id
      rcases hrow row hmem with ⟨-, hrow_status⟩ | ⟨-, hne⟩
      · rwa [hrow_status]
      · exact absurd hrow_id hne
    · -- no other call has the lock
      rw [Function.update_of_ne hji] at hj
      exact absurd ⟨by rw [hj]; rfl, hlock⟩ (h.lock j i hji)

theorem Inv.refresh (h : Inv c s) {saved : Bool}
    (hi : s.phase i = .refreshing saved r) (hcurrent : CurrentStep s.channels r a)
    (hstep : rebuildStep c s.channels s.cache r a = some (channels, cache, r')) :
    Inv c { s.set i (afterRefresh saved r') with
      channels := channels
      cache := cache
      disabled := noteReturn s.disabled (c.channelId i) (c.status i) saved r' } := by
  have hlock : (s.phase i).hasLock = true := by
    rw [hi]
    rfl
  have hoff : ∀ id, IsOff s.channels id → IsOff channels id := fun id => rebuildStep_isOff hstep hcurrent
  refine ⟨fun id hid => ?_, ?_, fun j r₀ hj hdisable => ?_, lock_update h fun _ => .inr hlock⟩
  · have hcases : id ∈ s.disabled ∨
        (r' = .idle ∧ id = c.channelId i ∧ saved = true ∧ c.status i ≠ channelStatusEnabled) := by
      change id ∈ noteReturn s.disabled (c.channelId i) (c.status i) saved r' at hid
      unfold noteReturn at hid
      split at hid
      · split_ifs at hid with hboth
        · rcases List.mem_cons.1 hid with rfl | hid
          · exact .inr ⟨rfl, rfl, hboth.1, hboth.2⟩
          · exact .inl hid
        · exact .inl hid
      · exact .inl hid
    rcases hcases with hid | ⟨hidle, rfl, rfl, hdisable⟩
    · obtain ⟨hid_off, hid_route⟩ := h.off id hid
      exact ⟨hoff id hid_off, rebuildStep_noRoute hstep hcurrent hid_off (.inl hid_route)⟩
    · have hsaved := h.saved i r hi hdisable
      exact ⟨hoff _ hsaved, rebuildStep_noRoute hstep hcurrent hsaved (.inr hidle)⟩
  · refine (Function.forall_update_iff s.phase (LoadedOk c)).2 ⟨fun channel hq => ?_, fun j _ => h.loaded j⟩
    cases r' <;> cases hq
  · change Function.update s.phase i _ j = _ at hj
    by_cases hji : j = i
    · subst hji
      rw [Function.update_self] at hj
      have hsaved : saved = true := by
        cases r' <;> cases hj <;> rfl
      subst hsaved
      exact hoff _ (h.saved j r hi hdisable)
    · rw [Function.update_of_ne hji] at hj
      exact hoff _ (h.saved j r₀ hj hdisable)

theorem Inv.rebuild (h : Inv c s) {j : Fin m} (hcurrent : CurrentStep s.channels (s.rebuild j) a)
    (hstep : rebuildStep c s.channels s.cache (s.rebuild j) a = some (channels, cache, r')) :
    Inv c { s with channels := channels, cache := cache, rebuild := Function.update s.rebuild j r' } where
  off id hid := by
    obtain ⟨hoff, hroute⟩ := h.off id hid
    exact ⟨rebuildStep_isOff hstep hcurrent hoff, rebuildStep_noRoute hstep hcurrent hoff (.inl hroute)⟩
  loaded := h.loaded
  saved i r hi hdisable := rebuildStep_isOff hstep hcurrent (h.saved i r hi hdisable)
  lock := h.lock

theorem Inv.step {s' : State n m} {a : Action n m} (h : Inv c s) (ha : Current s a) (hstep : step c s a = some s') :
    Inv c s' := by
  cases a with simp only [Disable.step] at hstep
  | check i =>
    split at hstep
    · split_ifs at hstep with hfree
      obtain ⟨q, hq, rfl⟩ := Option.map_eq_some_iff.1 hstep
      exact h.check hfree hq
    · cases hstep
  | updateCache i =>
    split at hstep
    · rename_i hi
      cases hstep
      refine h.set _ (fun id hid => noRoute_cacheUpdateChannelStatus hid _ _) (fun _ hq => by cases hq)
        (fun _ hq => by cases hq) fun _ => .inr ?_
      rw [hi]
      rfl
    · cases hstep
  | load i now ok =>
    split at hstep
    · rename_i hi
      split_ifs at hstep
      · obtain ⟨q, hq, rfl⟩ := Option.map_eq_some_iff.1 hstep
        exact h.load hi hq
      · cases hstep
        exact h.setPhase (fun _ hq => by cases hq) (fun _ hq => by cases hq)
          (fun hq => by cases hq)
    · cases hstep
  | save i ok =>
    split at hstep
    · rename_i channel hi
      by_cases hok : ok = true
      · rw [if_pos hok] at hstep
        cases hstep
        exact h.save hi
      · rw [if_neg hok] at hstep
        cases hstep
        refine h.setPhase (fun _ hq => by cases hq) (fun _ hq => by cases hq)
          fun _ => .inr ?_
        rw [hi]
        rfl
    · cases hstep
  | refresh i a =>
    split at hstep
    · rename_i saved r hi
      obtain ⟨⟨channels, cache, r'⟩, hnext, rfl⟩ := Option.map_eq_some_iff.1 hstep
      have hcurrent : CurrentStep s.channels (s.phase i).rebuild a := ha
      rw [hi] at hcurrent
      exact h.refresh hi hcurrent hnext
    · cases hstep
  | rebuild j a =>
    obtain ⟨⟨channels, cache, r'⟩, hnext, rfl⟩ := Option.map_eq_some_iff.1 hstep
    exact h.rebuild ha hnext

/-- However the calls and the rebuilds interleave, if what a rebuild writes is enabled only where
the database has it so, a channel that a call has disabled is not chosen until a call enables it. -/
theorem stays_disabled (c : Calls n) (channels : List Channel) (cache : Cache) (l : List (Action n m)) (s : State n m)
    (hrun : run (step c) (init channels cache) l = some s) (hl : Along (step c) Current (init channels cache) l) :
    StaysDisabled c s := by
  have hinv : Inv c s := run_inv_along (fun _ _ _ h ha hstep => h.step ha hstep) (inv_init channels cache) hl hrun
  exact hinv.staysDisabled

def oneChannel : Channel where
  id := 1
  type := 1
  key := "k"
  status := channelStatusEnabled
  otherInfo := []
  channelInfo := ⟨false, 0, [], [], [], 0, .random⟩
  otherSettings := ""

def disableIt : Calls 1 where
  parsers := ⟨fun _ => (none, true), fun _ => none⟩
  rows := [⟨"m", 1, 0, 0, true, ""⟩]
  channelId _ := 1
  status _ := channelStatusAutoDisabled
  reason _ := "rejected"

def routedCache : Cache :=
  initChannelCache disableIt.parsers ⟨fun _ => [], [], fun _ => none⟩ [oneChannel] disableIt.rows

def disableSteps : List (Action 1 1) :=
  [.check 0, .updateCache 0, .load 0 5 true, .save 0 true, .refresh 0 (.readChannels true),
    .refresh 0 (.readBindings true), .refresh 0 .publish]

theorem stays_disabled_rebuild_after :
    ∃ s, run (step disableIt) (init [oneChannel] routedCache)
        (disableSteps ++ [.rebuild 0 (.readChannels true), .rebuild 0 (.readBindings true),
          .rebuild 0 .publish]) = some s ∧
      s.disabled = [1] ∧ StaysDisabled disableIt s := by
  have hread : (run (step disableIt) (init [oneChannel] routedCache)
      (disableSteps ++ [.rebuild 0 (.readChannels true), .rebuild 0 (.readBindings true), .rebuild 0 .publish])).map
        State.disabled = some [1] := by decide +kernel
  obtain ⟨s, hs, hdisabled⟩ := Option.map_eq_some_iff.1 hread
  exact ⟨s, hs, hdisabled, stays_disabled disableIt _ _ _ s hs (by decide +kernel)⟩

/-- A rebuild that has read the channel before the call publishes afterwards. -/
theorem disabled_channel_chosen :
    ¬ ∀ (c : Calls 1) (channels : List Channel) (cache : Cache) (l : List (Action 1 1)) (s : State 1 1),
      run (step c) (init channels cache) l = some s → StaysDisabled c s := by
  intro h
  have hread : (run (step disableIt) (init [oneChannel] routedCache)
      (.rebuild 0 (.readChannels true) :: disableSteps ++ [.rebuild 0 (.readBindings true), .rebuild 0 .publish])).map
        (fun s => (s.disabled, (getRandomSatisfiedChannel disableIt.parsers s.cache "m" 0 "").result 0)) =
      some ([1], .picked 1 "m") := by decide +kernel
  obtain ⟨s, hs, hst⟩ := Option.map_eq_some_iff.1 hread
  rw [Prod.mk.injEq] at hst
  exact h disableIt [oneChannel] routedCache _ s hs 1 (by rw [hst.1]; exact List.mem_cons_self) "m" 0 "" 0 "m" hst.2

end TokenEra.Channels.Disable
