import TokenEra.Lib.Run

/-!
# The fence around a user's authentication version

Every restrictive change of a user raises the user's `auth_version`. Three Redis keys keep snapshots
of an older version from being used: the cached hash itself, a pending fence that a transaction
publishes before it writes the new version, with a lifetime of its own, and a committed floor that
is published after the commit and never expires. The scripts refuse to write below either, and
readers refuse to read below either.

The model is of one user. Any number of parties run transactions, reads, delayed cache fills and
field updates; every SQL statement and every Redis call is a step, and time passes between them.
Redis answers and the database may roll back.
-/

namespace TokenEra.Auth.UserFence

open Lib

variable {β : Type}

/-! ### The row and the three keys -/

/-- The user's row: its version, the rest of what a snapshot carries, and whether it is
soft-deleted. -/
structure Row (β : Type) where
  authVersion : Int
  body : β
  quota : Int
  deleted : Bool

structure Hash (β : Type) where
  authVersion : Int
  cacheSchema : Int
  body : β
  quota : Option Int
  expires : Int

structure Fence where
  version : Int
  expires : Int

structure Redis (β : Type) where
  hash : Option (Hash β)
  fence : Option Fence
  committed : Option Int

def userCacheSchemaVersion : Int := 2

/-- `RedisKeyCacheSeconds` is a setting; it is not always positive. -/
def userCacheTTLSeconds (keyCacheSeconds : Int) : Int := if keyCacheSeconds ≤ 0 then 60 else keyCacheSeconds

def userAuthFenceTTLSeconds (keyCacheSeconds : Int) : Int :=
  let cacheTTL := userCacheTTLSeconds keyCacheSeconds
  cacheTTL + (if cacheTTL < 60 then 60 else cacheTTL)

def Redis.liveHash (r : Redis β) (now : Int) : Option (Hash β) := r.hash.filter fun h => now < h.expires

def Redis.liveFence (r : Redis β) (now : Int) : Option Fence := r.fence.filter fun f => now < f.expires

/-- The scripts read a missing key as `0`. -/
def Redis.pendingVersion (r : Redis β) (now : Int) : Int := ((r.liveFence now).map (·.version)).getD 0

def Redis.committedVersion (r : Redis β) : Int := r.committed.getD 0

def Redis.currentVersion (r : Redis β) (now : Int) : Int := ((r.liveHash now).map (·.authVersion)).getD 0

/-- `getUserAuthVersionFloor`. -/
def Redis.floor (r : Redis β) (now : Int) : Int := max 0 (max (r.pendingVersion now) r.committedVersion)

/-! ### The scripts -/

/-- `SetUserAuthVersionFence`: a fence is raised, or the same one kept alive. -/
def Redis.setFence (r : Redis β) (now keyCacheSeconds version : Int) : Redis β :=
  let fresh : Fence := ⟨version, now + userAuthFenceTTLSeconds keyCacheSeconds⟩
  if r.pendingVersion now ≤ version then { r with fence := some fresh } else r

def Redis.reach (r : Redis β) (now version : Int) : Redis β :=
  { r with
    committed := if r.committedVersion < version then some version else r.committed
    fence := if 0 < r.pendingVersion now ∧ r.pendingVersion now ≤ version then none else r.fence }

/-- The guard of the two scripts that write the hash. -/
def Redis.Refuses (r : Redis β) (now version : Int) : Prop :=
  version < r.pendingVersion now ∨ version < r.committedVersion ∨ version < r.currentVersion now

instance (r : Redis β) (now version : Int) : Decidable (r.Refuses now version) :=
  inferInstanceAs (Decidable (_ ∨ _ ∨ _))

/-- The hash that `writeUserCache` leaves; a quota that is there is kept. -/
def Redis.written (r : Redis β) (now keyCacheSeconds : Int) (row : Row β) (includeQuota : Bool) : Hash β where
  authVersion := row.authVersion
  cacheSchema := userCacheSchemaVersion
  body := row.body
  quota := ((r.liveHash now).bind (·.quota)).or (if includeQuota then some row.quota else none)
  expires := now + userCacheTTLSeconds keyCacheSeconds

/-- `writeUserCache`; `none` when it is refused. A version that is not positive is an error before
the script and changes nothing. -/
def writeUserCache (r : Redis β) (now keyCacheSeconds : Int) (row : Row β) (includeQuota : Bool) :
    Option (Redis β) :=
  if row.authVersion ≤ 0 then some r
  else if r.Refuses now row.authVersion then none
  else if ¬ includeQuota ∧ r.liveHash now = none then some (r.reach now row.authVersion)
  else some { r.reach now row.authVersion with hash := some (r.written now keyCacheSeconds row includeQuota) }

def publishCommittedUserAuthVersion (r : Redis β) (now version : Int) : Redis β := r.reach now version

/-- `updateUserCacheFieldAtVersion`, for a field given by how it is set. -/
def updateUserCacheFieldAtVersion (r : Redis β) (now version : Int) (set : β → β) : Redis β :=
  if version ≤ 0 ∨ r.Refuses now version then r
  else
    match r.liveHash now with
    | none => r.reach now version
    | some h =>
      if h.authVersion ≠ version then r.reach now version
      else
        { r.reach now version with
          hash := some { h with body := set h.body, cacheSchema := userCacheSchemaVersion } }

/-! ### The parties -/

inductive Phase (β : Type)
  | idle
  /-- `IncrementUserAuthVersionWithTx` has read the version, in the given attempt of its three. -/
  | txRead (attempt : Nat) (seen : Int)
  | txFenced (attempt : Nat) (seen : Int)
  | txWritten (row : Row β)
  | txCommitted (version : Int)
  /-- `PublishUserAuthCache` has read the row. -/
  | txPublishing (version : Int) (row : Row β)
  /-- `cacheGetUserBase` has read a usable hash. `need`: the versions published when the call
  started. -/
  | getHash (need : List Int) (hash : Hash β)
  | getMiss (need : List Int)
  | getRow (need : List Int) (row : Row β)
  | getFill (need : List Int) (row : Row β)
  /-- A cache fill that has read the row. -/
  | fill (row : Row β) (includeQuota : Bool)
  /-- `updateUserCacheField` has read the version. -/
  | field (version : Int) (set : β → β)

/-- A snapshot that `GetUserCache` returned, with the versions published when the call started. -/
structure Result where
  need : List Int
  version : Int

structure State (β : Type) (n : Nat) where
  now : Int
  row : Row β
  lock : Option (Fin n)
  redis : Redis β
  phase : Fin n → Phase β
  published : List Int
  results : List Result

/-- The settings: `RedisKeyCacheSeconds`, and whether the database locks a row for a locking read.
-/
structure Config where
  keyCacheSeconds : Int
  locksReads : Bool

def init (β : Type) (n : Nat) (row : Row β) : State β n := ⟨0, row, none, ⟨none, none, none⟩, fun _ => .idle, [], []⟩

inductive Act (β : Type) (n : Nat)
  | tick (seconds : Nat)
  /-- Other code writes columns of the row that are not the version. -/
  | others (body : β) (quota : Int)
  /-- `invalidateUserCache`. -/
  | invalidate
  | txRead (p : Fin n)
  | txFence (p : Fin n)
  | txWrite (p : Fin n) (body : β) (deleted : Bool)
  | txCommit (p : Fin n)
  | txRollback (p : Fin n)
  | publishCommitted (p : Fin n)
  | publishRead (p : Fin n)
  | publishWrite (p : Fin n)
  | getHash (p : Fin n)
  | getFloor (p : Fin n)
  | getRow (p : Fin n)
  | getFill (p : Fin n)
  | fillRead (p : Fin n) (includeQuota : Bool)
  | fillWrite (p : Fin n)
  | fieldRead (p : Fin n) (set : β → β)
  | fieldWrite (p : Fin n)

variable {n : Nat}

def State.setPhase (s : State β n) (p : Fin n) (q : Phase β) : State β n :=
  { s with phase := Function.update s.phase p q }

def State.answer (s : State β n) (p : Fin n) (need : List Int) (version : Int) : State β n :=
  { s.setPhase p .idle with results := s.results ++ [⟨need, version⟩] }

def State.publish (s : State β n) (p : Fin n) (version : Int) (redis : Redis β) : State β n :=
  { s.setPhase p .idle with redis := redis, published := s.published ++ [version] }

def State.unlock (s : State β n) (p : Fin n) : State β n :=
  { s with lock := if s.lock = some p then none else s.lock }

/-- The version `IncrementUserAuthVersionWithTx` writes. -/
def nextVersion (seen : Int) : Int := (if seen < 1 then 1 else seen) + 1

def State.readVersion (cfg : Config) (s : State β n) (p : Fin n) (attempt : Nat) : Option (State β n) :=
  if s.lock = none ∨ s.lock = some p ∨ ¬ cfg.locksReads then
    some { s.setPhase p (.txRead attempt s.row.authVersion) with
      lock := if cfg.locksReads then some p else s.lock }
  else none

/-- A usable hash: `cacheGetUserBase` also checks what the hash is of. -/
def Redis.usableHash (r : Redis β) (now : Int) : Option (Hash β) :=
  (r.liveHash now).filter fun h => h.cacheSchema = userCacheSchemaVersion ∧ 0 < h.authVersion

def step (cfg : Config) (s : State β n) : Act β n → Option (State β n)
  | .tick seconds => some { s with now := s.now + seconds }
  | .others body quota =>
    if s.lock = none then some { s with row := { s.row with body := body, quota := quota } } else none
  | .invalidate => some { s with redis := { s.redis with hash := none } }
  | .txRead p =>
    match s.phase p with
    | .idle => s.readVersion cfg p 1
    | _ => none
  | .txFence p =>
    match s.phase p with
    | .txRead attempt seen =>
      some { s.setPhase p (.txFenced attempt seen) with
        redis := s.redis.setFence s.now cfg.keyCacheSeconds (nextVersion seen) }
    | _ => none
  | .txWrite p body deleted =>
    match s.phase p with
    | .txFenced attempt seen =>
      if s.lock = none ∨ s.lock = some p then
        if s.row.authVersion = seen then
          some { s.setPhase p (.txWritten ⟨nextVersion seen, body, s.row.quota, deleted⟩) with lock := some p }
        -- No row was affected: the loop reads again, three times at most.
        else if attempt < 3 then s.readVersion cfg p (attempt + 1)
        else some ((s.setPhase p .idle).unlock p)
      else none
    | _ => none
  | .txCommit p =>
    match s.phase p with
    | .txWritten row => some ({ s.setPhase p (.txCommitted row.authVersion) with row := row }.unlock p)
    | _ => none
  | .txRollback p =>
    match s.phase p with
    | .txRead _ _ | .txFenced _ _ | .txWritten _ => some ((s.setPhase p .idle).unlock p)
    | _ => none
  | .publishCommitted p =>
    match s.phase p with
    | .txCommitted version => some (s.publish p version (publishCommittedUserAuthVersion s.redis s.now version))
    | _ => none
  | .publishRead p =>
    match s.phase p with
    | .txCommitted version =>
      if s.row.deleted then some (s.publish p version s.redis)
      else some (s.setPhase p (.txPublishing version s.row))
    | _ => none
  | .publishWrite p =>
    match s.phase p with
    | .txPublishing version row =>
      some (s.publish p version ((writeUserCache s.redis s.now cfg.keyCacheSeconds row false).getD s.redis))
    | _ => none
  | .getHash p =>
    match s.phase p with
    | .idle =>
      match s.redis.usableHash s.now with
      | some hash => some (s.setPhase p (.getHash s.published hash))
      | none => some (s.setPhase p (.getMiss s.published))
    | _ => none
  | .getFloor p =>
    match s.phase p with
    | .getHash need hash =>
      if hash.authVersion < s.redis.floor s.now then some (s.setPhase p (.getMiss need))
      else some (s.answer p need hash.authVersion)
    | .getRow need row =>
      if row.authVersion < s.redis.floor s.now then some (s.setPhase p .idle)
      else some (s.setPhase p (.getFill need row))
    | _ => none
  | .getRow p =>
    match s.phase p with
    | .getMiss need =>
      if s.row.deleted then some (s.setPhase p .idle) else some (s.setPhase p (.getRow need s.row))
    | _ => none
  | .getFill p =>
    match s.phase p with
    | .getFill need row =>
      match writeUserCache s.redis s.now cfg.keyCacheSeconds row true with
      | none => some (s.setPhase p .idle)
      | some redis => some { s.answer p need row.authVersion with redis := redis }
    | _ => none
  | .fillRead p includeQuota =>
    match s.phase p with
    | .idle => some (s.setPhase p (.fill s.row includeQuota))
    | _ => none
  | .fillWrite p =>
    match s.phase p with
    | .fill row includeQuota =>
      some { s.setPhase p .idle with
        redis := (writeUserCache s.redis s.now cfg.keyCacheSeconds row includeQuota).getD s.redis }
    | _ => none
  | .fieldRead p set =>
    match s.phase p with
    | .idle => some (s.setPhase p (.field s.row.authVersion set))
    | _ => none
  | .fieldWrite p =>
    match s.phase p with
    | .field version set =>
      some { s.setPhase p .idle with redis := updateUserCacheFieldAtVersion s.redis s.now version set }
    | _ => none

/-! ### The floor -/

def Redis.Ok (r : Redis β) : Prop := ∀ h, r.hash = some h → h.authVersion ≤ r.committedVersion

/-- What every Redis call does: no hash gets above the floor and the floor does not fall. -/
def Redis.Raises (r r' : Redis β) : Prop := r.Ok → r'.Ok ∧ r.committedVersion ≤ r'.committedVersion

variable {r : Redis β}

theorem Redis.Raises.refl : r.Raises r := fun h => ⟨h, le_rfl⟩

theorem Redis.committedVersion_reach (r : Redis β) (now version : Int) :
    (r.reach now version).committedVersion = max r.committedVersion version := by
  change (if r.committedVersion < version then some version else r.committed).getD 0 = _
  by_cases h : r.committedVersion < version
  · rw [if_pos h, max_eq_right h.le, Option.getD_some]
  · rw [if_neg h, max_eq_left (not_lt.1 h), committedVersion]

variable {now version : Int} {r redis : Redis β} {p : Fin n} {q : Phase β} {s t : State β n} {cfg : Config}

theorem Redis.raises_reach (r : Redis β) (now version : Int) : r.Raises (r.reach now version) := by
  intro hok
  rw [committedVersion_reach]
  refine ⟨fun h hh => ?_, le_max_left _ _⟩
  rw [committedVersion_reach]
  exact le_trans (hok h hh) (le_max_left _ _)

theorem Redis.raises_setFence (r : Redis β) (now keyCacheSeconds version : Int) :
    r.Raises (r.setFence now keyCacheSeconds version) := by
  intro hok
  unfold setFence
  dsimp only
  split_ifs
  · exact ⟨hok, le_rfl⟩
  · exact ⟨hok, le_rfl⟩

/-- A hash is written only at a version that the floor is raised to. -/
theorem Redis.raises_hash {h : Hash β} (hv : h.authVersion = version) :
    r.Raises { r.reach now version with hash := some h } := by
  intro hok
  have hcommitted : ({ r.reach now version with hash := some h } : Redis β).committedVersion =
      max r.committedVersion version := r.committedVersion_reach now version
  refine ⟨fun h' hh' => ?_, ?_⟩
  · rw [hcommitted, ← Option.some.inj hh', hv]
    exact le_max_right _ _
  · rw [hcommitted]
    exact le_max_left _ _

theorem raises_writeUserCache {r' : Redis β} {keyCacheSeconds : Int} {row : Row β} {includeQuota : Bool}
    (h : writeUserCache r now keyCacheSeconds row includeQuota = some r') : r.Raises r' := by
  unfold writeUserCache at h
  split_ifs at h <;> cases h
  · exact .refl
  · exact r.raises_reach now row.authVersion
  · exact Redis.raises_hash rfl

theorem raises_writeUserCache_getD (r : Redis β) (now keyCacheSeconds : Int) (row : Row β) (includeQuota : Bool) :
    r.Raises ((writeUserCache r now keyCacheSeconds row includeQuota).getD r) := by
  cases h : writeUserCache r now keyCacheSeconds row includeQuota with
  | none => exact .refl
  | some r' => exact raises_writeUserCache h

theorem raises_updateUserCacheField (set : β → β) :
    r.Raises (updateUserCacheFieldAtVersion r now version set) := by
  unfold updateUserCacheFieldAtVersion
  by_cases hrefused : version ≤ 0 ∨ r.Refuses now version
  · rw [if_pos hrefused]
    exact .refl
  rw [if_neg hrefused]
  cases hh : r.liveHash now with
  | none => exact r.raises_reach now version
  | some h =>
    dsimp only
    by_cases hv : h.authVersion = version
    · rw [if_neg (not_not.2 hv)]
      exact Redis.raises_hash hv
    · rw [if_pos hv]
      exact r.raises_reach now version

/-- A refused write of a positive version that no pending fence is above finds the floor above it.
-/
theorem committed_of_writeUserCache (hok : r.Ok) {keyCacheSeconds : Int} {row : Row β}
    {includeQuota : Bool} (hpos : 0 < row.authVersion) (hpending : r.pendingVersion now ≤ row.authVersion) :
    row.authVersion ≤
      ((writeUserCache r now keyCacheSeconds row includeQuota).getD r).committedVersion := by
  have hreach : row.authVersion ≤ (r.reach now row.authVersion).committedVersion := by
    rw [Redis.committedVersion_reach]
    exact le_max_right _ _
  unfold writeUserCache
  rw [if_neg (not_le.2 hpos)]
  split_ifs with hrefused hcold
  · -- Refused by the floor, or by a hash, which is not above the floor.
    rcases hrefused with h | h | h
    · omega
    · exact h.le
    · cases hh : r.liveHash now with
      | none =>
        simp only [Redis.currentVersion, hh, Option.map_none, Option.getD_none] at h
        omega
      | some hash =>
        simp only [Redis.currentVersion, hh, Option.map_some, Option.getD_some] at h
        exact h.le.trans (hok hash (Option.filter_eq_some_iff.1 hh).1)
  · exact hreach
  · exact hreach

/-! ### The invariant -/

def PhaseOk (s : State β n) (p : Fin n) : Phase β → Prop
  | .txWritten row => s.lock = some p ∧ s.row.authVersion < row.authVersion ∧ 0 < row.authVersion
  | .txCommitted version => version ≤ s.row.authVersion ∧ 0 < version
  | .txPublishing version row =>
    version ≤ row.authVersion ∧ row.authVersion ≤ s.row.authVersion ∧ 0 < version
  | .getHash need _ => ∀ v ∈ need, v ∈ s.published
  | .getMiss need => ∀ v ∈ need, v ∈ s.published
  | .getRow need row => ∀ v ∈ need, v ≤ row.authVersion
  | .getFill need row => ∀ v ∈ need, v ≤ row.authVersion
  | _ => True

structure Inv (s : State β n) : Prop where
  redis : s.redis.Ok
  published : ∀ v ∈ s.published, v ≤ s.row.authVersion ∧ v ≤ s.redis.committedVersion
  phase : ∀ p, PhaseOk s p (s.phase p)
  results : ∀ r ∈ s.results, ∀ v ∈ r.need, v ≤ r.version

theorem inv_init (row : Row β) : Inv (init β n row) :=
  ⟨by simp [Redis.Ok, init], by simp [init], fun _ => trivial, by simp [init]⟩

/-- What the others know is kept while the row is not written under a lock of theirs. -/
theorem PhaseOk.mono (h : PhaseOk s p q) (hrow : s.row.authVersion ≤ t.row.authVersion)
    (hlock : s.lock = some p → t.lock = some p ∧ t.row.authVersion = s.row.authVersion)
    (hpub : ∀ v ∈ s.published, v ∈ t.published) : PhaseOk t p q := by
  cases q with
  | txWritten row =>
    obtain ⟨hl, hlt, hpos⟩ := h
    obtain ⟨hl', hrow'⟩ := hlock hl
    exact ⟨hl', by rwa [hrow'], hpos⟩
  | txCommitted version => exact ⟨h.1.trans hrow, h.2⟩
  | txPublishing version row => exact ⟨h.1, h.2.1.trans hrow, h.2.2⟩
  | getHash need hash => exact fun v hv => hpub v (h v hv)
  | getMiss need => exact fun v hv => hpub v (h v hv)
  | getRow | getFill => exact h
  | idle | txRead | txFenced | fill | field => trivial

theorem Inv.move (h : Inv s)
    (hphase : t.phase = Function.update s.phase p q) (hredis : s.redis.Raises t.redis)
    (hrow : s.row.authVersion ≤ t.row.authVersion)
    (hlock : ∀ p', p' ≠ p → s.lock = some p' → t.lock = some p' ∧ t.row.authVersion = s.row.authVersion)
    (hsub : ∀ v ∈ s.published, v ∈ t.published)
    (hpub : ∀ v ∈ t.published, v ∉ s.published → v ≤ t.row.authVersion ∧ v ≤ t.redis.committedVersion)
    (hq : PhaseOk t p q)
    (hres : ∀ r ∈ t.results, r ∉ s.results → ∀ v ∈ r.need, v ≤ r.version) : Inv t := by
  obtain ⟨hok, hraised⟩ := hredis h.redis
  refine ⟨hok, fun v hv => ?_, ?_, fun r hr => ?_⟩
  · by_cases hold : v ∈ s.published
    · obtain ⟨h1, h2⟩ := h.published v hold
      exact ⟨h1.trans hrow, h2.trans hraised⟩
    · exact hpub v hv hold
  · rw [hphase]
    exact (Function.forall_update_iff s.phase (PhaseOk t)).2
      ⟨hq, fun p' hp => (h.phase p').mono hrow (hlock p' hp) hsub⟩
  · by_cases hold : r ∈ s.results
    · exact h.results r hold
    · exact hres r hr hold

theorem Inv.setPhase (h : Inv s) (hredis : s.redis.Raises redis) (hq : PhaseOk s p q) :
    Inv { s.setPhase p q with redis := redis } :=
  h.move rfl hredis le_rfl (fun _ _ hl => ⟨hl, rfl⟩) (fun _ hv => hv) (fun _ hv hn => absurd hv hn)
    (by cases q <;> exact hq) fun _ hr hn => absurd hr hn

theorem Inv.unlock (h : Inv s) (row : Row β) (hrow : s.row.authVersion ≤ row.authVersion)
    (hmine : s.lock ≠ some p → row.authVersion = s.row.authVersion)
    (hq : PhaseOk (({ s.setPhase p q with row := row } : State β n).unlock p) p q) :
    Inv (({ s.setPhase p q with row := row } : State β n).unlock p) := by
  refine h.move rfl (.refl) hrow (fun p' hp hl => ?_) (fun _ hv => hv) (fun _ hv hn => absurd hv hn) hq
    fun _ hr hn => absurd hr hn
  have hne : s.lock ≠ some p := fun heq => hp (Option.some.inj (hl.symm.trans heq))
  exact ⟨(if_neg hne).trans hl, hmine hne⟩

theorem Inv.readVersion (h : Inv s) {attempt : Nat}
    (hstep : s.readVersion cfg p attempt = some t) : Inv t := by
  obtain ⟨hfree, hstep⟩ := Option.ite_none_right_eq_some.1 hstep
  cases hstep
  refine h.move rfl (.refl) le_rfl (fun p' hp hl => ⟨?_, rfl⟩) (fun _ hv => hv)
    (fun _ hv hn => absurd hv hn) trivial fun _ hr hn => absurd hr hn
  dsimp only
  split_ifs with hlocks
  · -- A locking read waits for the lock of another.
    rcases hfree with hnone | hown | hnot
    · rw [hnone] at hl
      cases hl
    · exact absurd (Option.some.inj (hl.symm.trans hown)) hp
    · exact absurd hlocks hnot
  · exact hl

theorem lt_nextVersion (seen : Int) : seen < nextVersion seen ∧ 0 < nextVersion seen := by
  unfold nextVersion
  split_ifs <;> omega

/-- A publish step that has left the floor at its version, or found it there. -/
theorem Inv.publish (h : Inv s) (hredis : s.redis.Raises redis) (hrow : version ≤ s.row.authVersion)
    (hfloor : version ≤ redis.committedVersion) : Inv (s.publish p version redis) := by
  refine h.move rfl hredis le_rfl (fun _ _ hl => ⟨hl, rfl⟩) (fun _ hv => List.mem_append_left _ hv)
    (fun v hv hn => ?_) trivial fun _ hr hn => absurd hr hn
  rcases List.mem_append.1 hv with hv | hv
  · exact absurd hv hn
  · rw [List.mem_singleton.1 hv]
    exact ⟨hrow, hfloor⟩

theorem Inv.answer (h : Inv s) {need : List Int}
    (hredis : s.redis.Raises redis) (hneed : ∀ v ∈ need, v ≤ version) :
    Inv { s.answer p need version with redis := redis } := by
  refine h.move rfl hredis le_rfl (fun _ _ hl => ⟨hl, rfl⟩) (fun _ hv => hv)
    (fun _ hv hn => absurd hv hn) trivial fun r hr hn => ?_
  rcases List.mem_append.1 hr with hr | hr
  · exact absurd hr hn
  · rw [List.mem_singleton.1 hr]
    exact hneed

/-- The publish step of a phase leaves the floor at the version: the row is there for it to read,
and no pending fence is above what it has read; or the floor is there already. -/
def Phase.Lands (redis : Redis β) (now : Int) (deleted : Bool) : Phase β → Prop
  | .txCommitted version => deleted = true → version ≤ redis.committedVersion
  | .txPublishing version row => redis.pendingVersion now ≤ row.authVersion ∨ version ≤ redis.committedVersion
  | _ => True

instance (redis : Redis β) (now : Int) (deleted : Bool) (q : Phase β) : Decidable (q.Lands redis now deleted) :=
  match q with
  | .txCommitted _ => inferInstanceAs (Decidable (_ → _))
  | .txPublishing _ _ => inferInstanceAs (Decidable (_ ∨ _))
  | .idle | .txRead _ _ | .txFenced _ _ | .txWritten _ | .getHash _ _ | .getMiss _ | .getRow _ _ | .getFill _ _
  | .fill _ _ | .field _ _ => .isTrue trivial

/-- The condition on the steps: what `PublishUserAuthCache` does leaves the floor at its version. -/
def PublishLands (s : State β n) : Act β n → Prop
  | .publishRead p => (s.phase p).Lands s.redis s.now s.row.deleted
  | .publishWrite p => (s.phase p).Lands s.redis s.now s.row.deleted
  | _ => True

instance (s : State β n) (a : Act β n) : Decidable (PublishLands s a) :=
  match a with
  | .publishRead p => inferInstanceAs (Decidable ((s.phase p).Lands s.redis s.now s.row.deleted))
  | .publishWrite p => inferInstanceAs (Decidable ((s.phase p).Lands s.redis s.now s.row.deleted))
  | .tick .. | .others .. | .invalidate | .txRead .. | .txFence .. | .txWrite .. | .txCommit .. | .txRollback ..
  | .publishCommitted .. | .getHash .. | .getFloor .. | .getRow .. | .getFill .. | .fillRead .. | .fillWrite ..
  | .fieldRead .. | .fieldWrite .. => .isTrue trivial

theorem Inv.keep (h : Inv s) (hphase : t.phase = s.phase) (hredis : s.redis.Raises t.redis)
    (hrow : t.row.authVersion = s.row.authVersion) (hlock : t.lock = s.lock) (hpub : t.published = s.published)
    (hres : t.results = s.results) : Inv t := by
  obtain ⟨hok, hraised⟩ := hredis h.redis
  refine ⟨hok, fun v hv => ?_, fun p => ?_, by rw [hres]; exact h.results⟩
  · rw [hpub] at hv
    rw [hrow]
    exact ⟨(h.published v hv).1, (h.published v hv).2.trans hraised⟩
  · rw [hphase]
    exact (h.phase p).mono hrow.ge (fun hl => ⟨hlock.trans hl, hrow⟩) fun v hv => hpub ▸ hv

/-! ### Every step keeps it -/

theorem Inv.txWrite (h : Inv s) {body : β} {deleted : Bool}
    (hstep : step cfg s (.txWrite p body deleted) = some t) : Inv t := by
  simp only [step] at hstep
  split at hstep
  case h_1 attempt seen hp =>
    obtain ⟨hfree, hstep⟩ := Option.ite_none_right_eq_some.1 hstep
    split_ifs at hstep with hseen hattempt
    · cases hstep
      refine h.move rfl (.refl) le_rfl (fun p' hp' hl => ?_) (fun _ hv => hv)
        (fun _ hv hn => absurd hv hn) ⟨rfl, ?_, (lt_nextVersion seen).2⟩ fun _ hr hn => absurd hr hn
      · rcases hfree with hnone | hown
        · rw [hnone] at hl
          cases hl
        · exact absurd (Option.some.inj (hl.symm.trans hown)) hp'
      · change s.row.authVersion < nextVersion seen
        rw [hseen]
        exact (lt_nextVersion seen).1
    · exact h.readVersion hstep
    · cases hstep
      exact h.unlock s.row le_rfl (fun _ => rfl) trivial
  case h_2 => cases hstep

theorem Inv.txEnd (h : Inv s)
    (hstep : step cfg s (.txCommit p) = some t ∨ step cfg s (.txRollback p) = some t) : Inv t := by
  rcases hstep with hstep | hstep <;> simp only [step] at hstep
  · split at hstep <;> cases hstep
    rename_i row hp
    have hok := h.phase p
    rw [hp] at hok
    exact h.unlock row hok.2.1.le (fun hne => absurd hok.1 hne) ⟨le_rfl, hok.2.2⟩
  · split at hstep
    case h_4 => cases hstep
    all_goals
      cases hstep
      exact h.unlock s.row le_rfl (fun _ => rfl) trivial

theorem Inv.publishUserAuthCache (h : Inv s) (hl : (s.phase p).Lands s.redis s.now s.row.deleted)
    (hstep : step cfg s (.publishRead p) = some t ∨ step cfg s (.publishWrite p) = some t) : Inv t := by
  have hok := h.phase p
  rcases hstep with hstep | hstep
  · simp only [step] at hstep
    split at hstep
    case h_1 version hp =>
      rw [hp] at hok hl
      split_ifs at hstep with hdel <;> cases hstep
      · exact h.publish (.refl) hok.1 (hl hdel)
      · exact h.setPhase (.refl) ⟨hok.1, le_rfl, hok.2⟩
    case h_2 => cases hstep
  · simp only [step] at hstep
    split at hstep <;> cases hstep
    rename_i row hp
    rw [hp] at hok hl
    obtain ⟨hle, hrow, hpos⟩ := hok
    have hraises := raises_writeUserCache_getD s.redis s.now cfg.keyCacheSeconds row false
    refine h.publish hraises (hle.trans hrow) ?_
    rcases hl with hpending | hfloor
    · exact hle.trans (committed_of_writeUserCache h.redis (hpos.trans_le hle) hpending)
    · exact hfloor.trans (hraises h.redis).2

theorem Inv.getStep (h : Inv s)
    (hstep : step cfg s (.getHash p) = some t ∨ step cfg s (.getFloor p) = some t ∨
      step cfg s (.getRow p) = some t ∨ step cfg s (.getFill p) = some t) : Inv t := by
  have hok := h.phase p
  rcases hstep with hstep | hstep | hstep | hstep <;> simp only [step] at hstep
  · split at hstep
    case h_1 =>
      split at hstep <;> cases hstep
      · exact h.setPhase (.refl) fun _ hv => hv
      · exact h.setPhase (.refl) fun _ hv => hv
    case h_2 => cases hstep
  · split at hstep
    case h_1 need hash hp =>
      rw [hp] at hok
      split_ifs at hstep with hlow <;> cases hstep
      · exact h.setPhase (.refl) hok
      · -- What was published before the call started is not above the floor read now.
        refine h.answer (.refl) fun v hv => ?_
        calc v ≤ s.redis.committedVersion := (h.published v (hok v hv)).2
          _ ≤ s.redis.floor s.now := le_max_of_le_right (le_max_right _ _)
          _ ≤ hash.authVersion := not_lt.1 hlow
    case h_2 need row hp =>
      rw [hp] at hok
      split_ifs at hstep <;> cases hstep
      · exact h.setPhase (.refl) trivial
      · exact h.setPhase (.refl) hok
    case h_3 => cases hstep
  · split at hstep
    case h_1 need hp =>
      rw [hp] at hok
      split_ifs at hstep <;> cases hstep
      · exact h.setPhase (.refl) trivial
      · exact h.setPhase (.refl) fun v hv => (h.published v (hok v hv)).1
    case h_2 => cases hstep
  · split at hstep
    case h_1 need row hp =>
      rw [hp] at hok
      split at hstep <;> cases hstep
      case h_1 => exact h.setPhase (.refl) trivial
      case h_2 redis hw => exact h.answer (raises_writeUserCache hw) hok
    case h_2 => cases hstep

theorem Inv.step {a : Act β n} (h : Inv s) (hl : PublishLands s a)
    (hstep : step cfg s a = some t) : Inv t := by
  cases a with
  | tick seconds =>
    cases hstep
    exact h.keep rfl (.refl) rfl rfl rfl rfl
  | others body quota =>
    obtain ⟨-, hstep⟩ := Option.ite_none_right_eq_some.1 hstep
    cases hstep
    exact h.keep rfl (.refl) rfl rfl rfl rfl
  | invalidate =>
    cases hstep
    exact h.keep rfl (fun _ => ⟨fun _ hn => (Option.some_ne_none _ hn.symm).elim, le_rfl⟩) rfl rfl rfl rfl
  | txRead p =>
    simp only [UserFence.step] at hstep
    split at hstep
    case h_1 => exact h.readVersion hstep
    case h_2 => cases hstep
  | txFence p =>
    simp only [UserFence.step] at hstep
    split at hstep <;> cases hstep
    exact h.setPhase (s.redis.raises_setFence _ _ _) trivial
  | txWrite => exact h.txWrite hstep
  | txCommit => exact h.txEnd (.inl hstep)
  | txRollback => exact h.txEnd (.inr hstep)
  | publishCommitted p =>
    simp only [UserFence.step] at hstep
    split at hstep <;> cases hstep
    rename_i hp
    have hok := h.phase p
    rw [hp] at hok
    refine h.publish (s.redis.raises_reach _ _) hok.1 ?_
    rw [publishCommittedUserAuthVersion, Redis.committedVersion_reach]
    exact le_max_right _ _
  | publishRead => exact h.publishUserAuthCache hl (.inl hstep)
  | publishWrite => exact h.publishUserAuthCache hl (.inr hstep)
  | getHash => exact h.getStep (.inl hstep)
  | getFloor => exact h.getStep (.inr (.inl hstep))
  | getRow => exact h.getStep (.inr (.inr (.inl hstep)))
  | getFill => exact h.getStep (.inr (.inr (.inr hstep)))
  | fillRead p includeQuota =>
    simp only [UserFence.step] at hstep
    split at hstep <;> cases hstep
    exact h.setPhase (.refl) trivial
  | fillWrite p =>
    simp only [UserFence.step] at hstep
    split at hstep <;> cases hstep
    exact h.setPhase (raises_writeUserCache_getD _ _ _ _ _) trivial
  | fieldRead p set =>
    simp only [UserFence.step] at hstep
    split at hstep <;> cases hstep
    exact h.setPhase (.refl) trivial
  | fieldWrite p =>
    simp only [UserFence.step] at hstep
    split at hstep <;> cases hstep
    exact h.setPhase (raises_updateUserCacheField _) trivial

/-- For every interleaving of any number of transactions, reads, delayed fills and field updates
with any delays: if every `PublishUserAuthCache` leaves the floor at the version its transaction
committed, no `GetUserCache` that starts after the publish step of a version returns a snapshot
below it. -/
theorem no_snapshot_below_published (cfg : Config) (row : Row β) (l : List (Act β n)) (s : State β n)
    (hrun : run (step cfg) (init β n row) l = some s)
    (hlands : Along (step cfg) PublishLands (init β n row) l) :
    ∀ r ∈ s.results, ∀ v ∈ r.need, v ≤ r.version :=
  (run_inv_along (fun _ _ _ h hl hstep => h.step hl hstep) (inv_init row) hlands hrun).results

/-- A fill that read version `1` writes after version `2` was committed and published; a reader then
gets version `2`. -/
def delayedFill : List (Act Unit 3) :=
  [.fillRead 0 true, .txRead 1, .txFence 1, .txWrite 1 () false, .txCommit 1, .publishRead 1, .publishWrite 1,
    .tick 200, .fillWrite 0, .getHash 2, .getRow 2, .getFloor 2, .getFill 2]

theorem no_snapshot_below_published_delayed :
    ∃ s, run (step ⟨60, true⟩) (init Unit 3 ⟨1, (), 0, false⟩) delayedFill = some s ∧
      (s.results.map fun r => (r.need, r.version)) = [([2], 2)] ∧
      ∀ r ∈ s.results, ∀ v ∈ r.need, v ≤ r.version := by
  obtain ⟨s, hs, hres⟩ : ∃ s, run (step ⟨60, true⟩) (init Unit 3 ⟨1, (), 0, false⟩) delayedFill = some s ∧
      (s.results.map fun r => (r.need, r.version)) = [([2], 2)] := ⟨_, rfl, rfl⟩
  exact ⟨s, hs, hres, no_snapshot_below_published _ _ _ s hs (by decide)⟩

/-- The publish of version `2` is refused by the fence of a second transaction, which rolls back.
When that fence has expired the fill with version `1` is written, and a reader gets it. -/
def refusedPublish : List (Act Unit 4) :=
  [.fillRead 0 true, .txRead 1, .txFence 1, .txWrite 1 () false, .txCommit 1, .txRead 2, .txFence 2,
    .publishRead 1, .publishWrite 1, .txRollback 2, .tick 200, .fillWrite 0, .getHash 3, .getFloor 3]

theorem snapshot_below_published :
    ¬ ∀ (cfg : Config) (row : Row Unit) (l : List (Act Unit 4)) (s : State Unit 4),
      run (step cfg) (init Unit 4 row) l = some s → ∀ r ∈ s.results, ∀ v ∈ r.need, v ≤ r.version := by
  intro h
  obtain ⟨s, hs, hres⟩ : ∃ s, run (step ⟨60, true⟩) (init Unit 4 ⟨1, (), 0, false⟩) refusedPublish = some s ∧
      s.results = [⟨[2], 1⟩] := ⟨_, rfl, rfl⟩
  have hlow := h _ _ _ s hs ⟨[2], 1⟩ (by rw [hres]; exact List.mem_cons_self) 2 List.mem_cons_self
  exact absurd hlow (by decide)

end TokenEra.Auth.UserFence
