import TokenEra.Auth.UserFence

/-!
# Login sessions and their cache

A login session is a row of `user_sessions`. Its row says whether it is active; a hash in Redis with
a short lifetime spares most reads of the row. An active snapshot is cached only until a deadline
that was taken before its read of the row, while a revocation writes a deny state, `revoking` before
it changes the row and `revoked` after, whose lifetime starts when it is written.

The model is of one session and its hash, with one clock in milliseconds. Any number of parties call
`GetUserSessionCached`, `RotateUserSessionRefresh`, `AdvanceUserSessionAuthVersion` and the three
ways to revoke; every SQL statement (or transaction, where a row lock makes it one) and every Redis
script is a step, and time passes between them as it likes. The check that `writeUserSessionCache`
makes before it calls the script is a step of its own.
-/

namespace TokenEra.Auth.Session

open Lib

/-! ### The row and the hash -/

inductive Status
  | active | revoking | revoked
  deriving DecidableEq, Repr

/-- A row of `user_sessions`; times are in seconds. The version starts at `1` and only grows. -/
structure UserSession where
  version : Nat
  userAuthVersion : Int
  status : Status
  refreshHash : String
  previousRefreshHash : String
  previousValidUntil : Int
  lastActiveAt : Int
  expiresAt : Int
  revokedAt : Int
  revokedReason : String
  deriving DecidableEq, Repr

structure Entry where
  version : Nat
  userAuthVersion : Int
  status : Status
  lastActiveAt : Int
  expiresAt : Int
  revokedAt : Int
  revokedReason : String
  deriving DecidableEq, Repr

def UserSession.cacheEntry (s : UserSession) : Entry :=
  ⟨s.version, s.userAuthVersion, s.status, s.lastActiveAt, s.expiresAt, s.revokedAt, s.revokedReason⟩

/-- Active at a time: the condition that the readers and the updates of the row check. -/
def UserSession.Live (s : UserSession) (now : Int) : Prop :=
  s.status = .active ∧ s.revokedAt = 0 ∧ now < s.expiresAt

instance (s : UserSession) (now : Int) : Decidable (s.Live now) := inferInstanceAs (Decidable (_ ∧ _ ∧ _))

def UserSession.revoke (s : UserSession) (now : Int) (reason : String) : UserSession :=
  { s with status := .revoked, revokedAt := now, revokedReason := reason }

/-- `writeUserSessionDenyFence` writes this. -/
def UserSession.denyEntry (s : UserSession) (status : Status) (now : Int) (reason : String) : Entry :=
  { s.cacheEntry with status := status, revokedAt := now, revokedReason := reason }

/-- The cached hash, with the last millisecond at which the key is there. -/
structure Hash where
  entry : Entry
  expires : Int
  deriving DecidableEq, Repr

def unix (now : Int) : Int := now / 1000

/-! ### Writing the cache -/

inductive Outcome
  | ok | inactive | stale
  deriving DecidableEq, Repr

/-- The part before the script: the expiration to pass on, absolute for an active entry and relative
for a deny state. `window` is the lifetime of a snapshot in milliseconds. -/
def expiration (window now : Int) (e : Entry) (deadline : Int) : Except Outcome Int :=
  if e.status = .active then
    if deadline - now ≤ 0 then .error .stale
    else if e.expiresAt * 1000 - now ≤ 0 then .error .inactive
    else .ok (min deadline (e.expiresAt * 1000))
  else
    let ttl := min (e.expiresAt * 1000 - now) window
    .ok (if ttl ≤ 0 then 1000 else ttl)

def live (cache : Option Hash) (now : Int) : Option Hash := cache.filter fun h => now ≤ h.expires

/-- The script: `none` when it refuses. A deny state is kept from active entries, and no entry is
replaced by one of a lower version. An absolute expiration that is over deletes the key. -/
def evalScript (cache : Option Hash) (now : Int) (e : Entry) (expiration : Int) : Option (Option Hash) :=
  let current := live cache now
  if e.status = .active ∧ (current.any fun h => h.entry.status ≠ .active) then none
  else if e.version < (current.map (·.entry.version)).getD 0 then none
  else if e.status = .active then
    some (if expiration ≤ now then none else some ⟨e, expiration⟩)
  else some (some ⟨e, now + expiration⟩)

/-! ### Rotating the refresh hash -/

structure Call where
  presented : String
  next : String
  now : Int
  graceSeconds : Int
  attempt : Nat
  /-- Some read of the call found the presented hash to be the current or the previous one. -/
  known : Bool
  /-- Some read of the call found it to be the previous hash, no longer valid. -/
  replayed : Bool
  /-- Some read found that of an active session. -/
  reuse : Bool
  deriving DecidableEq, Repr

inductive Decision
  | inactive | swap | invalid | race | reuse
  deriving DecidableEq, Repr

def rotateDecision (row : UserSession) (presented : String) (now : Int) : Decision :=
  if ¬ row.Live now then .inactive
  else if row.refreshHash = presented then .swap
  else if row.previousRefreshHash = "" ∨ row.previousRefreshHash ≠ presented then .invalid
  else if now ≤ row.previousValidUntil then .race
  else .reuse

def UserSession.rotate (row : UserSession) (c : Call) : UserSession :=
  { row with
    previousRefreshHash := c.presented
    previousValidUntil := c.now + c.graceSeconds
    refreshHash := c.next
    lastActiveAt := c.now }

def Call.saw (c : Call) (row : UserSession) : Call :=
  { c with
    known := c.known || (c.presented = row.refreshHash || c.presented = row.previousRefreshHash)
    replayed := c.replayed || (c.presented = row.previousRefreshHash && row.previousValidUntil < c.now)
    reuse := c.reuse || rotateDecision row c.presented c.now = .reuse }

/-! ### The parties -/

inductive Obs
  /-- `late`: the call started after a revoke call had reported success. -/
  | get (late : Bool)
  | rotate (call : Call)
  | advance (expectedVersion : Nat) (expectedUserAuthVersion nextUserAuthVersion : Int)
  deriving DecidableEq, Repr

inductive Op
  /-- `RevokeUserSession`. -/
  | one (candidate : UserSession) (now : Int) (reason : String)
  /-- `RevokeUserSessionByRefreshHash`, inside its transaction. -/
  | refresh (session : UserSession) (now : Int) (reason : String)
  /-- `revokeUserSessions`. -/
  | bulk (candidate : UserSession) (now : Int) (reason : String)
  /-- A replayed refresh hash. -/
  | reuse (call : Call) (session : UserSession)
  deriving DecidableEq, Repr

inductive Writer
  | get (late : Bool)
  | rotate (call : Call)
  | advance
  deriving DecidableEq, Repr

inductive After
  | getDenied
  | active (w : Writer) (session : UserSession)
  | fence (op : Op)
  | tombstone (op : Op)
  deriving DecidableEq, Repr

inductive Kind
  | one
  | refresh (presented : String)
  | bulk
  deriving DecidableEq, Repr

inductive Phase
  | idle
  | capture (obs : Obs)
  | read (obs : Obs) (deadline now : Int)
  | swap (call : Call) (deadline : Int) (session : UserSession)
  /-- In `writeUserSessionCache`, before its check and before its script. -/
  | write (e : Entry) (deadline : Int) (k : After)
  | eval (e : Entry) (deadline expiration : Int) (k : After)
  /-- The script has stored the snapshot; the time is checked once more. -/
  | done (w : Writer) (session : UserSession) (deadline : Int)
  /-- In `confirmUserSessionActiveSnapshot`. -/
  | confirm (w : Writer) (session : UserSession)
  | revokeRead (kind : Kind) (now : Int) (reason : String)
  | revokeRow (op : Op)
  deriving DecidableEq, Repr

inductive Ended
  | rotated | inactive | invalid | race | reuse | error
  deriving DecidableEq, Repr

structure State (n : Nat) where
  now : Int
  row : UserSession
  revokedMs : Option Int
  lock : Option (Fin n)
  cache : Option Hash
  phase : Fin n → Phase
  reported : Bool
  /-- The calls of `GetUserSessionCached` that returned the session as active: whether they were
  late. -/
  results : List Bool
  rotated : List String
  started : List (String × String)
  ended : List (Call × Ended)

def init (n : Nat) (row : UserSession) : State n where
  now := 0
  row := row
  revokedMs := if row.status = .active then none else some 0
  lock := none
  cache := none
  phase := fun _ => .idle
  reported := false
  results := []
  rotated := []
  started := []
  ended := []

inductive Act (n : Nat)
  | tick (ms : Nat)
  /-- `GetUserSessionCached` starts and reads the hash. -/
  | get (p : Fin n)
  | rotate (p : Fin n) (presented next : String) (graceSeconds : Nat)
  | advance (p : Fin n) (expectedVersion : Nat) (expectedUserAuthVersion nextUserAuthVersion : Int)
  | revoke (p : Fin n) (kind : Kind) (reason : String)
  /-- The deadline of a snapshot is taken. -/
  | capture (p : Fin n)
  /-- The row is read (for `AdvanceUserSessionAuthVersion`: its transaction). -/
  | read (p : Fin n)
  | swap (p : Fin n)
  | check (p : Fin n)
  | eval (p : Fin n)
  | done (p : Fin n)
  | confirm (p : Fin n)
  | revokeRead (p : Fin n)
  | revokeRow (p : Fin n)
  deriving DecidableEq, Repr

/-- `RedisKeyCacheSeconds`. -/
structure Config where
  keyCacheSeconds : Int

def Config.window (cfg : Config) : Int := UserFence.userCacheTTLSeconds cfg.keyCacheSeconds * 1000

variable {n : Nat}

def State.setPhase (s : State n) (p : Fin n) (q : Phase) : State n :=
  { s with phase := Function.update s.phase p q }

/-- `GetUserSessionCached` returns the session as active. -/
def State.answer (s : State n) (p : Fin n) (late : Bool) : State n :=
  { s.setPhase p .idle with results := s.results ++ [late] }

def State.finish (s : State n) (p : Fin n) (c : Call) (e : Ended) : State n :=
  { s.setPhase p .idle with ended := s.ended ++ [(c, e)] }

/-- A writer of an active snapshot returns without an error. -/
def State.accept (s : State n) (p : Fin n) : Writer → State n
  | .get late => s.answer p late
  | .rotate call => s.finish p call .rotated
  | .advance => s.setPhase p .idle

def State.reject (s : State n) (p : Fin n) : Writer → State n
  | .get _ => s.setPhase p .idle
  | .rotate call => s.finish p call .inactive
  | .advance => s.setPhase p .idle

/-- The row can be written: no other transaction holds its lock. -/
def State.Writable (s : State n) (p : Fin n) : Prop := s.lock = none ∨ s.lock = some p

instance (s : State n) (p : Fin n) : Decidable (s.Writable p) := inferInstanceAs (Decidable (_ ∨ _))

def State.unlock (s : State n) (p : Fin n) : State n := { s with lock := if s.lock = some p then none else s.lock }

/-- A revocation of the row, after which the tombstone is to be written. -/
def State.revokeRow (s : State n) (p : Fin n) (now : Int) (reason : String) (session : UserSession) (op : Op) :
    State n :=
  { s.setPhase p (.write (session.revoke now reason).cacheEntry 0 (.tombstone op)) with
    row := s.row.revoke now reason
    revokedMs := some s.now }

def getUserSessionCache (cache : Option Hash) (now : Int) : Option (Option Entry) :=
  match live cache now with
  | none => none
  | some h =>
    if h.entry.version = 0 ∨ h.entry.userAuthVersion ≤ 0 then none
    else if h.entry.status ≠ .active ∨ h.entry.revokedAt ≠ 0 ∨ h.entry.expiresAt ≤ unix now then some none
    else some (some h.entry)

def conclude (s : State n) (p : Fin n) (deadline : Int) (outcome : Outcome) : After → State n
  | .getDenied => s.setPhase p .idle
  | .active w session =>
    match outcome with
    | .ok => s.setPhase p (.done w session deadline)
    | .inactive => s.reject p w
    | .stale => s.setPhase p (.confirm w session)
  | .fence op =>
    match outcome with
    | .ok => s.setPhase p (.revokeRow op)
    | _ =>
      match op with
      | .reuse call _ => s.finish p call .error
      | _ => (s.setPhase p .idle).unlock p
  | .tombstone op =>
    match op with
    | .reuse call _ => s.finish p call .reuse
    | _ => { s.setPhase p .idle with reported := true }

def State.observe (s : State n) (p : Fin n) (deadline now : Int) : Obs → Option (State n)
  | .get late =>
    if s.row.Live (unix s.now) then
      some (s.setPhase p (.write s.row.cacheEntry deadline (.active (.get late) s.row)))
    else some (s.setPhase p (.write { s.row.cacheEntry with status := .revoked } 0 .getDenied))
  | .rotate call =>
    let call := call.saw s.row
    match rotateDecision s.row call.presented call.now with
    | .inactive => some (s.finish p call .inactive)
    | .swap => some (s.setPhase p (.swap call deadline s.row))
    | .invalid => some (s.finish p call .invalid)
    | .race => some (s.finish p call .race)
    | .reuse =>
      some (s.setPhase p (.write (s.row.denyEntry .revoking call.now "refresh_reuse") 0 (.fence (.reuse call s.row))))
  | .advance expectedVersion expectedUserAuthVersion nextUserAuthVersion =>
    if ¬ s.Writable p then none
    else if s.row.status = .active ∧ now < s.row.expiresAt ∧ s.row.version = expectedVersion ∧
        s.row.userAuthVersion = expectedUserAuthVersion then
      let row := { s.row with
        version := s.row.version + 1, userAuthVersion := nextUserAuthVersion, lastActiveAt := now }
      some { s.setPhase p (.write row.cacheEntry deadline (.active .advance row)) with row := row }
    else some (s.setPhase p .idle)

def State.readToRevoke (s : State n) (p : Fin n) (now : Int) (reason : String) : Kind → Option (State n)
  | .one =>
    if s.row.Live now then
      some (s.setPhase p (.write (s.row.denyEntry .revoking now reason) 0 (.fence (.one s.row now reason))))
    else some (s.setPhase p .idle)
  | .bulk =>
    if s.row.status = .active ∧ now < s.row.expiresAt then
      some (s.setPhase p (.write (s.row.denyEntry .revoking now reason) 0 (.fence (.bulk s.row now reason))))
    else some (s.setPhase p .idle)
  | .refresh presented =>
    if ¬ s.Writable p then none
    else if s.row.Live now ∧ (s.row.refreshHash = presented ∨ (s.row.previousRefreshHash ≠ "" ∧
        now ≤ s.row.previousValidUntil ∧ s.row.previousRefreshHash = presented)) then
      some { s.setPhase p (.write (s.row.denyEntry .revoking now reason) 0 (.fence (.refresh s.row now reason))) with
        lock := some p }
    else some (s.setPhase p .idle)

def State.execRevoke (s : State n) (p : Fin n) : Op → State n
  | .one candidate now reason =>
    if s.row.Live now then s.revokeRow p now reason candidate (.one candidate now reason) else s.setPhase p .idle
  | .bulk candidate now reason =>
    if s.row.status = .active then s.revokeRow p now reason s.row (.bulk candidate now reason)
    else s.setPhase p .idle
  | .refresh session now reason =>
    if s.row.status = .active then (s.revokeRow p now reason session (.refresh session now reason)).unlock p
    else (s.setPhase p .idle).unlock p
  | .reuse call session =>
    if s.row.Live call.now then s.revokeRow p call.now "refresh_reuse" session (.reuse call session)
    else s.finish p call .inactive

def step (cfg : Config) (s : State n) : Act n → Option (State n)
  | .tick ms => some { s with now := s.now + ms }
  | .get p =>
    match s.phase p with
    | .idle =>
      match getUserSessionCache s.cache s.now with
      | none => some (s.setPhase p (.capture (.get s.reported)))
      | some none => some s
      | some (some _) => some (s.answer p s.reported)
    | _ => none
  | .rotate p presented next graceSeconds =>
    match s.phase p with
    | .idle =>
      if presented = "" ∨ next = "" ∨ presented = next then none
      else
        some
          { s.setPhase p
          (.capture (.rotate ⟨presented, next, unix s.now, graceSeconds, 1, false, false,
          false⟩)) with
          started := s.started ++ [(presented, next)] }
    | _ => none
  | .advance p expectedVersion expectedUserAuthVersion nextUserAuthVersion =>
    match s.phase p with
    | .idle =>
      if expectedVersion = 0 ∨ expectedUserAuthVersion ≤ 0 ∨ nextUserAuthVersion ≤ expectedUserAuthVersion then none
      else some (s.setPhase p (.capture (.advance expectedVersion expectedUserAuthVersion nextUserAuthVersion)))
    | _ => none
  | .revoke p kind reason =>
    match s.phase p with
    | .idle =>
      if kind = .refresh "" then none else some (s.setPhase p (.revokeRead kind (unix s.now) reason))
    | _ => none
  | .capture p =>
    match s.phase p with
    | .capture obs => some (s.setPhase p (.read obs (s.now + cfg.window) (unix s.now)))
    | _ => none
  | .read p =>
    match s.phase p with
    | .read obs deadline now => s.observe p deadline now obs
    | _ => none
  | .swap p =>
    match s.phase p with
    | .swap call deadline session =>
      if ¬ s.Writable p then none
      else if s.row.Live call.now ∧ s.row.refreshHash = call.presented then
        let session := session.rotate call
        some { s.setPhase p (.write session.cacheEntry deadline (.active (.rotate call) session)) with
          row := s.row.rotate call
          rotated := s.rotated ++ [call.presented] }
      else if call.attempt < 3 then
        some (s.setPhase p (.capture (.rotate { call with attempt := call.attempt + 1 })))
      else some (s.finish p call .invalid)
    | _ => none
  | .check p =>
    match s.phase p with
    | .write e deadline k =>
      match expiration cfg.window s.now e deadline with
      | .error outcome => some (conclude s p deadline outcome k)
      | .ok expiration => some (s.setPhase p (.eval e deadline expiration k))
    | _ => none
  | .eval p =>
    match s.phase p with
    | .eval e deadline expiration k =>
      match evalScript s.cache s.now e expiration with
      | none => some (conclude s p deadline .inactive k)
      | some cache => some (conclude { s with cache := cache } p deadline .ok k)
    | _ => none
  | .done p =>
    match s.phase p with
    | .done w session deadline =>
      if deadline ≤ s.now then some (s.setPhase p (.confirm w session))
      else if session.expiresAt * 1000 ≤ s.now then some (s.reject p w)
      else some (s.accept p w)
    | _ => none
  | .confirm p =>
    match s.phase p with
    | .confirm w session =>
      if s.row.Live (unix s.now) ∧ s.row.version = session.version ∧
          s.row.userAuthVersion = session.userAuthVersion then some (s.accept p w)
      else some (s.reject p w)
    | _ => none
  | .revokeRead p =>
    match s.phase p with
    | .revokeRead kind now reason => s.readToRevoke p now reason kind
    | _ => none
  | .revokeRow p =>
    match s.phase p with
    | .revokeRow op => if s.Writable p then some (s.execRevoke p op) else none
    | _ => none

/-! ### What a step can do -/

inductive Steps (cfg : Config) (s : State n) : Act n → State n → Prop
  | tick {ms : Nat} : Steps cfg s (.tick ms) { s with now := s.now + ms }
  | getMiss {p : Fin n} (hp : s.phase p = .idle) : Steps cfg s (.get p) (s.setPhase p (.capture (.get s.reported)))
  | getDenied {p : Fin n} : Steps cfg s (.get p) s
  | getHit {p : Fin n} {e : Entry} (hget : getUserSessionCache s.cache s.now = some (some e)) :
      Steps cfg s (.get p) (s.answer p s.reported)
  | rotate {p : Fin n} {presented next : String} {graceSeconds : Nat}
      (hargs : ¬ (presented = "" ∨ next = "" ∨ presented = next)) :
      Steps cfg s (.rotate p presented next graceSeconds)
        { s.setPhase p (.capture (.rotate ⟨presented, next, unix s.now, graceSeconds, 1, false, false, false⟩)) with
          started := s.started ++ [(presented, next)] }
  | advance {p : Fin n} {expectedVersion : Nat} {expectedUserAuthVersion nextUserAuthVersion : Int} :
      Steps cfg s (.advance p expectedVersion expectedUserAuthVersion nextUserAuthVersion)
        (s.setPhase p (.capture (.advance expectedVersion expectedUserAuthVersion nextUserAuthVersion)))
  | revoke {p : Fin n} {kind : Kind} {reason : String} :
      Steps cfg s (.revoke p kind reason) (s.setPhase p (.revokeRead kind (unix s.now) reason))
  | capture {p : Fin n} {obs : Obs} (hp : s.phase p = .capture obs) :
      Steps cfg s (.capture p) (s.setPhase p (.read obs (s.now + cfg.window) (unix s.now)))
  | read {p : Fin n} {obs : Obs} {deadline now : Int} {t : State n} (hp : s.phase p = .read obs deadline now)
      (ht : s.observe p deadline now obs = some t) : Steps cfg s (.read p) t
  | swap {p : Fin n} {call : Call} {deadline : Int} {session : UserSession}
      (hp : s.phase p = .swap call deadline session) (hw : s.Writable p)
      (hlive : s.row.Live call.now ∧ s.row.refreshHash = call.presented) :
      Steps cfg s (.swap p)
        { s.setPhase p (.write (session.rotate call).cacheEntry deadline
            (.active (.rotate call) (session.rotate call))) with
          row := s.row.rotate call
          rotated := s.rotated ++ [call.presented] }
  | retry {p : Fin n} {call : Call} {deadline : Int} {session : UserSession}
      (hp : s.phase p = .swap call deadline session) :
      Steps cfg s (.swap p) (s.setPhase p (.capture (.rotate { call with attempt := call.attempt + 1 })))
  | lost {p : Fin n} {call : Call} {deadline : Int} {session : UserSession}
      (hp : s.phase p = .swap call deadline session) : Steps cfg s (.swap p) (s.finish p call .invalid)
  | refuse {p : Fin n} {e : Entry} {deadline : Int} {k : After} {outcome : Outcome}
      (hp : s.phase p = .write e deadline k) (hx : expiration cfg.window s.now e deadline = .error outcome) :
      Steps cfg s (.check p) (conclude s p deadline outcome k)
  | check {p : Fin n} {e : Entry} {deadline x : Int} {k : After} (hp : s.phase p = .write e deadline k)
      (hx : expiration cfg.window s.now e deadline = .ok x) :
      Steps cfg s (.check p) (s.setPhase p (.eval e deadline x k))
  | reject {p : Fin n} {e : Entry} {deadline x : Int} {k : After} (hp : s.phase p = .eval e deadline x k)
      (hscript : evalScript s.cache s.now e x = none) : Steps cfg s (.eval p) (conclude s p deadline .inactive k)
  | store {p : Fin n} {e : Entry} {deadline x : Int} {k : After} {cache : Option Hash}
      (hp : s.phase p = .eval e deadline x k) (hscript : evalScript s.cache s.now e x = some cache) :
      Steps cfg s (.eval p) (conclude { s with cache := cache } p deadline .ok k)
  | late {p : Fin n} {w : Writer} {session : UserSession} {deadline : Int}
      (hp : s.phase p = .done w session deadline) : Steps cfg s (.done p) (s.setPhase p (.confirm w session))
  | expired {p : Fin n} {w : Writer} {session : UserSession} {deadline : Int}
      (hp : s.phase p = .done w session deadline) : Steps cfg s (.done p) (s.reject p w)
  | done {p : Fin n} {w : Writer} {session : UserSession} {deadline : Int}
      (hp : s.phase p = .done w session deadline) : Steps cfg s (.done p) (s.accept p w)
  | confirmed {p : Fin n} {w : Writer} {session : UserSession} (hp : s.phase p = .confirm w session) :
      Steps cfg s (.confirm p) (s.accept p w)
  | denied {p : Fin n} {w : Writer} {session : UserSession} (hp : s.phase p = .confirm w session) :
      Steps cfg s (.confirm p) (s.reject p w)
  | revokeRead {p : Fin n} {kind : Kind} {now : Int} {reason : String} {t : State n}
      (ht : s.readToRevoke p now reason kind = some t) : Steps cfg s (.revokeRead p) t
  | revokeRow {p : Fin n} {op : Op} (hp : s.phase p = .revokeRow op) (hw : s.Writable p) :
      Steps cfg s (.revokeRow p) (s.execRevoke p op)

variable {cfg : Config}

theorem step_cases {s t : State n} {a : Act n} (h : step cfg s a = some t) : Steps cfg s a t := by
  cases a with simp only [step] at h
  | tick ms =>
    cases h
    exact .tick
  | get p =>
    split at h
    case h_1 hp =>
      split at h <;> cases h
      · exact .getMiss hp
      · exact .getDenied
      · rename_i hget
        exact .getHit hget
    case h_2 => cases h
  | rotate p presented next graceSeconds =>
    split at h
    case h_1 =>
      obtain ⟨hargs, h⟩ := Option.ite_none_left_eq_some.1 h
      cases h
      exact .rotate hargs
    case h_2 => cases h
  | advance p expectedVersion expectedUserAuthVersion nextUserAuthVersion =>
    split at h
    case h_1 =>
      obtain ⟨-, h⟩ := Option.ite_none_left_eq_some.1 h
      cases h
      exact .advance
    case h_2 => cases h
  | revoke p kind reason =>
    split at h
    case h_1 =>
      obtain ⟨-, h⟩ := Option.ite_none_left_eq_some.1 h
      cases h
      exact .revoke
    case h_2 => cases h
  | capture p =>
    split at h <;> cases h
    rename_i hp
    exact .capture hp
  | read p =>
    split at h
    case h_1 hp => exact .read hp h
    case h_2 => cases h
  | swap p =>
    split at h
    case h_1 hp =>
      obtain ⟨hw, h⟩ := Option.ite_none_left_eq_some.1 h
      split_ifs at h with hlive <;> cases h
      · exact .swap hp (not_not.1 hw) hlive
      · exact .retry hp
      · exact .lost hp
    case h_2 => cases h
  | check p =>
    split at h
    case h_1 hp =>
      split at h <;> cases h
      · rename_i hx
        exact .refuse hp hx
      · rename_i hx
        exact .check hp hx
    case h_2 => cases h
  | eval p =>
    split at h
    case h_1 hp =>
      split at h <;> cases h
      · rename_i hscript
        exact .reject hp hscript
      · rename_i hscript
        exact .store hp hscript
    case h_2 => cases h
  | done p =>
    split at h
    case h_1 hp =>
      split_ifs at h <;> cases h
      · exact .late hp
      · exact .expired hp
      · exact .done hp
    case h_2 => cases h
  | confirm p =>
    split at h
    case h_1 hp =>
      split_ifs at h <;> cases h
      · exact .confirmed hp
      · exact .denied hp
    case h_2 => cases h
  | revokeRead p =>
    split at h
    case h_1 => exact .revokeRead h
    case h_2 => cases h
  | revokeRow p =>
    split at h
    case h_1 hp =>
      obtain ⟨hw, h⟩ := Option.ite_none_right_eq_some.1 h
      cases h
      exact .revokeRow hp hw
    case h_2 => cases h

/-! ### What the writes to the cache can do -/

theorem Config.window_pos (cfg : Config) : 0 < cfg.window := by
  unfold window UserFence.userCacheTTLSeconds
  split_ifs <;> omega

variable {e : Entry} {now x : Int} {cache : Option Hash}

theorem expiration_active {deadline : Int} (he : e.status = .active)
    (h : expiration cfg.window now e deadline = .ok x) : x ≤ deadline ∧ x ≤ e.expiresAt * 1000 := by
  unfold expiration at h
  rw [if_pos he] at h
  split_ifs at h
  obtain rfl := Except.ok.inj h
  exact ⟨min_le_left _ _, min_le_right _ _⟩

theorem expiration_deny (cfg : Config) (he : e.status ≠ .active) (now deadline : Int) :
    ∃ x, expiration cfg.window now e deadline = .ok x ∧ (cfg.window ≤ x ∨ e.expiresAt * 1000 ≤ now + x) := by
  have hpos := cfg.window_pos
  refine ⟨_, if_neg he, ?_⟩
  split_ifs <;> omega

theorem live_eq_some {h : Hash} :
    live cache now = some h ↔ cache = some h ∧ now ≤ h.expires := by
  unfold live
  rw [Option.filter_eq_some_iff, decide_eq_true_iff]

theorem evalScript_refused (h : evalScript cache now e x = none) :
    e.status = .active ∨ ∃ hash, cache = some hash ∧ e.version < hash.entry.version := by
  by_cases he : e.status = .active
  · exact .inl he
  right
  unfold evalScript at h
  dsimp only at h
  rw [if_neg fun hc => he hc.1] at h
  by_cases hv : e.version < ((live cache now).map (·.entry.version)).getD 0
  · cases hl : live cache now with rw [hl] at hv
    | none =>
      exact absurd hv (Nat.not_lt_zero _)
    | some hash =>
      exact ⟨hash, (live_eq_some.1 hl).1, hv⟩
  · rw [if_neg hv, if_neg he] at h
    cases h

/-- What the script stores: an active entry if no deny state is there, with the absolute expiration,
or a deny state with the relative one. -/
theorem evalScript_stored {c : Option Hash} (h : evalScript cache now e x = some c) :
    (e.status = .active ∧ (∀ hash, live cache now = some hash → hash.entry.status = .active) ∧
      (c = none ∨ c = some ⟨e, x⟩)) ∨ (e.status ≠ .active ∧ c = some ⟨e, now + x⟩) := by
  unfold evalScript at h
  dsimp only at h
  obtain ⟨hdeny, h⟩ := Option.ite_none_left_eq_some.1 h
  obtain ⟨-, h⟩ := Option.ite_none_left_eq_some.1 h
  by_cases he : e.status = .active
  · rw [if_pos he] at h
    refine .inl ⟨he, fun hash hl => ?_, ?_⟩
    · by_contra hne
      exact hdeny ⟨he, by simp [hl, hne]⟩
    · rw [← Option.some.inj h]
      split_ifs
      · exact .inl rfl
      · exact .inr rfl
  · rw [if_neg he] at h
    exact .inr ⟨he, (Option.some.inj h).symm⟩

theorem getUserSessionCache_active (h : getUserSessionCache cache now = some (some e)) :
    ∃ hash, cache = some hash ∧ now ≤ hash.expires ∧ hash.entry.status = .active := by
  unfold getUserSessionCache at h
  split at h
  case h_1 => cases h
  case h_2 hash hl =>
    obtain ⟨-, h⟩ := Option.ite_none_left_eq_some.1 h
    obtain ⟨hc, hlive⟩ := live_eq_some.1 hl
    refine ⟨hash, hc, hlive, ?_⟩
    by_contra hne
    rw [if_pos (.inl hne)] at h
    cases h

theorem revoking_ne : Status.revoking ≠ .active := by decide

theorem revoked_ne : Status.revoked ≠ .active := by decide

theorem rotateDecision_live {row : UserSession} {presented : String}
    (h : rotateDecision row presented now ≠ .inactive) : row.Live now := by
  by_contra hlive
  exact h (if_pos hlive)

theorem State.Writable.not_other {s : State n} {p p' : Fin n} (h : s.Writable p) (hp : p' ≠ p)
    (hl : s.lock = some p') : False := by
  rcases h with h | h
  · rw [h] at hl
    cases hl
  · exact hp (Option.some.inj (hl.symm.trans h))

end TokenEra.Auth.Session
