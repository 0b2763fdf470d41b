import TokenEra.Auth.Session

/-!
# A revoked session stays revoked

An active snapshot may be cached only until a deadline of one window after a moment at which the row
was still active, and only until the session expires. After the row is revoked no such deadline
moves any more: all of them are bounded by `State.limit`. A tombstone that reaches the cache lives
at least until then, and while it lives it keeps the active snapshots out. So what has to be shown
is that the tombstone does reach the cache. The script refuses one whose version is below the cached
version; `RevokeUserSession` writes its tombstone with the version it read before its fence, and the
row may have been advanced since. `CandidateCurrent` excludes that, and with it no call of
`GetUserSessionCached` that starts after a reported revocation returns the session.
-/

namespace TokenEra.Auth.Session

open Lib

variable {n : Nat} {cfg : Config}

/-! ### The invariant -/

def State.base (s : State n) : Int := s.revokedMs.getD s.now

def State.limit (cfg : Config) (s : State n) : Int := min (s.row.expiresAt * 1000) (s.base + cfg.window)

def Sealed (cfg : Config) (s : State n) : Prop :=
  (∃ h, s.cache = some h ∧ h.entry.status ≠ .active ∧ s.limit cfg ≤ h.expires) ∨ s.limit cfg < s.now

def EntryOk (s : State n) (e : Entry) : Prop := e.expiresAt = s.row.expiresAt ∧ e.version ≤ s.row.version

def SnapshotOk (s : State n) (session : UserSession) : Prop :=
  session.expiresAt = s.row.expiresAt ∧ session.version ≤ s.row.version

def OpOk (s : State n) (p : Fin n) : Op → Prop
  | .one candidate _ _ => SnapshotOk s candidate
  | .refresh session _ _ => SnapshotOk s session ∧ s.lock = some p ∧ session.version = s.row.version
  | .bulk candidate _ _ => SnapshotOk s candidate
  | .reuse _ session => SnapshotOk s session

def Op.Reports : Op → Prop
  | .reuse _ _ => False
  | _ => True

def WriterOk : Writer → Prop
  | .get late => late = false
  | _ => True

def AfterOk (s : State n) (p : Fin n) (e : Entry) : After → Prop
  | .getDenied => True
  | .active w _ => WriterOk w
  | .fence op => e.status ≠ .active ∧ OpOk s p op
  | .tombstone op => e.status ≠ .active ∧ s.row.status ≠ .active ∧ (op.Reports → e.version = s.row.version)

def ObsOk (s : State n) : Obs → Prop
  | .get late => late = true → s.reported = true
  | _ => True

def PhaseOk (cfg : Config) (s : State n) (p : Fin n) : Phase → Prop
  | .idle => True
  | .capture obs => ObsOk s obs
  | .read obs deadline _ => ObsOk s obs ∧ deadline ≤ s.now + cfg.window
  | .swap _ deadline session => deadline ≤ s.base + cfg.window ∧ SnapshotOk s session
  | .write e deadline k =>
    EntryOk s e ∧ (e.status = .active → deadline ≤ s.base + cfg.window) ∧ AfterOk s p e k
  | .eval e _ expiration k =>
    EntryOk s e ∧ (e.status = .active → expiration ≤ s.limit cfg) ∧
      (e.status ≠ .active → cfg.window ≤ expiration ∨ s.row.expiresAt * 1000 ≤ s.now + expiration) ∧
      AfterOk s p e k
  | .done w _ _ => WriterOk w
  | .confirm w _ => WriterOk w
  | .revokeRead _ _ _ => True
  | .revokeRow op => OpOk s p op

structure Inv (cfg : Config) (s : State n) : Prop where
  active : s.row.status = .active → s.revokedMs = none
  revoked : s.row.status ≠ .active → ∃ t, s.revokedMs = some t ∧ t ≤ s.now
  cache : ∀ h, s.cache = some h → EntryOk s h.entry ∧ (h.entry.status = .active → h.expires ≤ s.limit cfg)
  reported : s.reported = true → s.row.status ≠ .active ∧ Sealed cfg s
  phase : ∀ p, PhaseOk cfg s p (s.phase p)
  results : ∀ late ∈ s.results, late = false

theorem inv_init (row : UserSession) : Inv cfg (init n row) where
  active h := if_pos h
  revoked h := ⟨0, if_neg h, le_rfl⟩
  cache _ h := by cases h
  reported h := by cases h
  phase _ := trivial
  results := by simp [init]

variable {s t : State n} {e : Entry} {op : Op} {p : Fin n} {k : After} {q : Phase} {x deadline now : Int}

theorem Inv.base_le (h : Inv cfg s) : s.base ≤ s.now := by
  by_cases hrow : s.row.status = .active
  · rw [State.base, h.active hrow]
    exact le_rfl
  · obtain ⟨t, ht, hle⟩ := h.revoked hrow
    rw [State.base, ht]
    exact hle

theorem Inv.base_active (h : Inv cfg s) (hrow : s.row.status = .active) : s.base = s.now := by
  rw [State.base, h.active hrow]
  rfl

/-- How the parts of the state that a party relies on can change while others move. -/
structure Grows (s t : State n) : Prop where
  now : s.now ≤ t.now
  expiresAt : t.row.expiresAt = s.row.expiresAt
  version : s.row.version ≤ t.row.version
  base : s.base ≤ t.base
  reported : s.reported = true → t.reported = true
  frozen : s.row.status ≠ .active → t.row = s.row

theorem Grows.limit (g : Grows s t) : s.limit cfg ≤ t.limit cfg := by
  have hbase := g.base
  unfold State.limit
  rw [g.expiresAt]
  omega

theorem EntryOk.mono (h : EntryOk s e) (g : Grows s t) : EntryOk t e :=
  ⟨h.1.trans g.expiresAt.symm, h.2.trans g.version⟩

theorem SnapshotOk.mono {session : UserSession} (h : SnapshotOk s session) (g : Grows s t) :
    SnapshotOk t session :=
  ⟨h.1.trans g.expiresAt.symm, h.2.trans g.version⟩

theorem OpOk.mono (h : OpOk s p op) (g : Grows s t)
    (hlock : s.lock = some p → t.lock = some p ∧ t.row.version = s.row.version) : OpOk t p op := by
  cases op with
  | one | bulk | reuse => exact SnapshotOk.mono h g
  | refresh =>
    obtain ⟨hs, hl, hv⟩ := h
    exact ⟨hs.mono g, (hlock hl).1, hv.trans (hlock hl).2.symm⟩

theorem AfterOk.mono (h : AfterOk s p e k) (g : Grows s t)
    (hlock : s.lock = some p → t.lock = some p ∧ t.row.version = s.row.version) : AfterOk t p e k := by
  cases k with
  | getDenied => trivial
  | active => exact h
  | fence => exact ⟨h.1, h.2.mono g hlock⟩
  | tombstone =>
    obtain ⟨he, hrow, hv⟩ := h
    refine ⟨he, ?_, ?_⟩
    · rw [g.frozen hrow]
      exact hrow
    · rw [g.frozen hrow]
      exact hv

theorem PhaseOk.mono (h : PhaseOk cfg s p q) (g : Grows s t)
    (hlock : s.lock = some p → t.lock = some p ∧ t.row.version = s.row.version) : PhaseOk cfg t p q := by
  have hobs : ∀ {obs}, ObsOk s obs → ObsOk t obs := fun {obs} ho => by
    cases obs with
    | get => exact fun hlate => g.reported (ho hlate)
    | rotate | advance => trivial
  cases q with
  | idle | revokeRead => trivial
  | done | confirm => exact h
  | capture => exact hobs h
  | read => exact ⟨hobs h.1, h.2.trans (by linarith [g.now])⟩
  | swap => exact ⟨h.1.trans (by linarith [g.base]), h.2.mono g⟩
  | write =>
    obtain ⟨he, hd, hk⟩ := h
    exact ⟨he.mono g, fun ha => (hd ha).trans (by linarith [g.base]), hk.mono g hlock⟩
  | eval =>
    obtain ⟨he, hd, hx, hk⟩ := h
    refine ⟨he.mono g, fun ha => (hd ha).trans g.limit, fun ha => ?_, hk.mono g hlock⟩
    have hnow := g.now
    rw [g.expiresAt]
    rcases hx ha with hx | hx
    · exact .inl hx
    · exact .inr (by omega)
  | revokeRow => exact OpOk.mono h g hlock

/-! ### The kinds of steps -/

theorem grows_self (hnow : t.now = s.now) (hrow : t.row = s.row)
    (hrevoked : t.revokedMs = s.revokedMs) (hrep : s.reported = true → t.reported = true) : Grows s t where
  now := hnow.ge
  expiresAt := by rw [hrow]
  version := by rw [hrow]
  base := by rw [State.base, State.base, hnow, hrevoked]
  reported := hrep
  frozen _ := hrow

theorem Inv.phases (h : Inv cfg s) (g : Grows s t) (hphase : t.phase = Function.update s.phase p q)
    (hlock : ∀ p', p' ≠ p → s.lock = some p' → t.lock = some p' ∧ t.row.version = s.row.version)
    (hq : PhaseOk cfg t p q) (p' : Fin n) : PhaseOk cfg t p' (t.phase p') := by
  rw [hphase]
  exact (Function.forall_update_iff s.phase (PhaseOk cfg t)).2
    ⟨hq, fun p' hp => (h.phase p').mono g (hlock p' hp)⟩ p'

theorem Inv.quiet (h : Inv cfg s)
    (hphase : t.phase = Function.update s.phase p q) (hnow : t.now = s.now) (hrow : t.row = s.row)
    (hrevoked : t.revokedMs = s.revokedMs) (hcache : t.cache = s.cache)
    (hrep : t.reported = true → s.row.status ≠ .active ∧ Sealed cfg s) (hkeep : s.reported = true → t.reported = true)
    (hlock : ∀ p', p' ≠ p → s.lock = some p' → t.lock = some p') (hq : PhaseOk cfg t p q)
    (hres : ∀ late ∈ t.results, late ∈ s.results ∨ late = false) : Inv cfg t := by
  have g : Grows s t := grows_self hnow hrow hrevoked hkeep
  have hlimit : t.limit cfg = s.limit cfg := by
    simp only [State.limit, State.base, hnow, hrow, hrevoked]
  refine ⟨?_, ?_, fun hash hh => ?_, fun hr => ?_, ?_, fun late hl => ?_⟩
  · rw [hrow, hrevoked]
    exact h.active
  · rw [hrow, hrevoked, hnow]
    exact h.revoked
  · rw [hcache] at hh
    obtain ⟨he, hle⟩ := h.cache hash hh
    exact ⟨he.mono g, hlimit ▸ hle⟩
  · obtain ⟨hne, hsealed⟩ := hrep hr
    rw [Sealed, hcache, hlimit, hnow, hrow]
    exact ⟨hne, hsealed⟩
  · exact h.phases g hphase (fun p' hp hl => ⟨hlock p' hp hl, by rw [hrow]⟩) hq
  · rcases hres late hl with hl | hl
    · exact h.results late hl
    · exact hl

theorem Inv.setPhase (h : Inv cfg s) (hq : PhaseOk cfg s p q) :
    Inv cfg (s.setPhase p q) :=
  h.quiet rfl rfl rfl rfl rfl h.reported id (fun _ _ hl => hl)
    (hq.mono (grows_self rfl rfl rfl id) fun hl => ⟨hl, rfl⟩) fun _ hl => .inl hl

theorem Inv.finish (h : Inv cfg s) (p : Fin n) (c : Call) (e : Ended) : Inv cfg (s.finish p c e) :=
  h.quiet rfl rfl rfl rfl rfl h.reported id (fun _ _ hl => hl) (q := .idle) trivial fun _ hl => .inl hl

theorem Inv.answer (h : Inv cfg s) {late : Bool} (hlate : late = false) :
    Inv cfg (s.answer p late) := by
  refine h.quiet rfl rfl rfl rfl rfl h.reported id (fun _ _ hl => hl) (q := .idle) trivial fun r hr => ?_
  rcases List.mem_append.1 hr with hr | hr
  · exact .inl hr
  · exact .inr ((List.mem_singleton.1 hr).trans hlate)

theorem Inv.accept (h : Inv cfg s) {w : Writer} (hw : WriterOk w) :
    Inv cfg (s.accept p w) := by
  cases w with
  | get => exact h.answer hw
  | rotate => exact h.finish p _ _
  | advance => exact h.setPhase trivial

theorem Inv.reject (h : Inv cfg s) (p : Fin n) (w : Writer) : Inv cfg (s.reject p w) := by
  cases w with
  | get | advance => exact h.setPhase trivial
  | rotate => exact h.finish p _ _

theorem Inv.unlock (h : Inv cfg s) (p : Fin n) : Inv cfg ((s.setPhase p .idle).unlock p) := by
  refine h.quiet rfl rfl rfl rfl rfl h.reported id (fun p' hp hl => ?_) (q := .idle) trivial fun _ hl => .inl hl
  exact (if_neg fun heq => hp (Option.some.inj (hl.symm.trans heq))).trans hl

theorem Inv.writeRow (h : Inv cfg s) (hw : s.Writable p)
    (hactive : s.row.status = .active) (hphase : t.phase = Function.update s.phase p q) (hnow : t.now = s.now)
    (hexp : t.row.expiresAt = s.row.expiresAt) (hversion : s.row.version ≤ t.row.version)
    (hrevoked : (t.row.status = .active ∧ t.revokedMs = none) ∨
      (t.row.status ≠ .active ∧ t.revokedMs = some s.now))
    (hcache : t.cache = s.cache) (hrep : t.reported = s.reported) (hq : PhaseOk cfg t p q)
    (hres : t.results = s.results) : Inv cfg t := by
  have hbase : t.base = s.base := by
    rw [h.base_active hactive, State.base]
    rcases hrevoked with ⟨-, hr⟩ | ⟨-, hr⟩
    · rw [hr, ← hnow]
      rfl
    · rw [hr]
      rfl
  have hlimit : t.limit cfg = s.limit cfg := by
    rw [State.limit, State.limit, hbase, hexp]
  have g : Grows s t :=
    ⟨hnow.ge, hexp, hversion, hbase.ge, fun hr => hrep.trans hr, fun hne => absurd hactive hne⟩
  refine ⟨fun hs => ?_, fun hs => ?_, fun hash hh => ?_, fun hr => ?_, ?_, ?_⟩
  · rcases hrevoked with ⟨-, hr⟩ | ⟨hne, -⟩
    · exact hr
    · exact absurd hs hne
  · rcases hrevoked with ⟨ha, -⟩ | ⟨-, hr⟩
    · exact absurd ha hs
    · exact ⟨s.now, hr, hnow.ge⟩
  · rw [hcache] at hh
    obtain ⟨he, hle⟩ := h.cache hash hh
    exact ⟨he.mono g, hlimit ▸ hle⟩
  · exact absurd hactive (h.reported (hrep.symm.trans hr)).1
  · exact h.phases g hphase (fun p' hp hl => (hw.not_other hp hl).elim) hq
  · rw [hres]
    exact h.results

theorem Inv.tick (h : Inv cfg s) (ms : Nat) : Inv cfg { s with now := s.now + ms } := by
  have hbase : s.base ≤ ({ s with now := s.now + ms } : State n).base := by
    cases hr : s.revokedMs with
    | none => simp [State.base, hr]
    | some t => simp [State.base, hr]
  have g : Grows s { s with now := s.now + ms } :=
    ⟨by simp, rfl, le_rfl, hbase, id, fun _ => rfl⟩
  refine ⟨h.active, fun hne => ?_, fun hash hh => ?_, fun hr => ?_, fun p => ?_, h.results⟩
  · obtain ⟨t, ht, hle⟩ := h.revoked hne
    exact ⟨t, ht, hle.trans g.now⟩
  · obtain ⟨he, hle⟩ := h.cache hash hh
    exact ⟨he.mono g, fun ha => (hle ha).trans g.limit⟩
  · obtain ⟨hne, hsealed⟩ := h.reported hr
    obtain ⟨t, ht, -⟩ := h.revoked hne
    have hlimit : ({ s with now := s.now + ms } : State n).limit cfg = s.limit cfg := by
      simp [State.limit, State.base, ht]
    refine ⟨hne, ?_⟩
    rw [Sealed, hlimit]
    rcases hsealed with hdeny | hover
    · exact .inl hdeny
    · exact .inr (lt_of_lt_of_le hover g.now)
  · exact (h.phase p).mono g fun hl => ⟨hl, rfl⟩

/-! ### Writing the cache keeps it -/

theorem Inv.setCache (h : Inv cfg s) {c : Option Hash}
    (hc : ∀ hash, c = some hash → EntryOk s hash.entry ∧ (hash.entry.status = .active → hash.expires ≤ s.limit cfg))
    (hsealed : Sealed cfg s → Sealed cfg { s with cache := c }) : Inv cfg { s with cache := c } :=
  ⟨h.active, h.revoked, hc, fun hr => ⟨(h.reported hr).1, hsealed (h.reported hr).2⟩,
    fun p => (h.phase p).mono (grows_self rfl rfl rfl id) fun hl => ⟨hl, rfl⟩, h.results⟩

theorem Inv.limit_le (h : Inv cfg s)
    (hx : cfg.window ≤ x ∨ s.row.expiresAt * 1000 ≤ s.now + x) : s.limit cfg ≤ s.now + x := by
  have hbase := h.base_le
  unfold State.limit
  omega

/-- What the script stores keeps the invariant, and a deny state that it stores seals the cache. -/
theorem Inv.store (h : Inv cfg s) {c : Option Hash} (he : EntryOk s e)
    (hactive : e.status = .active → x ≤ s.limit cfg)
    (hdeny : e.status ≠ .active → cfg.window ≤ x ∨ s.row.expiresAt * 1000 ≤ s.now + x)
    (hc : evalScript s.cache s.now e x = some c) :
    Inv cfg { s with cache := c } ∧ (e.status ≠ .active → Sealed cfg { s with cache := c }) := by
  rcases evalScript_stored hc with ⟨ha, hlive, hc⟩ | ⟨hne, rfl⟩
  · refine ⟨h.setCache (fun hash hh => ?_) fun hsealed => .inr ?_, fun hne => absurd ha hne⟩
    · rcases hc with rfl | rfl <;> cases hh
      · exact ⟨he, hactive⟩
    · -- A deny state that let the active entry in has expired, and with it the limit has passed.
      rcases hsealed with ⟨hash, hh, hne, hle⟩ | hover
      · have hexpired : ¬ s.now ≤ hash.expires := fun hl => hne (hlive hash (live_eq_some.2 ⟨hh, hl⟩))
        exact lt_of_le_of_lt hle (not_le.1 hexpired)
      · exact hover
  · have hsealed : Sealed cfg { s with cache := some ⟨e, s.now + x⟩ } :=
      .inl ⟨_, rfl, hne, h.limit_le (hdeny hne)⟩
    refine ⟨h.setCache (fun hash hh => ?_) fun _ => hsealed, fun _ => hsealed⟩
    cases hh
    exact ⟨he, fun ha => absurd ha hne⟩

theorem Inv.conclude (h : Inv cfg s) {outcome : Outcome}
    (hk : AfterOk s p e k) (hsealed : ∀ op, k = .tombstone op → op.Reports → Sealed cfg s) :
    Inv cfg (conclude s p deadline outcome k) := by
  cases k with
  | getDenied => exact h.setPhase trivial
  | active w session =>
    cases outcome with
    | ok => exact h.setPhase hk
    | inactive => exact h.reject p w
    | stale => exact h.setPhase hk
  | fence op =>
    cases outcome with
    | ok => exact h.setPhase hk.2
    | inactive | stale =>
      cases op with
      | reuse => exact h.finish p _ _
      | one | refresh | bulk => exact h.unlock p
  | tombstone op =>
    cases op with
    | reuse => exact h.finish p _ _
    | one | refresh | bulk =>
      exact h.quiet rfl rfl rfl rfl rfl (fun _ => ⟨hk.2.1, hsealed _ rfl trivial⟩) (fun _ => rfl)
        (fun _ _ hl => hl) (q := .idle) trivial fun _ hl => .inl hl

theorem Inv.phase_eq (h : Inv cfg s) (hp : s.phase p = q) : PhaseOk cfg s p q :=
  hp ▸ h.phase p

theorem Inv.refuse (h : Inv cfg s) {outcome : Outcome} (hp : s.phase p = .write e deadline k)
    (hx : expiration cfg.window s.now e deadline = .error outcome) :
    Inv cfg (Session.conclude s p deadline outcome k) := by
  obtain ⟨-, -, hk⟩ := h.phase_eq hp
  refine h.conclude hk fun op hop _ => ?_
  subst hop
  obtain ⟨x, hx', -⟩ := expiration_deny cfg hk.1 s.now deadline
  cases hx.symm.trans hx'

theorem Inv.check (h : Inv cfg s)
    (hp : s.phase p = .write e deadline k) (hx : expiration cfg.window s.now e deadline = .ok x) :
    Inv cfg (s.setPhase p (.eval e deadline x k)) := by
  obtain ⟨he, hd, hk⟩ := h.phase_eq hp
  by_cases ha : e.status = .active
  · obtain ⟨hxd, hxe⟩ := expiration_active ha hx
    rw [he.1] at hxe
    exact h.setPhase ⟨he, fun _ => le_min hxe (hxd.trans (hd ha)), fun hne => absurd ha hne, hk⟩
  · obtain ⟨x', hx', hle⟩ := expiration_deny cfg ha s.now deadline
    obtain rfl := Except.ok.inj (hx.symm.trans hx')
    rw [he.1] at hle
    exact h.setPhase ⟨he, fun ha' => absurd ha' ha, fun _ => hle, hk⟩

/-- The script refuses no tombstone of a revoke call: it has the version of the row, which no cached
version exceeds. -/
theorem Inv.scriptRefused (h : Inv cfg s)
    (hp : s.phase p = .eval e deadline x k) (hscript : evalScript s.cache s.now e x = none) :
    Inv cfg (Session.conclude s p deadline .inactive k) := by
  obtain ⟨-, -, -, hk⟩ := h.phase_eq hp
  refine h.conclude hk fun op hop hop' => ?_
  subst hop
  rcases evalScript_refused hscript with ha | ⟨hash, hh, hlt⟩
  · exact absurd ha hk.1
  · have hle := (h.cache hash hh).1.2
    have heq := hk.2.2 hop'
    omega

theorem Inv.scriptStored (h : Inv cfg s)
    {cache : Option Hash} (hp : s.phase p = .eval e deadline x k)
    (hscript : evalScript s.cache s.now e x = some cache) :
    Inv cfg (Session.conclude { s with cache := cache } p deadline .ok k) := by
  obtain ⟨he, hactive, hdeny, hk⟩ := h.phase_eq hp
  obtain ⟨hinv, hsealed⟩ := h.store he hactive hdeny hscript
  refine hinv.conclude (hk.mono (grows_self rfl rfl rfl id) fun hl => ⟨hl, rfl⟩) fun op hop _ => hsealed ?_
  subst hop
  exact hk.1

/-! ### The other steps keep it -/

theorem entryOk_row : EntryOk s s.row.cacheEntry := ⟨rfl, le_rfl⟩

theorem snapshotOk_row : SnapshotOk s s.row := ⟨rfl, le_rfl⟩

theorem phaseOk_deny (he : EntryOk s e)
    (hne : e.status ≠ .active) (hk : AfterOk s p e k) : PhaseOk cfg s p (.write e 0 k) :=
  ⟨he, fun ha => absurd ha hne, hk⟩

theorem Inv.observe (h : Inv cfg s) {obs : Obs}
    (hobs : ObsOk s obs) (hd : deadline ≤ s.now + cfg.window) (hstep : s.observe p deadline now obs = some t) :
    Inv cfg t := by
  have hdeadline : s.row.status = .active → deadline ≤ s.base + cfg.window := fun ha => by
    rw [h.base_active ha]
    exact hd
  cases obs with simp only [State.observe] at hstep
  | get late =>
    split_ifs at hstep with hlive <;> cases hstep
    · have hlate : late = false := by
        by_contra hne
        exact (h.reported (hobs (by simpa using hne))).1 hlive.1
      exact h.setPhase ⟨entryOk_row, hdeadline, hlate⟩
    · exact h.setPhase (phaseOk_deny entryOk_row revoked_ne trivial)
  | rotate call =>
    cases hdec : rotateDecision s.row (call.saw s.row).presented (call.saw s.row).now with rw [hdec] at hstep
    | inactive | invalid | race =>
      cases hstep
      exact h.finish p _ _
    | swap =>
      cases hstep
      have hlive := rotateDecision_live (by rw [hdec]; decide)
      exact h.setPhase ⟨hdeadline hlive.1, snapshotOk_row⟩
    | reuse =>
      cases hstep
      exact h.setPhase (phaseOk_deny entryOk_row revoking_ne ⟨revoking_ne, snapshotOk_row⟩)
  | advance expectedVersion expectedUserAuthVersion nextUserAuthVersion =>
    obtain ⟨hw, hstep⟩ := Option.ite_none_left_eq_some.1 hstep
    split_ifs at hstep with hlive <;> cases hstep
    · refine h.writeRow (not_not.1 hw) hlive.1 rfl rfl rfl (Nat.le_succ _) (.inl ⟨hlive.1, h.active hlive.1⟩) rfl rfl
        ⟨⟨rfl, le_rfl⟩, hdeadline, trivial⟩ rfl
    · exact h.setPhase trivial

theorem Inv.readToRevoke (h : Inv cfg s) {reason : String} {kind : Kind}
    (hstep : s.readToRevoke p now reason kind = some t) : Inv cfg t := by
  cases kind with simp only [State.readToRevoke] at hstep
  | one =>
    split_ifs at hstep <;> cases hstep
    · exact h.setPhase (phaseOk_deny entryOk_row revoking_ne ⟨revoking_ne, snapshotOk_row⟩)
    · exact h.setPhase trivial
  | bulk =>
    split_ifs at hstep
    · cases hstep
      exact h.setPhase (phaseOk_deny entryOk_row revoking_ne ⟨revoking_ne, snapshotOk_row⟩)
    · cases hstep
      exact h.setPhase trivial
  | refresh presented =>
    obtain ⟨hw, hstep⟩ := Option.ite_none_left_eq_some.1 hstep
    split_ifs at hstep <;> cases hstep
    · exact h.quiet rfl rfl rfl rfl rfl h.reported id
        (fun p' hp hl => ((not_not.1 hw).not_other hp hl).elim)
        (phaseOk_deny ⟨rfl, le_rfl⟩ revoking_ne ⟨revoking_ne, ⟨rfl, le_rfl⟩, rfl, rfl⟩) fun _ hl => .inl hl
    · exact h.setPhase trivial

theorem Inv.revokeRow (h : Inv cfg s) {reason : String}
    {session : UserSession} (hw : s.Writable p) (hactive : s.row.status = .active)
    (hs : SnapshotOk s session) (hv : op.Reports → session.version = s.row.version)
    (ht : t = s.revokeRow p now reason session op ∨ t = (s.revokeRow p now reason session op).unlock p) :
    Inv cfg t := by
  rcases ht with rfl | rfl
  · exact h.writeRow hw hactive rfl rfl rfl le_rfl (.inr ⟨revoked_ne, rfl⟩) rfl rfl
      (phaseOk_deny hs revoked_ne ⟨revoked_ne, revoked_ne, hv⟩) rfl
  · exact h.writeRow hw hactive rfl rfl rfl le_rfl (.inr ⟨revoked_ne, rfl⟩) rfl rfl
      (phaseOk_deny hs revoked_ne ⟨revoked_ne, revoked_ne, hv⟩) rfl

/-- If `RevokeUserSession` is to revoke the row, it has read the row's version. The other
revocations write the row as it was under their lock, or report no revocation. -/
def Op.Current (row : UserSession) : Op → Prop
  | .one candidate now _ => row.Live now → candidate.version = row.version
  | _ => True

instance (row : UserSession) (op : Op) : Decidable (op.Current row) :=
  match op with
  | .one .. => inferInstanceAs (Decidable (_ → _))
  | .refresh .. | .bulk .. | .reuse .. => .isTrue trivial

theorem Inv.execRevoke (h : Inv cfg s) (hw : s.Writable p) (hop : OpOk s p op)
    (hc : op.Current s.row) : Inv cfg (s.execRevoke p op) := by
  cases op with simp only [State.execRevoke]
  | one candidate now reason =>
    split_ifs with hlive
    · exact h.revokeRow hw hlive.1 hop (fun _ => hc hlive) (.inl rfl)
    · exact h.setPhase trivial
  | bulk candidate now reason =>
    split_ifs with hactive
    · exact h.revokeRow hw hactive snapshotOk_row (fun _ => rfl) (.inl rfl)
    · exact h.setPhase trivial
  | refresh session now reason =>
    split_ifs with hactive
    · exact h.revokeRow hw hactive hop.1 (fun _ => hop.2.2) (.inr rfl)
    · exact h.unlock p
  | reuse call session =>
    split_ifs with hlive
    · have hnone : ¬ (Op.reuse call session).Reports := id
      exact h.revokeRow hw hlive.1 hop (fun hr => absurd hr hnone) (.inl rfl)
    · exact h.finish p _ _

theorem Inv.not_reported (h : Inv cfg s)
    (hget : getUserSessionCache s.cache s.now = some (some e)) : s.reported = false := by
  by_contra hr
  obtain ⟨hash, hh, hlive, ha⟩ := getUserSessionCache_active hget
  rcases (h.reported (by simpa using hr)).2 with ⟨hash', hh', hne, -⟩ | hover
  · obtain rfl := Option.some.inj (hh.symm.trans hh')
    exact hne ha
  · have hle := (h.cache hash hh).2 ha
    omega

/-! ### Every run -/

def Phase.Current (row : UserSession) : Phase → Prop
  | .revokeRow op => op.Current row
  | _ => True

instance (row : UserSession) (q : Phase) : Decidable (q.Current row) :=
  match q with
  | .revokeRow op => inferInstanceAs (Decidable (op.Current row))
  | .idle | .capture .. | .read .. | .swap .. | .write .. | .eval .. | .done .. | .confirm .. | .revokeRead .. =>
    .isTrue trivial

/-- The condition on the steps: when `RevokeUserSession` revokes the row, the row has the version
that the call has read before. -/
def CandidateCurrent (s : State n) : Act n → Prop
  | .revokeRow p => (s.phase p).Current s.row
  | _ => True

instance (s : State n) (a : Act n) : Decidable (CandidateCurrent s a) :=
  match a with
  | .revokeRow p => inferInstanceAs (Decidable ((s.phase p).Current s.row))
  | .tick .. | .get .. | .rotate .. | .advance .. | .revoke .. | .capture .. | .read .. | .swap .. | .check ..
  | .eval .. | .done .. | .confirm .. | .revokeRead .. => .isTrue trivial

theorem Inv.step {a : Act n} (h : Inv cfg s) (hc : CandidateCurrent s a)
    (hstep : step cfg s a = some t) : Inv cfg t := by
  have hsteps := step_cases hstep
  clear hstep
  cases hsteps with
  | tick => exact h.tick _
  | getMiss hp => exact h.setPhase fun hr => hr
  | getDenied => exact h
  | getHit hget => exact h.answer (h.not_reported hget)
  | rotate hargs => exact h.quiet rfl rfl rfl rfl rfl h.reported id (fun _ _ hl => hl) trivial fun _ hl => .inl hl
  | advance => exact h.setPhase trivial
  | revoke => exact h.setPhase trivial
  | capture hp => exact h.setPhase ⟨h.phase_eq hp, le_rfl⟩
  | read hp ht =>
    obtain ⟨hobs, hd⟩ := h.phase_eq hp
    exact h.observe hobs hd ht
  | swap hp hw hlive =>
    obtain ⟨hd, hs⟩ := h.phase_eq hp
    have hactive := hlive.1.1
    exact h.writeRow hw hactive rfl rfl rfl le_rfl (.inl ⟨hactive, h.active hactive⟩) rfl rfl
      ⟨hs, fun _ => hd, trivial⟩ rfl
  | retry hp => exact h.setPhase trivial
  | lost hp => exact h.finish _ _ _
  | refuse hp hx => exact h.refuse hp hx
  | check hp hx => exact h.check hp hx
  | reject hp hscript => exact h.scriptRefused hp hscript
  | store hp hscript => exact h.scriptStored hp hscript
  | late hp =>
    have hw := h.phase_eq hp
    exact h.setPhase hw
  | expired hp => exact h.reject _ _
  | done hp => exact h.accept (h.phase_eq hp)
  | confirmed hp => exact h.accept (h.phase_eq hp)
  | denied hp => exact h.reject _ _
  | revokeRead ht => exact h.readToRevoke ht
  | revokeRow hp hw =>
    rw [CandidateCurrent, hp] at hc
    exact h.execRevoke hw (h.phase_eq hp) hc

/-- In every run in which no `RevokeUserSession` revokes a row that was advanced since it was read,
no `GetUserSessionCached` that starts after a reported revocation returns the session as active. -/
theorem revoked_session_stays_revoked (cfg : Config) (row : UserSession) {l : List (Act n)} {s : State n}
    (hrun : run (step cfg) (init n row) l = some s) (hcurrent : Along (step cfg) CandidateCurrent (init n row) l) :
    ∀ late ∈ s.results, late = false :=
  (run_inv_along (fun _ _ _ hs hc hstep => Inv.step hs hc hstep) (inv_init row) hcurrent hrun).results

def sampleRow : UserSession := ⟨1, 1, .active, "h0", "", 0, 0, 100000, 0, ""⟩

/-- A reader caches the session and returns it; it is revoked; a snapshot read before arrives late.
-/
def revokeActs (p q r : Fin 3) : List (Act 3) :=
  [.get q, .capture q, .read q, .check q, .eval q, .done q,
   .tick 61000, .get q, .capture q, .read q,
   .revoke p .one "logout", .revokeRead p, .check p, .eval p, .revokeRow p, .check p, .eval p,
   .check q, .eval q, .get r]

theorem revoked_session_stays_revoked_late_fill :
    ∃ s : State 3, run (step ⟨60⟩) (init 3 sampleRow) (revokeActs 0 1 2) = some s ∧ s.reported = true ∧
      s.results = [false] ∧ ∀ late ∈ s.results, late = false := by
  obtain ⟨s, hs, hr, hl⟩ : ∃ s : State 3, run (step ⟨60⟩) (init 3 sampleRow) (revokeActs 0 1 2) = some s ∧
      s.reported = true ∧ s.results = [false] := ⟨_, rfl, rfl, rfl⟩
  exact ⟨s, hs, hr, hl, revoked_session_stays_revoked ⟨60⟩ sampleRow hs (by decide)⟩

/-- The call that revokes is delayed after its fence until the fence has expired; meanwhile the
session is advanced and cached with version 2; the tombstone, of version 1, is refused. -/
def advancedActs (p q r : Fin 3) : List (Act 3) :=
  [.revoke p .one "logout", .revokeRead p, .check p, .eval p, .tick 61000,
   .advance q 1 1 2, .capture q, .read q, .check q, .eval q, .done q, .tick 1000,
   .revokeRow p, .check p, .eval p, .get r]

theorem revoked_session_comes_back :
    ¬ ∀ (cfg : Config) (row : UserSession) (l : List (Act 3)) (s : State 3),
      run (step cfg) (init 3 row) l = some s → ∀ late ∈ s.results, late = false := by
  intro h
  obtain ⟨s, hs, hl⟩ : ∃ s : State 3, run (step ⟨60⟩) (init 3 sampleRow) (advancedActs 0 1 2) = some s ∧
      s.results = [true] := ⟨_, rfl, rfl⟩
  have hfalse := h ⟨60⟩ sampleRow (advancedActs 0 1 2) s hs true (by rw [hl]; exact List.mem_singleton_self _)
  cases hfalse

end TokenEra.Auth.Session
