import TokenEra.Auth.Session

/-!
# The family of refresh tokens

Only `RotateUserSessionRefresh` runs, by any number of parties. The hash that a call presents
determines the next one (`deriveNextRefreshSecret`), and otherwise a next hash was not seen before.
The hashes that were current form a chain from the first one (`Chain`): a hash is derived from one
hash only, so it cannot become current a second time, and the compare-and-swap rotates only the
current hash.

A call acts on the row that it has read. What it may still do is in its phase: a call that is to
swap has read its hash as the current one, and a call that is to revoke has read it as the previous
one, past its validity.
-/

namespace TokenEra.Auth.Session.Rotation

open Lib

/-! ### Chains -/

/-- The hashes that were rotated, and the current one, each derived from a rotated one or the first.
-/
structure Chain {α : Type*} (first : α) (started : List (α × α)) (rotated : List α) (current : α) : Prop where
  injective : ∀ x x' y, (x, y) ∈ started → (x', y) ∈ started → x = x'
  underived : ∀ x, (x, first) ∉ started
  derived : ∀ y, y ∈ rotated ∨ y = current → y = first ∨ ∃ x ∈ rotated, (x, y) ∈ started
  fresh : current ∉ rotated
  nodup : rotated.Nodup

section Chain

variable {α : Type*} {first current x y : α} {started : List (α × α)} {rotated : List α}

theorem chain_first : Chain first [] [] first :=
  ⟨by simp, by simp, by simp, by simp, List.nodup_nil⟩

theorem Chain.of_mem {started' : List (α × α)} (h : Chain first started rotated current)
    (hmem : ∀ z, z ∈ started' ↔ z ∈ started) : Chain first started' rotated current := by
  refine ⟨fun a a' b hab hab' => ?_, fun a ha => ?_, fun b hb => ?_, h.fresh, h.nodup⟩
  · exact h.injective a a' b ((hmem _).1 hab) ((hmem _).1 hab')
  · exact h.underived a ((hmem _).1 ha)
  · rcases h.derived b hb with hb | ⟨a, ha, hab⟩
    · exact .inl hb
    · exact .inr ⟨a, ha, (hmem _).2 hab⟩

theorem Chain.start (h : Chain first started rotated current)
    (hnew : (x, y) ∈ started ∨ (y ≠ first ∧ ∀ z ∈ started, z.2 ≠ y)) :
    Chain first (started ++ [(x, y)]) rotated current := by
  rcases hnew with hold | ⟨hfirst, hne⟩
  · refine h.of_mem fun z => ?_
    rw [List.mem_append, List.mem_singleton, or_iff_left_of_imp]
    rintro rfl
    exact hold
  have hmem : ∀ {a b}, (a, b) ∈ started ++ [(x, y)] ↔ (a, b) ∈ started ∨ (a = x ∧ b = y) := by
    simp
  refine ⟨fun a a' b hab hab' => ?_, fun a ha => ?_, fun b hb => ?_, h.fresh, h.nodup⟩
  · rcases hmem.1 hab with hab | ⟨ha, hb⟩
    · rcases hmem.1 hab' with hab' | ⟨-, hb⟩
      · exact h.injective a a' b hab hab'
      · exact absurd hb (hne _ hab)
    · rcases hmem.1 hab' with hab' | ⟨ha', -⟩
      · exact absurd hb (hne _ hab')
      · rw [ha, ha']
  · rcases hmem.1 ha with ha | ⟨-, hy⟩
    · exact h.underived a ha
    · exact hfirst hy.symm
  · rcases h.derived b hb with hb | ⟨a, ha, hab⟩
    · exact .inl hb
    · exact .inr ⟨a, ha, hmem.2 (.inl hab)⟩

/-- The current hash is rotated. Were the next one rotated before, it would have been derived from
the current one, which was not. -/
theorem Chain.rotate (h : Chain first started rotated current) (hy : (current, y) ∈ started)
    (hne : current ≠ y) : Chain first started (rotated ++ [current]) y := by
  have hmem : ∀ {a}, a ∈ rotated ++ [current] ↔ a ∈ rotated ∨ a = current := by
    simp
  refine ⟨h.injective, h.underived, fun b hb => ?_, fun hmem' => ?_, ?_⟩
  · rcases hb with hb | rfl
    · rcases h.derived b (hmem.1 hb) with hb | ⟨a, ha, hab⟩
      · exact .inl hb
      · exact .inr ⟨a, hmem.2 (.inl ha), hab⟩
    · exact .inr ⟨current, hmem.2 (.inr rfl), hy⟩
  · rcases hmem.1 hmem' with hold | heq
    · rcases h.derived y (.inl hold) with rfl | ⟨a, ha, hay⟩
      · exact h.underived _ hy
      · exact h.fresh (h.injective _ _ _ hay hy ▸ ha)
    · exact hne heq.symm
  · refine List.Nodup.append h.nodup (List.nodup_singleton _) fun a ha hc => ?_
    rw [List.mem_singleton.1 hc] at ha
    exact h.fresh ha

end Chain

variable {n : Nat} {cfg : Config}

/-! ### What a read tells -/

variable {now deadline : Int} {presented : String} {row : UserSession} {s t : State n} {c : Call}
  {e : Entry} {q : Phase} {p : Fin n}
  {k : After}

theorem rotateDecision_swap
    (h : rotateDecision row presented now = .swap) : row.refreshHash = presented := by
  unfold rotateDecision at h
  split_ifs at h with hlive hcur
  exact hcur

theorem rotateDecision_reuse
    (h : rotateDecision row presented now = .reuse) : row.Live now ∧ row.previousRefreshHash = presented := by
  unfold rotateDecision at h
  split_ifs at h with hlive hcur hprev hvalid
  exact ⟨hlive, not_not.1 fun hne => hprev (.inr hne)⟩

/-! ### The invariant -/

structure CallOk (s : State n) (c : Call) : Prop where
  started : (c.presented, c.next) ∈ s.started
  differs : c.presented ≠ c.next
  replayed : c.replayed = false
  reuse : c.reuse = false

def Settled (row : UserSession) : Prop := (row.status = .active ∧ row.revokedAt = 0) ∨ row.status = .revoked

def ReuseOk (row : UserSession) (s : State n) (c : Call) (session : UserSession) : Prop :=
  c.known = true ∧ c.now < row.expiresAt ∧ Settled s.row ∧ session.version = row.version

def WriterOk : Writer → Prop
  | .rotate c => c.replayed = false
  | _ => False

def AfterOk (row : UserSession) (s : State n) (e : Entry) : After → Prop
  | .active w _ => WriterOk w
  | .fence (.reuse c session) => e.status ≠ .active ∧ ReuseOk row s c session
  | .tombstone (.reuse _ _) => s.row.status = .revoked
  | _ => False

def PhaseOk (row : UserSession) (s : State n) : Phase → Prop
  | .idle => True
  | .capture (.rotate c) => CallOk s c
  | .read (.rotate c) _ _ => CallOk s c
  | .swap c _ session => CallOk s c ∧ c.known = true ∧ session.version = row.version
  | .write e _ k => e.version = row.version ∧ AfterOk row s e k
  | .eval e _ _ k => e.version = row.version ∧ AfterOk row s e k
  | .done w _ _ => WriterOk w
  | .confirm w _ => WriterOk w
  | .revokeRow (.reuse c session) => ReuseOk row s c session
  | _ => False

/-- A call that found its hash replayed has not rotated it, and has left the session revoked if it
found it active. -/
def EndOk (s : State n) (r : Call × Ended) : Prop :=
  r.1.replayed = true → r.2 ≠ .rotated ∧ (r.1.reuse = true → s.row.status = .revoked)

structure Inv (row : UserSession) (s : State n) : Prop where
  version : s.row.version = row.version
  expiresAt : s.row.expiresAt = row.expiresAt
  differs : s.row.previousRefreshHash ≠ s.row.refreshHash
  chain : Chain row.refreshHash s.started s.rotated s.row.refreshHash
  cache : ∀ h, s.cache = some h → h.entry.version = row.version
  phase : ∀ p, PhaseOk row s (s.phase p)
  ended : ∀ r ∈ s.ended, EndOk s r

theorem inv_init (hrow : row.previousRefreshHash ≠ row.refreshHash) : Inv row (init n row) where
  version := rfl
  expiresAt := rfl
  differs := hrow
  chain := chain_first
  cache _ h := by cases h
  phase _ := trivial
  ended := by simp [init]

/-- What the others rely on is kept: calls stay started, and a revoked session stays revoked. -/
structure Keeps (s t : State n) : Prop where
  started : ∀ z ∈ s.started, z ∈ t.started
  settled : Settled s.row → Settled t.row
  revoked : s.row.status = .revoked → t.row.status = .revoked

theorem keeps_row (hrow : t.row = s.row) (hstarted : ∀ z ∈ s.started, z ∈ t.started) :
    Keeps s t := by
  refine ⟨hstarted, ?_, ?_⟩
  · rw [hrow]
    exact id
  · rw [hrow]
    exact id

variable {row : UserSession}

theorem CallOk.mono (h : CallOk s c) (k : Keeps s t) : CallOk t c :=
  ⟨k.started _ h.started, h.differs, h.replayed, h.reuse⟩

theorem ReuseOk.mono {session : UserSession} (h : ReuseOk row s c session)
    (k : Keeps s t) : ReuseOk row t c session :=
  ⟨h.1, h.2.1, k.settled h.2.2.1, h.2.2.2⟩

theorem AfterOk.mono {a : After} (h : AfterOk row s e a) (k : Keeps s t) :
    AfterOk row t e a := by
  cases a with
  | getDenied => exact h.elim
  | active => exact h
  | fence op =>
    cases op with
    | reuse => exact ⟨h.1, h.2.mono k⟩
    | one | refresh | bulk => exact h.elim
  | tombstone op =>
    cases op with
    | reuse => exact k.revoked h
    | one | refresh | bulk => exact h.elim

theorem PhaseOk.mono (h : PhaseOk row s q) (k : Keeps s t) : PhaseOk row t q := by
  cases q with
  | idle => trivial
  | capture obs | read obs =>
    cases obs with
    | rotate => exact CallOk.mono h k
    | get | advance => exact h.elim
  | swap => exact ⟨h.1.mono k, h.2⟩
  | write | eval => exact ⟨h.1, h.2.mono k⟩
  | done | confirm => exact h
  | revokeRead => exact h.elim
  | revokeRow op =>
    cases op with
    | reuse => exact ReuseOk.mono h k
    | one | refresh | bulk => exact h.elim

theorem EndOk.mono {r : Call × Ended} (h : EndOk s r) (k : Keeps s t) : EndOk t r :=
  fun hr => ⟨(h hr).1, fun hreuse => k.revoked ((h hr).2 hreuse)⟩

/-! ### The kinds of steps -/

theorem Inv.phases (h : Inv row s) (k : Keeps s t)
    (hphase : t.phase = Function.update s.phase p q) (hq : PhaseOk row t q) (p' : Fin n) :
    PhaseOk row t (t.phase p') := by
  rw [hphase]
  exact (Function.forall_update_iff s.phase fun _ => PhaseOk row t).2 ⟨hq, fun p' _ => (h.phase p').mono k⟩ p'

theorem Inv.quiet (h : Inv row s)
    (hphase : t.phase = Function.update s.phase p q) (hrow : t.row = s.row)
    (hstarted : ∀ z ∈ s.started, z ∈ t.started)
    (hchain : Chain row.refreshHash t.started t.rotated s.row.refreshHash)
    (hcache : t.cache = s.cache) (hq : PhaseOk row t q) (hended : ∀ r ∈ t.ended, r ∈ s.ended ∨ EndOk t r) :
    Inv row t := by
  have k : Keeps s t := keeps_row hrow hstarted
  refine ⟨?_, ?_, ?_, ?_, ?_, h.phases k hphase hq, fun r hr => ?_⟩
  · rw [hrow]
    exact h.version
  · rw [hrow]
    exact h.expiresAt
  · rw [hrow]
    exact h.differs
  · rw [hrow]
    exact hchain
  · rw [hcache]
    exact h.cache
  · rcases hended r hr with hr | hr
    · exact (h.ended r hr).mono k
    · exact hr

theorem Inv.setPhase (h : Inv row s) (hq : PhaseOk row s q) :
    Inv row (s.setPhase p q) :=
  h.quiet rfl rfl (fun _ hz => hz) h.chain rfl (hq.mono (keeps_row rfl fun _ hz => hz)) fun _ hr => .inl hr

theorem Inv.finish (h : Inv row s) {e : Ended} (he : EndOk s (c, e)) :
    Inv row (s.finish p c e) := by
  refine h.quiet rfl rfl (fun _ hz => hz) h.chain rfl (q := .idle) trivial fun r hr => ?_
  rcases List.mem_append.1 hr with hr | hr
  · exact .inl hr
  · rw [List.mem_singleton.1 hr]
    exact .inr (he.mono (keeps_row rfl fun _ hz => hz))

theorem endOk_of_not_replayed (hc : c.replayed = false) (e : Ended) : EndOk s (c, e) :=
  fun hr => absurd (hc.symm.trans hr) (by decide)

theorem Inv.accept (h : Inv row s) {w : Writer} (hw : WriterOk w) :
    Inv row (s.accept p w) := by
  cases w with
  | rotate => exact h.finish (endOk_of_not_replayed hw _)
  | get | advance => exact hw.elim

theorem Inv.reject (h : Inv row s) {w : Writer} (hw : WriterOk w) :
    Inv row (s.reject p w) := by
  cases w with
  | rotate => exact h.finish (endOk_of_not_replayed hw _)
  | get | advance => exact hw.elim

/-! ### Every step keeps it -/

theorem Inv.observe (h : Inv row s) (hc : CallOk s c)
    (hstep : s.observe p deadline now (.rotate c) = some t) : Inv row t := by
  have hreuse : rotateDecision s.row c.presented c.now ≠ .reuse → (c.saw s.row).reuse = false := by
    intro hne
    simp [Call.saw, hc.reuse, hne]
  simp only [State.observe] at hstep
  cases hd : rotateDecision s.row (c.saw s.row).presented (c.saw s.row).now with rw [hd] at hstep
  | inactive | invalid | race =>
    cases hstep
    have hno : (c.saw s.row).reuse = false := hreuse fun hr => by
      cases hd.symm.trans hr
    exact h.finish fun _ => ⟨nofun, fun hr => absurd (hno.symm.trans hr) (by decide)⟩
  | swap =>
    cases hstep
    have hcur : s.row.refreshHash = c.presented := rotateDecision_swap hd
    have hprev : c.presented ≠ s.row.previousRefreshHash := fun heq => h.differs (heq.symm.trans hcur.symm)
    refine h.setPhase ⟨⟨hc.started, hc.differs, ?_, hreuse fun hr => by cases hd.symm.trans hr⟩, ?_, h.version⟩
    · simp [Call.saw, hc.replayed, hprev]
    · simp [Call.saw, hcur]
  | reuse =>
    cases hstep
    obtain ⟨hlive, hprev⟩ := rotateDecision_reuse hd
    refine h.setPhase ⟨h.version, revoking_ne, ?_, ?_, .inl ⟨hlive.1, hlive.2.1⟩, h.version⟩
    · simp only [Call.saw] at hprev ⊢
      simp [hprev]
    · rw [← h.expiresAt]
      exact hlive.2.2

theorem Inv.phase_eq (h : Inv row s) (hp : s.phase p = q) : PhaseOk row s q :=
  hp ▸ h.phase p

theorem Inv.swap (h : Inv row s) {session : UserSession}
    (hp : s.phase p = .swap c deadline session) (hcur : s.row.refreshHash = c.presented) :
    Inv row { s.setPhase p (.write (session.rotate c).cacheEntry deadline (.active (.rotate c) (session.rotate c))) with
      row := s.row.rotate c
      rotated := s.rotated ++ [c.presented] } := by
  obtain ⟨hc, hknown, hv⟩ := h.phase_eq hp
  have hchain := h.chain
  rw [hcur] at hchain
  have k : Keeps s { s.setPhase p (.write (session.rotate c).cacheEntry deadline
      (.active (.rotate c) (session.rotate c))) with
      row := s.row.rotate c, rotated := s.rotated ++ [c.presented] } :=
    ⟨fun _ hz => hz, id, id⟩
  exact ⟨h.version, h.expiresAt, hc.differs, hchain.rotate hc.started hc.differs, h.cache,
    h.phases k rfl ⟨hv, hc.replayed⟩, fun r hr => (h.ended r hr).mono k⟩

theorem Inv.revokeRow (h : Inv row s) {op : Op} (hp : s.phase p = .revokeRow op) :
    Inv row (s.execRevoke p op) := by
  have hphase := h.phase_eq hp
  cases op with
  | one | refresh | bulk => exact hphase.elim
  | reuse c session =>
    obtain ⟨hknown, hnow, hsettled, hv⟩ := hphase
    by_cases hlive : s.row.Live c.now
    · rw [State.execRevoke, if_pos hlive]
      have k : Keeps s (s.revokeRow p c.now "refresh_reuse" session (.reuse c session)) :=
        ⟨fun _ hz => hz, fun _ => .inr rfl, fun _ => rfl⟩
      exact ⟨h.version, h.expiresAt, h.differs, h.chain, h.cache, h.phases k rfl ⟨hv, rfl⟩,
        fun r hr => (h.ended r hr).mono k⟩
    · rw [State.execRevoke, if_neg hlive]
      refine h.finish fun _ => ⟨nofun, fun _ => ?_⟩
      rcases hsettled with ⟨ha, hz⟩ | hr
      · exact absurd ⟨ha, hz, h.expiresAt ▸ hnow⟩ hlive
      · exact hr

/-- A writer's outcome; the fence of a replayed hash is not refused. -/
theorem Inv.conclude (h : Inv row s) {outcome : Outcome}
    (hk : AfterOk row s e k) (hdeny : e.status ≠ .active → outcome = .ok) :
    Inv row (conclude s p deadline outcome k) := by
  cases k with
  | getDenied => exact hk.elim
  | active w session =>
    cases outcome with
    | ok | stale => exact h.setPhase hk
    | inactive => exact h.reject hk
  | fence op =>
    cases op with
    | one | refresh | bulk => exact hk.elim
    | reuse c session =>
      obtain rfl := hdeny hk.1
      exact h.setPhase hk.2
  | tombstone op =>
    cases op with
    | one | refresh | bulk => exact hk.elim
    | reuse c session => exact h.finish fun _ => ⟨nofun, fun _ => hk⟩

theorem Inv.refuse (h : Inv row s) {outcome : Outcome} (hp : s.phase p = .write e deadline k)
    (hx : expiration cfg.window s.now e deadline = .error outcome) :
    Inv row (Session.conclude s p deadline outcome k) := by
  obtain ⟨-, hk⟩ := h.phase_eq hp
  refine h.conclude hk fun hne => ?_
  obtain ⟨x, hx', -⟩ := expiration_deny cfg hne s.now deadline
  cases hx.symm.trans hx'

theorem Inv.scriptRefused (h : Inv row s) {x : Int}
    (hp : s.phase p = .eval e deadline x k) (hscript : evalScript s.cache s.now e x = none) :
    Inv row (Session.conclude s p deadline .inactive k) := by
  obtain ⟨hv, hk⟩ := h.phase_eq hp
  refine h.conclude hk fun hne => ?_
  rcases evalScript_refused hscript with ha | ⟨hash, hh, hlt⟩
  · exact absurd ha hne
  · have hle := h.cache hash hh
    omega

theorem Inv.scriptStored (h : Inv row s) {x : Int}
    {cache : Option Hash} (hp : s.phase p = .eval e deadline x k)
    (hscript : evalScript s.cache s.now e x = some cache) :
    Inv row (Session.conclude { s with cache := cache } p deadline .ok k) := by
  obtain ⟨hv, hk⟩ := h.phase_eq hp
  have hkeep : Keeps s { s with cache := cache } := keeps_row rfl fun _ hz => hz
  have hinv : Inv row { s with cache := cache } := by
    refine ⟨h.version, h.expiresAt, h.differs, h.chain, fun hash hh => ?_, fun p => (h.phase p).mono hkeep,
      fun r hr => (h.ended r hr).mono hkeep⟩
    rcases evalScript_stored hscript with ⟨-, -, rfl | rfl⟩ | ⟨-, rfl⟩ <;> cases hh
    · exact hv
    · exact hv
  exact hinv.conclude (hk.mono hkeep) fun _ => rfl

/-! ### Every run -/

def seen (row : UserSession) (started : List (String × String)) : List String :=
  row.refreshHash :: row.previousRefreshHash :: started.flatMap fun z => [z.1, z.2]

/-- The condition on the steps: they are steps of `RotateUserSessionRefresh`, and a call starts with
the next hash that its presented hash had before, or with one never seen. -/
def RotationStep (row : UserSession) (s : State n) : Act n → Prop
  | .rotate _ presented next _ =>
    (presented, next) ∈ s.started ∨ ((∀ z ∈ s.started, z.1 ≠ presented) ∧ next ∉ seen row s.started)
  | .get _ | .advance .. | .revoke .. | .revokeRead _ => False
  | _ => True

instance (row : UserSession) (s : State n) (a : Act n) : Decidable (RotationStep row s a) :=
  match a with
  | .rotate .. => inferInstanceAs (Decidable (_ ∨ _))
  | .get _ | .advance .. | .revoke .. | .revokeRead _ => .isFalse id
  | .tick .. | .capture .. | .read .. | .swap .. | .check .. | .eval .. | .done .. | .confirm .. | .revokeRow .. =>
    .isTrue trivial

theorem Inv.rotate (h : Inv row s) {next : String} {graceSeconds : Nat}
    (hc : RotationStep row s (.rotate p presented next graceSeconds))
    (hargs : ¬ (presented = "" ∨ next = "" ∨ presented = next)) :
    Inv row { s.setPhase p (.capture (.rotate ⟨presented, next, unix s.now, graceSeconds, 1, false, false, false⟩)) with
      started := s.started ++ [(presented, next)] } := by
  have hnew : (presented, next) ∈ s.started ∨ (next ≠ row.refreshHash ∧ ∀ z ∈ s.started, z.2 ≠ next) := by
    rcases hc with hold | ⟨-, hfresh⟩
    · exact .inl hold
    · refine .inr ⟨fun heq => hfresh (heq ▸ List.mem_cons_self), fun z hz heq => hfresh ?_⟩
      refine List.mem_cons_of_mem _ (List.mem_cons_of_mem _ (List.mem_flatMap.2 ⟨z, hz, ?_⟩))
      rw [← heq]
      simp
  refine h.quiet rfl rfl (fun z hz => List.mem_append_left _ hz) (h.chain.start hnew) rfl ?_ fun _ hr => .inl hr
  exact ⟨List.mem_append_right _ (List.mem_singleton_self _), fun heq => hargs (.inr (.inr heq)), rfl, rfl⟩

theorem Inv.tick (h : Inv row s) (ms : Nat) : Inv row { s with now := s.now + ms } := by
  have k : Keeps s { s with now := s.now + ms } := keeps_row rfl fun _ hz => hz
  exact ⟨h.version, h.expiresAt, h.differs, h.chain, h.cache, fun p => (h.phase p).mono k,
    fun r hr => (h.ended r hr).mono k⟩

theorem Inv.step {a : Act n} (h : Inv row s) (hc : RotationStep row s a)
    (hstep : step cfg s a = some t) : Inv row t := by
  have hsteps := step_cases hstep
  clear hstep
  cases hsteps with
  | getMiss | getDenied | getHit | advance | revoke | revokeRead => exact hc.elim
  | tick => exact h.tick _
  | rotate hargs => exact h.rotate hc hargs
  | @capture p obs hp =>
    have hphase := h.phase_eq hp
    cases obs with
    | rotate => exact h.setPhase hphase
    | get | advance => exact hphase.elim
  | @read p obs deadline now t hp ht =>
    have hphase := h.phase_eq hp
    cases obs with
    | rotate => exact h.observe hphase ht
    | get | advance => exact hphase.elim
  | swap hp hw hlive => exact h.swap hp hlive.2
  | retry hp =>
    obtain ⟨hcall, -⟩ := h.phase_eq hp
    exact h.setPhase { hcall with }
  | lost hp => exact h.finish (endOk_of_not_replayed (h.phase_eq hp).1.replayed _)
  | refuse hp hx => exact h.refuse hp hx
  | check hp hx =>
    have hphase := h.phase_eq hp
    exact h.setPhase hphase
  | reject hp hscript => exact h.scriptRefused hp hscript
  | store hp hscript => exact h.scriptStored hp hscript
  | late hp =>
    have hw := h.phase_eq hp
    exact h.setPhase hw
  | expired hp => exact h.reject (h.phase_eq hp)
  | done hp => exact h.accept (h.phase_eq hp)
  | confirmed hp => exact h.accept (h.phase_eq hp)
  | denied hp => exact h.reject (h.phase_eq hp)
  | revokeRow hp hw => exact h.revokeRow hp

/-! ### Who changes the row -/

def callOf : Phase → Option Call
  | .capture (.rotate c) => some c
  | .read (.rotate c) _ _ => some c
  | .swap c _ _ => some c
  | .write _ _ (.active (.rotate c) _) => some c
  | .write _ _ (.fence (.reuse c _)) => some c
  | .write _ _ (.tombstone (.reuse c _)) => some c
  | .eval _ _ _ (.active (.rotate c) _) => some c
  | .eval _ _ _ (.fence (.reuse c _)) => some c
  | .eval _ _ _ (.tombstone (.reuse c _)) => some c
  | .done (.rotate c) _ _ => some c
  | .confirm (.rotate c) _ => some c
  | .revokeRow (.reuse c _) => some c
  | _ => none

def party : Act n → Option (Fin n)
  | .tick _ => none
  | .get p | .rotate p _ _ _ | .advance p _ _ _ | .revoke p _ _ | .capture p | .read p | .swap p | .check p
  | .eval p | .done p | .confirm p | .revokeRead p | .revokeRow p => some p

theorem accept_row (s : State n) (p : Fin n) (w : Writer) : (s.accept p w).row = s.row := by
  cases w <;> rfl

theorem reject_row (s : State n) (p : Fin n) (w : Writer) : (s.reject p w).row = s.row := by
  cases w <;> rfl

theorem conclude_row (s : State n) (p : Fin n) (deadline : Int) (outcome : Outcome) (k : After) :
    (conclude s p deadline outcome k).row = s.row := by
  cases k with
  | getDenied => rfl
  | active w => cases outcome <;> first | rfl | exact reject_row s p w
  | fence op => cases outcome <;> cases op <;> rfl
  | tombstone op => cases op <;> rfl

theorem observe_row (hstep : s.observe p deadline now (.rotate c) = some t) : t.row = s.row := by
  simp only [State.observe] at hstep
  split at hstep <;> (obtain rfl := Option.some.inj hstep; rfl)

/-- The row changes only by the swap or the revocation of a call that has read its hash as the
current or the previous one. -/
theorem Inv.changes {a : Act n} (h : Inv row s) (hc : RotationStep row s a)
    (hstep : Session.step cfg s a = some t) (hrow : t.row ≠ s.row) :
    ∃ p c, party a = some p ∧ callOf (s.phase p) = some c ∧ c.known = true := by
  have hsteps := step_cases hstep
  clear hstep
  cases hsteps with
  | getMiss | getDenied | getHit | advance | revoke | revokeRead => exact hc.elim
  | @swap p c deadline session hp hw hlive => exact ⟨p, c, rfl, by rw [hp]; rfl, (h.phase_eq hp).2.1⟩
  | @revokeRow p op hp hw =>
    have hphase := h.phase_eq hp
    cases op with
    | one | refresh | bulk => exact hphase.elim
    | reuse c session => exact ⟨p, c, rfl, by rw [hp]; rfl, hphase.1⟩
  | @read p obs deadline now t hp ht =>
    have hphase := h.phase_eq hp
    cases obs with
    | rotate => exact absurd (observe_row ht) hrow
    | get | advance => exact hphase.elim
  | refuse | reject | store => exact absurd (conclude_row ..) hrow
  | expired | denied => exact absurd (reject_row ..) hrow
  | done | confirmed => exact absurd (accept_row ..) hrow
  | tick | rotate | capture | retry | lost | check | late => exact absurd rfl hrow

/-- In every run of rotations each hash is rotated at most once; the row is changed only by a call
that has read its hash as the current or the previous one; and a call that has read its hash as the
previous one, past its validity, does not rotate and, if it found the session active, leaves it
revoked. -/
theorem refresh_family (cfg : Config) {row : UserSession} (hrow : row.previousRefreshHash ≠ row.refreshHash)
    {l : List (Act n)} {s : State n} (hrun : run (step cfg) (init n row) l = some s)
    (hrot : Along (step cfg) (RotationStep row) (init n row) l) :
    s.rotated.Nodup ∧
    (∀ a t, RotationStep row s a → step cfg s a = some t → t.row ≠ s.row →
      ∃ p c, party a = some p ∧ callOf (s.phase p) = some c ∧ c.known = true) ∧
    (∀ r ∈ s.ended, r.1.replayed = true → r.2 ≠ .rotated ∧ (r.1.reuse = true → s.row.status = .revoked)) := by
  have h : Inv row s := run_inv_along (fun _ _ _ hs hc hstep => Inv.step hs hc hstep) (inv_init hrow) hrot hrun
  exact ⟨h.chain.nodup, fun a t hc hstep hne => h.changes hc hstep hne, h.ended⟩

def sampleRow : UserSession := ⟨1, 1, .active, "h0", "", 0, 0, 100000, 0, ""⟩

/-- Two calls present the same hash; the second finds the swap lost, reads again and ends as a race.
A third call presents it past the grace period. -/
def replayActs (p q r : Fin 3) : List (Act 3) :=
  [.rotate p "h0" "h1" 30, .capture p, .read p, .rotate q "h0" "h1" 30, .capture q, .read q,
   .swap p, .check p, .eval p, .done p, .swap q, .capture q, .read q, .tick 31000,
   .rotate r "h0" "h1" 30, .capture r, .read r, .check r, .eval r, .revokeRow r, .check r, .eval r]

theorem refresh_family_replay :
    ∃ s : State 3, run (step ⟨60⟩) (init 3 sampleRow) (replayActs 0 1 2) = some s ∧ s.rotated = ["h0"] ∧
      s.ended.map (·.2) = [.rotated, .race, .reuse] ∧ s.row.status = .revoked ∧
      (∀ r ∈ s.ended, r.1.replayed = true → r.2 ≠ .rotated ∧ (r.1.reuse = true → s.row.status = .revoked)) := by
  obtain ⟨s, hs, hr, he, hrow⟩ : ∃ s : State 3, run (step ⟨60⟩) (init 3 sampleRow) (replayActs 0 1 2) = some s ∧
      s.rotated = ["h0"] ∧ s.ended.map (·.2) = [.rotated, .race, .reuse] ∧ s.row.status = .revoked :=
    ⟨_, rfl, rfl, rfl, rfl⟩
  exact ⟨s, hs, hr, he, hrow, (refresh_family ⟨60⟩ (by decide) hs (by decide +kernel)).2.2⟩

end TokenEra.Auth.Session.Rotation
