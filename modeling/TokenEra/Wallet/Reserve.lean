import TokenEra.Lib.Run

/-!
# Reserving wallet quota

`TryReserveUserQuota` with Redis. A call deducts from the cached balance in one atomic script and
then makes the deduction persistent, in the database or in the batch map that a background flush
takes to the database later. When the user's hash is not cached it is filled from the database
first; when Redis fails, or the hash is gone again, the call falls back to a conditional update of
the database.

The calls of any number of requests run interleaved, one step at a time; the hash may expire and the
flush may run in between, and any step may fail. What all calls took is always the difference to the
database, the batch map and the flush on its way (`Balanced`). Whether that is more than there was
depends on where the cache gets its balance from: the quota that is available to it is what the
database will hold once everything taken so far has arrived there (`State.available`), and a hash
filled from a database that is behind shows more.
-/

namespace TokenEra.Wallet

open Lib

structure Calls (n : Nat) where
  batchUpdateEnabled : Bool
  quota : Fin n → Int

inductive Phase
  | start
  | lookup
  | read
  | populate (quota : Int)
  | retry
  | fallback
  /-- The quota is taken from the cache and not yet persistent. -/
  | persist
  /-- The deduction could not be made persistent; the cache gets it back. -/
  | compensate (text : String)
  | done (result : Except String Bool)
deriving DecidableEq

structure State (n : Nat) where
  db : Int
  cache : Option Int
  pending : Int
  /-- What a running flush has taken from the batch map. -/
  flushing : Option Int
  phase : Fin n → Phase

def initial (n : Nat) (balance : Int) (cache : Option Int) : State n :=
  ⟨balance, cache, 0, none, fun _ => .start⟩

inductive Action (n : Nat)
  | advance (i : Fin n)
  /-- The step's Redis or database operation fails. -/
  | fail (i : Fin n) (text : String)
  /-- The hash may not be filled, since an update of the user is pending. -/
  | refuse (i : Fin n)
  | expire
  | flushTake
  | flushApply

variable {n : Nat} (c : Calls n)

def State.set (s : State n) (i : Fin n) (q : Phase) : State n :=
  { s with phase := Function.update s.phase i q }

/-- `userQuotaReserveScript`; `missed` is the phase after a miss. -/
def State.reserveScript (s : State n) (i : Fin n) (missed : Phase) : State n :=
  match s.cache with
  | none => s.set i missed
  | some quota =>
    if quota < c.quota i then s.set i (.done (.ok false))
    else { s with cache := some (quota - c.quota i) }.set i .persist

def State.advance (s : State n) (i : Fin n) : Option (State n) :=
  match s.phase i with
  | .start =>
    some <|
      if c.quota i < 0 then s.set i (.done (.error "quota 不能为负数！"))
      else if c.quota i = 0 then s.set i (.done (.ok true))
      else s.reserveScript c i .lookup
  | .lookup => some (s.set i (if s.cache.isSome then .retry else .read))
  | .read => some (s.set i (.populate s.db))
  -- a balance that is in the hash already is not overwritten
  | .populate quota => some ({ s with cache := s.cache <|> some quota }.set i .retry)
  | .retry => some (s.reserveScript c i .fallback)
  | .fallback =>
    some <|
      if c.quota i ≤ s.db then { s with db := s.db - c.quota i }.set i (.done (.ok true))
      else s.set i (.done (.ok false))
  | .persist =>
    some <|
      if c.batchUpdateEnabled then { s with pending := s.pending - c.quota i }.set i (.done (.ok true))
      else { s with db := s.db - c.quota i }.set i (.done (.ok true))
  | .compensate text =>
    some ({ s with cache := s.cache.map (· + c.quota i) }.set i (.done (.error text)))
  | .done _ => none

/-- A failing operation: without the script the call falls back, without a lookup the database is
read, and a hash that cannot be written is left. -/
def State.failStep (s : State n) (i : Fin n) (text : String) : Option (State n) :=
  match s.phase i with
  | .start => if 0 < c.quota i then some (s.set i .fallback) else none
  | .lookup => some (s.set i .read)
  | .read => some (s.set i .fallback)
  | .populate _ => some (s.set i .retry)
  | .retry => some (s.set i .fallback)
  | .fallback => some (s.set i (.done (.error text)))
  | .persist => if c.batchUpdateEnabled then none else some (s.set i (.compensate text))
  | .compensate first => some (s.set i (.done (.error first)))
  | .done _ => none

def step (s : State n) : Action n → Option (State n)
  | .advance i => s.advance c i
  | .fail i text => s.failStep c i text
  | .refuse i =>
    match s.phase i with
    | .populate _ => some (s.set i .fallback)
    | _ => none
  | .expire => some { s with cache := none }
  | .flushTake =>
    match s.flushing with
    | some _ => none
    | none => some { s with pending := 0, flushing := some s.pending }
  | .flushApply =>
    match s.flushing with
    | some delta => some { s with db := s.db + delta, flushing := none }
    | none => none

/-! ### What is taken -/

def Phase.spent (quota : Int) : Phase → Int
  | .done (.ok true) => quota
  | _ => 0

/-- What a call took from the cache and not yet from the database. -/
def Phase.held (quota : Int) : Phase → Int
  | .persist => quota
  | .compensate _ => quota
  | _ => 0

def State.spent (s : State n) : Int := ∑ i, (s.phase i).spent (c.quota i)

def State.held (s : State n) : Int := ∑ i, (s.phase i).held (c.quota i)

/-- What the database will hold when the batch map has arrived there. -/
def State.settled (s : State n) : Int := s.db + s.pending + s.flushing.getD 0

/-- What may still be reserved: the settled quota, less what was taken from the cache and not yet
from there. -/
def State.available (s : State n) : Int := s.settled - s.held c

/-- The condition on a step under which the cache never shows more than is available: a hash is
filled with an available balance, and a fallback takes a quota that is available besides what the
cache shows. -/
def Fresh (s : State n) : Action n → Prop
  | .advance i =>
    match s.phase i with
    | .populate quota => s.cache = none → quota ≤ s.available c
    | .fallback => c.quota i ≤ s.db →
        c.quota i ≤ s.available c ∧ ∀ cached ∈ s.cache, cached + c.quota i ≤ s.available c
    | _ => True
  | _ => True

instance (s : State n) (a : Action n) : Decidable (Fresh c s a) := by
  unfold Fresh
  split
  · split <;> infer_instance
  · infer_instance

/-! ### Steps -/

variable {c} {s : State n}

variable {i : Fin n} {p q : Phase} {u : State n}

theorem spent_set {total : Int} (hu : u.phase = s.phase)
    (hphase : s.phase i = p) (htotal : s.spent c - p.spent (c.quota i) + q.spent (c.quota i) = total) :
    (u.set i q).spent c = total := by
  rw [← htotal, ← hphase, State.spent, State.set, hu]
  exact sum_update (fun j (p : Phase) => p.spent (c.quota j)) s.phase i q

theorem held_set {total : Int} (hu : u.phase = s.phase)
    (hphase : s.phase i = p) (htotal : s.held c - p.held (c.quota i) + q.held (c.quota i) = total) :
    (u.set i q).held c = total := by
  rw [← htotal, ← hphase, State.held, State.set, hu]
  exact sum_update (fun j (p : Phase) => p.held (c.quota j)) s.phase i q

/-- What one step does to the balances. `F` says whether the step is fresh. -/
inductive Change (c : Calls n) (F : Prop) (s t : State n) : Prop
  | quiet (hcache : t.cache = s.cache ∨ t.cache = none) (hsettled : t.settled = s.settled)
      (hspent : t.spent c = s.spent c) (hheld : t.held c = s.held c)
  /-- The script deducts from the cache. -/
  | reserve (quota cached : Int) (hcached : s.cache = some cached) (henough : quota ≤ cached)
      (hcache : t.cache = some (cached - quota)) (hsettled : t.settled = s.settled)
      (hspent : t.spent c = s.spent c) (hheld : t.held c = s.held c + quota)
  /-- What was held goes to the database or the batch map. -/
  | persist (quota : Int) (hcache : t.cache = s.cache) (hsettled : t.settled = s.settled - quota)
      (hspent : t.spent c = s.spent c + quota) (hheld : t.held c = s.held c - quota)
  /-- What was held is given back, to the cache if possible. -/
  | release (quota : Int) (hquota : 0 ≤ quota)
      (hcache : t.cache = s.cache ∨ t.cache = s.cache.map (· + quota)) (hsettled : t.settled = s.settled)
      (hspent : t.spent c = s.spent c) (hheld : t.held c = s.held c - quota)
  | fill (quota : Int) (hcache : t.cache = some quota) (hfresh : F → quota ≤ s.available c)
      (hsettled : t.settled = s.settled) (hspent : t.spent c = s.spent c) (hheld : t.held c = s.held c)
  /-- A fallback deducts from the database and not from the cache. -/
  | direct (quota : Int) (hcache : t.cache = s.cache)
      (hfresh : F → quota ≤ s.available c ∧ ∀ cached ∈ s.cache, cached + quota ≤ s.available c)
      (hsettled : t.settled = s.settled - quota) (hspent : t.spent c = s.spent c + quota)
      (hheld : t.held c = s.held c)

theorem Change.balanced {F : Prop} {t : State n} (h : Change c F s t) :
    t.settled + t.spent c = s.settled + s.spent c := by
  cases h <;> omega

/-- The cache never shows more than is available, and that is never less than nothing. -/
structure Covered (c : Calls n) (s : State n) : Prop where
  available : 0 ≤ s.available c
  cached : ∀ quota ∈ s.cache, quota ≤ s.available c

theorem Change.covered {F : Prop} {t : State n} (h : Change c F s t) (hF : F) (hs : Covered c s) :
    Covered c t := by
  obtain ⟨havail, hcached⟩ := hs
  cases h with
  | quiet hcache hsettled hspent hheld =>
    have hsame : t.available c = s.available c := by rw [State.available, hsettled, hheld]; rfl
    refine ⟨by omega, fun quota hq => ?_⟩
    rcases hcache with hcache | hcache <;> rw [hcache] at hq
    · rw [hsame]
      exact hcached quota hq
    · cases hq
  | reserve quota cached hsome henough hcache hsettled hspent hheld =>
    have hless : t.available c = s.available c - quota := by
      simp only [State.available, hsettled, hheld]
      omega
    have hle := hcached cached hsome
    refine ⟨by omega, fun q hq => ?_⟩
    rw [hcache, Option.mem_some_iff] at hq
    omega
  | persist quota hcache hsettled hspent hheld =>
    have hsame : t.available c = s.available c := by
      simp only [State.available, hsettled, hheld]
      omega
    refine ⟨by omega, fun q hq => ?_⟩
    rw [hcache] at hq
    rw [hsame]
    exact hcached q hq
  | release quota hquota hcache hsettled hspent hheld =>
    have hmore : t.available c = s.available c + quota := by
      simp only [State.available, hsettled, hheld]
      omega
    refine ⟨by omega, fun q hq => ?_⟩
    rcases hcache with hcache | hcache <;> rw [hcache] at hq
    · have := hcached q hq
      omega
    · obtain ⟨cached, hsome, rfl⟩ := Option.map_eq_some_iff.1 hq
      have := hcached cached hsome
      omega
  | fill quota hcache hfresh hsettled hspent hheld =>
    have hsame : t.available c = s.available c := by rw [State.available, hsettled, hheld]; rfl
    refine ⟨by omega, fun q hq => ?_⟩
    rw [hcache, Option.mem_some_iff] at hq
    have := hfresh hF
    omega
  | direct quota hcache hfresh hsettled hspent hheld =>
    have hless : t.available c = s.available c - quota := by
      simp only [State.available, hsettled, hheld]
      omega
    obtain ⟨hquota, hboth⟩ := hfresh hF
    refine ⟨by omega, fun q hq => ?_⟩
    rw [hcache] at hq
    have := hboth q hq
    omega

def Positive (c : Calls n) (s : State n) : Prop :=
  ∀ i, s.phase i = .start ∨ (∃ r, s.phase i = .done r) ∨ 0 < c.quota i

theorem Positive.set (h : Positive c s) (hu : u.phase = s.phase)
    (hi : 0 < c.quota i ∨ ∃ r, q = .done r) : Positive c (u.set i q) := by
  intro j
  rw [State.set, hu]
  by_cases hj : j = i
  · subst hj
    rcases hi with hpos | ⟨r, rfl⟩
    · exact Or.inr (Or.inr hpos)
    · exact Or.inr (Or.inl ⟨r, Function.update_self ..⟩)
  · simp only [Function.update_of_ne hj]
    exact h j

theorem Positive.pos (h : Positive c s) (hphase : s.phase i = p)
    (hstart : p ≠ .start) (hdone : ∀ r, p ≠ .done r) : 0 < c.quota i := by
  rcases h i with hi | ⟨r, hi⟩ | hi
  · exact absurd (hphase.symm.trans hi) hstart
  · exact absurd (hphase.symm.trans hi) (hdone r)
  · exact hi

variable {F : Prop} {t : State n} {i : Fin n}

def Stepped (c : Calls n) (F : Prop) (s t : State n) : Prop := Positive c t ∧ Change c F s t

/-- A call moves on and neither holds nor has spent anything, before and after. -/
theorem quiet_set (hpos : Positive c s) (hphase : s.phase i = p) (hi : 0 < c.quota i ∨ ∃ r, q = .done r)
    (hp : p.spent (c.quota i) = 0 ∧ p.held (c.quota i) = 0)
    (hq : q.spent (c.quota i) = 0 ∧ q.held (c.quota i) = 0) : Stepped c F s (s.set i q) := by
  refine ⟨hpos.set rfl hi, .quiet (Or.inl rfl) rfl ?_ ?_⟩
  · refine spent_set (by rfl) hphase ?_
    rw [hp.1, hq.1]
    omega
  · refine held_set (by rfl) hphase ?_
    rw [hp.2, hq.2]
    omega

theorem reserveScript_stepped {missed : Phase} (hpos : Positive c s) (hphase : s.phase i = p) (hi : 0 < c.quota i)
    (hp : p.spent (c.quota i) = 0 ∧ p.held (c.quota i) = 0)
    (hmissed : missed.spent (c.quota i) = 0 ∧ missed.held (c.quota i) = 0) :
    Stepped c F s (s.reserveScript c i missed) := by
  unfold State.reserveScript
  cases hcache : s.cache with
  | none => exact quiet_set hpos hphase (Or.inl hi) hp hmissed
  | some cached =>
    simp only
    split_ifs with hshort
    · exact quiet_set hpos hphase (Or.inl hi) hp ⟨rfl, rfl⟩
    · refine ⟨hpos.set rfl (Or.inl hi), .reserve (c.quota i) cached hcache (not_lt.1 hshort) rfl rfl ?_ ?_⟩
      · refine spent_set (by rfl) hphase ?_
        rw [hp.1]
        simp [Phase.spent]
      · refine held_set (by rfl) hphase ?_
        rw [hp.2, Phase.held]
        omega

/-- The deduction that a call holds arrives in the database or the batch map. -/
theorem persist_stepped {db pending : Int} (hpos : Positive c s) (hphase : s.phase i = .persist)
    (hsum : db + pending = s.db + s.pending - c.quota i) :
    Stepped c F s ({ s with db := db, pending := pending }.set i (.done (.ok true))) := by
  refine ⟨hpos.set rfl (Or.inr ⟨_, rfl⟩), .persist (c.quota i) rfl ?_ ?_ ?_⟩
  · simp only [State.set, State.settled]
    omega
  · exact spent_set (by rfl) hphase (by simp [Phase.spent])
  · exact held_set (by rfl) hphase (by simp [Phase.held])

theorem advance_stepped (hpos : Positive c s) (h : s.advance c i = some t) :
    Stepped c (Fresh c s (.advance i)) s t := by
  unfold State.advance at h
  cases hphase : s.phase i <;> simp only [hphase] at h <;> cases h
  case start =>
    split_ifs with hneg hzero
    · exact quiet_set hpos hphase (Or.inr ⟨_, rfl⟩) ⟨rfl, rfl⟩ ⟨rfl, rfl⟩
    · exact quiet_set hpos hphase (Or.inr ⟨_, rfl⟩) ⟨rfl, rfl⟩ ⟨hzero, rfl⟩
    · exact reserveScript_stepped hpos hphase (by omega) ⟨rfl, rfl⟩ ⟨rfl, rfl⟩
  all_goals have hi := hpos.pos hphase (by simp) (by simp)
  case lookup =>
    refine quiet_set hpos hphase (Or.inl hi) ⟨rfl, rfl⟩ ?_
    split_ifs <;> exact ⟨rfl, rfl⟩
  case read => exact quiet_set hpos hphase (Or.inl hi) ⟨rfl, rfl⟩ ⟨rfl, rfl⟩
  case populate quota =>
    refine ⟨hpos.set rfl (Or.inl hi), ?_⟩
    have hspent : ({ s with cache := s.cache <|> some quota }.set i .retry).spent c = s.spent c := by
      exact spent_set (by rfl) hphase (by simp [Phase.spent])
    have hheld : ({ s with cache := s.cache <|> some quota }.set i .retry).held c = s.held c := by
      exact held_set (by rfl) hphase (by simp [Phase.held])
    cases hcache : s.cache with
    | none =>
      refine .fill quota (by simp [State.set]) (fun hfresh => ?_) rfl (hcache ▸ hspent) (hcache ▸ hheld)
      simp only [Fresh, hphase] at hfresh
      exact hfresh hcache
    | some cached => exact .quiet (Or.inl (by simp [State.set, hcache])) rfl (hcache ▸ hspent) (hcache ▸ hheld)
  case retry => exact reserveScript_stepped hpos hphase hi ⟨rfl, rfl⟩ ⟨rfl, rfl⟩
  case fallback =>
    split_ifs with henough
    · refine ⟨hpos.set rfl (Or.inl hi), .direct (c.quota i) rfl (fun hfresh => ?_) ?_ ?_ ?_⟩
      · simp only [Fresh, hphase] at hfresh
        exact hfresh henough
      · simp only [State.set, State.settled]
        omega
      · exact spent_set (by rfl) hphase (by simp [Phase.spent])
      · exact held_set (by rfl) hphase (by simp [Phase.held])
    · exact quiet_set hpos hphase (Or.inl hi) ⟨rfl, rfl⟩ ⟨rfl, rfl⟩
  case persist =>
    split_ifs with hbatch
    · exact persist_stepped hpos hphase (by omega)
    · exact persist_stepped hpos hphase (by omega)
  case compensate text =>
    refine ⟨hpos.set rfl (Or.inl hi), .release (c.quota i) hi.le (Or.inr rfl) rfl ?_ ?_⟩
    · exact spent_set (by rfl) hphase (by simp [Phase.spent])
    · exact held_set (by rfl) hphase (by simp [Phase.held])

theorem fail_stepped {text : String} (hpos : Positive c s) (h : s.failStep c i text = some t) :
    Stepped c F s t := by
  unfold State.failStep at h
  cases hphase : s.phase i <;> simp only [hphase] at h
  case start =>
    split_ifs at h with hi
    cases h
    exact quiet_set hpos hphase (Or.inl hi) ⟨rfl, rfl⟩ ⟨rfl, rfl⟩
  case done r => cases h
  all_goals have hi := hpos.pos hphase (by simp) (by simp)
  case persist =>
    split_ifs at h
    cases h
    refine ⟨hpos.set rfl (Or.inl hi), .quiet (Or.inl rfl) rfl ?_ ?_⟩
    · exact spent_set (by rfl) hphase (by simp [Phase.spent])
    · exact held_set (by rfl) hphase (by simp [Phase.held])
  all_goals cases h
  case compensate first =>
    refine ⟨hpos.set rfl (Or.inl hi), .release (c.quota i) hi.le (Or.inl rfl) rfl ?_ ?_⟩
    · exact spent_set (by rfl) hphase (by simp [Phase.spent])
    · exact held_set (by rfl) hphase (by simp [Phase.held])
  all_goals exact quiet_set hpos hphase (Or.inl hi) ⟨rfl, rfl⟩ ⟨rfl, rfl⟩

theorem step_stepped {a : Action n} (hpos : Positive c s) (h : step c s a = some t) :
    Stepped c (Fresh c s a) s t := by
  cases a with simp only [step] at h
  | advance i => exact advance_stepped hpos h
  | fail i text => exact fail_stepped hpos h
  | refuse i =>
    split at h
    · rename_i quota hphase
      cases h
      exact quiet_set hpos hphase (Or.inl (hpos.pos hphase (by simp) (by simp))) ⟨rfl, rfl⟩ ⟨rfl, rfl⟩
    · cases h
  | expire =>
    cases h
    exact ⟨hpos, .quiet (Or.inr rfl) rfl rfl rfl⟩
  | flushTake =>
    split at h
    · cases h
    · rename_i hflushing
      cases h
      refine ⟨hpos, .quiet (Or.inl rfl) ?_ rfl rfl⟩
      simp [State.settled, hflushing]
  | flushApply =>
    split at h
    · rename_i delta hflushing
      cases h
      refine ⟨hpos, .quiet (Or.inl rfl) ?_ rfl rfl⟩
      simp only [State.settled, hflushing, Option.getD_some, Option.getD_none]
      omega
    · cases h

theorem held_nonneg (hpos : Positive c s) : 0 ≤ s.held c := by
  refine Finset.sum_nonneg fun i _ => ?_
  unfold Phase.held
  split
  · rename_i hphase
    exact (hpos.pos hphase (by simp) (by simp)).le
  · rename_i hphase
    exact (hpos.pos hphase (by simp) (by simp)).le
  · exact le_refl _

/-! ### Runs -/

theorem settled_initial (c : Calls n) (balance : Int) (cache : Option Int) :
    (initial n balance cache).settled = balance ∧ (initial n balance cache).spent c = 0 ∧
      (initial n balance cache).held c = 0 := by
  simp [initial, State.settled, State.spent, State.held, Phase.spent, Phase.held]

/-- The calls that returned true took at most the balance, in every state of every run whose steps
are fresh; and in every run at all, once every call has returned and every flush is done, the
database holds what they left. -/
theorem no_overspend (c : Calls n) (balance : Int) (hbalance : 0 ≤ balance) (cache : Option Int)
    (hcache : cache = none ∨ cache = some balance) (actions : List (Action n)) {s : State n}
    (hrun : run (step c) (initial n balance cache) actions = some s) :
    (Along (step c) (Fresh c) (initial n balance cache) actions → s.spent c ≤ balance) ∧
      ((∀ i, ∃ r, s.phase i = .done r) → s.pending = 0 → s.flushing = none →
        s.db = balance - s.spent c) := by
  obtain ⟨hsettled, hspent, hheld⟩ := settled_initial c balance cache
  have hstart : Positive c (initial n balance cache) := fun _ => Or.inl rfl
  obtain ⟨hpos, hbalanced⟩ : Positive c s ∧ s.settled + s.spent c = balance := by
    refine run_inv (I := fun s => Positive c s ∧ s.settled + s.spent c = balance) ?_
      ⟨hstart, by omega⟩ hrun
    rintro u a v ⟨hu, hub⟩ hstep
    obtain ⟨hv, hchange⟩ := step_stepped hu hstep
    exact ⟨hv, hchange.balanced.trans hub⟩
  refine ⟨fun hfresh => ?_, fun hdone hpending hflushing => ?_⟩
  · have havailable : (initial n balance cache).available c = balance := by
      rw [State.available, hsettled, hheld, sub_zero]
    have hcovered : Covered c (initial n balance cache) := by
      refine ⟨by omega, fun quota hq => ?_⟩
      rw [havailable]
      rcases hcache with rfl | rfl <;> cases hq
      · exact le_refl _
    obtain ⟨-, hend⟩ : Positive c s ∧ Covered c s := by
      refine run_inv_along (I := fun s => Positive c s ∧ Covered c s) ?_ ⟨hstart, hcovered⟩ hfresh hrun
      rintro u a v ⟨hu, huc⟩ ha hstep
      obtain ⟨hv, hchange⟩ := step_stepped hu hstep
      exact ⟨hv, hchange.covered ha huc⟩
    have hnonneg : 0 ≤ s.held c := held_nonneg hpos
    have := hend.available
    rw [State.available] at this
    omega
  · have : s.settled = s.db := by simp [State.settled, hpending, hflushing]
    omega

/-- Two calls of `6` on a balance of `10`, both with a cold cache: the second finds what the first
left. -/
theorem no_overspend_two_calls :
    ∃ s : State 2, run (step ⟨true, ![6, 6]⟩) (initial 2 10 none)
        [.advance 0, .advance 0, .advance 0, .advance 0, .advance 0, .advance 0, .advance 1, .flushTake,
          .flushApply] = some s ∧
      s.phase 0 = .done (.ok true) ∧ s.phase 1 = .done (.ok false) ∧ s.db = 4 ∧
      s.spent ⟨true, ![6, 6]⟩ ≤ 10 :=
  ⟨_, rfl, by decide, by decide, by decide,
    (no_overspend ⟨true, ![6, 6]⟩ 10 (by decide) none (Or.inl rfl)
      [.advance 0, .advance 0, .advance 0, .advance 0, .advance 0, .advance 0, .advance 1, .flushTake,
        .flushApply] rfl).1 (by decide)⟩

/-- A call takes the whole balance of `10` into the batch map, the hash expires, and a second call
fills it again from the database, which still says `10`. -/
theorem overspend_after_expiry :
    ∃ s : State 2, run (step ⟨true, ![10, 10]⟩) (initial 2 10 none)
        [.advance 0, .advance 0, .advance 0, .advance 0, .advance 0, .advance 0, .expire, .advance 1,
          .advance 1, .advance 1, .advance 1, .advance 1, .advance 1, .flushTake, .flushApply] = some s ∧
      s.phase 0 = .done (.ok true) ∧ s.phase 1 = .done (.ok true) ∧ s.spent ⟨true, ![10, 10]⟩ = 20 ∧
      s.db = -10 :=
  ⟨_, rfl, by decide, by decide, by decide, by decide⟩

end TokenEra.Wallet
