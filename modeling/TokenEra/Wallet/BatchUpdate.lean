import TokenEra.Lib.Run

/-!
# Batched counter updates

With batch updates enabled the counters of users, tokens and channels are not written to the
database by the request that changes them. `addNewRecord` adds the change to one of five maps in
memory, each behind a lock of its own, and `batchUpdate` now and then takes the maps and writes them
out: it looks for a map that is not empty, swaps the five maps for new ones one after the other,
writes the token and the channel entries key by key, and then joins the three user maps by user id
and writes each user once.

Any number of passes run at once, between each other's swaps and database updates and between the
calls of `addNewRecord`. What is recorded is at every moment in exactly one place: in the database,
in a map, or with a pass that has taken it and not yet written it.
-/

namespace TokenEra.BatchUpdate

open Lib

/-! ### The maps -/

inductive BatchType
  | userQuota | tokenQuota | usedQuota | channelUsedQuota | requestCount
  deriving DecidableEq, Repr

def BatchType.all : List BatchType := [.userQuota, .tokenQuota, .usedQuota, .channelUsedQuota, .requestCount]

def BatchType.index : BatchType → Nat
  | .userQuota => 0
  | .tokenQuota => 1
  | .usedQuota => 2
  | .channelUsedQuota => 3
  | .requestCount => 4

def BatchType.OfUser (ty : BatchType) : Prop := ty = .userQuota ∨ ty = .usedQuota ∨ ty = .requestCount

instance (ty : BatchType) : Decidable ty.OfUser := inferInstanceAs (Decidable (_ ∨ _ ∨ _))

/-- A map from ids to amounts; reading a key that is absent gives `0`. -/
structure Store where
  keys : Finset Int
  get : Int → Int
  get_absent : ∀ k, k ∉ keys → get k = 0

def Store.empty : Store := ⟨∅, fun _ => 0, fun _ _ => rfl⟩

def Store.add (m : Store) (id value : Int) : Store where
  keys := insert id m.keys
  get := Function.update m.get id (if id ∉ m.keys then value else m.get id + value)
  get_absent k hk := by
    rw [Finset.mem_insert, not_or] at hk
    rw [Function.update_of_ne hk.1]
    exact m.get_absent k hk.2

def Store.erase (m : Store) (id : Int) : Store where
  keys := m.keys.erase id
  get := Function.update m.get id 0
  get_absent k hk := by
    by_cases h : k = id
    · rw [h, Function.update_self]
    · rw [Function.update_of_ne h]
      exact m.get_absent k fun hm => hk (Finset.mem_erase.2 ⟨h, hm⟩)

@[simp] theorem Store.get_empty (id : Int) : Store.empty.get id = 0 := rfl

theorem Store.get_add (m : Store) (id value k : Int) :
    (m.add id value).get k = m.get k + if k = id then value else 0 := by
  by_cases h : k = id
  · subst h
    by_cases hk : k ∈ m.keys
    · simp [add, hk]
    · simp [add, hk, m.get_absent k hk]
  · simp [add, h]

theorem Store.get_erase (m : Store) (id k : Int) :
    (m.erase id).get k = m.get k - if k = id then m.get id else 0 := by
  by_cases h : k = id
  · simp [erase, h]
  · simp [erase, h]

theorem Store.get_of_keys_eq_empty {m : Store} (h : m.keys = ∅) (id : Int) : m.get id = 0 :=
  m.get_absent id (by simp [h])

/-! ### The database -/

structure Db where
  quota : Int → Int
  usedQuota : Int → Int
  requestCount : Int → Int
  tokenRemainQuota : Int → Int
  tokenUsedQuota : Int → Int
  channelUsedQuota : Int → Int

def Db.column (db : Db) : BatchType → Int → Int
  | .userQuota => db.quota
  | .tokenQuota => db.tokenRemainQuota
  | .usedQuota => db.usedQuota
  | .channelUsedQuota => db.channelUsedQuota
  | .requestCount => db.requestCount

/-- `UPDATE ... SET column = column + value WHERE id = ?` on one column. -/
def plus (column : Int → Int) (id value : Int) : Int → Int := Function.update column id (column id + value)

variable {id k : Int}

theorem plus_apply (column : Int → Int) (value : Int) :
    plus column id value k = column k + if k = id then value else 0 := by
  by_cases h : k = id
  · simp [plus, h]
  · simp [plus, h]

def increaseTokenQuota (db : Db) (id quota : Int) : Db :=
  { db with
    tokenRemainQuota := plus db.tokenRemainQuota id quota
    tokenUsedQuota := plus db.tokenUsedQuota id (-quota) }

def updateChannelUsedQuota (db : Db) (id quota : Int) : Db :=
  { db with channelUsedQuota := plus db.channelUsedQuota id quota }

def updateUserQuotaUsedQuotaAndRequestCount (db : Db) (id quota usedQuota requestCount : Int) : Db :=
  if quota = 0 ∧ usedQuota = 0 ∧ requestCount = 0 then db
  else
    { db with
      quota := plus db.quota id quota
      usedQuota := plus db.usedQuota id usedQuota
      requestCount := plus db.requestCount id requestCount }

variable {db : Db} {quota : Int} {ty : BatchType}

theorem column_increaseTokenQuota :
    (increaseTokenQuota db id quota).column ty k =
      db.column ty k + if ty = .tokenQuota ∧ k = id then quota else 0 := by
  cases ty <;> simp [increaseTokenQuota, Db.column, plus_apply]

theorem column_updateChannelUsedQuota :
    (updateChannelUsedQuota db id quota).column ty k =
      db.column ty k + if ty = .channelUsedQuota ∧ k = id then quota else 0 := by
  cases ty <;> simp [updateChannelUsedQuota, Db.column, plus_apply]

/-- Skipping a user whose three amounts are `0` changes nothing. -/
theorem column_updateUser (db : Db) (id : Int) (amount : BatchType → Int) (ty : BatchType) (k : Int) :
    (updateUserQuotaUsedQuotaAndRequestCount db id (amount .userQuota) (amount .usedQuota)
      (amount .requestCount)).column ty k =
      db.column ty k + if ty.OfUser ∧ k = id then amount ty else 0 := by
  unfold updateUserQuotaUsedQuotaAndRequestCount
  split
  case isTrue h =>
    obtain ⟨hq, hu, hr⟩ := h
    cases ty <;> simp [BatchType.OfUser, hq, hu, hr]
  case isFalse => cases ty <;> simp [BatchType.OfUser, Db.column, plus_apply]

/-! ### The passes -/

inductive Phase
  | idle
  | checking (seen : Nat)
  | swapping (stores : List Store)
  | writing (stores : BatchType → Store)

/-- The map of a type that a pass has taken, without the keys it has written. -/
def Phase.store : Phase → BatchType → Store
  | .idle, _ => .empty
  | .checking _, _ => .empty
  | .swapping stores, ty => stores.getD ty.index .empty
  | .writing stores, ty => stores ty

structure State (n : Nat) where
  db : Db
  stores : BatchType → Store
  phase : Fin n → Phase

def init (n : Nat) (db : Db) : State n := ⟨db, fun _ => .empty, fun _ => .idle⟩

inductive Act (n : Nat)
  /-- `addNewRecord`, under the lock of the type. -/
  | addNewRecord (ty : BatchType) (id value : Int)
  | start (p : Fin n)
  | check (p : Fin n)
  | swap (p : Fin n)
  | writeToken (p : Fin n) (id : Int)
  | writeChannel (p : Fin n) (id : Int)
  /-- A user id of the three user maps is written. -/
  | writeUser (p : Fin n) (id : Int)
  | finish (p : Fin n)

variable {n : Nat}

def State.setPhase (s : State n) (p : Fin n) (q : Phase) : State n :=
  { s with phase := Function.update s.phase p q }

def userIDs (stores : BatchType → Store) : Finset Int :=
  (stores .userQuota).keys ∪ (stores .usedQuota).keys ∪ (stores .requestCount).keys

/-- The maps with the entries of one id gone from those the update has written. -/
def eraseOf (P : BatchType → Prop) [DecidablePred P] (stores : BatchType → Store) (id : Int) :
    BatchType → Store :=
  fun ty => if P ty then (stores ty).erase id else stores ty

def step (s : State n) : Act n → Option (State n)
  | .addNewRecord ty id value =>
    some { s with stores := Function.update s.stores ty ((s.stores ty).add id value) }
  | .start p =>
    match s.phase p with
    | .idle => some (s.setPhase p (.checking 0))
    | _ => none
  | .check p =>
    match s.phase p with
    | .checking seen =>
      match BatchType.all[seen]? with
      | none => some (s.setPhase p .idle)
      | some ty =>
        if (s.stores ty).keys = ∅ then some (s.setPhase p (.checking (seen + 1)))
        else some (s.setPhase p (.swapping []))
    | _ => none
  | .swap p =>
    match s.phase p with
    | .swapping stores =>
      match BatchType.all[stores.length]? with
      | none => some (s.setPhase p (.writing fun ty => stores.getD ty.index .empty))
      | some ty =>
        some { s.setPhase p (.swapping (stores ++ [s.stores ty])) with
          stores := Function.update s.stores ty .empty }
    | _ => none
  -- A loop over a map visits its keys in no fixed order, so the key is the action's to choose.
  | .writeToken p id =>
    match s.phase p with
    | .writing stores =>
      if id ∈ (stores .tokenQuota).keys then
        some { s.setPhase p (.writing (eraseOf (· = .tokenQuota) stores id)) with
          db := increaseTokenQuota s.db id ((stores .tokenQuota).get id) }
      else none
    | _ => none
  | .writeChannel p id =>
    match s.phase p with
    | .writing stores =>
      if (stores .tokenQuota).keys = ∅ ∧ id ∈ (stores .channelUsedQuota).keys then
        some { s.setPhase p (.writing (eraseOf (· = .channelUsedQuota) stores id)) with
          db := updateChannelUsedQuota s.db id ((stores .channelUsedQuota).get id) }
      else none
    | _ => none
  | .writeUser p id =>
    match s.phase p with
    | .writing stores =>
      if (stores .tokenQuota).keys = ∅ ∧ (stores .channelUsedQuota).keys = ∅ ∧ id ∈ userIDs stores then
        some { s.setPhase p (.writing (eraseOf BatchType.OfUser stores id)) with
          db := updateUserQuotaUsedQuotaAndRequestCount s.db id ((stores .userQuota).get id)
            ((stores .usedQuota).get id) ((stores .requestCount).get id) }
      else none
    | _ => none
  | .finish p =>
    match s.phase p with
    | .writing stores =>
      if (stores .tokenQuota).keys = ∅ ∧ (stores .channelUsedQuota).keys = ∅ ∧ userIDs stores = ∅ then
        some (s.setPhase p .idle)
      else none
    | _ => none

/-! ### What a step does -/

def State.held (s : State n) (p : Fin n) (ty : BatchType) (id : Int) : Int := ((s.phase p).store ty).get id

def Act.recorded : Act n → BatchType → Int → Int
  | .addNewRecord ty id value, ty', id' => if ty' = ty ∧ id' = id then value else 0
  | _, _, _ => 0

def State.total (s : State n) (ty : BatchType) (id : Int) : Int :=
  s.db.column ty id + (s.stores ty).get id + ∑ p, s.held p ty id

variable {ty : BatchType}

theorem get_eraseOf (P : BatchType → Prop) [DecidablePred P] (stores : BatchType → Store) :
    (eraseOf P stores id ty).get k = (stores ty).get k - if P ty ∧ k = id then (stores ty).get id else 0 := by
  unfold eraseOf
  by_cases h : P ty
  · simp [h, Store.get_erase]
  · simp [h]

theorem getD_append_swapped {stores : List Store} {ty : BatchType} (h : BatchType.all[stores.length]? = some ty)
    (m : Store) (ty' : BatchType) :
    ((stores ++ [m]).getD ty'.index .empty).get id =
      (stores.getD ty'.index .empty).get id + if ty' = ty then m.get id else 0 := by
  have hlen : ty.index = stores.length := by
    have hlt : stores.length < 5 := (List.getElem?_eq_some_iff.1 h).1
    interval_cases hs : stores.length <;> cases h <;> rfl
  have hinj : ty' = ty ↔ ty'.index = stores.length := by
    rw [← hlen]
    cases ty' <;> cases ty <;> decide
  rw [if_congr hinj rfl rfl]
  rcases lt_trichotomy ty'.index stores.length with hlt | heq | hgt
  · simp [List.getElem?_append_left hlt, hlt.ne]
  · simp [heq, List.getD_eq_getElem?_getD]
  · simp [List.getD_eq_getElem?_getD, List.getElem?_append_right hgt.le, hgt.ne', hgt.le,
      show ty'.index - stores.length ≠ 0 by omega]

/-- What a step of one pass does. It moves amounts between the map, itself and the database, and the
three together keep theirs; and it writes all three columns of a user or none. -/
structure Moves (s : State n) (a : Act n) (t : State n) (p : Fin n) (q : Phase) : Prop where
  phase : t.phase = Function.update s.phase p q
  kept : ∀ ty id, t.db.column ty id + (t.stores ty).get id + (q.store ty).get id =
    s.db.column ty id + (s.stores ty).get id + s.held p ty id
  user : ∀ ty id, ty.OfUser → t.db.column ty id ≠ s.db.column ty id →
    ∀ ty', ty'.OfUser → t.db.column ty' id = s.db.column ty' id + s.held p ty' id ∧ (q.store ty').get id = 0

/-- A database update by a pass: the columns of the types `P` take what the pass holds of the id. -/
theorem moves_write {s : State n} {a : Act n} {p : Fin n} {stores : BatchType → Store}
    (h : s.phase p = .writing stores) (P : BatchType → Prop) [DecidablePred P] {db : Db}
    (hdb : ∀ ty k, db.column ty k = s.db.column ty k + if P ty ∧ k = id then (stores ty).get id else 0)
    (hP : ∀ ty, ty.OfUser → P ty → ∀ ty', ty'.OfUser → P ty') :
    Moves s a { s.setPhase p (.writing (eraseOf P stores id)) with db := db } p
      (.writing (eraseOf P stores id)) := by
  refine ⟨rfl, fun ty k => ?_, fun ty k hty hne ty' hty' => ?_⟩
  · simp only [State.setPhase, State.held, h, Phase.store, hdb, get_eraseOf]
    ring
  · -- The column has changed, so it is one the update writes, at the id it writes.
    have hwritten : P ty ∧ k = id := by
      by_contra hnot
      exact hne (by rw [hdb, if_neg hnot, add_zero])
    obtain ⟨hPty, rfl⟩ := hwritten
    have hPty' : P ty' ∧ k = k := ⟨hP ty hty hPty ty' hty', rfl⟩
    refine ⟨?_, ?_⟩
    · rw [hdb, if_pos hPty', State.held, h, Phase.store]
    · rw [Phase.store, get_eraseOf, if_pos hPty', sub_self]

theorem moves_setPhase {s : State n} {a : Act n} {p : Fin n} {q : Phase}
    (h : ∀ ty id, (q.store ty).get id = s.held p ty id) : Moves s a (s.setPhase p q) p q := by
  refine ⟨rfl, fun ty id => ?_, fun ty id _ hne => absurd rfl hne⟩
  simp only [State.setPhase, h]

theorem moves_swap {s : State n} {a : Act n} {p : Fin n} {stores : List Store} {ty : BatchType}
    (h : s.phase p = .swapping stores) (hty : BatchType.all[stores.length]? = some ty) :
    Moves s a { s.setPhase p (.swapping (stores ++ [s.stores ty])) with
      stores := Function.update s.stores ty .empty } p (.swapping (stores ++ [s.stores ty])) := by
  refine ⟨rfl, fun ty' id => ?_, fun ty id _ hne => absurd rfl hne⟩
  simp only [State.setPhase, State.held, h, Phase.store, getD_append_swapped hty]
  by_cases heq : ty' = ty
  · subst heq
    simp only [Function.update_self, Store.get_empty, if_true]
    ring
  · simp only [Function.update_of_ne heq, heq, if_false]
    ring

/-- A step records, or moves amounts of one pass. -/
theorem step_cases {s t : State n} {a : Act n} (h : step s a = some t) :
    (∃ ty id value, a = .addNewRecord ty id value ∧
      t = { s with stores := Function.update s.stores ty ((s.stores ty).add id value) }) ∨
    (a.recorded = fun _ _ => 0) ∧ ∃ p q, Moves s a t p q := by
  cases a with simp only [step] at h
  | addNewRecord ty id value => exact .inl ⟨ty, id, value, rfl, (Option.some.inj h).symm⟩
  | start p =>
    split at h <;> cases h
    rename_i hp
    exact .inr ⟨rfl, p, _, moves_setPhase fun ty id => by simp [State.held, hp, Phase.store]⟩
  | check p =>
    split at h
    case h_1 seen hp =>
      have hmoves : ∀ q : Phase, (∀ ty, q.store ty = .empty) → Moves s (.check p) (s.setPhase p q) p q :=
        fun q hq => moves_setPhase fun ty id => by rw [hq, State.held, hp]; rfl
      refine .inr ⟨rfl, p, ?_⟩
      split at h
      · cases h
        exact ⟨_, hmoves _ fun _ => rfl⟩
      · split at h <;> cases h
        · exact ⟨_, hmoves _ fun _ => rfl⟩
        · exact ⟨_, hmoves _ fun _ => rfl⟩
    case h_2 => cases h
  | swap p =>
    split at h
    case h_1 stores hp =>
      refine .inr ⟨rfl, p, ?_⟩
      split at h <;> cases h
      case h_1 => exact ⟨_, moves_setPhase fun ty id => by simp [State.held, hp, Phase.store]⟩
      case h_2 ty hty => exact ⟨_, moves_swap hp hty⟩
    case h_2 => cases h
  | writeToken p id =>
    split at h
    case h_1 stores hp =>
      obtain ⟨-, h⟩ := Option.ite_none_right_eq_some.1 h
      cases h
      refine .inr ⟨rfl, p, _, moves_write hp (· = .tokenQuota) (fun ty k => ?_) (by simp [BatchType.OfUser])⟩
      rw [column_increaseTokenQuota]
      grind
    case h_2 => cases h
  | writeChannel p id =>
    split at h
    case h_1 stores hp =>
      obtain ⟨-, h⟩ := Option.ite_none_right_eq_some.1 h
      cases h
      refine .inr ⟨rfl, p, _, moves_write hp (· = .channelUsedQuota) (fun ty k => ?_) (by simp [BatchType.OfUser])⟩
      rw [column_updateChannelUsedQuota]
      grind
    case h_2 => cases h
  | writeUser p id =>
    split at h
    case h_1 stores hp =>
      obtain ⟨-, h⟩ := Option.ite_none_right_eq_some.1 h
      cases h
      exact .inr ⟨rfl, p, _, moves_write hp BatchType.OfUser
        (column_updateUser s.db id fun ty => (stores ty).get id) (fun _ _ _ _ h => h)⟩
    case h_2 => cases h
  | finish p =>
    split at h
    case h_1 stores hp =>
      obtain ⟨⟨htok, hchan, huser⟩, h⟩ := Option.ite_none_right_eq_some.1 h
      cases h
      refine .inr ⟨rfl, p, _, moves_setPhase fun ty id => ?_⟩
      simp only [userIDs, Finset.union_eq_empty] at huser
      obtain ⟨⟨hq, hu⟩, hr⟩ := huser
      simp only [Phase.store, Store.get_empty, State.held, hp]
      refine (Store.get_of_keys_eq_empty ?_ id).symm
      cases ty <;> assumption
    case h_2 => cases h

/-! ### Nothing is lost -/

theorem total_step {s t : State n} {a : Act n} (h : step s a = some t) :
    t.total ty id = s.total ty id + a.recorded ty id := by
  rcases step_cases h with ⟨ty', id', value, rfl, rfl⟩ | ⟨hrec, p, q, hmoves⟩
  · simp only [State.total, State.held, Act.recorded]
    by_cases hty : ty = ty'
    · subst hty
      simp only [Function.update_self, Store.get_add, true_and]
      ring
    · simp [hty]
  · have hkept := hmoves.kept ty id
    simp only [State.held] at hkept
    simp only [State.total, State.held, hrec, hmoves.phase, add_zero]
    rw [sum_update (fun _ (q : Phase) => (q.store ty).get id) s.phase p q]
    omega

theorem total_init : (init n db).total ty id = db.column ty id := by
  simp [State.total, State.held, init, Phase.store]

/-- Along every interleaving of records and passes, what the database has taken of a counter, what
its map has and what the passes hold add up to what was recorded; with no pass running and the maps
empty the database has all of it. A step that changes one of a user's three columns is a pass
writing to all three what it holds of them. -/
theorem batched_counters_lose_nothing (db₀ : Db) (l : List (Act n)) (s : State n)
    (h : run step (init n db₀) l = some s) :
    (∀ ty id, (s.db.column ty id - db₀.column ty id) + (s.stores ty).get id + ∑ p, s.held p ty id =
      (l.map fun a => a.recorded ty id).sum) ∧
    ((∀ p, s.phase p = .idle) → (∀ ty, (s.stores ty).keys = ∅) → ∀ ty id,
      s.db.column ty id - db₀.column ty id = (l.map fun a => a.recorded ty id).sum) ∧
    ∀ a t, step s a = some t → ∀ ty id, ty.OfUser → t.db.column ty id ≠ s.db.column ty id →
      ∃ p, ∀ ty', ty'.OfUser →
        t.db.column ty' id = s.db.column ty' id + s.held p ty' id ∧ t.held p ty' id = 0 := by
  have hsum : ∀ ty id, (s.db.column ty id - db₀.column ty id) + (s.stores ty).get id +
      ∑ p, s.held p ty id = (l.map fun a => a.recorded ty id).sum := by
    intro ty id
    have htotal := run_sum (w := fun s : State n => s.total ty id) (fun s a t h => total_step h) h
    simp only [total_init] at htotal
    simp only [State.total] at htotal
    omega
  refine ⟨hsum, fun hidle hempty ty id => ?_, fun a t hstep ty id hty hne => ?_⟩
  · have hheld : ∀ p, s.held p ty id = 0 := fun p => by rw [State.held, hidle p]; rfl
    have := hsum ty id
    rw [Store.get_of_keys_eq_empty (hempty ty), Finset.sum_eq_zero fun p _ => hheld p] at this
    omega
  · rcases step_cases hstep with ⟨_, _, _, rfl, rfl⟩ | ⟨-, p, q, hmoves⟩
    · exact absurd rfl hne
    · refine ⟨p, fun ty' hty' => ?_⟩
      obtain ⟨hcol, hzero⟩ := hmoves.user ty id hty hne ty' hty'
      exact ⟨hcol, by rw [State.held, hmoves.phase, Function.update_self, hzero]⟩

/-- A pass that a record overtakes: the map of the user quotas is swapped when `3` more are recorded
for the same user. -/
def overtaken (p : Fin 1) : List (Act 1) :=
  [.addNewRecord .userQuota 7 5, .start p, .check p, .swap p, .addNewRecord .userQuota 7 3, .swap p,
    .swap p, .swap p, .swap p, .swap p, .writeUser p 7, .finish p]

theorem batched_counters_overtaken :
    (run step (init 1 ⟨0, 0, 0, 0, 0, 0⟩) (overtaken 0)).map (·.db.quota 7) = some 5 ∧
    ∃ s, run step (init 1 ⟨0, 0, 0, 0, 0, 0⟩) (overtaken 0) = some s ∧
      s.db.column .userQuota 7 - 0 + (s.stores .userQuota).get 7 + ∑ p, s.held p .userQuota 7 = 5 + 3 := by
  obtain ⟨s, hs⟩ : ∃ s, run step (init 1 ⟨0, 0, 0, 0, 0, 0⟩) (overtaken 0) = some s := ⟨_, rfl⟩
  exact ⟨rfl, s, hs, (batched_counters_lose_nothing _ _ s hs).1 .userQuota 7⟩

end TokenEra.BatchUpdate
