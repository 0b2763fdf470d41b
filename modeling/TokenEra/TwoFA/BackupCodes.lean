import TokenEra.Lib.Run
import TokenEra.Lib.Table
import TokenEra.Lib.Text

/-!
# Recovery codes

`ValidateBackupCode` reads the user's unused codes, finds the first one whose hash matches, and
marks it used by a conditional update. Any number of such calls of one user interleave with
transactions that replace the codes or remove them with the factor, statement by statement, each of
which may fail at any statement.

With `rowLock` the locking read of a transaction locks the factor; without it (SQLite) the first
write of a transaction fails if another one has committed since its read. In both cases one
transaction at a time writes, and the rows that it has deleted are locked until it commits.

`generation` counts the transactions that have committed, and each code has the generation in which
it was stored. A call that is accepted finds its code unused and not deleted, so that no other call
has used the code and no transaction has committed since it was stored: `backup_code_once`.
-/

namespace TokenEra.TwoFA.BackupCodes

open Lib

/-! ### Codes as they are typed -/

def backupCodeLength : Nat := 8

def cleanCode (code : String) : String := toUpper (String.ofList (code.toList.filter (· ≠ '-')))

/-- `common.ValidateBackupCode`: eight letters or digits. -/
def validBackupCode (code : String) : Bool :=
  (cleanCode code).length = backupCodeLength &&
    (cleanCode code).toList.all fun c => ('A' ≤ c && c ≤ 'Z') || ('0' ≤ c && c ≤ '9')

/-- `common.NormalizeBackupCode`. -/
def normalizeBackupCode (code : String) : String :=
  if (cleanCode code).length = backupCodeLength then
    String.ofList ((cleanCode code).toList.take 4) ++ "-" ++ String.ofList ((cleanCode code).toList.drop 4)
  else code

/-! ### Rows and calls -/

structure BackupCode where
  id : Int
  codeHash : String
  isUsed : Bool
  usedAt : Option Int
  deleted : Bool
  generation : Nat
deriving DecidableEq, Repr

structure Factor where
  id : Int
  isEnabled : Bool
deriving DecidableEq, Repr

/-- The transactions. The hashes of new codes are salted, so they are not a function of the codes.
-/
inductive Change
  | replaceBackupCodesWithAuthVersion (hashes : List String)
  | disableTwoFAWithAuthVersion
  | deletePendingTwoFASetup (id : Int)
deriving DecidableEq, Repr

structure Calls (n m : Nat) where
  rowLock : Bool
  validatePasswordAndHash : String → String → Bool
  code : Fin n → String
  change : Fin m → Change

inductive Validation
  | start
  | matched (code : BackupCode)
  /-- It has returned true, for the code; `generation` is that of its update. -/
  | accepted (code : BackupCode) (generation : Nat)
  | refused
  | failed (text : String)
deriving DecidableEq

def Validation.code? : Validation → Option BackupCode
  | .matched bc | .accepted bc _ => some bc
  | _ => none

inductive TxError
  | notEnabled
  | notFound
  | db
deriving DecidableEq, Repr

inductive Transaction
  | start
  | read (factor : Factor) (seen : Nat)
  | claimed (factor : Factor)
  | deleted (factor : Factor)
  | done (result : Except TxError Unit)
deriving DecidableEq

def Transaction.holds (rowLock : Bool) : Transaction → Bool
  | .read .. => rowLock
  | .claimed _ | .deleted _ => true
  | _ => false

def Transaction.hasDeleted : Transaction → Bool
  | .deleted _ => true
  | _ => false

structure State (n m : Nat) where
  factor : Option Factor
  codes : List BackupCode
  generation : Nat
  call : Fin n → Validation
  tx : Fin m → Transaction

inductive Action (n m : Nat)
  | list (i : Fin n)
  | update (i : Fin n) (now : Int)
  | fail (i : Fin n) (text : String)
  | lock (k : Fin m)
  | claim (k : Fin m)
  | delete (k : Fin m)
  /-- The ids are those of the rows inserted before the commit. -/
  | commit (k : Fin m) (ids : List Int)
  | abort (k : Fin m)
deriving DecidableEq

variable {n m : Nat} (c : Calls n m)

def State.setCall (s : State n m) (i : Fin n) (v : Validation) : State n m :=
  { s with call := Function.update s.call i v }

def State.setTx (s : State n m) (k : Fin m) (t : Transaction) : State n m :=
  { s with tx := Function.update s.tx k t }

def init (factor : Option Factor) (codes : List BackupCode) : State n m :=
  ⟨factor, codes, 0, fun _ => .start, fun _ => .start⟩

/-! ### `ValidateBackupCode` -/

def listCodes (s : State n m) (i : Fin n) : Validation :=
  if validBackupCode (c.code i) = false then .failed "验证码或备用码不正确"
  else
    match (s.codes.filter fun x => !x.isUsed && !x.deleted).find? fun x =>
        c.validatePasswordAndHash (normalizeBackupCode (c.code i)) x.codeHash with
    | none => .refused
    | some bc => .matched bc

/-- The row that the conditional update changes, if there is one. -/
def usable (id : Int) (x : BackupCode) : Prop := x.id = id ∧ x.isUsed = false ∧ x.deleted = false

instance (id : Int) : DecidablePred (usable id) := fun x =>
  inferInstanceAs (Decidable (x.id = id ∧ x.isUsed = false ∧ x.deleted = false))

def markUsed (id now : Int) (codes : List BackupCode) : List BackupCode :=
  updateWhere (usable id) (fun x => { x with isUsed := true, usedAt := some now }) codes

/-- The conditional update. A row that a transaction has deleted is locked. -/
def useCode (s : State n m) (i : Fin n) (bc : BackupCode) (now : Int) : Option (State n m) :=
  if ∃ x ∈ s.codes, usable bc.id x then
    if ∃ k, (s.tx k).hasDeleted then none
    else some ({ s with codes := markUsed bc.id now s.codes }.setCall i (.accepted bc s.generation))
  else some (s.setCall i .refused)

/-! ### The transactions -/

def findFactor (factor : Option Factor) : Change → Except TxError Factor
  | .replaceBackupCodesWithAuthVersion _ | .disableTwoFAWithAuthVersion =>
    match factor with
    | some f => if f.isEnabled then .ok f else .error .notEnabled
    | none => .error .notEnabled
  | .deletePendingTwoFASetup id =>
    match factor with
    | some f => if f.id = id ∧ f.isEnabled = false then .ok f else .error .notFound
    | none => .error .notFound

def State.othersHold (s : State n m) (k : Fin m) : Prop := ∃ j, j ≠ k ∧ (s.tx j).holds c.rowLock = true

instance (s : State n m) (k : Fin m) : Decidable (s.othersHold c k) :=
  inferInstanceAs (Decidable (∃ j, j ≠ k ∧ (s.tx j).holds c.rowLock = true))

def lockFactor (s : State n m) (k : Fin m) : Option Transaction :=
  match findFactor s.factor (c.change k) with
  | .error e => some (.done (.error e))
  | .ok f => if c.rowLock ∧ s.othersHold c k then none else some (.read f s.generation)

/-- The first write waits for the other writers, and it fails on a snapshot that is not the last
one. -/
def mayWrite (s : State n m) (k : Fin m) (seen : Nat) : Prop :=
  ¬ s.othersHold c k ∧ (c.rowLock = true ∨ seen = s.generation)

instance (s : State n m) (k : Fin m) (seen : Nat) : Decidable (mayWrite c s k seen) :=
  inferInstanceAs (Decidable (_ ∧ _))

/-- `IncrementUserAuthVersionWithTx`. -/
def claimUser (s : State n m) (k : Fin m) (f : Factor) (seen : Nat) : Option Transaction :=
  match c.change k with
  | .deletePendingTwoFASetup _ => none
  | _ => if mayWrite c s k seen then some (.claimed f) else none

/-- For a pending setup, the delete is the first write. -/
def deleteCodes (s : State n m) (k : Fin m) : Option Transaction :=
  match c.change k, s.tx k with
  | .deletePendingTwoFASetup _, .read f seen => if mayWrite c s k seen then some (.deleted f) else none
  | _, .claimed f => some (.deleted f)
  | _, _ => none

def newCodes (generation : Nat) (ids : List Int) (hashes : List String) : List BackupCode :=
  List.zipWith (fun id hash => ⟨id, hash, false, none, false, generation⟩) ids hashes

def FreshIds (codes : List BackupCode) (ids : List Int) : Prop := ids.Nodup ∧ ∀ x ∈ codes, x.id ∉ ids

instance (codes : List BackupCode) (ids : List Int) : Decidable (FreshIds codes ids) :=
  inferInstanceAs (Decidable (_ ∧ _))

/-- The codes are deleted softly when they are replaced, and for good with the factor. -/
def commitTx (s : State n m) (k : Fin m) (ids : List Int) : Option (State n m) :=
  match c.change k with
  | .replaceBackupCodesWithAuthVersion hashes =>
    if FreshIds s.codes ids ∧ ids.length = hashes.length then
      some
        { s.setTx k (.done (.ok ())) with
          codes := s.codes.map (fun x => { x with deleted := true }) ++ newCodes (s.generation + 1) ids hashes
          generation := s.generation + 1 }
    else none
  | _ => some { s.setTx k (.done (.ok ())) with factor := none, codes := [], generation := s.generation + 1 }

def step (s : State n m) : Action n m → Option (State n m)
  | .list i => if s.call i = .start then some (s.setCall i (listCodes c s i)) else none
  | .update i now =>
    match s.call i with
    | .matched bc => useCode s i bc now
    | _ => none
  | .fail i text =>
    match s.call i with
    | .start | .matched _ => some (s.setCall i (.failed text))
    | _ => none
  | .lock k => if s.tx k = .start then (lockFactor c s k).map (s.setTx k) else none
  | .claim k =>
    match s.tx k with
    | .read f seen => (claimUser c s k f seen).map (s.setTx k)
    | _ => none
  | .delete k => (deleteCodes c s k).map (s.setTx k)
  | .commit k ids =>
    match s.tx k with
    | .deleted _ => commitTx c s k ids
    | _ => none
  | .abort k =>
    match s.tx k with
    | .done _ => none
    | _ => some (s.setTx k (.done (.error .db)))

/-! ### Use once, and only while current -/

/-- No code is accepted twice, and a code is accepted only in the generation in which it was stored.
-/
structure CodesOnce (s : State n m) : Prop where
  once : ∀ i j bc bc' g g', s.call i = .accepted bc g → s.call j = .accepted bc' g' → bc.id = bc'.id → i = j
  current : ∀ i bc g, s.call i = .accepted bc g → bc.generation = g

def TxOk (rowLock : Bool) (factor : Option Factor) (generation : Nat) : Transaction → Prop
  | .read f seen => seen ≤ generation ∧ (rowLock = true ∨ seen = generation → factor = some f)
  | .claimed f | .deleted f => factor = some f
  | _ => True

/-- One transaction at a time keeps the others from writing. -/
def Apart (rowLock : Bool) (p q : Transaction) : Prop := ¬ (p.holds rowLock = true ∧ q.holds rowLock = true)

structure Inv (c : Calls n m) (s : State n m) : Prop extends CodesOnce s where
  ids : (s.codes.map BackupCode.id).Nodup
  live : ∀ x ∈ s.codes, x.deleted = false → x.generation = s.generation
  /-- A row with the id of a code that was found is the row of that code. -/
  same : ∀ i bc, (s.call i).code? = some bc → ∀ x ∈ s.codes, x.id = bc.id → x.generation = bc.generation
  /-- While there is a factor, which new codes need, the rows of the codes that were found are
  there. -/
  kept : s.factor ≠ none → ∀ i bc, (s.call i).code? = some bc → ∃ x ∈ s.codes, x.id = bc.id
  used : ∀ i bc g, s.call i = .accepted bc g → ∀ x ∈ s.codes, x.id = bc.id → x.deleted = false → x.isUsed = true
  txs : ∀ k, TxOk c.rowLock s.factor s.generation (s.tx k)
  apart : ∀ j k, j ≠ k → Apart c.rowLock (s.tx j) (s.tx k)

variable {c}

variable {codes : List BackupCode} {s s' : State n m} {x : BackupCode} {k : Fin m} {t : Transaction}
  {f : Factor} {g : Nat}
  {hashes : List String} {ids : List Int}

theorem inv_init (c : Calls n m) (factor : Option Factor)
    (hids : (codes.map BackupCode.id).Nodup) (hgen : ∀ x ∈ codes, x.generation = 0) : Inv c (init factor codes) where
  once := by intro i j bc bc' g g' hi; cases hi
  current := by intro i bc g hi; cases hi
  ids := hids
  live x hx _ := hgen x hx
  same := by intro i bc hi; cases hi
  kept := by intro _ i bc hi; cases hi
  used := by intro i bc g hi; cases hi
  txs _ := trivial
  apart _ _ _ h := by cases h.1

/-! #### Calls -/

/-- A call moves on without being accepted; the code that it has found, if any, is in the table. -/
theorem Inv.setCall (h : Inv c s) {i : Fin n} {v : Validation}
    (hacc : ∀ bc g, v ≠ .accepted bc g) (hv : ∀ bc, v.code? = some bc → bc ∈ s.codes) : Inv c (s.setCall i v) := by
  -- what was accepted after the step was accepted before it
  have hold := (Function.forall_update_iff (a := i) (b := v) s.call
    fun j w => ∀ bc g, w = .accepted bc g → s.call j = .accepted bc g).2
    ⟨fun bc g hv => absurd hv (hacc bc g), fun _ _ _ _ hj => hj⟩
  have hcode := (Function.forall_update_iff (a := i) (b := v) s.call
    fun j w => ∀ bc, w.code? = some bc → (s.call j).code? = some bc ∨ bc ∈ s.codes).2
    ⟨fun bc hbc => .inr (hv bc hbc), fun _ _ _ hj => .inl hj⟩
  refine ⟨⟨?_, ?_⟩, h.ids, h.live, ?_, ?_, ?_, h.txs, h.apart⟩
  · intro j k bc bc' g g' hj hk
    exact h.once j k bc bc' g g' (hold j bc g hj) (hold k bc' g' hk)
  · intro j bc g hj
    exact h.current j bc g (hold j bc g hj)
  · intro j bc hj x hx hid
    rcases hcode j bc hj with hj | hbc
    · exact h.same j bc hj x hx hid
    · rw [List.inj_on_of_nodup_map h.ids hx hbc hid]
  · intro hf j bc hj
    rcases hcode j bc hj with hj | hbc
    · exact h.kept hf j bc hj
    · exact ⟨bc, hbc, rfl⟩
  · intro j bc g hj
    exact h.used j bc g (hold j bc g hj)

theorem Inv.listCodes (h : Inv c s) (i : Fin n) : Inv c (s.setCall i (listCodes c s i)) := by
  unfold BackupCodes.listCodes
  split_ifs
  · exact h.setCall nofun nofun
  · split
    · exact h.setCall nofun nofun
    · rename_i bc hbc
      refine h.setCall nofun fun x hx => ?_
      cases hx
      exact List.mem_of_mem_filter (List.mem_of_find?_eq_some hbc)

theorem mem_markUsed {id now : Int} (h : x ∈ markUsed id now codes) :
    ∃ y ∈ codes, x.id = y.id ∧ x.generation = y.generation ∧ x.deleted = y.deleted ∧
      (y.isUsed = true → x.isUsed = true) ∧ (y.id = id → y.deleted = false → x.isUsed = true) := by
  obtain ⟨y, hy, ⟨-, rfl⟩ | ⟨hno, rfl⟩⟩ := mem_updateWhere h
  · exact ⟨y, hy, rfl, rfl, rfl, fun _ => rfl, fun _ _ => rfl⟩
  · refine ⟨x, hy, rfl, rfl, rfl, fun hused => hused, fun hid hlive => ?_⟩
    by_contra hunused
    exact hno ⟨hid, by simpa using hunused, hlive⟩

theorem map_id_markUsed (id now : Int) :
    (markUsed id now codes).map BackupCode.id = codes.map BackupCode.id :=
  map_updateWhere (w := usable id) (f := fun x => { x with isUsed := true, usedAt := some now }) (fun _ => rfl) codes

theorem Inv.useCode (h : Inv c s) {i : Fin n} {bc : BackupCode} {now : Int}
    (hi : s.call i = .matched bc) (hs : useCode s i bc now = some s') : Inv c s' := by
  unfold BackupCodes.useCode at hs
  split_ifs at hs with hrow hlocked
  · cases hs
    obtain ⟨x, hx, hid, hunused, hlive⟩ := hrow
    have hcode := (Function.forall_update_iff (a := i) (b := .accepted bc s.generation) s.call
      fun j w => ∀ bc', w.code? = some bc' → (s.call j).code? = some bc').2
      ⟨fun _ hbc => hi ▸ hbc, fun _ _ _ hj => hj⟩
    -- a code that is accepted is this one, or it was accepted before
    have hacc : ∀ j bc' g, Function.update s.call i (.accepted bc s.generation) j = .accepted bc' g →
        (j = i ∧ bc' = bc ∧ g = s.generation) ∨ (j ≠ i ∧ s.call j = .accepted bc' g) := by
      intro j bc' g hj
      by_cases hji : j = i
      · subst hji
        rw [Function.update_self] at hj
        cases hj
        exact .inl ⟨rfl, rfl, rfl⟩
      · rw [Function.update_of_ne hji] at hj
        exact .inr ⟨hji, hj⟩
    have hnew : ∀ j bc' g, s.call j = .accepted bc' g → bc'.id ≠ bc.id := by
      intro j bc' g hj hsame
      have hused := h.used j bc' g hj x hx (hid.trans hsame.symm) hlive
      rw [hunused] at hused
      cases hused
    refine ⟨⟨?_, ?_⟩, ?_, ?_, ?_, ?_, ?_, h.txs, h.apart⟩
    · intro j k b b' g g' hj hk hsame
      rcases hacc j b g hj with ⟨hji, hb, -⟩ | ⟨-, hj⟩
      · rcases hacc k b' g' hk with ⟨hki, -, -⟩ | ⟨-, hk⟩
        · rw [hji, hki]
        · exact absurd (hsame.symm.trans (congrArg _ hb)) (hnew k b' g' hk)
      · rcases hacc k b' g' hk with ⟨-, hb, -⟩ | ⟨-, hk⟩
        · exact absurd (hsame.trans (congrArg _ hb)) (hnew j b g hj)
        · exact h.once j k b b' g g' hj hk hsame
    · intro j b g hj
      rcases hacc j b g hj with ⟨rfl, rfl, rfl⟩ | ⟨-, hj⟩
      · rw [← h.same j b (by rw [hi]; rfl) x hx hid]
        exact h.live x hx hlive
      · exact h.current j b g hj
    · show ((markUsed bc.id now s.codes).map BackupCode.id).Nodup
      rw [map_id_markUsed]
      exact h.ids
    · intro y hy hylive
      obtain ⟨z, hz, -, hgen, hdel, -⟩ := mem_markUsed hy
      rw [hgen]
      exact h.live z hz (hdel ▸ hylive)
    · intro j b hj y hy hyid
      obtain ⟨z, hz, hzid, hgen, -⟩ := mem_markUsed hy
      rw [hgen]
      exact h.same j b (hcode j b hj) z hz (hzid ▸ hyid)
    · intro hf j b hj
      obtain ⟨z, hz, hzid⟩ := h.kept hf j b (hcode j b hj)
      have hmem : z.id ∈ (markUsed bc.id now s.codes).map BackupCode.id := by
        rw [map_id_markUsed]
        exact List.mem_map_of_mem hz
      obtain ⟨y, hy, hyid⟩ := List.mem_map.1 hmem
      exact ⟨y, hy, hyid.trans hzid⟩
    · intro j b g hj y hy hyid hylive
      obtain ⟨z, hz, hzid, -, hdel, hkeep, hmark⟩ := mem_markUsed hy
      rcases hacc j b g hj with ⟨rfl, rfl, -⟩ | ⟨-, hj⟩
      · exact hmark (hzid ▸ hyid) (hdel ▸ hylive)
      · exact hkeep (h.used j b g hj z hz (hzid ▸ hyid) (hdel ▸ hylive))
  · cases hs
    exact h.setCall nofun nofun

/-! #### Transactions -/

/-- A transaction moves on; it may keep the others from writing if none of them does. -/
theorem Inv.setTx (h : Inv c s)
    (hok : TxOk c.rowLock s.factor s.generation t) (ht : t.holds c.rowLock = true → ¬ s.othersHold c k) :
    Inv c (s.setTx k t) := by
  refine ⟨⟨h.once, h.current⟩, h.ids, h.live, h.same, h.kept, h.used, ?_, ?_⟩
  · exact (Function.forall_update_iff s.tx fun _ => TxOk c.rowLock s.factor s.generation).2
      ⟨hok, fun j _ => h.txs j⟩
  · have hone : OneInside (Transaction.holds c.rowLock) s.tx := h.apart
    refine hone.update fun hholds j hj => ?_
    by_contra hheld
    exact ht hholds ⟨j, hj, by simpa using hheld⟩

theorem Inv.not_othersHold (h : Inv c s) (hk : (s.tx k).holds c.rowLock = true) :
    ¬ s.othersHold c k := by
  rintro ⟨j, hj, hholds⟩
  exact h.apart j k hj ⟨hholds, hk⟩

theorem findFactor_ok {factor : Option Factor} {change : Change}
    (h : findFactor factor change = .ok f) : factor = some f := by
  cases factor with
  | none => cases change <;> cases h
  | some f' =>
    cases change <;> simp only [findFactor] at h <;> split_ifs at h <;> cases h <;> rfl

theorem Inv.lockFactor (h : Inv c s) (ht : lockFactor c s k = some t) : Inv c (s.setTx k t) := by
  unfold BackupCodes.lockFactor at ht
  split at ht
  · cases ht
    exact h.setTx trivial nofun
  · rename_i f hf
    split_ifs at ht with hwait
    cases ht
    refine h.setTx ⟨le_rfl, fun _ => findFactor_ok hf⟩ fun hlock hothers => hwait ⟨?_, hothers⟩
    exact hlock

/-- The first write finds the factor that the transaction has read. -/
theorem Inv.firstWrite (h : Inv c s) {seen : Nat}
    (hk : s.tx k = .read f seen) (hw : mayWrite c s k seen) : s.factor = some f := by
  have hok := h.txs k
  rw [hk] at hok
  exact hok.2 hw.2

theorem Inv.claimUser (h : Inv c s) {seen : Nat}
    (hk : s.tx k = .read f seen) (ht : claimUser c s k f seen = some t) : Inv c (s.setTx k t) := by
  have hclaim : ∀ hw : mayWrite c s k seen, t = .claimed f → Inv c (s.setTx k t) := by
    rintro hw rfl
    exact h.setTx (h.firstWrite hk hw) fun _ => hw.1
  unfold BackupCodes.claimUser at ht
  split at ht
  · cases ht
  · split_ifs at ht with hw
    exact hclaim hw (Option.some.inj ht).symm

theorem Inv.deleteCodes (h : Inv c s) (ht : deleteCodes c s k = some t) : Inv c (s.setTx k t) := by
  unfold BackupCodes.deleteCodes at ht
  split at ht
  · rename_i f seen _ hk
    split_ifs at ht with hw
    cases ht
    exact h.setTx (h.firstWrite hk hw) fun _ => hw.1
  · rename_i f _ hk
    cases ht
    have hok := h.txs k
    rw [hk] at hok
    exact h.setTx hok fun _ => h.not_othersHold (by rw [hk]; rfl)
  · cases ht

/-- After a commit, the other transactions have read an old generation or nothing. -/
theorem Inv.txs_commit (h : Inv c s) (hk : (s.tx k).holds c.rowLock = true)
    (factor : Option Factor) (r : Except TxError Unit) (j : Fin m) :
    TxOk c.rowLock factor (s.generation + 1) (Function.update s.tx k (.done r) j) := by
  by_cases hj : j = k
  · subst hj
    rw [Function.update_self]
    trivial
  · rw [Function.update_of_ne hj]
    have hfree : (s.tx j).holds c.rowLock ≠ true := fun hholds => h.apart j k hj ⟨hholds, hk⟩
    have hok := h.txs j
    cases ht : s.tx j with
    | start => trivial
    | done => trivial
    | claimed => exact absurd (by rw [ht]; rfl) hfree
    | deleted => exact absurd (by rw [ht]; rfl) hfree
    | read f seen =>
      rw [ht] at hok hfree
      have hle : seen ≤ s.generation := hok.1
      refine ⟨by omega, ?_⟩
      rintro (hlock | hseen)
      · exact absurd hlock hfree
      · omega

theorem Inv.apart_commit (h : Inv c s) (k : Fin m) (r : Except TxError Unit) (i j : Fin m)
    (hij : i ≠ j) :
    Apart c.rowLock (Function.update s.tx k (.done r) i) (Function.update s.tx k (.done r) j) := by
  have hone : OneInside (Transaction.holds c.rowLock) s.tx := h.apart
  exact hone.update (fun hholds => by cases hholds) i j hij

theorem mem_newCodes
    (h : x ∈ newCodes g ids hashes) : x.id ∈ ids ∧ x.generation = g ∧ x.isUsed = false := by
  induction ids generalizing hashes with
  | nil => cases h
  | cons id ids ih =>
    cases hashes with
    | nil => cases h
    | cons hash hashes =>
      rcases List.mem_cons.1 h with rfl | h
      · exact ⟨List.mem_cons_self, rfl, rfl⟩
      · obtain ⟨hid, hrest⟩ := ih h
        exact ⟨List.mem_cons_of_mem _ hid, hrest⟩

theorem map_id_newCodes (h : ids.length = hashes.length) :
    (newCodes g ids hashes).map BackupCode.id = ids := by
  induction ids generalizing hashes with
  | nil => rfl
  | cons id ids ih =>
    cases hashes with
    | nil => cases h
    | cons hash hashes => exact congrArg (id :: ·) (ih (Nat.succ.inj h))

/-- A row after the codes are replaced is an old one, which is deleted, or a new one. -/
theorem mem_replaced
    (h : x ∈ codes.map (fun x => { x with deleted := true }) ++ newCodes g ids hashes) :
    (∃ y ∈ codes, x = { y with deleted := true }) ∨ (x.id ∈ ids ∧ x.generation = g) := by
  rcases List.mem_append.1 h with h | h
  · obtain ⟨y, hy, rfl⟩ := List.mem_map.1 h
    exact .inl ⟨y, hy, rfl⟩
  · obtain ⟨hid, hgen, -⟩ := mem_newCodes h
    exact .inr ⟨hid, hgen⟩

theorem Inv.replace (h : Inv c s)
    (hk : s.tx k = .deleted f) (hids : FreshIds s.codes ids) (hlen : ids.length = hashes.length) :
    Inv c
      { s.setTx k (.done (.ok ())) with
        codes := s.codes.map (fun x => { x with deleted := true }) ++ newCodes (s.generation + 1) ids hashes
        generation := s.generation + 1 } := by
  have hholds : (s.tx k).holds c.rowLock = true := by rw [hk]; rfl
  have hfactor : s.factor = some f := by
    have hok := h.txs k
    rwa [hk] at hok
  -- the codes that calls have found have rows, so their ids are not given to new rows
  have hfresh : ∀ i bc, (s.call i).code? = some bc → bc.id ∉ ids := by
    intro i bc hi
    obtain ⟨x, hx, hid⟩ := h.kept (by rw [hfactor]; exact nofun) i bc hi
    rw [← hid]
    exact hids.2 x hx
  refine ⟨⟨h.once, h.current⟩, ?_, ?_, ?_, ?_, ?_, ?_, ?_⟩
  · rw [List.map_append, map_id_newCodes hlen, List.map_map]
    refine List.nodup_append.2 ⟨h.ids, hids.1, ?_⟩
    rintro id hid id' hid' rfl
    obtain ⟨x, hx, rfl⟩ := List.mem_map.1 hid
    exact hids.2 x hx hid'
  · intro x hx hlive
    rcases mem_replaced hx with ⟨y, -, rfl⟩ | ⟨-, hgen⟩
    · cases hlive
    · exact hgen
  · intro i bc hi x hx hid
    rcases mem_replaced hx with ⟨y, hy, rfl⟩ | ⟨hnew, -⟩
    · exact h.same i bc hi y hy hid
    · exact absurd (hid ▸ hnew) (hfresh i bc hi)
  · intro hf i bc hi
    obtain ⟨x, hx, hid⟩ := h.kept hf i bc hi
    exact ⟨{ x with deleted := true }, List.mem_append_left _ (List.mem_map_of_mem hx), hid⟩
  · intro i bc g hi x hx hid hlive
    rcases mem_replaced hx with ⟨y, -, rfl⟩ | ⟨hnew, -⟩
    · cases hlive
    · have hi : s.call i = .accepted bc g := hi
      exact absurd (hid ▸ hnew) (hfresh i bc (by rw [hi]; rfl))
  · exact h.txs_commit hholds s.factor (.ok ())
  · exact h.apart_commit k (.ok ())

theorem Inv.remove (h : Inv c s) (hk : s.tx k = .deleted f) :
    Inv c { s.setTx k (.done (.ok ())) with factor := none, codes := [], generation := s.generation + 1 } := by
  have hholds : (s.tx k).holds c.rowLock = true := by rw [hk]; rfl
  refine ⟨⟨h.once, h.current⟩, List.nodup_nil, nofun, ?_, ?_, ?_, ?_, ?_⟩
  · intro i bc hi x hx
    cases hx
  · intro hf
    exact absurd rfl hf
  · intro i bc g hi x hx
    cases hx
  · exact h.txs_commit hholds none (.ok ())
  · exact h.apart_commit k (.ok ())

theorem Inv.commitTx (h : Inv c s)
    (hk : s.tx k = .deleted f) (hs : commitTx c s k ids = some s') : Inv c s' := by
  unfold BackupCodes.commitTx at hs
  split at hs
  · rename_i hashes _
    split_ifs at hs with hguard
    cases hs
    exact h.replace hk hguard.1 hguard.2
  · cases hs
    exact h.remove hk

/-! #### Runs -/

theorem Inv.step {a : Action n m} (h : Inv c s) (hstep : step c s a = some s') : Inv c s' := by
  cases a with simp only [BackupCodes.step] at hstep
  | list i =>
    split_ifs at hstep
    cases hstep
    exact h.listCodes i
  | update i now =>
    split at hstep
    · rename_i bc hi
      exact h.useCode hi hstep
    · cases hstep
  | fail i text =>
    split at hstep <;> cases hstep
    · exact h.setCall nofun nofun
    · exact h.setCall nofun nofun
  | lock k =>
    split_ifs at hstep
    obtain ⟨t, ht, rfl⟩ := Option.map_eq_some_iff.1 hstep
    exact h.lockFactor ht
  | claim k =>
    split at hstep
    · rename_i f seen hk
      obtain ⟨t, ht, rfl⟩ := Option.map_eq_some_iff.1 hstep
      exact h.claimUser hk ht
    · cases hstep
  | delete k =>
    obtain ⟨t, ht, rfl⟩ := Option.map_eq_some_iff.1 hstep
    exact h.deleteCodes ht
  | commit k ids =>
    split at hstep
    · rename_i f hk
      exact h.commitTx hk hstep
    · cases hstep
  | abort k =>
    split at hstep <;> cases hstep
    · exact h.setTx trivial nofun

/-- However calls of `ValidateBackupCode` and transactions that replace or remove the codes
interleave, a stored code makes one call at most return true, and only if no such transaction has
committed between the moment the code was stored and the update of that call. -/
theorem backup_code_once (c : Calls n m) (factor : Option Factor) (codes : List BackupCode)
    (hids : (codes.map BackupCode.id).Nodup) (hgen : ∀ x ∈ codes, x.generation = 0) (l : List (Action n m))
    (s : State n m) (hrun : run (step c) (init factor codes) l = some s) : CodesOnce s :=
  (run_inv (fun _ _ _ h hstep => h.step hstep) (inv_init c factor hids hgen) hrun).toCodesOnce

def twoCodes : List BackupCode := [⟨1, "a", false, none, false, 0⟩, ⟨2, "b", false, none, false, 0⟩]

def replacing : Calls 3 1 where
  rowLock := true
  validatePasswordAndHash code hash := (code, hash) ∈ [("ABCD-EFGH", "a"), ("IJKL-MNOP", "b")]
  code := !["abcd-efgh", "abcd-efgh", "ijkl-mnop"]
  change _ := .replaceBackupCodesWithAuthVersion ["c"]

/-- Two calls find one code; the first one uses it, and the second one comes too late. The third
call finds the other code, which nobody uses, and comes after the codes have been replaced. -/
def threeReaders (i j k : Fin 3) (tx : Fin 1) : List (Action 3 1) :=
  [.list i, .list j, .list k, .update i 10, .update j 11, .lock tx, .claim tx, .delete tx, .commit tx [3], .update k 12]

theorem backup_code_once_three_readers :
    ∃ s, run (step replacing) (init (some ⟨1, true⟩) twoCodes) (threeReaders 0 1 2 0) = some s ∧
      (∃ bc g, s.call 0 = .accepted bc g) ∧ s.call 1 = .refused ∧ s.call 2 = .refused ∧ CodesOnce s := by
  obtain ⟨s, hs, h⟩ : ∃ s, run (step replacing) (init (some ⟨1, true⟩) twoCodes) (threeReaders 0 1 2 0) = some s ∧
      s.call 0 = .accepted ⟨1, "a", false, none, false, 0⟩ 0 ∧ s.call 1 = .refused ∧ s.call 2 = .refused :=
    ⟨_, rfl, by decide +kernel⟩
  exact ⟨s, hs, ⟨_, _, h.1⟩, h.2.1, h.2.2, backup_code_once _ _ _ (by decide) (by decide) _ s hs⟩

end TokenEra.TwoFA.BackupCodes
