import TokenEra.Lib.Run
import TokenEra.Lib.Table

/-!
# Redeeming codes

Any number of `Redeem` transactions, interleaved statement by statement, each of which may abort at
any statement. With `rowLock` the row of the code is locked from the first read on; without it
(SQLite) only a statement that writes a row locks it, and two transactions may both have read the
code as enabled.

The status is swapped by a conditional update, so that of two such transactions one swaps; the
credit is committed together with the swap. So a code is used exactly when one call has been
credited with its quota (`redeemed_once`).
-/

namespace TokenEra.Redemptions

open Lib

inductive RedemptionCodeStatus
  | enabled
  | disabled
  | used
  | other (code : Int)
deriving DecidableEq, Repr

structure Redemption where
  id : Int
  userId : Int
  key : String
  status : RedemptionCodeStatus
  name : String
  quota : Int
  createdTime : Int
  redeemedTime : Int
  usedUserId : Int
  /-- `0` for a code that does not expire. -/
  expiredTime : Int
deriving DecidableEq, Repr

def Redemption.markUsed (r : Redemption) (now userId : Int) : Redemption :=
  { r with redeemedTime := now, status := .used, usedUserId := userId }

/-- The table, with its primary key and the unique index on the key. -/
structure Codes where
  rows : List Redemption
  ids : (rows.map Redemption.id).Nodup
  keys : (rows.map Redemption.key).Nodup

def markRow (id now userId : Int) (rows : List Redemption) : List Redemption :=
  updateWhere (fun r => r.id = id) (fun r => r.markUsed now userId) rows

theorem map_markRow {C : Type*} (g : Redemption → C) (id now userId : Int)
    (hg : ∀ r : Redemption, g (r.markUsed now userId) = g r) (rows : List Redemption) :
    (markRow id now userId rows).map g = rows.map g :=
  map_updateWhere (w := fun r : Redemption => r.id = id) hg rows

def Codes.markUsed (codes : Codes) (id now userId : Int) : Codes where
  rows := markRow id now userId codes.rows
  ids := by
    rw [map_markRow _ _ _ _ fun _ => rfl]
    exact codes.ids
  keys := by
    rw [map_markRow _ _ _ _ fun _ => rfl]
    exact codes.keys

inductive RedeemError
  | keyMissing
  | userIdInvalid
  /-- Every error of the transaction is reported as this one. -/
  | redeemFailed
deriving DecidableEq, Repr

structure Calls (n : Nat) where
  rowLock : Bool
  key : Fin n → String
  userId : Fin n → Int

inductive Phase
  | start
  | read (redemption : Redemption)
  | swapped (redemption : Redemption) (now : Int)
  | credited (redemption : Redemption) (now : Int)
  | done (result : Except RedeemError Int)
deriving DecidableEq

def Phase.written : Phase → Option Redemption
  | .swapped r _ | .credited r _ => some r
  | _ => none

def Phase.locked (rowLock : Bool) : Phase → Option Int
  | .read r => if rowLock then some r.id else none
  | .swapped r _ | .credited r _ => some r.id
  | _ => none

def Phase.isCredited : Phase → Bool
  | .credited .. => true
  | _ => false

structure State (n : Nat) where
  codes : Codes
  quota : Int → Int
  phase : Fin n → Phase

/-- A transaction runs its next statement, with the clock it reads, or it fails and is rolled back.
-/
inductive Action (n : Nat)
  | advance (i : Fin n) (now : Int)
  | abort (i : Fin n)
deriving DecidableEq

variable {n : Nat} (c : Calls n)

def State.set (s : State n) (i : Fin n) (q : Phase) : State n :=
  { s with phase := Function.update s.phase i q }

def init (codes : Codes) (quota : Int → Int) : State n := ⟨codes, quota, fun _ => .start⟩

def State.isLocked (s : State n) (i : Fin n) (id : Int) : Prop :=
  ∃ j, j ≠ i ∧ (s.phase j).locked c.rowLock = some id

instance (s : State n) (i : Fin n) (id : Int) : Decidable (s.isLocked c i id) :=
  inferInstanceAs (Decidable (∃ j, j ≠ i ∧ (s.phase j).locked c.rowLock = some id))

def readCode (s : State n) (i : Fin n) (now : Int) : Option Phase :=
  if c.key i = "" then some (.done (.error .keyMissing))
  else if c.userId i = 0 then some (.done (.error .userIdInvalid))
  else
    match findRow Redemption.key (c.key i) s.codes.rows with
    | none => some (.done (.error .redeemFailed))
    | some r =>
      if c.rowLock ∧ s.isLocked c i r.id then none
      else if r.status ≠ .enabled then some (.done (.error .redeemFailed))
      else if r.expiredTime ≠ 0 ∧ r.expiredTime < now then some (.done (.error .redeemFailed))
      else some (.read r)

/-- The conditional update of the status: it waits for the row. -/
def swapStatus (s : State n) (i : Fin n) (r : Redemption) (now : Int) : Option Phase :=
  if s.isLocked c i r.id then none
  else if ∃ x ∈ s.codes.rows, x.id = r.id ∧ x.status = .enabled then some (.swapped r now)
  else some (.done (.error .redeemFailed))

/-- The update of the quota: it waits for the row of the user. -/
def creditUser (s : State n) (i : Fin n) (r : Redemption) (now : Int) : Option Phase :=
  if ∃ j, j ≠ i ∧ (s.phase j).isCredited ∧ c.userId j = c.userId i then none
  else some (.credited r now)

def State.commit (s : State n) (i : Fin n) (r : Redemption) (now : Int) : State n where
  codes := s.codes.markUsed r.id now (c.userId i)
  quota := Function.update s.quota (c.userId i) (s.quota (c.userId i) + r.quota)
  phase := Function.update s.phase i (.done (.ok r.quota))

def step (s : State n) : Action n → Option (State n)
  | .advance i now =>
    match s.phase i with
    | .start => (readCode c s i now).map (s.set i)
    | .read r => (swapStatus c s i r now).map (s.set i)
    | .swapped r t => (creditUser c s i r t).map (s.set i)
    | .credited r t => some (s.commit c i r t)
    | .done _ => none
  | .abort i =>
    match s.phase i with
    | .done _ => none
    | _ => some (s.set i (.done (.error .redeemFailed)))

/-! ### What a run does to a code -/

def Redeems (s : State n) (i : Fin n) (r₀ : Redemption) : Prop :=
  c.key i = r₀.key ∧ ∃ q, s.phase i = .done (.ok q)

def State.credit (s : State n) (i : Fin n) (u : Int) : Int :=
  match s.phase i with
  | .done (.ok q) => if c.userId i = u then q else 0
  | _ => 0

/-- The row `r` of a code that was `r₀`: at most one call has redeemed it, the row says by whom, and
otherwise it is as it was. -/
structure CodeOnce (s : State n) (r₀ r : Redemption) : Prop where
  once : ∀ i j, Redeems c s i r₀ → Redeems c s j r₀ → i = j
  used_iff : (∃ i, Redeems c s i r₀) ↔ r.status = .used ∧ r₀.status ≠ .used
  winner : ∀ i, Redeems c s i r₀ → s.phase i = .done (.ok r₀.quota) ∧ ∃ now, r = r₀.markUsed now (c.userId i)
  untouched : (∀ i, ¬ Redeems c s i r₀) → r = r₀

/-- Every code is credited once. A code that was used before the run is credited to nobody in it. -/
structure CreditedOnce (codes₀ : Codes) (quota₀ : Int → Int) (s : State n) : Prop where
  ids : s.codes.rows.map Redemption.id = codes₀.rows.map Redemption.id
  row : ∀ r₀ ∈ codes₀.rows, ∃ r ∈ s.codes.rows, r.id = r₀.id ∧ CodeOnce c s r₀ r
  of_code : ∀ i q, s.phase i = .done (.ok q) → ∃ r₀ ∈ codes₀.rows, Redeems c s i r₀
  quota : ∀ u, s.quota u = quota₀ u + ∑ i, s.credit c i u

variable {c} {codes₀ : Codes} {quota₀ : Int → Int}

variable {r : Redemption} {i : Fin n} {q : Phase} {s : State n} {t : Int}

theorem Codes.eq_of_id (codes : Codes) {x : Redemption} (hr : r ∈ codes.rows) (hx : x ∈ codes.rows)
    (h : r.id = x.id) : r = x :=
  List.inj_on_of_nodup_map codes.ids hr hx h

/-- What holds of a transaction: it has read an enabled code of the table, and the row that it has
written is still that code to everybody else. -/
def PhaseOk (codes₀ codes : Codes) (key : String) : Phase → Prop
  | .read r => r ∈ codes₀.rows ∧ r.key = key
  | .swapped r _ | .credited r _ => r ∈ codes₀.rows ∧ r.key = key ∧ r ∈ codes.rows ∧ r.status = .enabled
  | _ => True

def Apart (p q : Phase) : Prop := ∀ r x, p.written = some r → q.written = some x → r.id ≠ x.id

structure Inv (c : Calls n) (codes₀ : Codes) (quota₀ : Int → Int) (s : State n) : Prop
    extends CreditedOnce c codes₀ quota₀ s where
  phases : ∀ i, PhaseOk codes₀ s.codes (c.key i) (s.phase i)
  apart : ∀ i j, i ≠ j → Apart (s.phase i) (s.phase j)

theorem inv_init (c : Calls n) (quota₀ : Int → Int) : Inv c codes₀ quota₀ (init codes₀ quota₀) where
  ids := rfl
  row r hr := ⟨r, hr, rfl, {
    once := by rintro i j ⟨-, q, hq⟩; cases hq
    used_iff := ⟨fun ⟨_, _, _, hq⟩ => (by cases hq), fun h => absurd h.1 h.2⟩
    winner := by rintro i ⟨-, q, hq⟩; cases hq
    untouched := fun _ => rfl }⟩
  of_code := by intro i q hq; cases hq
  quota u := by simp [init, State.credit]
  phases _ := trivial
  apart _ _ _ := by intro r x hr; cases hr

/-! ### Steps that commit nothing -/

def Phase.succeeded : Phase → Bool
  | .done (.ok _) => true
  | _ => false

variable {j : Fin n}

theorem ok_set_iff (hi : (s.phase i).succeeded = false) (hq : q.succeeded = false) (p : Int) :
    (s.set i q).phase j = .done (.ok p) ↔ s.phase j = .done (.ok p) := by
  by_cases hj : j = i
  · subst hj
    have hnot : ∀ {x : Phase}, x.succeeded = false → x ≠ .done (.ok p) := by
      rintro x hx rfl
      cases hx
    simp only [State.set, Function.update_self]
    exact iff_of_false (hnot hq) (hnot hi)
  · simp only [State.set, Function.update_of_ne hj]

theorem redeems_set (hi : (s.phase i).succeeded = false)
    (hq : q.succeeded = false) : Redeems c (s.set i q) j r ↔ Redeems c s j r :=
  and_congr_right fun _ => exists_congr fun p => ok_set_iff hi hq p

variable {u : Int}

theorem credit_of_not_succeeded (h : (s.phase i).succeeded = false) :
    s.credit c i u = 0 := by
  unfold State.credit
  split
  · rename_i q hq
    rw [hq] at h
    cases h
  · rfl

theorem credit_set (hi : (s.phase i).succeeded = false)
    (hq : q.succeeded = false) : (s.set i q).credit c j u = s.credit c j u := by
  by_cases hj : j = i
  · subst hj
    rw [credit_of_not_succeeded hi, credit_of_not_succeeded (by simpa [State.set] using hq)]
  · simp only [State.credit, State.set, Function.update_of_ne hj]

theorem Inv.set (h : Inv c codes₀ quota₀ s)
    (hi : (s.phase i).succeeded = false) (hq : q.succeeded = false) (hok : PhaseOk codes₀ s.codes (c.key i) q)
    (hapart : ∀ j, j ≠ i → Apart q (s.phase j)) : Inv c codes₀ quota₀ (s.set i q) where
  ids := h.ids
  row r₀ hr₀ := by
    obtain ⟨r, hr, hid, hone⟩ := h.row r₀ hr₀
    refine ⟨r, hr, hid, ?_, ?_, ?_, ?_⟩
    · intro j k hj hk
      exact hone.once j k ((redeems_set hi hq).1 hj) ((redeems_set hi hq).1 hk)
    · rw [← hone.used_iff]
      exact exists_congr fun j => redeems_set hi hq
    · intro j hj
      obtain ⟨hok, hrow⟩ := hone.winner j ((redeems_set hi hq).1 hj)
      exact ⟨(ok_set_iff hi hq _).2 hok, hrow⟩
    · intro hnone
      exact hone.untouched fun j hj => hnone j ((redeems_set hi hq).2 hj)
  of_code j p hp := by
    obtain ⟨r₀, hr₀, hred⟩ := h.of_code j p ((ok_set_iff hi hq p).1 hp)
    exact ⟨r₀, hr₀, (redeems_set hi hq).2 hred⟩
  quota u := by
    show s.quota u = _
    rw [h.quota u]
    simp only [credit_set hi hq]
  phases := (Function.forall_update_iff s.phase (p := fun j => PhaseOk codes₀ s.codes (c.key j))).2
    ⟨hok, fun j _ => h.phases j⟩
  apart := pairwise_update (fun _ _ h r x hr hx => (h x r hx hr).symm) h.apart hapart

theorem apart_of_not_written {p : Phase} (h : p.written = none) : Apart p q := by
  intro r x hr
  rw [h] at hr
  cases hr

/-- A code that the table shows as enabled has been redeemed by nobody, and its row is as it was. -/
theorem Inv.of_enabled (h : Inv c codes₀ quota₀ s) (hr : r ∈ s.codes.rows)
    (henabled : r.status = .enabled) : r ∈ codes₀.rows ∧ ∀ i, ¬ Redeems c s i r := by
  obtain ⟨r₀, hr₀, hid⟩ : ∃ r₀ ∈ codes₀.rows, r₀.id = r.id := by
    have hmem : r.id ∈ codes₀.rows.map Redemption.id := h.ids ▸ List.mem_map_of_mem hr
    exact List.mem_map.1 hmem
  obtain ⟨x, hx, hxid, hone⟩ := h.row r₀ hr₀
  obtain rfl := s.codes.eq_of_id hx hr (hxid.trans hid)
  have hnone : ∀ i, ¬ Redeems c s i r₀ := by
    intro i hi
    have hused := (hone.used_iff.1 ⟨i, hi⟩).1
    rw [henabled] at hused
    cases hused
  obtain rfl := hone.untouched hnone
  exact ⟨hr₀, hnone⟩

theorem Inv.readCode (h : Inv c codes₀ quota₀ s) {now : Int}
    (hi : s.phase i = .start) (hq : readCode c s i now = some q) : Inv c codes₀ quota₀ (s.set i q) := by
  have hi' : (s.phase i).succeeded = false := by rw [hi]; rfl
  have hfail : ∀ e, q = .done (.error e) → Inv c codes₀ quota₀ (s.set i q) := by
    rintro e rfl
    exact h.set hi' rfl trivial fun _ _ => apart_of_not_written rfl
  unfold Redemptions.readCode at hq
  split_ifs at hq with hkey huser
  · exact hfail _ (Option.some.inj hq).symm
  · exact hfail _ (Option.some.inj hq).symm
  · split at hq
    · exact hfail _ (Option.some.inj hq).symm
    · rename_i r hr
      split_ifs at hq with hlock hstatus hexpired
      · exact hfail _ (Option.some.inj hq).symm
      · exact hfail _ (Option.some.inj hq).symm
      · cases hq
        obtain ⟨hmem, hrkey⟩ := findRow_eq_some hr
        have hread : PhaseOk codes₀ s.codes (c.key i) (.read r) :=
          ⟨(h.of_enabled hmem (not_not.1 hstatus)).1, hrkey⟩
        exact h.set hi' rfl hread fun _ _ => apart_of_not_written rfl

theorem locked_of_written {p : Phase} (rowLock : Bool) (h : p.written = some r) :
    p.locked rowLock = some r.id := by
  cases p <;> cases h <;> rfl

theorem Inv.swapStatus (h : Inv c codes₀ quota₀ s) {now : Int}
    (hi : s.phase i = .read r) (hq : swapStatus c s i r now = some q) :
    Inv c codes₀ quota₀ (s.set i q) := by
  have hi' : (s.phase i).succeeded = false := by rw [hi]; rfl
  have hread := h.phases i
  rw [hi] at hread
  obtain ⟨hr, hkey⟩ := hread
  unfold Redemptions.swapStatus at hq
  split_ifs at hq with hlock hrow
  · cases hq
    obtain ⟨x, hx, hid, hstatus⟩ := hrow
    -- the row found under the id is the code that was read
    obtain rfl := codes₀.eq_of_id (h.of_enabled hx hstatus).1 hr hid
    have hswapped : PhaseOk codes₀ s.codes (c.key i) (.swapped x now) := ⟨hr, hkey, hx, hstatus⟩
    refine h.set hi' rfl hswapped fun j hj y z hy hz hid => hlock ⟨j, hj, ?_⟩
    cases hy
    rw [locked_of_written c.rowLock hz, hid]
  · cases hq
    exact h.set hi' rfl trivial fun _ _ => apart_of_not_written rfl

theorem Inv.creditUser (h : Inv c codes₀ quota₀ s)
    (hi : s.phase i = .swapped r t) (hq : creditUser c s i r t = some q) :
    Inv c codes₀ quota₀ (s.set i q) := by
  have hi' : (s.phase i).succeeded = false := by rw [hi]; rfl
  have hok := h.phases i
  rw [hi] at hok
  unfold Redemptions.creditUser at hq
  split_ifs at hq
  cases hq
  refine h.set hi' rfl hok fun j hj => ?_
  have hapart := h.apart i j hj.symm
  rwa [hi] at hapart

/-! ### Commit -/

theorem redeems_commit_self (hkey : r.key = c.key i) :
    Redeems c (s.commit c i r t) i r :=
  ⟨hkey.symm, r.quota, Function.update_self _ _ _⟩

theorem redeems_commit_of_ne {j : Fin n} (hj : j ≠ i) (x : Redemption) :
    Redeems c (s.commit c i r t) j x ↔ Redeems c s j x := by
  simp only [Redeems, State.commit, Function.update_of_ne hj]

theorem credit_commit (hi : s.credit c i u = 0) :
    (s.commit c i r t).credit c j u =
      s.credit c j u + if j = i then (if c.userId i = u then r.quota else 0) else 0 := by
  by_cases hj : j = i
  · subst hj
    rw [hi, if_pos rfl, zero_add]
    simp only [State.credit, State.commit, Function.update_self]
  · rw [if_neg hj, add_zero]
    simp only [State.credit, State.commit, Function.update_of_ne hj]

/-- The rows of the codes after a commit: the code of the call is marked, the others are as they
were. -/
theorem Inv.row_commit (h : Inv c codes₀ quota₀ s)
    (hi : s.phase i = .credited r t) (r₀ : Redemption) (hr₀ : r₀ ∈ codes₀.rows) :
    ∃ x ∈ (s.commit c i r t).codes.rows, x.id = r₀.id ∧ CodeOnce c (s.commit c i r t) r₀ x := by
  have hok := h.phases i
  rw [hi] at hok
  obtain ⟨hr, hkey, hcur, hstatus⟩ := hok
  by_cases heq : r₀ = r
  · subst heq
    have hnone := (h.of_enabled hcur hstatus).2
    have honly : ∀ j, Redeems c (s.commit c i r₀ t) j r₀ → j = i := by
      intro j hj
      by_contra hne
      exact hnone j ((redeems_commit_of_ne hne r₀).1 hj)
    refine ⟨r₀.markUsed t (c.userId i), List.mem_map.2 ⟨r₀, hcur, if_pos rfl⟩, rfl, ?_, ?_, ?_, ?_⟩
    · intro j k hj hk
      rw [honly j hj, honly k hk]
    · refine iff_of_true ⟨i, redeems_commit_self hkey⟩ ⟨rfl, ?_⟩
      rw [hstatus]
      exact nofun
    · intro j hj
      obtain rfl := honly j hj
      exact ⟨Function.update_self _ _ _, t, rfl⟩
    · intro hnot
      exact absurd (redeems_commit_self hkey) (hnot i)
  · obtain ⟨x, hx, hid, hone⟩ := h.row r₀ hr₀
    have hxid : x.id ≠ r.id := fun hxr => heq (codes₀.eq_of_id hr₀ hr (hid.symm.trans hxr))
    have hredeems : ∀ j, Redeems c (s.commit c i r t) j r₀ ↔ Redeems c s j r₀ := by
      intro j
      by_cases hj : j = i
      · subst hj
        have hne : c.key j ≠ r₀.key :=
          fun hk => heq (List.inj_on_of_nodup_map codes₀.keys hr₀ hr (hk.symm.trans hkey.symm))
        exact iff_of_false (fun hred => hne hred.1) fun hred => hne hred.1
      · exact redeems_commit_of_ne hj r₀
    refine ⟨x, List.mem_map.2 ⟨x, hx, if_neg hxid⟩, hid, ?_, ?_, ?_, ?_⟩
    · intro j k hj hk
      exact hone.once j k ((hredeems j).1 hj) ((hredeems k).1 hk)
    · rw [← hone.used_iff]
      exact exists_congr hredeems
    · intro j hj
      have hj' := (hredeems j).1 hj
      have hne : j ≠ i := by
        rintro rfl
        obtain ⟨-, q, hq⟩ := hj'
        rw [hi] at hq
        cases hq
      obtain ⟨hdone, hrow⟩ := hone.winner j hj'
      exact ⟨(Function.update_of_ne hne _ _).trans hdone, hrow⟩
    · intro hnot
      exact hone.untouched fun j hj => hnot j ((hredeems j).2 hj)

theorem Inv.commit (h : Inv c codes₀ quota₀ s)
    (hi : s.phase i = .credited r t) : Inv c codes₀ quota₀ (s.commit c i r t) := by
  have hok := h.phases i
  rw [hi] at hok
  obtain ⟨hr, hkey, hcur, hstatus⟩ := hok
  refine ⟨⟨?_, h.row_commit hi, ?_, ?_⟩, ?_, ?_⟩
  · rw [← h.ids]
    exact map_markRow _ _ _ _ (fun _ => rfl) _
  · intro j q hq
    by_cases hj : j = i
    · subst hj
      exact ⟨r, hr, redeems_commit_self hkey⟩
    · obtain ⟨r₀, hr₀, hred⟩ := h.of_code j q ((Function.update_of_ne hj _ _).symm.trans hq)
      exact ⟨r₀, hr₀, (redeems_commit_of_ne hj r₀).2 hred⟩
  · intro u
    have hzero : s.credit c i u = 0 := credit_of_not_succeeded (by rw [hi]; rfl)
    simp only [credit_commit hzero, Finset.sum_add_distrib, Finset.sum_ite_eq', Finset.mem_univ, if_true]
    rw [← add_assoc, ← h.quota u]
    show Function.update s.quota (c.userId i) (s.quota (c.userId i) + r.quota) u = _
    by_cases hu : u = c.userId i
    · subst hu
      rw [Function.update_self, if_pos rfl]
    · rw [Function.update_of_ne hu, if_neg (Ne.symm hu), add_zero]
  · intro j
    by_cases hj : j = i
    · subst hj
      show PhaseOk _ _ _ (Function.update s.phase j _ j)
      rw [Function.update_self]
      trivial
    · show PhaseOk _ _ _ (Function.update s.phase i _ j)
      rw [Function.update_of_ne hj]
      -- the rows that other transactions have written are not the one that is marked
      have hkeep : ∀ x, (s.phase j).written = some x → x ∈ s.codes.rows →
          x ∈ (s.codes.markUsed r.id t (c.userId i)).rows := by
        intro x hx hmem
        have hne : x.id ≠ r.id := h.apart j i hj x r hx (by rw [hi]; rfl)
        exact List.mem_map.2 ⟨x, hmem, if_neg hne⟩
      have hold := h.phases j
      cases hp : s.phase j with
      | start => trivial
      | done => trivial
      | read x => rwa [hp] at hold
      | swapped x t' =>
        rw [hp] at hold hkeep
        exact ⟨hold.1, hold.2.1, hkeep x rfl hold.2.2.1, hold.2.2.2⟩
      | credited x t' =>
        rw [hp] at hold hkeep
        exact ⟨hold.1, hold.2.1, hkeep x rfl hold.2.2.1, hold.2.2.2⟩
  · exact pairwise_update (fun _ _ h r x hr hx => (h x r hx hr).symm) h.apart fun _ _ => apart_of_not_written rfl

/-! ### Runs -/

theorem Inv.step {s' : State n} {a : Action n} (h : Inv c codes₀ quota₀ s) (hstep : step c s a = some s') :
    Inv c codes₀ quota₀ s' := by
  cases a with simp only [Redemptions.step] at hstep
  | advance i now =>
    split at hstep
    · rename_i hi
      obtain ⟨q, hq, rfl⟩ := Option.map_eq_some_iff.1 hstep
      exact h.readCode hi hq
    · rename_i r hi
      obtain ⟨q, hq, rfl⟩ := Option.map_eq_some_iff.1 hstep
      exact h.swapStatus hi hq
    · rename_i r t hi
      obtain ⟨q, hq, rfl⟩ := Option.map_eq_some_iff.1 hstep
      exact h.creditUser hi hq
    · rename_i r t hi
      cases hstep
      exact h.commit hi
    · cases hstep
  | abort i =>
    split at hstep
    · cases hstep
    · rename_i hi
      cases hstep
      have hi' : (s.phase i).succeeded = false := by
        cases hp : s.phase i with
        | done e => exact absurd hp (hi e)
        | start | read | swapped | credited => rfl
      exact h.set hi' rfl trivial fun _ _ => apart_of_not_written rfl

/-- Whatever codes there are and however any number of `Redeem` transactions interleave and abort,
each code is redeemed by at most one call, which is the one its row names; that call adds the quota
of the code to its user, and no other call changes anything. -/
theorem redeemed_once (c : Calls n) (codes₀ : Codes) (quota₀ : Int → Int) (l : List (Action n)) (s : State n)
    (hrun : run (step c) (init codes₀ quota₀) l = some s) : CreditedOnce c codes₀ quota₀ s :=
  (run_inv (fun _ _ _ h hstep => h.step hstep) (inv_init c quota₀) hrun).toCreditedOnce

def sampleCode : Redemption := ⟨1, 1, "k", .enabled, "gift", 100, 0, 0, 0, 0⟩

def sampleCodes : Codes := ⟨[sampleCode], List.nodup_singleton _, List.nodup_singleton _⟩

/-- Two users read the code as enabled, without a row lock; the second one loses the swap. -/
def twoReaders (i j : Fin 2) : List (Action 2) :=
  [.advance i 10, .advance j 10, .advance i 11, .advance i 11, .advance i 11, .advance j 12]

theorem redeemed_once_two_readers :
    ∃ s, run (step ⟨false, fun _ => "k", fun i => (i : Int) + 7⟩) (init sampleCodes fun _ => 0)
        (twoReaders 0 1) = some s ∧
      s.quota 7 = 100 ∧ s.quota 8 = 0 ∧ s.phase 1 = .done (.error .redeemFailed) ∧
      CreditedOnce ⟨false, fun _ => "k", fun i => (i : Int) + 7⟩ sampleCodes (fun _ => 0) s := by
  obtain ⟨s, hs, h⟩ : ∃ s, run (step ⟨false, fun _ => "k", fun i => (i : Int) + 7⟩)
      (init sampleCodes fun _ => 0) (twoReaders 0 1) = some s ∧
      s.quota 7 = 100 ∧ s.quota 8 = 0 ∧ s.phase 1 = .done (.error .redeemFailed) := ⟨_, rfl, by decide +kernel⟩
  exact ⟨s, hs, h.1, h.2.1, h.2.2, redeemed_once _ _ _ _ s hs⟩

end TokenEra.Redemptions
