import Mathlib.Data.List.Rotate
import Mathlib.Tactic

/-!
# Taking turns

`turns n l` is what `n` turns give when each takes the first of a list and puts it at the end; as
many turns as the list is long give every element once (`perm_of_turns`). A cursor that goes round
the numbers below `m` and stops at those that meet a condition takes turns of them: behind a stop,
what is ahead is the list before, rotated by one (`filter_around_next`).
-/

namespace TokenEra.Lib

variable {α β : Type*}

def turns : Nat → List α → List α
  | 0, _ => []
  | _, [] => []
  | n + 1, a :: l => a :: turns n (l ++ [a])

theorem turns_nil (n : Nat) : turns n ([] : List α) = [] := by cases n <;> rfl

theorem length_turns {l : List α} (n : Nat) (h : l ≠ []) : (turns n l).length = n := by
  induction n generalizing l with
  | zero => rfl
  | succ n ih =>
    cases l with
    | nil => exact absurd rfl h
    | cons a l => rw [turns, List.length_cons, ih (by simp)]

theorem turns_subset (n : Nat) (l : List α) : turns n l ⊆ l := by
  induction n generalizing l with
  | zero => exact List.nil_subset l
  | succ n ih =>
    cases l with
    | nil => exact List.Subset.refl []
    | cons a l =>
      intro x hx
      rcases List.mem_cons.1 hx with rfl | hx
      · exact List.mem_cons_self
      · simpa [or_comm] using ih (l ++ [a]) hx

theorem turns_add (n k : Nat) (l : List α) : turns (n + k) l = turns n l ++ turns k (l.rotate n) := by
  induction n generalizing l with
  | zero => rw [Nat.zero_add, List.rotate_zero, turns, List.nil_append]
  | succ n ih =>
    cases l with
    | nil => simp [turns_nil]
    | cons a l =>
      rw [Nat.add_right_comm, turns, turns, ih, List.rotate_cons_succ, List.cons_append]

theorem turns_eq_take {n : Nat} {l : List α} (h : n ≤ l.length) : turns n l = l.take n := by
  induction n generalizing l with
  | zero => rfl
  | succ n ih =>
    cases l with
    | nil => simp at h
    | cons a l =>
      rw [List.length_cons] at h
      rw [turns, ih (by simp; omega), List.take_succ_cons, List.take_append_of_le_length (by omega)]

/-- As many turns in a row as there are elements give each of them once. -/
theorem perm_of_turns {n : Nat} {l before block after : List α} (h : turns n l = before ++ block ++ after)
    (hblock : block.length = l.length) : block.Perm l := by
  by_cases hl : l = []
  · subst hl
    rw [List.eq_nil_of_length_eq_zero hblock]
  have hn : n = before.length + block.length + after.length := by
    rw [← length_turns n hl, h, List.length_append, List.length_append]
  rw [hn, turns_add, turns_add] at h
  have hrotate : l.rotate before.length ≠ [] := by rwa [Ne, List.rotate_eq_nil_iff]
  obtain ⟨hfirst, -⟩ := List.append_inj h (by simp [length_turns _ hl, length_turns _ hrotate])
  obtain ⟨-, hturns⟩ := List.append_inj hfirst (length_turns _ hl)
  rw [← hturns, hblock, turns_eq_take (by rw [List.length_rotate]), List.take_of_length_le (by rw [List.length_rotate])]
  exact List.rotate_perm l before.length

/-! ### A cursor that goes round -/

/-- The numbers below `m`, from `s` on. -/
def around (m s : Nat) : List Nat := (List.range m).map fun i => (s + i) % m

@[simp] theorem length_around (m s : Nat) : (around m s).length = m := by simp [around]

theorem getElem_around {m s i : Nat} (h : i < (around m s).length) : (around m s)[i] = (s + i) % m := by
  simp [around]

theorem around_add (m s j : Nat) : around m ((s + j) % m) = (around m s).rotate j := by
  refine List.ext_getElem (by simp) fun i hi hi' => ?_
  rw [List.getElem_rotate, getElem_around, getElem_around, length_around, Nat.mod_add_mod, Nat.add_mod_mod]
  congr 1
  omega

theorem around_perm {m s : Nat} (h : s < m) : (around m s).Perm (List.range m) := by
  have hzero : around m 0 = List.range m := by
    refine List.ext_getElem (by simp) fun i hi hi' => ?_
    rw [getElem_around, List.getElem_range, Nat.zero_add, Nat.mod_eq_of_lt (by simpa using hi)]
  have hrotate := around_add m 0 s
  rw [Nat.zero_add, Nat.mod_eq_of_lt h, hzero] at hrotate
  rw [hrotate]
  exact List.rotate_perm _ s

/-- Behind a stop, the numbers ahead at which to stop are those that were ahead, the stop last. -/
theorem filter_around_next {p : Nat → Bool} {m s e : Nat} (h : (around m s).find? p = some e) :
    ∃ rest, (around m s).filter p = e :: rest ∧ (around m ((e + 1) % m)).filter p = rest ++ [e] := by
  obtain ⟨he, as, bs, hsplit, has⟩ := List.find?_eq_some_iff_append.1 h
  have hnone : as.filter p = [] := List.filter_eq_nil_iff.2 fun a ha => by simpa using has a ha
  have hstop : e = (s + as.length) % m := by
    have hlen : as.length < (around m s).length := by
      rw [hsplit]
      simp
    rw [← getElem_around hlen]
    simp [hsplit]
  have hnext : around m ((e + 1) % m) = bs ++ (as ++ [e]) := by
    have hlen : as.length + 1 = (as ++ [e]).length := by simp
    have hturn : (e + 1) % m = (s + (as.length + 1)) % m := by rw [hstop, Nat.mod_add_mod, Nat.add_assoc]
    rw [hturn, around_add, hsplit, List.append_cons, hlen, List.rotate_append_length_eq]
  refine ⟨bs.filter p, ?_, ?_⟩
  · rw [hsplit, List.filter_append, hnone, List.nil_append, List.filter_cons_of_pos he]
  · rw [hnext, List.filter_append, List.filter_append, hnone, List.nil_append,
      List.filter_cons_of_pos he, List.filter_nil]

end TokenEra.Lib
