import Mathlib.Tactic

/-!
# Maps

Go's `map` as a list of entries. A lookup takes the first entry of a key; `set` puts its entry first
and drops the others of its key. A program that ranges over a map sees its keys in any order.
-/

namespace TokenEra.Lib

variable {K V : Type*} [DecidableEq K]

abbrev Dict (K V : Type*) := List (K × V)

namespace Dict

def get? (m : Dict K V) (k : K) : Option V := (m.find? fun e => e.1 = k).map Prod.snd

def delete (m : Dict K V) (k : K) : Dict K V := m.filter fun e => e.1 ≠ k

def set (m : Dict K V) (k : K) (v : V) : Dict K V := (k, v) :: m.delete k

def keys (m : Dict K V) : List K := m.map Prod.fst

theorem get?_delete (m : Dict K V) (k k' : K) : (m.delete k).get? k' = if k' = k then none else m.get? k' := by
  induction m with
  | nil => split_ifs <;> rfl
  | cons e m ih =>
    simp only [get?, delete] at ih ⊢
    by_cases he : e.1 = k
    · rw [List.filter_cons_of_neg (by simp [he]), ih]
      split_ifs with hk
      · rfl
      · rw [List.find?_cons_of_neg (by simp [he, Ne.symm hk])]
    · rw [List.filter_cons_of_pos (by simp [he])]
      by_cases hk' : e.1 = k'
      · rw [List.find?_cons_of_pos (by simp [hk']), List.find?_cons_of_pos (by simp [hk']), if_neg (hk' ▸ he)]
      · rw [List.find?_cons_of_neg (by simp [hk']), List.find?_cons_of_neg (by simp [hk']), ih]

theorem get?_set (m : Dict K V) (k k' : K) (v : V) : (m.set k v).get? k' = if k' = k then some v else m.get? k' := by
  by_cases hk : k' = k
  · simp [set, get?, hk]
  · have hdelete := get?_delete m k k'
    rw [if_neg hk] at hdelete ⊢
    rw [← hdelete, set, get?, List.find?_cons_of_neg (by simp [Ne.symm hk])]
    rfl

end Dict

end TokenEra.Lib
