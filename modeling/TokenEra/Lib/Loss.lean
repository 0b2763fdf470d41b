import Mathlib.Tactic

/-!
# Conversions that lose

A conversion reads a list from the left and produces a list, which should be a given one. What it
loses it never gains back: a result that is too short stays too short. Then the result is right
exactly if nothing is lost at any place (`eq_iff_kept`).
-/

namespace TokenEra.Lib

variable {M B : Type*}

/-- The condition holds at every element, of what stands before it and of the element. -/
def AtEach (ok : List M → M → Prop) (before : List M) : List M → Prop
  | [] => True
  | m :: l => ok before m ∧ AtEach ok (before ++ [m]) l

instance decidableAtEach (ok : List M → M → Prop) [∀ before m, Decidable (ok before m)] :
    ∀ before l, Decidable (AtEach ok before l)
  | _, [] => isTrue trivial
  | before, m :: l =>
    have := decidableAtEach ok (before ++ [m]) l
    inferInstanceAs (Decidable (ok before m ∧ AtEach ok (before ++ [m]) l))

variable {ok : List M → M → Prop}

theorem atEach_append_singleton {before l : List M} {m : M} :
    AtEach ok before (l ++ [m]) ↔ AtEach ok before l ∧ ok (before ++ l) m := by
  induction l generalizing before with
  | nil => simp [AtEach]
  | cons x l ih => simp [AtEach, ih, and_assoc]

/-- Each element adds `new` to what is expected. Where the condition holds, it adds that to the
result, too; elsewhere the result gets shorter than that. -/
theorem eq_iff_kept (result expected : List M → List B) (new : List M → M → List B) (hnil : result [] = expected [])
    (hexpected : ∀ l m, expected (l ++ [m]) = expected l ++ new l m)
    (hround : ∀ l m, (ok l m ∧ result (l ++ [m]) = result l ++ new l m) ∨
      (¬ok l m ∧ (result (l ++ [m])).length < (result l ++ new l m).length))
    (l : List M) : result l = expected l ↔ AtEach ok [] l := by
  have hcases : (result l = expected l ∧ AtEach ok [] l) ∨
      ((result l).length < (expected l).length ∧ ¬AtEach ok [] l) := by
    induction l using List.reverseRecOn with
    | nil => exact .inl ⟨hnil, trivial⟩
    | append_singleton l m ih =>
      rw [atEach_append_singleton, List.nil_append, hexpected]
      have hm := hround l m
      simp only [List.length_append] at hm ⊢
      obtain ⟨heq, hok⟩ | ⟨hlt, hnot⟩ := ih
      · obtain ⟨hkept, hresult⟩ | ⟨hlost, hlength⟩ := hm
        · exact .inl ⟨by rw [hresult, heq], hok, hkept⟩
        · exact .inr ⟨by rw [← heq]; exact hlength, fun h => hlost h.2⟩
      · refine .inr ⟨?_, fun h => hnot h.1⟩
        obtain ⟨-, hresult⟩ | ⟨-, hlength⟩ := hm
        · rw [hresult, List.length_append]
          omega
        · omega
  obtain ⟨heq, hok⟩ | ⟨hlt, hnot⟩ := hcases
  · exact ⟨fun _ => hok, fun _ => heq⟩
  · exact ⟨fun h => absurd (congrArg List.length h) hlt.ne, fun h => absurd h hnot⟩

/-- The same where the elements do not depend on each other. -/
theorem flatMap_kept (ok : M → Prop) (result expected : M → List B) {l : List M}
    (h : ∀ m ∈ l, (ok m ∧ result m = expected m) ∨ (¬ok m ∧ (result m).length < (expected m).length)) :
    l.flatMap result = l.flatMap expected ↔ ∀ m ∈ l, ok m := by
  have hcases : (l.flatMap result = l.flatMap expected ∧ ∀ m ∈ l, ok m) ∨
      ((l.flatMap result).length < (l.flatMap expected).length ∧ ¬∀ m ∈ l, ok m) := by
    induction l with
    | nil => exact .inl ⟨rfl, nofun⟩
    | cons m l ih =>
      rw [List.forall_mem_cons] at h ⊢
      rw [List.flatMap_cons, List.flatMap_cons, List.length_append, List.length_append]
      obtain ⟨heq, hok⟩ | ⟨hlt, hnot⟩ := ih h.2
      · obtain ⟨hm, hresult⟩ | ⟨hm, hlength⟩ := h.1
        · exact .inl ⟨by rw [hresult, heq], hm, hok⟩
        · exact .inr ⟨by rw [heq]; omega, fun h => hm h.1⟩
      · refine .inr ⟨?_, fun h => hnot h.2⟩
        obtain ⟨-, hresult⟩ | ⟨-, hlength⟩ := h.1
        · rw [hresult]
          omega
        · omega
  obtain ⟨heq, hok⟩ | ⟨hlt, hnot⟩ := hcases
  · exact ⟨fun _ => hok, fun _ => heq⟩
  · exact ⟨fun h => absurd (congrArg List.length h) hlt.ne, fun h => absurd h hnot⟩

/-- Taking the lists of some elements only loses nothing exactly if those of the others are empty.
-/
theorem length_flatMap_filter (p : M → Prop) [DecidablePred p] (f : M → List B) (l : List M) :
    ((l.filter fun m => p m).flatMap f).length = (l.flatMap f).length ↔ ∀ m ∈ l, ¬p m → f m = [] := by
  induction l with
  | nil => simp
  | cons m l ih =>
    have hle : ((l.filter fun m => p m).flatMap f).length ≤ (l.flatMap f).length :=
      (List.filter_sublist.flatMap f).length_le
    rw [List.filter_cons, List.flatMap_cons, List.length_append, List.forall_mem_cons, ← ih]
    by_cases hm : p m
    · simp [hm]
    · rw [if_neg (by simpa using hm), ← List.length_eq_zero_iff]
      constructor
      · intro h
        exact ⟨fun _ => by omega, by omega⟩
      · rintro ⟨h, heq⟩
        have hnone := h hm
        omega

theorem flatMap_filter_eq_iff (p : M → Prop) [DecidablePred p] (f : M → List B) (l : List M) :
    (l.filter fun m => p m).flatMap f = l.flatMap f ↔ ∀ m ∈ l, ¬p m → f m = [] := by
  rw [← length_flatMap_filter]
  exact ⟨congrArg List.length, (List.filter_sublist.flatMap f).eq_of_length⟩

theorem flatMap_filter_eq (p : M → Bool) (f : M → List B) (l : List M) :
    (l.filter p).flatMap f = l.flatMap fun m => if p m then f m else [] := by
  induction l with
  | nil => rfl
  | cons m l ih => cases hm : p m <;> simp [hm, ih]

/-- Taking the list of the last element only loses nothing exactly if those of the others are empty.
-/
theorem flatMap_eq_last_iff (f : M → List B) (l : List M) :
    l.flatMap f = l.getLast?.elim [] f ↔ ∀ m ∈ l.dropLast, f m = [] := by
  cases l using List.reverseRecOn with
  | nil => simp
  | append_singleton l m => simp [List.flatMap_eq_nil_iff]

end TokenEra.Lib
