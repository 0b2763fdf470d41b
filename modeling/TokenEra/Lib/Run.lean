import Mathlib.Tactic

/-!
# Runs of a step function

A system is a partial step function: `step s a` is the state after action `a`, and `none` when `a`
is not possible in `s`. An interleaving of several parties is such a system whose actions say which
party moves. `run` performs a list of actions, `Along step C s l` says that every step the list
takes meets the condition `C` on the state before it, and `run_inv_along` is the induction that
every safety theorem uses: a property that holds at the start, and that every step meeting the
condition keeps, holds after every run whose steps all meet it.
-/

namespace TokenEra.Lib

variable {S A : Type*} {step : S → A → Option S}

def run (step : S → A → Option S) : S → List A → Option S
  | s, [] => some s
  | s, a :: l => (step s a).bind fun t => run step t l

/-- Every step taken by the actions from `s` meets `C`. -/
def Along (step : S → A → Option S) (C : S → A → Prop) : S → List A → Prop
  | _, [] => True
  | s, a :: l => C s a ∧ ∀ t, step s a = some t → Along step C t l

instance decidableAlong (step : S → A → Option S) (C : S → A → Prop) [∀ s a, Decidable (C s a)] :
    ∀ s l, Decidable (Along step C s l)
  | _, [] => isTrue trivial
  | s, a :: l =>
    match h : step s a with
    | none => decidable_of_iff (C s a) (by simp [Along, h])
    | some t =>
      have := decidableAlong step C t l
      decidable_of_iff (C s a ∧ Along step C t l) (by simp [Along, h])

theorem run_cons_eq_some {s u : S} {a : A} {l : List A} :
    run step s (a :: l) = some u ↔ ∃ t, step s a = some t ∧ run step t l = some u := by
  simp [run, Option.bind_eq_some_iff]

theorem Along.and {C D : S → A → Prop} {s : S} {l : List A} (hC : Along step C s l)
    (hD : Along step D s l) : Along step (fun s a => C s a ∧ D s a) s l := by
  induction l generalizing s with
  | nil => trivial
  | cons a l ih => exact ⟨⟨hC.1, hD.1⟩, fun t ht => ih (hC.2 t ht) (hD.2 t ht)⟩

/-- What holds at the start and is kept by every step that meets `C` holds after every run whose
steps all meet `C`. -/
theorem run_inv_along {C : S → A → Prop} {I : S → Prop}
    (hstep : ∀ s a t, I s → C s a → step s a = some t → I t) {s u : S} {l : List A} (hs : I s)
    (hl : Along step C s l) (hu : run step s l = some u) : I u := by
  induction l generalizing s with
  | nil =>
    cases hu
    exact hs
  | cons a l ih =>
    obtain ⟨t, ht, hu⟩ := run_cons_eq_some.1 hu
    exact ih (hstep s a t hs hl.1 ht) (hl.2 t ht) hu

theorem along_of_forall {C : S → A → Prop} (h : ∀ s a, C s a) (s : S) (l : List A) : Along step C s l := by
  induction l generalizing s with
  | nil => trivial
  | cons a l ih => exact ⟨h s a, fun t _ => ih t⟩

/-- What holds at the start and is kept by every step holds after every run. -/
theorem run_inv {I : S → Prop} (hstep : ∀ s a t, I s → step s a = some t → I t) {s u : S}
    {l : List A} (hs : I s) (hu : run step s l = some u) : I u :=
  run_inv_along (C := fun _ _ => True) (fun s a t hs _ h => hstep s a t hs h) hs
    (along_of_forall (fun _ _ => trivial) s l) hu

/-- A quantity that every step moves by an amount of its action is moved by a run by their sum. -/
theorem run_sum {w : S → Int} {d : A → Int} (hstep : ∀ s a t, step s a = some t → w t = w s + d a)
    {s u : S} {l : List A} (hu : run step s l = some u) : w u = w s + (l.map d).sum := by
  induction l generalizing s with
  | nil =>
    cases hu
    simp
  | cons a l ih =>
    obtain ⟨t, ht, hu⟩ := run_cons_eq_some.1 hu
    rw [ih hu, hstep s a t ht, List.map_cons, List.sum_cons, add_assoc]

/-- A computation that succeeds does so step by step. -/
theorem bind_eq_ok {E B C : Type} {x : Except E B} {f : B → Except E C} {c : C} :
    (x >>= f) = .ok c ↔ ∃ b, x = .ok b ∧ f b = .ok c := by
  cases x with
  | error e => exact ⟨nofun, nofun⟩
  | ok b => exact ⟨fun h => ⟨b, rfl, h⟩, fun ⟨_, hb, h⟩ => by cases hb; exact h⟩

/-! ### Parties -/

/-- What holds between any two parties still does when one of them moves to a state for which it
holds. -/
theorem pairwise_update {n : Nat} {P : Type*} {R : P → P → Prop} (hsymm : ∀ p q, R p q → R q p)
    {phase : Fin n → P} {i : Fin n} {q : P} (h : ∀ j k, j ≠ k → R (phase j) (phase k))
    (hq : ∀ j, j ≠ i → R q (phase j)) (j k : Fin n) (hjk : j ≠ k) :
    R (Function.update phase i q j) (Function.update phase i q k) := by
  by_cases hj : j = i
  · subst hj
    rw [Function.update_self, Function.update_of_ne hjk.symm]
    exact hq k hjk.symm
  · rw [Function.update_of_ne hj]
    by_cases hk : k = i
    · subst hk
      rw [Function.update_self]
      exact hsymm q (phase j) (hq j hj)
    · rw [Function.update_of_ne hk]
      exact h j k hjk

/-- At most one party is inside. -/
def OneInside {n : Nat} {P : Type*} (inside : P → Bool) (phase : Fin n → P) : Prop :=
  ∀ j k, j ≠ k → ¬ (inside (phase j) = true ∧ inside (phase k) = true)

theorem OneInside.others {n : Nat} {P : Type*} {inside : P → Bool} {phase : Fin n → P} {i : Fin n}
    (h : OneInside inside phase) (hi : inside (phase i) = true) (j : Fin n) (hj : j ≠ i) :
    inside (phase j) = false := by
  by_contra hin
  exact h j i hj ⟨by simpa using hin, hi⟩

/-- A party goes in only while no other is inside. -/
theorem OneInside.update {n : Nat} {P : Type*} {inside : P → Bool} {phase : Fin n → P} {i : Fin n} {q : P}
    (h : OneInside inside phase) (hq : inside q = true → ∀ j, j ≠ i → inside (phase j) = false) :
    OneInside inside (Function.update phase i q) := by
  refine pairwise_update (R := fun p q => ¬ (inside p = true ∧ inside q = true)) ?_ h fun j hj hboth => ?_
  · exact fun p q hone hboth => hone hboth.symm
  · rw [hq hboth.1 j hj] at hboth
    cases hboth.2

theorem sum_update {n : Nat} {P : Type*} (w : Fin n → P → Int) (phase : Fin n → P) (i : Fin n) (q : P) :
    ∑ j, w j (Function.update phase i q j) = ∑ j, w j (phase j) - w i (phase i) + w i q := by
  rw [← Finset.add_sum_erase _ _ (Finset.mem_univ i),
    ← Finset.add_sum_erase Finset.univ (fun j => w j (phase j)) (Finset.mem_univ i), Function.update_self]
  have hrest : ∑ j ∈ Finset.univ.erase i, w j (Function.update phase i q j) =
      ∑ j ∈ Finset.univ.erase i, w j (phase j) := by
    refine Finset.sum_congr rfl fun j hj => ?_
    rw [Function.update_of_ne (Finset.ne_of_mem_erase hj)]
  rw [hrest]
  ring

end TokenEra.Lib
