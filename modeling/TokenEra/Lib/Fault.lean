import Mathlib.Tactic

/-!
# Computations that may panic

An outcome is a value, an error that is returned, or a panic. `Safe` computations do not panic;
`safe_bind` and `safe_foldlM` say so of a computation by its steps, where what was read before may
be used for what is read next.
-/

namespace TokenEra.Lib

inductive Panic
  | nilDereference
  | typeAssertion
  | outOfRange
  deriving DecidableEq, Repr

inductive Fault (E : Type)
  | panic (p : Panic)
  | error (e : E)

abbrev Outcome (E A : Type) := Except (Fault E) A

namespace Outcome

variable {E A B S : Type}

/-- A computation that does not panic. -/
def Safe (x : Outcome E A) : Prop := ∀ p, x ≠ .error (.panic p)

def ofExcept : Except E A → Outcome E A
  | .ok a => .ok a
  | .error e => .error (.error e)

def deref : Option A → Outcome E A
  | some a => .ok a
  | none => .error (.panic .nilDereference)

def index (l : List A) (i : Nat) : Outcome E A :=
  match l[i]? with
  | some a => .ok a
  | none => .error (.panic .outOfRange)

def cutLast (l : List A) : Outcome E (List A) :=
  match l with
  | [] => .error (.panic .outOfRange)
  | a :: l => .ok (a :: l).dropLast

theorem safe_ok (a : A) : Safe (.ok a : Outcome E A) := nofun

theorem safe_pure (a : A) : Safe (pure a : Outcome E A) := nofun

theorem safe_ofExcept (x : Except E A) : Safe (ofExcept x) := by
  cases x <;> nofun

theorem ofExcept_ok (a : A) : (ofExcept (.ok a) : Outcome E A) = .ok a := rfl

theorem not_safe_panic (p : Panic) : ¬Safe (.error (.panic p) : Outcome E A) := fun h => h p rfl

theorem safe_cutLast {l : List A} (h : l ≠ []) : Safe (cutLast l : Outcome E (List A)) := by
  cases l with
  | nil => exact absurd rfl h
  | cons a l => exact safe_ok _

theorem safe_bind_iff {x : Outcome E A} {f : A → Outcome E B} :
    Safe (x >>= f) ↔ Safe x ∧ ∀ a, x = .ok a → Safe (f a) := by
  cases x with
  | ok a => exact ⟨fun h => ⟨safe_ok a, fun b hb => by cases hb; exact h⟩, fun h => h.2 a rfl⟩
  | error fault => exact ⟨fun h => ⟨fun p hp => h p (by cases hp; rfl), nofun⟩, fun h p hp => h.1 p (by cases hp; rfl)⟩

theorem safe_bind {x : Outcome E A} {f : A → Outcome E B} (hx : Safe x)
    (hf : ∀ a, x = .ok a → Safe (f a)) : Safe (x >>= f) :=
  safe_bind_iff.2 ⟨hx, hf⟩

/-- A loop is safe if an invariant makes each round safe and is kept by it. -/
theorem safe_foldlM {f : S → A → Outcome E S} (I : S → Prop) (hsafe : ∀ s a, I s → Safe (f s a))
    (hkeep : ∀ s a t, I s → f s a = .ok t → I t) {s : S} (hs : I s) (l : List A) : Safe (l.foldlM f s) := by
  induction l generalizing s with
  | nil => exact safe_pure s
  | cons a l ih =>
    rw [List.foldlM_cons]
    exact safe_bind (hsafe s a hs) fun t ht => ih (hkeep s a t hs ht)

theorem safe_mapM_iff {f : A → Outcome E B} {l : List A} (hf : ∀ a ∈ l, ∀ e, f a ≠ .error (.error e)) :
    Safe (l.mapM f) ↔ ∀ a ∈ l, Safe (f a) := by
  induction l with
  | nil => exact ⟨nofun, fun _ => safe_pure []⟩
  | cons a l ih =>
    obtain ⟨ha, hl⟩ := List.forall_mem_cons.1 hf
    rw [List.mapM_cons, List.forall_mem_cons, safe_bind_iff]
    refine and_congr_right fun hsafe => ?_
    cases hfa : f a with
    | error fault =>
      cases fault with
      | panic p => exact absurd hfa (hsafe p)
      | error e => exact absurd hfa (ha e)
    | ok b =>
      rw [← ih hl]
      refine ⟨fun h => (safe_bind_iff.1 (h b rfl)).1, fun h b' _ => safe_bind h fun _ _ => safe_pure _⟩

end Outcome

end TokenEra.Lib
