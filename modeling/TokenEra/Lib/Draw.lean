import Mathlib.Data.List.GetD
import Mathlib.Tactic

/-!
# Choices with one random number

A `Draw` waits for a random number below its bound and gives a result; `prob` is the probability of
a result when the number is uniform. `byWeight` chooses from a list: the number is taken down by the
weights in turn, and the element at which it falls below zero is chosen; if the sum of the weights
is not positive, every element is as likely.

What `byWeight` chooses with which probability does not depend on the order of the list, as long as
the sum is the sum of the weights (`hits_byWeight_perm`).
-/

namespace TokenEra.Lib

variable {α β : Type*}

structure Draw (α : Type*) where
  bound : Nat
  pos : 0 < bound
  result : Nat → α

namespace Draw

/-- The number of random numbers whose results meet a condition. -/
def hits (d : Draw α) (p : α → Bool) : Nat := (List.range d.bound).countP fun x => p (d.result x)

def prob [DecidableEq α] (d : Draw α) (a : α) : ℚ := d.hits (fun x => x = a) / d.bound

def sure (a : α) : Draw α := ⟨1, Nat.one_pos, fun _ => a⟩

def map (f : α → β) (d : Draw α) : Draw β := ⟨d.bound, d.pos, fun x => f (d.result x)⟩

@[simp] theorem hits_map (f : α → β) (d : Draw α) (p : β → Bool) : (d.map f).hits p = d.hits (p ∘ f) := rfl

theorem hits_sure (a : α) (p : α → Bool) : (sure a).hits p = if p a then 1 else 0 := by
  cases h : p a <;> simp [hits, sure, h]

theorem hits_eq_zero {d : Draw α} {p : α → Bool} (h : ∀ x < d.bound, p (d.result x) = false) : d.hits p = 0 := by
  refine List.countP_eq_zero.2 fun x hx => ?_
  rw [h x (List.mem_range.1 hx)]
  exact Bool.false_ne_true

end Draw

/-! ### Choices by weight -/

/-- The element at which the number falls below zero; the last one if there is none. -/
def walk (weight : α → Int) (last : α) : List α → Int → α
  | [], _ => last
  | a :: l, x => if x - weight a < 0 then a else walk weight last l (x - weight a)

def byWeight (weight : α → Int) (sum : Int) (l : List α) (hl : l ≠ []) : Draw α :=
  if h : sum ≤ 0 then ⟨l.length, List.length_pos_iff.2 hl, fun x => l.getD x (l.head hl)⟩
  else ⟨sum.toNat, by omega, fun x => walk weight (l.getLast hl) l x⟩

variable {l : List α}

theorem mem_walk (weight : α → Int) (last : α) (l : List α) (x : Int) :
    walk weight last l x ∈ l ∨ walk weight last l x = last := by
  induction l generalizing x with
  | nil => exact .inr rfl
  | cons a l ih =>
    rw [walk]
    split_ifs
    · exact .inl List.mem_cons_self
    · exact (ih (x - weight a)).imp_left (List.mem_cons_of_mem a)

theorem result_byWeight_mem (weight : α → Int) (sum : Int) (l : List α) (hl : l ≠ []) (x : Nat) :
    (byWeight weight sum l hl).result x ∈ l := by
  unfold byWeight
  split_ifs
  · show l.getD x (l.head hl) ∈ l
    by_cases hx : x < l.length
    · rw [List.getD_eq_getElem l _ hx]
      exact List.getElem_mem hx
    · rw [List.getD_eq_default l _ (not_lt.1 hx)]
      exact List.head_mem hl
  · rcases mem_walk weight (l.getLast hl) l x with h | h
    · exact h
    · show walk weight (l.getLast hl) l x ∈ l
      rw [h]
      exact List.getLast_mem hl

theorem walk_map (f : β → α) (weight : α → Int) (last : β) (l : List β) (x : Int) :
    walk weight (f last) (l.map f) x = f (walk (fun b => weight (f b)) last l x) := by
  induction l generalizing x with
  | nil => rfl
  | cons b l ih =>
    simp only [List.map_cons, walk]
    split_ifs
    · rfl
    · exact ih _

theorem byWeight_map (f : β → α) (weight : α → Int) (sum : Int) (l : List β) (hl : l ≠ []) (hl' : l.map f ≠ []) :
    byWeight weight sum (l.map f) hl' = (byWeight (fun b => weight (f b)) sum l hl).map f := by
  unfold byWeight
  split_ifs
  · simp only [Draw.map, List.length_map, List.head_map, Draw.mk.injEq, true_and]
    funext x
    exact List.getD_map l (l.head hl) f
  · simp only [Draw.map, List.getLast_map, Draw.mk.injEq, true_and]
    funext x
    exact walk_map f weight (l.getLast hl) l x

theorem hits_uniform (a : α) (p : α → Bool) :
    (List.range l.length).countP (fun x => p (l.getD x a)) = l.countP p := by
  have hmap : (List.range l.length).map (fun x => l.getD x a) = l := by
    refine List.ext_getElem (by simp) fun i hi hi' => ?_
    rw [List.getElem_map, List.getElem_range, List.getD_eq_getElem l a hi']
  calc (List.range l.length).countP (fun x => p (l.getD x a))
      = ((List.range l.length).map fun x => l.getD x a).countP p := by
        rw [List.countP_map]
        rfl
    _ = l.countP p := by rw [hmap]

/-- Of the numbers below the sum of the weights, each element has as many as its weight. -/
theorem hits_walk {weight : α → Int} (last : α) {l : List α} (h : ∀ a ∈ l, 0 ≤ weight a) (p : α → Bool) :
    (List.range (l.map fun a => (weight a).toNat).sum).countP (fun x : Nat => p (walk weight last l x)) =
      ((l.filter p).map fun a => (weight a).toNat).sum := by
  induction l with
  | nil => rfl
  | cons a l ih =>
    have ha : ((weight a).toNat : Int) = weight a := Int.toNat_of_nonneg (h a List.mem_cons_self)
    have hl := ih fun b hb => h b (List.mem_cons_of_mem a hb)
    -- the numbers below the weight of the first element, and the others
    have hfirst : (List.range (weight a).toNat).countP (fun x : Nat => p (walk weight last (a :: l) x)) =
        if p a then (weight a).toNat else 0 := by
      have hwalk : ∀ x ∈ List.range (weight a).toNat, p (walk weight last (a :: l) x) = p a := by
        intro x hx
        rw [walk, if_pos]
        have := List.mem_range.1 hx
        omega
      rw [List.countP_congr (q := fun _ => p a) fun x hx => by rw [hwalk x hx]]
      cases p a <;> simp
    have hrest : ∀ x : Nat, walk weight last (a :: l) ((weight a).toNat + x : Nat) = walk weight last l x := by
      intro x
      have hx : (((weight a).toNat + x : Nat) : Int) - weight a = x := by omega
      rw [walk, hx, if_neg (by omega)]
    rw [List.map_cons, List.sum_cons, List.range_add, List.countP_append, hfirst, List.countP_map]
    simp only [Function.comp_def, hrest, hl]
    cases hp : p a <;> simp [hp]

theorem sum_toNat_of_nonneg {weight : α → Int} {l : List α} (h : ∀ a ∈ l, 0 ≤ weight a) :
    ((l.map fun a => (weight a).toNat).sum : Int) = (l.map weight).sum := by
  induction l with
  | nil => rfl
  | cons a l ih =>
    have ha := h a List.mem_cons_self
    have hl := ih fun b hb => h b (List.mem_cons_of_mem a hb)
    simp only [List.map_cons, List.sum_cons, Nat.cast_add, hl]
    omega

/-! ### Places -/

def placeByWeight (weight : α → Int) (sum : Int) (l : List α) (hl : l ≠ []) : Draw (Fin l.length) :=
  byWeight (fun i => weight (l.get i)) sum (List.finRange l.length)
    (by rwa [Ne, List.finRange_eq_nil_iff, List.length_eq_zero_iff])

theorem byWeight_eq_map_place (weight : α → Int) (sum : Int) (l : List α) (hl : l ≠ []) :
    byWeight weight sum l hl = (placeByWeight weight sum l hl).map l.get := by
  rw [placeByWeight, ← byWeight_map l.get weight sum (List.finRange l.length) _ (by rwa [List.map_get_finRange])]
  simp only [List.map_get_finRange]

theorem filter_finRange_eq {n : Nat} (i : Fin n) : (List.finRange n).filter (fun j => j = i) = [i] := by
  have hcount := List.count_eq_one_of_mem (List.nodup_finRange n) (List.mem_finRange i)
  have hfilter : (List.finRange n).filter (fun j => j = i) =
      List.replicate ((List.finRange n).count i) i := List.filter_beq i
  rw [hfilter, hcount, List.replicate_one]

theorem hits_placeByWeight_uniform (weight : α → Int) {sum : Int} {l : List α} (hl : l ≠ []) (hsum : sum ≤ 0)
    (i : Fin l.length) :
    (placeByWeight weight sum l hl).bound = l.length ∧ (placeByWeight weight sum l hl).hits (fun j => j = i) = 1 := by
  rw [placeByWeight, byWeight, dif_pos hsum]
  refine ⟨List.length_finRange, ?_⟩
  simp only [Draw.hits]
  rw [hits_uniform _ fun j => decide (j = i), List.countP_eq_length_filter, filter_finRange_eq, List.length_singleton]

theorem hits_placeByWeight {weight : α → Int} {l : List α} (hl : l ≠ []) (hweight : ∀ a ∈ l, 0 ≤ weight a)
    (hsum : 0 < (l.map weight).sum) (i : Fin l.length) :
    ((placeByWeight weight (l.map weight).sum l hl).bound : Int) = (l.map weight).sum ∧
      ((placeByWeight weight (l.map weight).sum l hl).hits (fun j => j = i) : Int) = weight (l.get i) := by
  have hplace : ∀ j ∈ List.finRange l.length, 0 ≤ weight (l.get j) := fun j _ => hweight _ (List.get_mem l j)
  have hmap : (List.finRange l.length).map (fun j => weight (l.get j)) = l.map weight := by
    calc (List.finRange l.length).map (fun j => weight (l.get j))
        = ((List.finRange l.length).map l.get).map weight := by rw [List.map_map]; rfl
      _ = l.map weight := by rw [List.map_get_finRange]
  have htotal : (l.map weight).sum.toNat = ((List.finRange l.length).map fun j => (weight (l.get j)).toNat).sum := by
    have := sum_toNat_of_nonneg hplace
    rw [hmap] at this
    omega
  rw [placeByWeight, byWeight, dif_neg (not_le.2 hsum)]
  refine ⟨Int.toNat_of_nonneg hsum.le, ?_⟩
  have hhits := fun last => hits_walk last hplace fun j => decide (j = i)
  rw [← htotal, filter_finRange_eq, List.map_singleton, List.sum_singleton] at hhits
  exact (congrArg Nat.cast (hhits _)).trans (Int.toNat_of_nonneg (hplace i (List.mem_finRange i)))

/-! ### The order of the list -/

/-- The order of the list does not matter, if the sum is not positive or is the sum of the weights.
-/
theorem hits_byWeight_perm {weight : α → Int} {sum : Int} {l l' : List α} (hl : l ≠ []) (hl' : l' ≠ [])
    (hperm : l.Perm l') (hweight : ∀ a ∈ l, 0 ≤ weight a) (hsum : sum ≤ 0 ∨ sum = (l.map weight).sum) (p : α → Bool) :
    (byWeight weight sum l hl).bound = (byWeight weight sum l' hl').bound ∧
      (byWeight weight sum l hl).hits p = (byWeight weight sum l' hl').hits p := by
  unfold byWeight
  split_ifs with hpos
  · refine ⟨hperm.length_eq, ?_⟩
    simp only [Draw.hits, hits_uniform]
    exact hperm.countP_eq p
  · refine ⟨rfl, ?_⟩
    have hweight' : ∀ a ∈ l', 0 ≤ weight a := fun a ha => hweight a (hperm.mem_iff.2 ha)
    have hsum : sum = (l.map weight).sum := hsum.resolve_left hpos
    have htotal : sum.toNat = (l.map fun a => (weight a).toNat).sum := by
      have := sum_toNat_of_nonneg hweight
      omega
    have htotal' : sum.toNat = (l'.map fun a => (weight a).toNat).sum := by
      rw [htotal]
      exact (hperm.map _).sum_eq
    calc (List.range sum.toNat).countP (fun x : Nat => p (walk weight (l.getLast hl) l x))
        = ((l.filter p).map fun a => (weight a).toNat).sum := by rw [htotal, hits_walk _ hweight]
      _ = ((l'.filter p).map fun a => (weight a).toNat).sum := ((hperm.filter p).map _).sum_eq
      _ = (List.range sum.toNat).countP (fun x : Nat => p (walk weight (l'.getLast hl') l' x)) := by
        rw [htotal', hits_walk _ hweight']

end TokenEra.Lib
