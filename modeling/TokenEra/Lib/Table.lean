import Mathlib.Tactic

/-!
# Tables of rows with a key

A table is a list of rows, `key` is its unique column. `findRow` is a lookup by key and `saveRow`
writes a row over the one with its key; a key that is not in the table is not inserted.
`updateWhere` is a statement that changes every row meeting a condition.
-/

namespace TokenEra.Lib

variable {R K : Type*} [DecidableEq K] (key : R → K)

def findRow (k : K) (l : List R) : Option R := l.find? fun r => key r = k

def saveRow (r : R) (l : List R) : List R := l.map fun x => if key x = key r then r else x

def saveRows (rs : List R) (l : List R) : List R := rs.foldl (fun l r => saveRow key r l) l

variable {key}

variable {k : K} {l rs : List R} {r x : R}

theorem findRow_eq_some (h : findRow key k l = some r) :
    r ∈ l ∧ key r = k :=
  ⟨List.mem_of_find?_eq_some h, by simpa using List.find?_some h⟩

theorem findRow_isSome_of_mem (key : R → K) (h : r ∈ l) : ∃ x, findRow key (key r) l = some x :=
  Option.isSome_iff_exists.1 (List.find?_isSome.2 ⟨r, h, by simp⟩)

theorem findRow_eq_none (h : findRow key k l = none) : ∀ r ∈ l, key r ≠ k := by
  simpa [findRow] using h

/-- A lookup among changed rows, if the change keeps the keys. -/
theorem findRow_map {f : R → R} (hf : ∀ r, key (f r) = key r) (k : K) (l : List R) :
    findRow key k (l.map f) = (findRow key k l).map f := by
  induction l with
  | nil => rfl
  | cons r l ih =>
    simp only [findRow, List.map_cons, List.find?_cons, hf] at ih ⊢
    cases decide (key r = k) with
    | true => rfl
    | false => exact ih

theorem mem_saveRow (h : x ∈ saveRow key r l) :
    x = r ∨ (x ∈ l ∧ key x ≠ key r) := by
  obtain ⟨y, hy, rfl⟩ := List.mem_map.1 h
  split_ifs with hk
  · exact Or.inl rfl
  · exact Or.inr ⟨hy, hk⟩

@[simp] theorem map_key_saveRow (r : R) (l : List R) : (saveRow key r l).map key = l.map key := by
  rw [saveRow, List.map_map]
  refine List.map_congr_left fun x _ => ?_
  simp only [Function.comp_apply]
  split_ifs with hk
  · exact hk.symm
  · rfl

@[simp] theorem map_key_saveRows (rs : List R) (l : List R) :
    (saveRows key rs l).map key = l.map key := by
  induction rs generalizing l with
  | nil => rfl
  | cons r rs ih =>
    rw [saveRows, List.foldl_cons, ← saveRows, ih, map_key_saveRow]

theorem mem_saveRow_of_ne (hx : x ∈ l) (h : key x ≠ key r) :
    x ∈ saveRow key r l :=
  List.mem_map.2 ⟨x, hx, if_neg h⟩

theorem mem_saveRow_self (h : key r ∈ l.map key) : r ∈ saveRow key r l := by
  obtain ⟨x, hx, hk⟩ := List.mem_map.1 h
  exact List.mem_map.2 ⟨x, hx, if_pos hk⟩

theorem mem_saveRows_of_ne (hx : x ∈ l) (h : ∀ r ∈ rs, key x ≠ key r) :
    x ∈ saveRows key rs l := by
  induction rs generalizing l with
  | nil => exact hx
  | cons r rs ih =>
    exact ih (mem_saveRow_of_ne hx (h r List.mem_cons_self)) fun y hy => h y (List.mem_cons_of_mem _ hy)

/-- Rows saved under distinct keys of the table are all in it afterwards. -/
theorem mem_saveRows (hr : r ∈ rs) (hnodup : (rs.map key).Nodup)
    (h : key r ∈ l.map key) : r ∈ saveRows key rs l := by
  induction rs generalizing l with
  | nil => cases hr
  | cons y rs ih =>
    simp only [List.map_cons, List.nodup_cons, List.mem_map, not_exists, not_and] at hnodup
    rcases List.mem_cons.1 hr with rfl | hr
    · have hkept : r ∈ saveRows key rs (saveRow key r l) :=
        mem_saveRows_of_ne (mem_saveRow_self h) fun z hz heq => hnodup.1 z hz heq.symm
      exact hkept
    · exact ih hr hnodup.2 (by rwa [map_key_saveRow])

theorem findRow_saveRow_self (h : findRow key (key r) l = some x) :
    findRow key (key r) (saveRow key r l) = some r := by
  induction l with
  | nil => simp [findRow] at h
  | cons y l ih =>
    by_cases hy : key y = key r
    · simp [findRow, saveRow, hy]
    · have h' : findRow key (key r) l = some x := by simpa [findRow, hy] using h
      simpa [findRow, saveRow, hy] using ih h'

theorem findRow_saveRow_of_ne (h : k ≠ key r) :
    findRow key k (saveRow key r l) = findRow key k l := by
  induction l with
  | nil => rfl
  | cons y l ih =>
    simp only [findRow, saveRow, List.map_cons, List.find?_cons] at ih ⊢
    by_cases hy : key y = key r
    · simp [hy, h.symm, ih]
    · simp only [if_neg hy]
      by_cases hk : key y = k <;> simp [hk, ih]

theorem findRow_saveRows_of_ne (h : ∀ r ∈ rs, k ≠ key r) :
    findRow key k (saveRows key rs l) = findRow key k l := by
  induction rs generalizing l with
  | nil => rfl
  | cons r rs ih =>
    exact (ih fun x hx => h x (List.mem_cons_of_mem _ hx)).trans
      (findRow_saveRow_of_ne (h r List.mem_cons_self))

theorem findRow_append_one (h : findRow key (key r) l = none) :
    findRow key (key r) (l ++ [r]) = some r := by
  rw [findRow, List.find?_append, ← findRow, h]
  simp

theorem saveRow_append_one {t : R} (h : ∀ x ∈ l, key x ≠ key r) (ht : key t = key r) :
    saveRow key r (l ++ [t]) = l ++ [r] := by
  rw [saveRow, List.map_append, List.map_congr_left fun x hx => if_neg (h x hx), List.map_id', List.map_singleton,
    if_pos ht]

theorem findRow_eq_some_iff (h : (l.map key).Nodup) :
    findRow key k l = some r ↔ r ∈ l ∧ key r = k := by
  refine ⟨findRow_eq_some, ?_⟩
  rintro ⟨hr, rfl⟩
  obtain ⟨x, hx⟩ := findRow_isSome_of_mem key hr
  obtain ⟨hmem, hkey⟩ := findRow_eq_some hx
  rw [hx, List.inj_on_of_nodup_map h hmem hr hkey]

/-! ### Statements with a condition -/

section Where

variable {w : R → Prop} [DecidablePred w] {f : R → R}

def updateWhere (w : R → Prop) [DecidablePred w] (f : R → R) (l : List R) : List R :=
  l.map fun r => if w r then f r else r

theorem mem_updateWhere {l : List R} {x : R} (h : x ∈ updateWhere w f l) :
    ∃ r ∈ l, (w r ∧ x = f r) ∨ (¬ w r ∧ x = r) := by
  obtain ⟨r, hr, rfl⟩ := List.mem_map.1 h
  by_cases hw : w r
  · exact ⟨r, hr, .inl ⟨hw, if_pos hw⟩⟩
  · exact ⟨r, hr, .inr ⟨hw, if_neg hw⟩⟩

theorem map_updateWhere {C : Type*} {g : R → C} (hg : ∀ r, g (f r) = g r) (l : List R) :
    (updateWhere w f l).map g = l.map g := by
  rw [updateWhere, List.map_map]
  refine List.map_congr_left fun r _ => ?_
  simp only [Function.comp_apply]
  split_ifs
  · exact hg r
  · rfl

theorem findRow_updateWhere (hf : ∀ r, key (f r) = key r) (k : K) (l : List R) :
    findRow key k (updateWhere (fun r => key r = k) f l) = (findRow key k l).map f := by
  have hkey : ∀ r, key (if key r = k then f r else r) = key r := by
    intro r
    split_ifs
    · exact hf r
    · rfl
  rw [updateWhere, findRow_map hkey]
  cases hfind : findRow key k l with
  | none => rfl
  | some r => rw [Option.map_some, Option.map_some, if_pos (findRow_eq_some hfind).2]

end Where

end TokenEra.Lib
