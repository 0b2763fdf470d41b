import TokenEra.Lib.Json

/-!
# The response schema of a Gemini request

`RemoveAdditionalProperties` goes down a schema and deletes what Gemini refuses. It stops after five
levels, it deletes `additionalProperties` from nodes of type `object` only, and it descends from
those to the properties and the members of `allOf`, `anyOf` and `oneOf`, from nodes of type `array`
to the items, if they are one schema and not a list of them, and from no others. So a schema is free
of `additionalProperties` afterwards exactly if every node that has it is of type `object` and lies
on that way (`removed_iff`).

The call of a depth is a call with the number of levels that are left. A schema is decoded JSON, so
no part of it is shared.
-/

namespace TokenEra.ResponseSchema

open Lib

def combinations : List String := ["allOf", "anyOf", "oneOf"]

/-- `value["type"]` as a string. -/
def typeOf (value : List (String × Json)) : Option String :=
  match value.lookup "type" with
  | some (.str t) => some t
  | _ => none

def keeps (type : Option String) (key : String) : Bool :=
  key ≠ "title" ∧ key ≠ "$schema" ∧ (type = some "object" → key ≠ "additionalProperties")

/-- What becomes of a member of a node, if the nested schemas are treated by `remove`. -/
def descend (remove : Json → Json) (type : Option String) (key : String) : Json → Json
  | .obj value =>
    if type = some "object" ∧ key = "properties" then .obj (value.map fun p => (p.1, remove p.2))
    else if type = some "array" ∧ key = "items" then remove (.obj value)
    else .obj value
  | .arr nested => if type = some "object" ∧ key ∈ combinations then .arr (nested.map remove) else .arr nested
  | v => v

/-- `RemoveAdditionalProperties` with so many levels left. -/
def removeWithin : Nat → Json → Json
  | n + 1, .obj value =>
    let type := typeOf value
    .obj ((value.filter fun e => keeps type e.1).map fun e => (e.1, descend (removeWithin n) type e.1 e.2))
  | _, schema => schema

def removeAdditionalProperties (schema : Json) (depth : Nat) : Json := removeWithin (5 - depth) schema

/-! ### Nodes -/

inductive Position where
  | property | items | tuple | combination

def Child : Position → Json → Json → Prop
  | .property, .obj value, v => ∃ properties name, ("properties", .obj properties) ∈ value ∧ (name, v) ∈ properties
  | .items, .obj value, v => ("items", v) ∈ value
  | .tuple, .obj value, v => ∃ nested, ("items", .arr nested) ∈ value ∧ v ∈ nested
  | .combination, .obj value, v => ∃ key ∈ combinations, ∃ nested, (key, .arr nested) ∈ value ∧ v ∈ nested
  | _, _, _ => False

def HasType (t : String) (node : Json) : Prop := ∃ value, node = .obj value ∧ typeOf value = some t

def HasAdditional (node : Json) : Prop := ∃ value v, node = .obj value ∧ ("additionalProperties", v) ∈ value

def Descends (node : Json) : Position → Prop
  | .items => HasType "array" node
  | .tuple => False
  | _ => HasType "object" node

/-- A node so many steps below a schema; the proposition says whether the removal takes each of
them. -/
inductive Path : Json → Nat → Prop → Json → Prop where
  | root (s) : Path s 0 True s
  | step {s v node position depth taken} : Child position s v → Path v depth taken node →
      Path s (depth + 1) (Descends s position ∧ taken) node

def Clean (s : Json) : Prop := ∀ depth taken node, Path s depth taken node → ¬ HasAdditional node

/-- Every node with `additionalProperties` is of type `object`, less than so many steps deep, on the
way of the removal. -/
def Within (levels : Nat) (s : Json) : Prop :=
  ∀ depth taken node, Path s depth taken node → HasAdditional node → HasType "object" node ∧ depth < levels ∧ taken

theorem clean_iff (s : Json) : Clean s ↔ ¬ HasAdditional s ∧ ∀ position v, Child position s v → Clean v := by
  constructor
  · exact fun h => ⟨h 0 True s (.root s), fun position v hchild depth taken node hpath =>
      h _ _ node (.step hchild hpath)⟩
  · rintro ⟨hroot, hbelow⟩ depth taken node hpath
    cases hpath with
    | root => exact hroot
    | step hchild hpath => exact hbelow _ _ hchild _ _ _ hpath

theorem within_zero (s : Json) : Within 0 s ↔ Clean s := by
  constructor
  · exact fun h depth taken node hpath hadditional =>
      absurd (h depth taken node hpath hadditional).2.1 (Nat.not_lt_zero _)
  · exact fun h depth taken node hpath hadditional => absurd hadditional (h depth taken node hpath)

theorem within_succ (n : Nat) (s : Json) :
    Within (n + 1) s ↔ (HasAdditional s → HasType "object" s) ∧
      ∀ position v, Child position s v → (Descends s position → Within n v) ∧ (¬ Descends s position → Clean v) := by
  constructor
  · intro h
    refine ⟨fun hadditional => (h 0 True s (.root s) hadditional).1, fun position v hchild =>
      ⟨fun hdescends => ?_, fun hnot => ?_⟩⟩
    · intro depth taken node hpath hadditional
      obtain ⟨htype, hdepth, -, htaken⟩ := h _ _ node (.step hchild hpath) hadditional
      exact ⟨htype, Nat.lt_of_succ_lt_succ hdepth, htaken⟩
    · exact fun depth taken node hpath hadditional => hnot (h _ _ node (.step hchild hpath) hadditional).2.2.1
  · rintro ⟨hroot, hbelow⟩ depth taken node hpath hadditional
    cases hpath with
    | root => exact ⟨hroot hadditional, n.succ_pos, trivial⟩
    | @step _ v _ position depth taken hchild hpath =>
      obtain ⟨hdeep, hshallow⟩ := hbelow position v hchild
      by_cases hdescends : Descends s position
      · obtain ⟨htype, hdepth, htaken⟩ := hdeep hdescends depth taken node hpath hadditional
        exact ⟨htype, Nat.succ_lt_succ hdepth, hdescends, htaken⟩
      · exact absurd hadditional (hshallow hdescends depth taken node hpath)

/-! ### What the removal does to a node -/

variable {value : List (String × Json)}

theorem hasType_obj (t : String) : HasType t (.obj value) ↔ typeOf value = some t := by
  simp [HasType]

theorem removeWithin_obj (n : Nat) :
    ∃ rest, removeWithin (n + 1) (.obj value) = .obj rest ∧ ∀ key w, (key, w) ∈ rest ↔
      keeps (typeOf value) key = true ∧ ∃ v, (key, v) ∈ value ∧ w = descend (removeWithin n) (typeOf value) key v := by
  refine ⟨_, rfl, fun key w => ?_⟩
  simp only [List.mem_map, List.mem_filter, Prod.exists, Prod.mk.injEq]
  constructor
  · rintro ⟨key, v, ⟨hmem, hkeeps⟩, rfl, rfl⟩
    exact ⟨hkeeps, v, hmem, rfl⟩
  · rintro ⟨hkeeps, v, hmem, rfl⟩
    exact ⟨key, v, ⟨hmem, hkeeps⟩, rfl, rfl⟩

theorem hasAdditional_removeWithin (n : Nat) (s : Json) :
    HasAdditional (removeWithin (n + 1) s) ↔ HasAdditional s ∧ ¬ HasType "object" s := by
  cases s with
  | obj value =>
    obtain ⟨rest, heq, hrest⟩ := removeWithin_obj n
    rw [heq, hasType_obj]
    simp only [HasAdditional, Json.obj.injEq, exists_and_left, exists_eq_left', hrest]
    by_cases htype : typeOf value = some "object" <;> simp [keeps, htype]
  | _ => simp [removeWithin, HasAdditional]

section

variable {n : Nat} {value : List (String × Json)} {position : Position} {w : Json}

theorem child_of_not_descends (h : ¬ Descends (.obj value) position) :
    Child position (removeWithin (n + 1) (.obj value)) w ↔ Child position (.obj value) w := by
  obtain ⟨rest, heq, hrest⟩ := removeWithin_obj n
  rw [heq]
  cases position <;> simp only [Descends, hasType_obj] at h <;> simp only [Child, hrest]
  case items =>
    have hsame (v : Json) : descend (removeWithin n) (typeOf value) "items" v = v := by
      cases v <;> simp [descend, h, combinations]
    simp [keeps, hsame]
  case tuple =>
    -- one schema stays one schema, whether the removal goes there or not
    have hsame (v : Json) (nested : List Json) :
        .arr nested = descend (removeWithin n) (typeOf value) "items" v ↔ v = .arr nested := by
      cases v with
      | obj items =>
        rw [descend]
        split_ifs <;> cases n <;> simp [removeWithin]
      | arr l => simp [descend, combinations, eq_comm]
      | _ => simp [descend]
    simp [keeps, hsame]
  case property =>
    have hsame (v : Json) : descend (removeWithin n) (typeOf value) "properties" v = v := by
      cases v <;> simp [descend, h]
    simp [keeps, hsame]
  case combination =>
    have hsame (key : String) (hkey : key ∈ combinations) (v : Json) : descend (removeWithin n)
        (typeOf value) key v = v := by
      fin_cases hkey <;> cases v <;> simp [descend, h]
    simp only [combinations, List.mem_cons, List.not_mem_nil, or_false, exists_eq_or_imp, exists_eq_left] at hsame ⊢
    simp [keeps, hsame]

theorem child_of_descends (h : Descends (.obj value) position) :
    Child position (removeWithin (n + 1) (.obj value)) w ↔ ∃ v, Child position (.obj value) v ∧
      w = removeWithin n v := by
  obtain ⟨rest, heq, hrest⟩ := removeWithin_obj n
  rw [heq]
  cases position <;> simp only [Descends, hasType_obj] at h <;> simp only [Child, hrest, h]
  case items =>
    have hremove (v : Json) : descend (removeWithin n) (some "array") "items" v = removeWithin n v := by
      cases v with
      | obj value => rfl
      | _ => cases n <;> rfl
    simp [keeps, hremove]
  case property =>
    constructor
    · rintro ⟨_, name, ⟨-, u, hu, hdescend⟩, hw⟩
      cases u <;> simp [descend, combinations] at hdescend
      case obj properties =>
        subst hdescend
        obtain ⟨p, hp, hpw⟩ := List.mem_map.1 hw
        exact ⟨p.2, ⟨properties, p.1, hu, hp⟩, (congrArg Prod.snd hpw).symm⟩
    · rintro ⟨v, ⟨properties, name, hmem, hv⟩, rfl⟩
      exact ⟨_, name, ⟨by simp [keeps], _, hmem, rfl⟩, List.mem_map.2 ⟨(name, v), hv, rfl⟩⟩
  case combination =>
    constructor
    · rintro ⟨key, hkey, _, ⟨-, u, hu, hdescend⟩, hw⟩
      cases u <;> fin_cases hkey <;> simp [descend, combinations] at hdescend
      all_goals
        subst hdescend
        obtain ⟨v, hv, rfl⟩ := List.mem_map.1 hw
        exact ⟨v, ⟨_, by simp [combinations], _, hu, hv⟩, rfl⟩
    · rintro ⟨v, ⟨key, hkey, nested, hmem, hv⟩, rfl⟩
      refine ⟨key, hkey, nested.map (removeWithin n), ⟨?_, _, hmem, by simp [descend, hkey]⟩, List.mem_map_of_mem hv⟩
      fin_cases hkey <;> simp [keeps]

end

theorem clean_removeWithin_iff (n : Nat) (s : Json) : Clean (removeWithin n s) ↔ Within n s := by
  induction n generalizing s with
  | zero => exact (within_zero s).symm
  | succ n ih =>
    rw [clean_iff, within_succ, hasAdditional_removeWithin, not_and, not_not]
    refine and_congr_right fun _ => forall_congr' fun position => ?_
    cases s with
    | obj value =>
      by_cases hdescends : Descends (.obj value) position
      · simp only [child_of_descends hdescends, hdescends, forall_const, not_true_eq_false, false_implies, and_true]
        constructor
        · exact fun h v hchild => (ih v).1 (h _ ⟨v, hchild, rfl⟩)
        · rintro h _ ⟨v, hchild, rfl⟩
          exact (ih v).2 (h v hchild)
      · simp [child_of_not_descends hdescends, hdescends]
    | _ => cases position <;> simp [removeWithin, Child]

/-- What is left of a schema has no `additionalProperties` exactly if it stood only where the
removal gets to. -/
theorem removed_iff (schema : Json) : Clean (removeAdditionalProperties schema 0) ↔ Within 5 schema :=
  clean_removeWithin_iff 5 schema

def nested : Nat → Json
  | 0 => .obj [("type", .str "object"), ("additionalProperties", .bool false)]
  | n + 1 => .obj [("type", .str "object"), ("properties", .obj [("p", nested n)])]

theorem exists_path_nested (n : Nat) : ∃ taken, Path (nested n) n taken (nested 0) := by
  induction n with
  | zero => exact ⟨True, .root _⟩
  | succ n ih =>
    obtain ⟨taken, hpath⟩ := ih
    have hchild : Child .property (nested (n + 1)) (nested n) := ⟨[("p", nested n)], "p", by simp, by simp⟩
    exact ⟨_, .step hchild hpath⟩

/-- Six levels of objects. -/
theorem sixth_level_kept : ¬ Clean (removeAdditionalProperties (nested 5) 0) := by
  obtain ⟨taken, hpath⟩ := exists_path_nested 5
  intro h
  have hwithin := (clean_removeWithin_iff 5 (nested 5)).1 h 5 taken (nested 0) hpath ⟨_, .bool false, rfl, by simp⟩
  exact absurd hwithin.2.1 (lt_irrefl 5)

end TokenEra.ResponseSchema
