import TokenEra.Authz.Policy

/-!
# Permission edits

`SetUserPermissionsInTx`: for each known resource of the map, the user's rows of the resource are
deleted, and rows are written for the catalog actions whose requested value is not that of the
managed role.

Rows are found by their columns, rules by what casbin makes of the line. A row may load as a rule of
the user without standing in the user's columns; the edit then leaves it.
-/

namespace TokenEra.Authz

open Lib

structure PermissionsMap where
  entries : Dict String (Dict String Bool)
  nodup : (entries.map Prod.fst).Nodup

structure OverridePolicy where
  resource : String
  action : String
  effect : String
deriving DecidableEq, Repr

section Edit

variable (casbin : Casbin) (reg : Registry) (e : List Rule)

def userOverridePolicies (resource : String) (actions : Dict String Bool) : List OverridePolicy :=
  let overrides := (reg.catalogActions resource).filterMap fun action =>
    match actions.get? action with
    | none => none
    | some desired =>
      if desired = roleBaselineAllows casbin e managedRoleKey ⟨resource, action⟩ then none
      else some ⟨resource, action, if desired then effectAllow else effectDeny⟩
  overrides.insertionSort fun a b => a.action ≤ b.action

/-- `Create` with `OnConflict.DoNothing`; the unique index has all columns. -/
def createRow (rows : List CasbinRule) (row : CasbinRule) :
    List CasbinRule := if row ∈ rows then rows else rows ++ [row]

def Owned (userID : Int) (resource : String) (row : CasbinRule) : Prop :=
  row.ptype = "p" ∧ row.v0 = userSubject userID ∧ row.v1 = resource

instance (userID : Int) (resource : String) (row : CasbinRule) : Decidable (Owned userID resource row) :=
  inferInstanceAs (Decidable (_ ∧ _ ∧ _))

def overrideRow (userID : Int) (policy : OverridePolicy) : CasbinRule :=
  newRule "p" [userSubject userID, policy.resource, policy.action, policy.effect]

def setResource (userID : Int) (rows : List CasbinRule) (entry : String × Dict String Bool) : List CasbinRule :=
  if !reg.isKnownResource entry.1 then rows
  else
    ((userOverridePolicies casbin reg e entry.1 entry.2).map (overrideRow userID)).foldl createRow
      (rows.filter fun row => ¬Owned userID entry.1 row)

def setUserPermissionsInTx (userID : Int) (permissions : PermissionsMap) (rows : List CasbinRule) : List CasbinRule :=
  permissions.entries.foldl (setResource casbin reg e userID) rows

end Edit

variable {casbin : Casbin} {reg : Registry} {e : List Rule} {userID : Int}

/-! ### Rows after an edit -/

variable {policy : OverridePolicy} {resource s : String} {row : CasbinRule} {rows : List CasbinRule}

theorem mem_userOverridePolicies {actions : Dict String Bool} :
    policy ∈ userOverridePolicies casbin reg e resource actions ↔
      ∃ action ∈ reg.catalogActions resource, ∃ desired, actions.get? action = some desired ∧
        desired ≠ roleBaselineAllows casbin e managedRoleKey ⟨resource, action⟩ ∧
        policy = ⟨resource, action, if desired then effectAllow else effectDeny⟩ := by
  simp only [userOverridePolicies, List.mem_insertionSort, List.mem_filterMap]
  refine exists_congr fun action => and_congr_right fun _ => ?_
  cases actions.get? action with
  | none => simp
  | some desired =>
    by_cases h : desired = roleBaselineAllows casbin e managedRoleKey ⟨resource, action⟩
    · simp [h]
    · simp [h, eq_comm]

theorem mem_foldl_createRow {news : List CasbinRule} :
    row ∈ news.foldl createRow rows ↔ row ∈ rows ∨ row ∈ news := by
  induction news generalizing rows with
  | nil => simp
  | cons new news ih =>
    rw [List.foldl_cons, ih, createRow]
    split_ifs with hnew
    · grind
    · grind

def Written (casbin : Casbin) (reg : Registry) (e : List Rule) (userID : Int) (entry : String × Dict String Bool)
    (row : CasbinRule) : Prop :=
  ∃ policy ∈ userOverridePolicies casbin reg e entry.1 entry.2, row = overrideRow userID policy

theorem mem_setResource {entry : String × Dict String Bool} :
    row ∈ setResource casbin reg e userID rows entry ↔
      if reg.isKnownResource entry.1 = true then (row ∈ rows ∧ ¬Owned userID entry.1 row) ∨
        Written casbin reg e userID entry row
      else row ∈ rows := by
  unfold setResource
  by_cases hknown : reg.isKnownResource entry.1 = true
  · rw [if_neg (by simp [hknown]), if_pos hknown, mem_foldl_createRow, List.mem_map, List.mem_filter, decide_eq_true_eq]
    simp only [Written, eq_comm]
  · simp [hknown]

theorem Written.owned {entry : String × Dict String Bool} (h : Written casbin reg e userID entry row) :
    Owned userID entry.1 row := by
  obtain ⟨policy, hpolicy, rfl⟩ := h
  obtain ⟨action, -, desired, -, -, rfl⟩ := mem_userOverridePolicies.1 hpolicy
  exact ⟨rfl, rfl, rfl⟩

/-- The rows left are those of no edited resource and the new ones. Resources stand in the map once,
so no round deletes what an earlier one has written. -/
theorem mem_foldl_setResource {entries : Dict String (Dict String Bool)}
    (hnodup : (entries.map Prod.fst).Nodup) :
    row ∈ entries.foldl (setResource casbin reg e userID) rows ↔
      (row ∈ rows ∧ ∀ entry ∈ entries, reg.isKnownResource entry.1 = true → ¬Owned userID entry.1 row) ∨
        ∃ entry ∈ entries, reg.isKnownResource entry.1 = true ∧ Written casbin reg e userID entry row := by
  induction entries generalizing rows with
  | nil => simp
  | cons entry entries ih =>
    obtain ⟨hnot, hnodup⟩ := List.nodup_cons.1 hnodup
    rw [List.foldl_cons, ih hnodup, mem_setResource]
    by_cases hknown : reg.isKnownResource entry.1 = true
    · have hkept : Written casbin reg e userID entry row →
          ∀ other ∈ entries, reg.isKnownResource other.1 = true → ¬Owned userID other.1 row := by
        intro hwritten other hother _ howned
        have hsame : other.1 = entry.1 := howned.2.2.symm.trans hwritten.owned.2.2
        exact hnot (hsame ▸ List.mem_map_of_mem hother)
      rw [if_pos hknown]
      simp only [List.forall_mem_cons, List.exists_mem_cons_iff, hknown, true_and, forall_const]
      tauto
    · simp [hknown]

theorem mem_setUserPermissionsInTx {permissions : PermissionsMap} :
    row ∈ setUserPermissionsInTx casbin reg e userID permissions rows ↔
      (row ∈ rows ∧ ∀ entry ∈ permissions.entries, reg.isKnownResource entry.1 = true → ¬Owned userID entry.1 row) ∨
        ∃ entry ∈ permissions.entries, reg.isKnownResource entry.1 = true ∧ Written casbin reg e userID entry row :=
  mem_foldl_setResource permissions.nodup

/-! ### Rules after an edit -/

theorem Registry.plain_of_isKnownResource (h : reg.isKnownResource resource = true) : Plain resource := by
  obtain ⟨d, hd, h⟩ := List.any_eq_true.1 h
  have hresource : d.resource = resource := by simpa using h
  exact hresource ▸ (reg.plain d hd).1

theorem Registry.exists_of_mem_catalogActions {action : String} (h : action ∈ reg.catalogActions resource) :
    ∃ d ∈ reg.resources, d.resource = resource ∧ action ∈ d.actions := by
  unfold catalogActions at h
  split at h
  · rename_i d hd
    exact ⟨d, List.mem_of_find?_eq_some hd, by simpa using List.find?_some hd, h⟩
  · cases h

theorem loadRow_of_owned {rule : Rule} (hresource : Plain resource)
    (hrow : Owned userID resource row) (h : casbin.loadRow row = some (some rule)) :
    rule.sub = userSubject userID ∧ rule.obj = resource := by
  obtain ⟨hp, h0, h1⟩ := hrow
  obtain ⟨rest, hline⟩ : ∃ rest, ruleToLine row = ", ".intercalate ("p" :: userSubject userID :: resource :: rest) := by
    rw [ruleToLine, hp, h0, h1]
    rw [List.filter_cons_of_pos (by simp [(plain_userSubject userID).1]),
      List.filter_cons_of_pos (by simp [hresource.1])]
    exact ⟨_, rfl⟩
  rw [Casbin.loadRow, hline] at h
  exact casbin.loadLine_start _ _ _ _ (plain_userSubject userID) hresource h

def OverridePolicy.rule (userID : Int) (policy : OverridePolicy) : Rule :=
  ⟨userSubject userID, policy.resource, policy.action, policy.effect⟩

theorem loadRow_overrideRow (hresource : Plain policy.resource) (haction : Plain policy.action)
    (heffect : Plain policy.effect) : casbin.loadRow (overrideRow userID policy) =
      some (some (policy.rule userID)) := by
  have hline : ruleToLine (overrideRow userID policy) =
      ", ".intercalate ["p", userSubject userID, policy.resource, policy.action, policy.effect] := by
    simp [ruleToLine, overrideRow, newRule, (plain_userSubject userID).1, hresource.1, haction.1, heffect.1]
  rw [Casbin.loadRow, hline]
  exact casbin.loadLine_plain (policy.rule userID) (plain_userSubject userID) hresource haction heffect

theorem loadRow_of_mem_userOverridePolicies {actions : Dict String Bool}
    (h : policy ∈ userOverridePolicies casbin reg e resource actions) :
    casbin.loadRow (overrideRow userID policy) = some (some (policy.rule userID)) := by
  obtain ⟨action, haction, desired, -, -, rfl⟩ := mem_userOverridePolicies.1 h
  obtain ⟨d, hd, rfl, hmem⟩ := Registry.exists_of_mem_catalogActions haction
  have heffect : ∀ desired : Bool, Plain (if desired then effectAllow else effectDeny) := by decide
  exact loadRow_overrideRow (reg.plain d hd).1 ((reg.plain d hd).2 action hmem) (heffect desired)

section After

variable {permissions : PermissionsMap} {rows : List CasbinRule} {before after : List Rule}

theorem exists_loadPolicy_after (hbefore : casbin.loadPolicy rows = some before) :
    ∃ after, casbin.loadPolicy (setUserPermissionsInTx casbin reg e userID permissions rows) = some after := by
  refine Casbin.exists_loadPolicy fun row hrow => ?_
  obtain ⟨hrow, -⟩ | ⟨entry, -, -, policy, hpolicy, rfl⟩ := mem_setUserPermissionsInTx.1 hrow
  · exact (Casbin.loadPolicy_eq_some hbefore).1 row hrow
  · rw [loadRow_of_mem_userOverridePolicies hpolicy]
    rfl

theorem sameRules_after (hbefore : casbin.loadPolicy rows = some before)
    (hafter : casbin.loadPolicy (setUserPermissionsInTx casbin reg e userID permissions rows) = some after)
    {sub obj : String}
    (h : sub = userSubject userID → ∀ entry ∈ permissions.entries, reg.isKnownResource entry.1 = true → entry.1 ≠ obj) :
    SameRules before after sub obj := by
  rintro rule rfl rfl
  rw [(Casbin.loadPolicy_eq_some hbefore).2, (Casbin.loadPolicy_eq_some hafter).2]
  constructor
  · rintro ⟨row, hrow, hload⟩
    refine ⟨row, mem_setUserPermissionsInTx.2 (.inl ⟨hrow, fun entry hentry hknown howned => ?_⟩), hload⟩
    obtain ⟨hsub, hobj⟩ := loadRow_of_owned (Registry.plain_of_isKnownResource hknown) howned hload
    exact h hsub entry hentry hknown hobj.symm
  · rintro ⟨row, hrow, hload⟩
    obtain ⟨hrow, -⟩ | ⟨entry, hentry, hknown, hwritten⟩ := mem_setUserPermissionsInTx.1 hrow
    · exact ⟨row, hrow, hload⟩
    · obtain ⟨hsub, hobj⟩ := loadRow_of_owned (Registry.plain_of_isKnownResource hknown) hwritten.owned hload
      exact absurd hobj.symm (h hsub entry hentry hknown)

/-- Every row that loads as a rule of the user on a known resource of the map stands in the columns
of the two. -/
def InColumns (casbin : Casbin) (reg : Registry) (userID : Int) (permissions : PermissionsMap)
    (rows : List CasbinRule) : Prop :=
  ∀ row ∈ rows, ∀ rule, casbin.loadRow row = some (some rule) → rule.sub = userSubject userID →
    reg.isKnownResource rule.obj = true → rule.obj ∈ permissions.entries.map Prod.fst → Owned userID rule.obj row

/-- The user's rules on a resource of the map are the overrides. -/
theorem mem_after (hcolumns : InColumns casbin reg userID permissions rows)
    (hafter : casbin.loadPolicy (setUserPermissionsInTx casbin reg e userID permissions rows) = some after)
    {resource : String} {actions : Dict String Bool} (hentry : (resource, actions) ∈ permissions.entries)
    (hknown : reg.isKnownResource resource = true) {rule : Rule} (hsub : rule.sub = userSubject userID)
    (hobj : rule.obj = resource) :
    rule ∈ after ↔ ∃ policy ∈ userOverridePolicies casbin reg e resource actions, rule = policy.rule userID := by
  rw [(Casbin.loadPolicy_eq_some hafter).2]
  constructor
  · rintro ⟨row, hrow, hload⟩
    obtain ⟨hrow, hkept⟩ | ⟨entry, hentry', -, policy, hpolicy, rfl⟩ := mem_setUserPermissionsInTx.1 hrow
    · have howned : Owned userID resource row := by
        subst hobj
        exact hcolumns row hrow rule hload hsub hknown (List.mem_map_of_mem hentry)
      exact absurd howned (hkept _ hentry hknown)
    · rw [loadRow_of_mem_userOverridePolicies hpolicy] at hload
      have hrule : policy.rule userID = rule := Option.some.inj (Option.some.inj hload)
      have hresource : entry.1 = resource := by
        obtain ⟨action, -, desired, -, -, rfl⟩ := mem_userOverridePolicies.1 hpolicy
        rw [← hobj, ← hrule]
        rfl
      have hsame : entry = (resource, actions) :=
        List.inj_on_of_nodup_map permissions.nodup hentry' hentry hresource
      subst hsame
      exact ⟨policy, hpolicy, hrule.symm⟩
  · rintro ⟨policy, hpolicy, rfl⟩
    exact ⟨overrideRow userID policy, mem_setUserPermissionsInTx.2 (.inr ⟨_, hentry, hknown, policy, hpolicy, rfl⟩),
      loadRow_of_mem_userOverridePolicies hpolicy⟩

/-- An override that differs from the baseline takes effect, and nothing else of the user's does. -/
theorem explicitSubjectEffect_after (hcolumns : InColumns casbin reg userID permissions rows)
    (hafter : casbin.loadPolicy (setUserPermissionsInTx casbin reg e userID permissions rows) = some after)
    {resource action : String}
    {actions : Dict String Bool} (hentry : (resource, actions) ∈ permissions.entries)
    (hknown : reg.isKnownResource resource = true) (haction : action ∈ reg.catalogActions resource) :
    explicitSubjectEffect casbin after (userSubject userID) ⟨resource, action⟩ =
      match actions.get? action with
      | none => none
      | some desired =>
        if desired = roleBaselineAllows casbin e managedRoleKey ⟨resource, action⟩ then none
        else some (if desired then effectAllow else effectDeny) := by
  have hplain := Registry.plain_of_isKnownResource hknown
  have haction' : action ≠ "" := by
    obtain ⟨d, hd, -, hmem⟩ := Registry.exists_of_mem_catalogActions haction
    exact ((reg.plain d hd).2 action hmem).1
  -- the rules found are those of the requested value, if it differs
  have hmem (rule : Rule) : rule ∈ casbin.getFilteredPolicy after (userSubject userID) resource action ↔
      ∃ desired, actions.get? action = some desired ∧
        desired ≠ roleBaselineAllows casbin e managedRoleKey ⟨resource, action⟩ ∧
        rule = ⟨userSubject userID, resource, action, if desired then effectAllow else effectDeny⟩ := by
    rw [casbin.mem_getFilteredPolicy]
    simp only [(plain_userSubject userID).1, hplain.1, haction', false_or]
    constructor
    · rintro ⟨hrule, hsub, hobj, hact⟩
      obtain ⟨policy, hpolicy, rfl⟩ := (mem_after hcolumns hafter hentry hknown hsub hobj).1 hrule
      obtain ⟨a, -, desired, hget, hne, rfl⟩ := mem_userOverridePolicies.1 hpolicy
      subst hact
      exact ⟨desired, hget, hne, rfl⟩
    · rintro ⟨desired, hget, hne, rfl⟩
      have hpolicy := mem_userOverridePolicies.2 ⟨action, haction, desired, hget, hne, rfl⟩
      exact ⟨(mem_after hcolumns hafter hentry hknown rfl rfl).2 ⟨_, hpolicy, rfl⟩, rfl, rfl, rfl⟩
  have heffect (effect : String) :
      (∃ rule ∈ casbin.getFilteredPolicy after (userSubject userID) resource action, policyEffect rule = effect) ↔
        ∃ desired, actions.get? action = some desired ∧
          desired ≠ roleBaselineAllows casbin e managedRoleKey ⟨resource, action⟩ ∧
          effect = if desired then effectAllow else effectDeny := by
    simp only [hmem]
    constructor
    · rintro ⟨-, ⟨desired, hget, hne, rfl⟩, rfl⟩
      exact ⟨desired, hget, hne, by cases desired <;> rfl⟩
    · rintro ⟨desired, hget, hne, rfl⟩
      exact ⟨_, ⟨desired, hget, hne, rfl⟩, by cases desired <;> rfl⟩
  rw [explicitSubjectEffect, combinedEffect_eq, if_congr (heffect effectDeny) rfl rfl]
  simp only [Bool.false_eq_true, false_or]
  rw [if_congr (heffect effectAllow) rfl rfl]
  cases actions.get? action with
  | none => simp
  | some desired =>
    by_cases hbase : desired = roleBaselineAllows casbin e managedRoleKey ⟨resource, action⟩
    · simp [hbase]
    · cases desired <;> simp [hbase, effectAllow, effectDeny]

end After

/-- An edit does what was asked on the resources of the map and nothing elsewhere, if the user's
rules on them stand in the user's columns. -/
theorem setUserPermissionsInTx_spec {systemRole : Int} {permissions : PermissionsMap} {rows : List CasbinRule}
    {before : List Rule} (hbefore : casbin.loadPolicy rows = some before)
    (hbaseline : ∀ permission, roleBaselineAllows casbin e managedRoleKey permission =
      roleBaselineAllows casbin before managedRoleKey permission)
    (hcolumns : InColumns casbin reg userID permissions rows)
    (hrole : resolveSubjectRoles systemRole = [managedRoleKey]) :
    ∃ after, casbin.loadPolicy (setUserPermissionsInTx casbin reg e userID permissions rows) = some after ∧
      (∀ resource actions, (resource, actions) ∈ permissions.entries → reg.isKnownResource resource = true →
        ∀ action ∈ reg.catalogActions resource, can casbin reg after userID systemRole ⟨resource, action⟩ =
          (actions.get? action).getD (roleBaselineAllows casbin before managedRoleKey ⟨resource, action⟩)) ∧
      (∀ permission, (∀ entry ∈ permissions.entries, entry.1 = permission.resource →
        reg.isKnownResource entry.1 = false) →
        can casbin reg after userID systemRole permission = can casbin reg before userID systemRole permission) ∧
      ∀ other, other ≠ userID → ∀ otherRole permission,
        can casbin reg after other otherRole permission = can casbin reg before other otherRole permission := by
  obtain ⟨after, hafter⟩ := exists_loadPolicy_after hbefore
  have hroles (role obj : String) : SameRules before after (roleSubject role) obj :=
    sameRules_after hbefore hafter fun h => absurd h.symm (userSubject_ne_roleSubject userID role)
  refine ⟨after, hafter, fun resource actions hentry hknown action haction => ?_, fun permission hnot => ?_,
    fun other hother otherRole permission => ?_⟩
  · obtain ⟨d, hd, hresource, hmem⟩ := Registry.exists_of_mem_catalogActions haction
    have hpermission : reg.isKnownPermission ⟨resource, action⟩ = true :=
      List.any_eq_true.2 ⟨d, hd, by simp [hresource, hmem]⟩
    have hsame : roleBaselineAllows casbin before managedRoleKey ⟨resource, action⟩ =
        roleBaselineAllows casbin after managedRoleKey ⟨resource, action⟩ :=
      roleBaselineAllows_congr (Registry.plain_of_isKnownResource hknown).1 (hroles _ _)
    have heffect := explicitSubjectEffect_after hcolumns hafter hentry hknown haction
    rw [hbaseline, hsame] at heffect
    rw [can_managed hrole hpermission, heffect, hsame]
    cases actions.get? action with
    | none => rfl
    | some desired =>
      by_cases hbase : desired = roleBaselineAllows casbin after managedRoleKey ⟨resource, action⟩
      · rw [← hbase]
        simp
      · cases desired <;> simp [hbase, effectAllow, effectDeny]
  · refine (can_congr (sameRules_after hbefore hafter fun _ entry hentry hknown heq => ?_)
      fun role => hroles role _).symm
    simp [hnot entry hentry heq] at hknown
  · refine (can_congr (sameRules_after hbefore hafter fun h => ?_) fun role => hroles role _).symm
    exact absurd (userSubject_injective h) hother

/-! ### A reader of lines without quotes -/

def commaFields (line : List Char) : List String := (line.splitOn ',').map fun field =>
    String.ofList (field.dropWhile isSpace)

def loadFields : List String → Option (Option Rule)
  | [ptype, sub, obj, act, eft] => if ptype = "p" then some (some ⟨sub, obj, act, eft⟩) else none
  | _ => none

theorem Plain.not_mem {c : Char} (h : Plain s) (hc : plainChar c = false) : c ∉ s.toList := by
  intro hmem
  have := List.all_eq_true.1 h.2 c hmem
  simp [hc] at this

theorem Plain.dropWhile (h : Plain s) : s.toList.dropWhile isSpace = s.toList := by
  cases hs : s.toList with
  | nil => rfl
  | cons c l =>
    have hc : plainChar c = true := List.all_eq_true.1 h.2 c (by simp [hs])
    have hspace : isSpace c = false := by
      simp only [plainChar, Bool.and_eq_true, decide_eq_true_eq] at hc
      exact isSpace_eq_false (by omega) (by omega)
    simp [hspace]

variable {l : List Char}

theorem commaFields_space : commaFields (' ' :: l) = commaFields l := by
  obtain ⟨field, fields, hfields⟩ := List.exists_cons_of_ne_nil (List.splitOn_ne_nil ',' l)
  simp [commaFields, List.splitOn_cons_eq_if_modifyHead, hfields, show isSpace ' ' = true by decide]

theorem commaFields_append (h : Plain s) :
    commaFields (s.toList ++ ',' :: l) = s :: commaFields l := by
  have hcomma : ',' ∉ s.toList := h.not_mem (by decide)
  rw [commaFields, List.splitOn_append_cons_self, List.splitOn_eq_singleton hcomma]
  simp [commaFields, h.dropWhile]

theorem commaFields_plain (h : Plain s) : commaFields s.toList = [s] := by
  have hcomma : ',' ∉ s.toList := h.not_mem (by decide)
  simp [commaFields, List.splitOn_eq_singleton hcomma, h.dropWhile]

theorem commaFields_intercalate {a b : String} (ha : Plain a) (l : List String) :
    commaFields (", ".intercalate (a :: b :: l)).toList = a :: commaFields (", ".intercalate (b :: l)).toList := by
  rw [String.toList_intercalate, List.map_cons, List.map_cons, List.intercalate_cons_cons, ← List.map_cons,
    ← String.toList_intercalate, List.append_assoc]
  exact (commaFields_append ha).trans (congrArg _ commaFields_space)

theorem intercalate_singleton (a : String) : ", ".intercalate [a] = a := by
  rw [← String.toList_inj, String.toList_intercalate]
  simp

/-- Reads lines without quotes as casbin does. -/
def commaCasbin : Casbin where
  loadLine line := loadFields (commaFields line.toList)
  loadLine_plain := by
    intro rule hsub hobj hact heft
    rw [commaFields_intercalate (by decide), commaFields_intercalate hsub, commaFields_intercalate hobj,
      commaFields_intercalate hact, intercalate_singleton, commaFields_plain heft]
    rfl
  loadLine_start := by
    intro sub obj rest rule hsub hobj h
    rw [commaFields_intercalate (by decide), commaFields_intercalate hsub] at h
    cases rest with
    | nil =>
      rw [intercalate_singleton, commaFields_plain hobj] at h
      cases h
    | cons r rest =>
      rw [commaFields_intercalate hobj] at h
      generalize commaFields _ = fields at h
      match fields, h with
      | [act, eft], h =>
        cases h
        exact ⟨rfl, rfl⟩
  addRule policy loaded := policy ++ (loaded.filter (· ∉ policy)).toList
  mem_addRule := by
    intro policy loaded rule
    cases loaded with
    | none => simp
    | some r => by_cases hr : r ∈ policy <;> simp [hr, Option.filter_some] <;> grind
  getFilteredPolicy e sub obj act := e.filter fun rule =>
    (sub = "" ∨ rule.sub = sub) ∧ (obj = "" ∨ rule.obj = obj) ∧ (act = "" ∨ rule.act = act)
  mem_getFilteredPolicy := by simp

/-! ### Two edits -/

def adminRows : List CasbinRule :=
  ["read", "operate", "write"].map fun action => newRule "p" [roleSubject "admin", "channel", action, effectAllow]

/-- A row whose first column is empty: its line is that of a rule of user 1. -/
def shiftedRow : CasbinRule := ⟨"p", "", "user:1", "channel", "read", effectDeny, ""⟩

def readAllowed : PermissionsMap := ⟨[("channel", [("read", true)])], by decide⟩

def tableRules (rows : List CasbinRule) : List Rule := (commaCasbin.loadPolicy rows).getD []

/-- The row is not deleted, and denies what was asked for. -/
theorem shifted_row_denies :
    let rows := adminRows ++ [shiftedRow]
    let rows' := setUserPermissionsInTx commaCasbin channelRegistry (tableRules rows) 1 readAllowed rows
    (commaCasbin.loadPolicy rows).isSome ∧ (commaCasbin.loadPolicy rows').isSome ∧
      resolveSubjectRoles 10 = [managedRoleKey] ∧
      can commaCasbin channelRegistry (tableRules rows') 1 10 ⟨"channel", "read"⟩ = false := by
  decide +kernel

def mixedPermissions : PermissionsMap :=
  ⟨[("channel", [("read", false), ("sensitive_write", true), ("operate", true)]),
    ("user", [("read", true)])], by decide⟩

/-- The requested values, the baseline for `write` and `secret_view`; the unknown resource is
ignored. -/
theorem mixedPermissions_spec :
    let rows := adminRows ++ [newRule "p" [userSubject 1, "channel", "write", effectDeny]]
    ∃ after,
      commaCasbin.loadPolicy (setUserPermissionsInTx commaCasbin channelRegistry (tableRules rows) 1
        mixedPermissions rows) = some after ∧
      ["read", "operate", "write", "sensitive_write", "secret_view"].map
        (fun action => can commaCasbin channelRegistry after 1 10 ⟨"channel", action⟩) =
          [false, true, true, true, false] ∧
      ∀ permission, can commaCasbin channelRegistry after 2 10 permission =
        can commaCasbin channelRegistry (tableRules rows) 2 10 permission := by
  intro rows
  have hbefore : commaCasbin.loadPolicy rows = some (tableRules rows) := by decide +kernel
  have hcolumns : InColumns commaCasbin channelRegistry 1 mixedPermissions rows := by
    have hrows : ∀ row ∈ rows, ∀ rule ∈ (commaCasbin.loadRow row).join, rule.sub = userSubject 1 →
        Owned 1 rule.obj row := by
      decide +kernel
    intro row hrow rule hload hsub _ _
    exact hrows row hrow rule (by simp [hload]) hsub
  have hrole : resolveSubjectRoles 10 = [managedRoleKey] := by decide
  obtain ⟨after, hafter, hedited, -, hother⟩ :=
    setUserPermissionsInTx_spec (e := tableRules rows) hbefore (fun _ => rfl) hcolumns hrole
  refine ⟨after, hafter, ?_, hother 2 (by decide) 10⟩
  have hchannel := hedited "channel" _ (List.mem_cons_self ..) (by decide)
  simp only [List.map_cons, List.map_nil]
  rw [hchannel "read" (by decide), hchannel "operate" (by decide), hchannel "write" (by decide),
    hchannel "sensitive_write" (by decide), hchannel "secret_view" (by decide)]
  decide +kernel

end TokenEra.Authz
