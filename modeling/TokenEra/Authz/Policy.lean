import Mathlib.Tactic
import TokenEra.Lib.Dict
import TokenEra.Lib.Text

/-!
# Permissions

The policy table, its loading into the enforcer, and `Can`. A row of the table becomes a line of
text (`ruleToLine`), which casbin reads as a rule. Casbin itself is a parameter with laws about
lines made of plain fields, about the rules that it holds and about those that it finds.

`Can` depends on the rules only through those of the user and of the roles (`can_congr`).
-/

namespace TokenEra.Authz

open Lib

structure Permission where
  resource : String
  action : String
deriving DecidableEq, Repr

def effectAllow : String := "allow"

def effectDeny : String := "deny"

def userSubject (userID : Int) : String := "user:" ++ toString userID

def roleSubject (roleKey : String) : String := "role:" ++ roleKey

/-- From `-` to `z`: letters, digits and marks, but no comma, quote, `#` or space. -/
def plainChar (c : Char) : Bool := 45 ≤ c.toNat && c.toNat ≤ 122

def Plain (s : String) : Prop := s ≠ "" ∧ s.toList.all plainChar = true

instance (s : String) : Decidable (Plain s) := inferInstanceAs (Decidable (_ ∧ _))

theorem all_plainChar_toString (n : Nat) : (toString n).toList.all plainChar = true := by
  refine List.all_eq_true.2 fun c hc => ?_
  have hc : c ∈ Nat.toDigits 10 n := by simpa [toString, Nat.repr] using hc
  have hdigit : c.isDigit = true := Nat.isDigit_of_mem_toDigits (by norm_num) (by norm_num) hc
  simp only [Char.isDigit, Bool.and_eq_true, decide_eq_true_eq, UInt32.le_iff_toNat_le, ge_iff_le] at hdigit
  have hlow : 48 ≤ c.toNat := hdigit.1
  have hhigh : c.toNat ≤ 57 := hdigit.2
  simp only [plainChar, Bool.and_eq_true, decide_eq_true_eq]
  omega

theorem plain_userSubject (userID : Int) : Plain (userSubject userID) := by
  refine ⟨fun h => ?_, ?_⟩
  · have := congrArg String.toList h
    simp [userSubject] at this
  · have hstart : "user:".toList.all plainChar = true := by decide
    rw [userSubject, String.toList_append, List.all_append, hstart, Bool.true_and]
    cases userID with
    | ofNat n => exact all_plainChar_toString n
    | negSucc n =>
      change ("-" ++ toString (n + 1)).toList.all plainChar = true
      rw [String.toList_append, List.all_append, all_plainChar_toString]
      decide

theorem userSubject_injective {u v : Int} (h : userSubject u = userSubject v) : u = v :=
  toString_int_injective ((String.append_right_inj _).1 h)

theorem userSubject_ne_roleSubject (userID : Int) (roleKey : String) : userSubject userID ≠ roleSubject roleKey := by
  intro h
  have := congrArg (fun s => s.toList.head?) h
  simp [userSubject, roleSubject] at this

/-! ### The catalog -/

structure ResourceDefinition where
  resource : String
  actions : List String

/-- What `RegisterResource` has collected; names are plain. -/
structure Registry where
  resources : List ResourceDefinition
  plain : ∀ d ∈ resources, Plain d.resource ∧ ∀ action ∈ d.actions, Plain action

namespace Registry

variable (reg : Registry)

def isKnownResource (resource : String) : Bool := reg.resources.any fun known => known.resource = resource

def catalogActions (resource : String) : List String :=
  match reg.resources.find? fun known => known.resource = resource with
  | some known => known.actions
  | none => []

def isKnownPermission (permission : Permission) : Bool :=
  reg.resources.any fun known => known.resource = permission.resource && known.actions.contains permission.action

end Registry

/-- The resource of `resources_channel.go`, the only one there is. -/
def channelRegistry : Registry where
  resources := [⟨"channel", ["read", "operate", "write", "sensitive_write", "secret_view"]⟩]
  plain := by decide

/-! ### Rules -/

/-- A rule of the policy definition `p = sub, obj, act, eft`. -/
structure Rule where
  sub : String
  obj : String
  act : String
  eft : String
deriving DecidableEq, Repr

/-- A row of the policy table, without its id: rows are listed in the order of the ids. -/
structure CasbinRule where
  ptype : String
  v0 : String
  v1 : String
  v2 : String
  v3 : String
  v4 : String
  v5 : String
deriving DecidableEq, Repr

def newRule (ptype : String) (policy : List String) : CasbinRule where
  ptype := ptype
  v0 := policy.getD 0 ""
  v1 := policy.getD 1 ""
  v2 := policy.getD 2 ""
  v3 := policy.getD 3 ""
  v4 := policy.getD 4 ""
  v5 := policy.getD 5 ""

def ruleToLine (rule : CasbinRule) : String :=
  let v3 := if rule.ptype = "p" ∧ rule.v0 ≠ "" ∧ rule.v1 ≠ "" ∧ rule.v2 ≠ "" ∧
    rule.v3 = "" then effectAllow else rule.v3
  let values := [rule.v0, rule.v1, rule.v2, v3, rule.v4, rule.v5]
  ", ".intercalate (rule.ptype :: values.filter fun value => value ≠ "")

/-- What is used of casbin: `persist.LoadPolicyLine`, which gives an error, no rule or a rule and
adds the rule to the model, and `GetFilteredPolicy`, for which an empty value matches everything. -/
structure Casbin where
  loadLine : String → Option (Option Rule)
  loadLine_plain : ∀ rule : Rule, Plain rule.sub → Plain rule.obj → Plain rule.act → Plain rule.eft →
    loadLine (", ".intercalate ["p", rule.sub, rule.obj, rule.act, rule.eft]) = some (some rule)
  /-- Fields are read from the left. -/
  loadLine_start : ∀ (sub obj : String) (rest : List String) (rule : Rule), Plain sub → Plain obj →
    loadLine (", ".intercalate ("p" :: sub :: obj :: rest)) = some (some rule) → rule.sub = sub ∧ rule.obj = obj
  addRule : List Rule → Option Rule → List Rule
  mem_addRule : ∀ {policy loaded rule}, rule ∈ addRule policy loaded ↔ rule ∈ policy ∨ loaded = some rule
  getFilteredPolicy : (e : List Rule) → (sub obj act : String) → List Rule
  mem_getFilteredPolicy : ∀ {e sub obj act rule}, rule ∈ getFilteredPolicy e sub obj act ↔
    rule ∈ e ∧ (sub = "" ∨ rule.sub = sub) ∧ (obj = "" ∨ rule.obj = obj) ∧ (act = "" ∨ rule.act = act)

namespace Casbin

variable (casbin : Casbin)

def loadRow (row : CasbinRule) : Option (Option Rule) := casbin.loadLine (ruleToLine row)

def loadPolicy (rows : List CasbinRule) : Option (List Rule) :=
  rows.foldlM (fun policy row => (casbin.loadRow row).map (casbin.addRule policy)) []

variable {casbin}

theorem loadPolicy_append_singleton (rows : List CasbinRule) (row : CasbinRule) :
    casbin.loadPolicy (rows ++ [row]) =
      (casbin.loadPolicy rows).bind fun policy => (casbin.loadRow row).map (casbin.addRule policy) := by
  simp [loadPolicy, List.foldlM_append]

theorem loadPolicy_eq_some {rows : List CasbinRule} {policy : List Rule} (h : casbin.loadPolicy rows = some policy) :
    (∀ row ∈ rows, (casbin.loadRow row).isSome = true) ∧
      ∀ rule, rule ∈ policy ↔ ∃ row ∈ rows, casbin.loadRow row = some (some rule) := by
  induction rows using List.reverseRecOn generalizing policy with
  | nil =>
    cases h
    simp
  | append_singleton rows row ih =>
    rw [loadPolicy_append_singleton, Option.bind_eq_some_iff] at h
    obtain ⟨policy', hrows, h⟩ := h
    obtain ⟨loaded, hrow, rfl⟩ := Option.map_eq_some_iff.1 h
    obtain ⟨hloads, hmem⟩ := ih hrows
    refine ⟨fun r hr => ?_, fun rule => ?_⟩
    · obtain hr | hr := List.mem_append.1 hr
      · exact hloads r hr
      · rw [List.mem_singleton.1 hr, hrow]
        rfl
    · simp [casbin.mem_addRule, hmem, or_and_right, exists_or, hrow]

theorem exists_loadPolicy {rows : List CasbinRule} (h : ∀ row ∈ rows, (casbin.loadRow row).isSome = true) :
    ∃ policy, casbin.loadPolicy rows = some policy := by
  induction rows using List.reverseRecOn with
  | nil => exact ⟨[], rfl⟩
  | append_singleton rows row ih =>
    obtain ⟨policy, hpolicy⟩ := ih fun r hr => h r (List.mem_append_left _ hr)
    obtain ⟨loaded, hrow⟩ := Option.isSome_iff_exists.1 (h row (by simp))
    refine ⟨casbin.addRule policy loaded, ?_⟩
    rw [loadPolicy_append_singleton, hpolicy, hrow]
    rfl

end Casbin

/-! ### Decisions -/

variable (casbin : Casbin)

def policyEffect (rule : Rule) : String := if rule.eft = "" then effectAllow else rule.eft

def combinedEffect : Bool → List Rule → Option String
  | hasAllow, [] => if hasAllow then some effectAllow else none
  | hasAllow, rule :: policies =>
    if policyEffect rule = effectDeny then some effectDeny
    else combinedEffect (hasAllow || policyEffect rule = effectAllow) policies

def explicitSubjectEffect (e : List Rule) (subject : String) (permission : Permission) : Option String :=
  combinedEffect false (casbin.getFilteredPolicy e subject permission.resource permission.action)

def roleBaselineAllows (e : List Rule) (roleKey : String) (permission : Permission) : Bool :=
  explicitSubjectEffect casbin e (roleSubject roleKey) permission = some effectAllow

def builtInRoleRoot : String := "root"

def builtInRoleAdmin : String := "admin"

def managedRoleKey : String := builtInRoleAdmin

/-- By the system role: root users from 100, admins from 10. -/
def resolveSubjectRoles (systemRole : Int) : List String :=
  if systemRole ≥ 100 then [builtInRoleRoot] else if systemRole ≥ 10 then [builtInRoleAdmin] else []

def isSuperuserRole (roleKey : String) : Bool := roleKey = builtInRoleRoot

def can (reg : Registry) (e : List Rule) (userID systemRole : Int) (permission : Permission) : Bool :=
  let roles := resolveSubjectRoles systemRole
  if roles = [] then false
  else if roles.any isSuperuserRole then true
  else if !reg.isKnownPermission permission then false
  else
    match explicitSubjectEffect casbin e (userSubject userID) permission with
    | some effect => effect = effectAllow
    | none => roles.any fun role => roleBaselineAllows casbin e role permission

/-! ### What decisions depend on -/

theorem combinedEffect_eq (hasAllow : Bool) (l : List Rule) :
    combinedEffect hasAllow l =
      if ∃ rule ∈ l, policyEffect rule = effectDeny then some effectDeny
      else if hasAllow = true ∨ ∃ rule ∈ l, policyEffect rule = effectAllow then some effectAllow
      else none := by
  induction l generalizing hasAllow with
  | nil => simp [combinedEffect]
  | cons rule l ih =>
    rw [combinedEffect]
    by_cases hdeny : policyEffect rule = effectDeny
    · simp [hdeny]
    · rw [if_neg hdeny, ih]
      simp [hdeny, or_assoc]

def SameRules (e e' : List Rule) (sub obj : String) : Prop :=
  ∀ rule : Rule, rule.sub = sub → rule.obj = obj → (rule ∈ e ↔ rule ∈ e')

variable {casbin} {e e' : List Rule} {permission : Permission} {reg : Registry}

theorem explicitSubjectEffect_congr {subject : String} (hsubject : subject ≠ "")
    (hresource : permission.resource ≠ "") (h : SameRules e e' subject permission.resource) :
    explicitSubjectEffect casbin e subject permission = explicitSubjectEffect casbin e' subject permission := by
  have hmem (rule : Rule) : rule ∈ casbin.getFilteredPolicy e subject permission.resource permission.action ↔
      rule ∈ casbin.getFilteredPolicy e' subject permission.resource permission.action := by
    rw [casbin.mem_getFilteredPolicy, casbin.mem_getFilteredPolicy]
    constructor
    · rintro ⟨hrule, hsub, hobj, hact⟩
      exact ⟨(h rule (hsub.resolve_left hsubject) (hobj.resolve_left hresource)).1 hrule, hsub, hobj, hact⟩
    · rintro ⟨hrule, hsub, hobj, hact⟩
      exact ⟨(h rule (hsub.resolve_left hsubject) (hobj.resolve_left hresource)).2 hrule, hsub, hobj, hact⟩
  simp only [explicitSubjectEffect, combinedEffect_eq, hmem]

theorem roleBaselineAllows_congr {roleKey : String}
    (hresource : permission.resource ≠ "") (h : SameRules e e' (roleSubject roleKey) permission.resource) :
    roleBaselineAllows casbin e roleKey permission = roleBaselineAllows casbin e' roleKey permission := by
  have hsubject : roleSubject roleKey ≠ "" := by
    intro h
    have := congrArg String.toList h
    simp [roleSubject] at this
  rw [roleBaselineAllows, roleBaselineAllows, explicitSubjectEffect_congr hsubject hresource h]

theorem Registry.resource_ne_empty (h : reg.isKnownPermission permission = true) :
    permission.resource ≠ "" := by
  obtain ⟨d, hd, h⟩ := List.any_eq_true.1 h
  have hresource : d.resource = permission.resource := by simpa using (Bool.and_eq_true_iff.1 h).1
  exact hresource ▸ (reg.plain d hd).1.1

theorem can_congr {userID systemRole : Int}
    (huser : SameRules e e' (userSubject userID) permission.resource)
    (hrole : ∀ role, SameRules e e' (roleSubject role) permission.resource) :
    can casbin reg e userID systemRole permission = can casbin reg e' userID systemRole permission := by
  by_cases hknown : reg.isKnownPermission permission = true
  · have hresource := Registry.resource_ne_empty hknown
    simp only [can, explicitSubjectEffect_congr (plain_userSubject userID).1 hresource huser,
      roleBaselineAllows_congr hresource (hrole _)]
  · simp [can, hknown]

/-- For an admin who is no superuser, an override wins over the role's baseline. -/
theorem can_managed {userID systemRole : Int}
    (hrole : resolveSubjectRoles systemRole = [managedRoleKey]) (hknown : reg.isKnownPermission permission = true) :
    can casbin reg e userID systemRole permission =
      match explicitSubjectEffect casbin e (userSubject userID) permission with
      | some effect => decide (effect = effectAllow)
      | none => roleBaselineAllows casbin e managedRoleKey permission := by
  have hsuper : isSuperuserRole managedRoleKey = false := by decide
  simp [can, hrole, hknown, hsuper]

end TokenEra.Authz
