import TokenEra.Lib.Run
import TokenEra.Lib.Text

/-!
# Claims of external identities

A login finds its user by the subject, so a subject may have one user only: the table has two unique
indexes. A claim that meets one of them inserts nothing, and reads the owners back to tell whether
it is the same claim again. A function that fails, here `none`, rolls the transaction back.
-/

namespace TokenEra.ExternalIdentity

open Lib

structure ExternalIdentityClaim where
  provider : String
  subject : String
  userId : Int
  deriving DecidableEq

abbrev Claims := List ExternalIdentityClaim

def Conflict (x y : ExternalIdentityClaim) : Prop :=
  x.provider = y.provider ∧ (x.subject = y.subject ∨ x.userId = y.userId)

instance : DecidableRel Conflict := fun _ _ => inferInstanceAs (Decidable (_ ∧ (_ ∨ _)))

def claimOf (provider subject : String) (userId : Int) : ExternalIdentityClaim :=
  ⟨trimSpace provider, trimSpace subject, userId⟩

/-- The insert, with `OnConflict` doing nothing. -/
def create (claim : ExternalIdentityClaim) (claims : Claims) : Claims :=
  if ∃ x ∈ claims, Conflict x claim then claims else claims ++ [claim]

def claimExternalIdentityWithTx (provider subject : String) (userId : Int) (claims : Claims) : Option Claims :=
  let claim := claimOf provider subject userId
  if claim.provider = "" ∨ claim.subject = "" ∨ userId = 0 then none
  else
    match (create claim claims).find? fun x => x.provider = claim.provider ∧ x.subject = claim.subject,
      (create claim claims).find? fun x => x.provider = claim.provider ∧ x.userId = userId with
    | some subjectOwner, some userClaim =>
      if subjectOwner.userId ≠ userId ∨ userClaim.subject ≠ claim.subject then none else some (create claim claims)
    | _, _ => none

def releaseExternalIdentityWithTx (provider : String) (userId : Int) (claims : Claims) : Option Claims :=
  if trimSpace provider = "" ∨ userId = 0 then none
  else some (claims.filter fun x => ¬ (x.provider = trimSpace provider ∧ x.userId = userId))

def releaseAllExternalIdentitiesWithTx (userId : Int) (claims : Claims) : Option Claims :=
  if userId = 0 then none else some (claims.filter fun x => ¬ x.userId = userId)

inductive Op
  | claim (provider subject : String) (userId : Int)
  | release (provider : String) (userId : Int)
  | releaseAll (userId : Int)

def step (claims : Claims) : Op → Option Claims
  | .claim provider subject userId => claimExternalIdentityWithTx provider subject userId claims
  | .release provider userId => releaseExternalIdentityWithTx provider userId claims
  | .releaseAll userId => releaseAllExternalIdentitiesWithTx userId claims

def Op.Releases (c : ExternalIdentityClaim) : Op → Prop
  | .claim .. => False
  | .release provider userId => c.provider = trimSpace provider ∧ c.userId = userId
  | .releaseAll userId => c.userId = userId

def Unique (claims : Claims) : Prop := claims.Pairwise fun x y => ¬ Conflict x y

variable {provider subject : String} {userId : Int} {s t : Claims} {op : Op}

theorem Unique.create (h : Unique s) (c : ExternalIdentityClaim) : Unique (create c s) ∧ s ⊆ create c s := by
  unfold ExternalIdentity.create
  split_ifs with hconflict
  · exact ⟨h, List.Subset.refl s⟩
  · exact ⟨List.pairwise_append.2 ⟨h, List.pairwise_singleton _ _, by simpa using hconflict⟩,
      List.subset_append_left s [c]⟩

/-- The owner that is read back after a claim that succeeds is the claim. -/
theorem claim_eq_some (h : claimExternalIdentityWithTx provider subject userId s = some t) :
    t = create (claimOf provider subject userId) s ∧ claimOf provider subject userId ∈ t := by
  unfold claimExternalIdentityWithTx at h
  obtain ⟨-, h⟩ := Option.ite_none_left_eq_some.1 h
  split at h
  case h_2 => cases h
  case h_1 owner _ howner _ =>
    obtain ⟨hsame, h⟩ := Option.ite_none_left_eq_some.1 h
    obtain rfl := Option.some.inj h
    rw [not_or, not_not] at hsame
    have hfound := List.find?_some howner
    have hmem := List.mem_of_find?_eq_some howner
    obtain ⟨_, _, owner⟩ := owner
    obtain ⟨rfl, rfl⟩ := of_decide_eq_true hfound
    obtain rfl : owner = userId := hsame.1
    exact ⟨rfl, hmem⟩

theorem Unique.step (h : Unique s) (hstep : step s op = some t) : Unique t ∧ ∀ c ∈ s, ¬ op.Releases c → c ∈ t := by
  cases op with
  | claim =>
    rw [(claim_eq_some hstep).1]
    exact ⟨(h.create _).1, fun c hc _ => (h.create _).2 hc⟩
  | release | releaseAll =>
    obtain ⟨-, hstep⟩ := Option.ite_none_left_eq_some.1 hstep
    cases hstep
    exact ⟨h.filter _, fun c hc hkept => List.mem_filter.2 ⟨hc, decide_eq_true hkept⟩⟩

/-- After any transactions, a claim that succeeds is the only row of its subject and of its user
with the provider until it is released. -/
theorem claim_owned (l l' : List Op) {u : Claims} (hs : run step [] l = some s)
    (hclaim : claimExternalIdentityWithTx provider subject userId s = some t) (hu : run step t l' = some u)
    (hkept : Along step (fun _ op => ¬ op.Releases (claimOf provider subject userId)) t l')
    (x : ExternalIdentityClaim) :
    x ∈ u ∧ Conflict x (claimOf provider subject userId) ↔ x = claimOf provider subject userId := by
  have hunique : Unique s := run_inv (fun _ _ _ h hstep => (h.step hstep).1) .nil hs
  obtain ⟨ht, hmem⟩ := claim_eq_some hclaim
  obtain ⟨hu, hown⟩ := run_inv_along (I := fun s => Unique s ∧ claimOf provider subject userId ∈ s)
    (fun _ _ _ h hkept hstep => ⟨(h.1.step hstep).1, (h.1.step hstep).2 _ h.2 hkept⟩)
    ⟨ht ▸ (hunique.create _).1, hmem⟩ hkept hu
  constructor
  · rintro ⟨hx, hconflict⟩
    by_contra hne
    have hsymm : Std.Symm fun x y => ¬ Conflict x y := ⟨fun x y h h' => h ⟨h'.1.symm, h'.2.imp Eq.symm Eq.symm⟩⟩
    exact List.Pairwise.forall hu hx hown hne hconflict
  · rintro rfl
    exact ⟨hown, rfl, .inl rfl⟩

/-- Another user of the provider, and another provider with the same subject. -/
theorem claim_owned_telegram :
    ∃ s t u, run step [] [.claim "telegram" "9" 8, .claim "github" "5" 8] = some s ∧
      claimExternalIdentityWithTx "telegram" " 5" 7 s = some t ∧
      run step t [.releaseAll 8, .claim "github" "5" 9] = some u ∧ u.length = 2 ∧
      claimOf "telegram" " 5" 7 ∈ u := by
  have hs : run step [] [.claim "telegram" "9" 8, .claim "github" "5" 8] =
      some [⟨"telegram", "9", 8⟩, ⟨"github", "5", 8⟩] := by decide
  have hkept : ¬ Op.Releases (claimOf "telegram" " 5" 7) (.releaseAll 8) := (by decide : (7 : Int) ≠ 8)
  refine ⟨_, _, _, hs, rfl, rfl, by decide, ?_⟩
  exact ((claim_owned _ [.releaseAll 8, .claim "github" "5" 9] hs rfl rfl
    ⟨hkept, fun _ _ => ⟨id, fun _ _ => trivial⟩⟩ _).2 rfl).1

end TokenEra.ExternalIdentity
