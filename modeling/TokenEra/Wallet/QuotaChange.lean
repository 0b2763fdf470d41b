import TokenEra.Auth.UserFence
import TokenEra.Token.Cache

/-!
# Quota changes that fail

`IncreaseUserQuota`, `DecreaseUserQuota`, `IncreaseTokenQuota` and `DecreaseTokenQuota` without
batch updates and with Redis. Each starts its change of the cache in the background and then writes
to the database. The two do not know of each other: an error of the database is returned, and the
cache is changed all the same. So a failed call leaves the cached balance as it was exactly if there
was nothing to change (`untouched_iff`).
-/

namespace TokenEra.QuotaChange

open Auth.UserFence (userCacheSchemaVersion)
open Tokens.Cache (Hash cacheApplyTokenQuotaDelta quotaFields)

/-- What `userQuotaDeltaScript` reads of a user's hash. -/
structure UserHash where
  id : Option Int
  cacheSchema : Option Int
  quota : Option Int

def userQuota (userId : Int) (hash : Option UserHash) : Option (UserHash × Int) :=
  match hash with
  | none => none
  | some h => if h.id.getD 0 ≠ userId ∨ h.cacheSchema.getD 0 ≠ userCacheSchemaVersion then none else h.quota.map (h, ·)

/-- `userQuotaDeltaScript`. -/
def cacheApplyUserQuotaDelta (userId delta : Int) (hash : Option UserHash) : Option UserHash × Int :=
  match userQuota userId hash with
  | none => (hash, -1)
  | some (h, quota) => (some { h with quota := some (quota + delta) }, 1)

/-- The hashes in Redis, and the columns of the two rows that the calls write: the user's quota, the
token's remaining and used quota. -/
structure Stores where
  user : Option UserHash
  token : Option Hash
  userRow : Option Int
  tokenRow : Option (Int × Int)

inductive Call where
  | increaseUserQuota (id quota : Int)
  | decreaseUserQuota (id quota : Int)
  | increaseTokenQuota (id quota : Int)
  | decreaseTokenQuota (id quota : Int)

def Call.quota : Call → Int
  | increaseUserQuota _ quota | decreaseUserQuota _ quota
  | increaseTokenQuota _ quota | decreaseTokenQuota _ quota => quota

def Call.cacheStep (now : Int) (s : Stores) : Call → Stores
  | increaseUserQuota id quota => { s with user := (cacheApplyUserQuotaDelta id quota s.user).1 }
  | decreaseUserQuota id quota => { s with user := (cacheApplyUserQuotaDelta id (-quota) s.user).1 }
  | increaseTokenQuota id quota => { s with token := (cacheApplyTokenQuotaDelta id quota now s.token).1 }
  | decreaseTokenQuota id quota => { s with token := (cacheApplyTokenQuotaDelta id (-quota) now s.token).1 }

def Call.databaseStep (s : Stores) : Call → Stores
  | increaseUserQuota _ quota => { s with userRow := s.userRow.map (· + quota) }
  | decreaseUserQuota _ quota => { s with userRow := s.userRow.map (· - quota) }
  | increaseTokenQuota _ quota => { s with tokenRow := s.tokenRow.map fun row => (row.1 + quota, row.2 - quota) }
  | decreaseTokenQuota _ quota => { s with tokenRow := s.tokenRow.map fun row => (row.1 - quota, row.2 + quota) }

/-- How a call goes: which of the two steps is first, and which of them fail. -/
structure Outcome where
  cacheFirst : Bool
  cacheFails : Bool
  databaseFails : Bool

/-- Whether the call returns an error, and the stores when its background step is over. -/
def Call.run (call : Call) (now : Int) (o : Outcome) (s : Stores) : Bool × Stores :=
  if call.quota < 0 then (true, s)
  else
    let cache (s : Stores) := if o.cacheFails then s else call.cacheStep now s
    let database (s : Stores) := if o.databaseFails then s else call.databaseStep s
    (o.databaseFails, if o.cacheFirst then database (cache s) else cache (database s))

def Call.balance (s : Stores) : Call → Option Int
  | increaseUserQuota .. | decreaseUserQuota .. => s.user.bind (·.quota)
  | increaseTokenQuota .. | decreaseTokenQuota .. => s.token.bind (·.remainQuota)

/-- A call that returns an error leaves the cached balance and the rows as they were. -/
def Untouched (call : Call) (now : Int) (s : Stores) : Prop :=
  ∀ o, (call.run now o s).1 = true → call.balance (call.run now o s).2 = call.balance s ∧
    (call.run now o s).2.userRow = s.userRow ∧ (call.run now o s).2.tokenRow = s.tokenRow

def Call.Cached (s : Stores) : Call → Prop
  | increaseUserQuota id _ | decreaseUserQuota id _ => userQuota id s.user ≠ none
  | increaseTokenQuota id _ | decreaseTokenQuota id _ => quotaFields id s.token ≠ none

/-! ### The two scripts -/

theorem quota_applyUserDelta {id delta : Int} {hash : Option UserHash} :
    (cacheApplyUserQuotaDelta id delta hash).1.bind (·.quota) = hash.bind (·.quota) ↔
      delta = 0 ∨ userQuota id hash = none := by
  unfold cacheApplyUserQuotaDelta
  cases hcheck : userQuota id hash with
  | none => simp
  | some found =>
    obtain ⟨h, quota⟩ := found
    have hquota : hash.bind (·.quota) = some quota := by
      cases hash with
      | none => cases hcheck
      | some h' =>
        rw [userQuota] at hcheck
        split_ifs at hcheck
        cases hq : h'.quota <;> simp_all
    simp [hquota]

theorem remain_applyTokenDelta {id delta now : Int} {hash : Option Hash} :
    (cacheApplyTokenQuotaDelta id delta now hash).1.bind (·.remainQuota) = hash.bind (·.remainQuota) ↔
      delta = 0 ∨ quotaFields id hash = none := by
  unfold cacheApplyTokenQuotaDelta
  cases hcheck : quotaFields id hash with
  | none => simp
  | some found =>
    obtain ⟨h, remain, used⟩ := found
    have hremain : hash.bind (·.remainQuota) = some remain := by
      cases hash with
      | none => cases hcheck
      | some h' =>
        rw [quotaFields] at hcheck
        split_ifs at hcheck
        cases hr : h'.remainQuota <;> cases hu : h'.usedQuota <;> simp_all
    simp [hremain]

theorem balance_cacheStep (call : Call) (now : Int) (s : Stores) :
    call.balance (call.cacheStep now s) = call.balance s ↔ call.quota = 0 ∨ ¬ call.Cached s := by
  cases call <;>
    simp only [Call.balance, Call.cacheStep, Call.quota, Call.Cached, quota_applyUserDelta,
      remain_applyTokenDelta, neg_eq_zero, ne_eq, not_not]

theorem rows_cacheStep (call : Call) (now : Int) (s : Stores) :
    (call.cacheStep now s).userRow = s.userRow ∧ (call.cacheStep now s).tokenRow = s.tokenRow := by
  cases call <;> exact ⟨rfl, rfl⟩

/-- The calls that a failure of the database does not make wrong: those that are refused, of
nothing, or of something that is not cached. -/
theorem untouched_iff (call : Call) (now : Int) (s : Stores) :
    Untouched call now s ↔ call.quota ≤ 0 ∨ ¬ call.Cached s := by
  unfold Untouched Call.run
  rcases lt_trichotomy call.quota 0 with hneg | hquota
  · simp [hneg, hneg.le]
  have hnot : ¬ call.quota < 0 := by omega
  have hle : (call.quota ≤ 0 ∨ ¬ call.Cached s) ↔ call.balance (call.cacheStep now s) = call.balance s := by
    rw [balance_cacheStep]
    exact or_congr_left (by omega)
  simp only [if_neg hnot]
  rw [hle]
  constructor
  · intro h
    exact (h ⟨true, false, true⟩ rfl).1
  · rintro h ⟨first, cacheFails, databaseFails⟩ hfails
    have hrows := rows_cacheStep call now s
    cases first <;> cases cacheFails <;> simp_all

/-- The database refuses a credit of 5, and the cached balance of 10 has it. -/
theorem failed_credit_cached :
    ¬ Untouched (.increaseUserQuota 1 5) 0 ⟨some ⟨some 1, some 2, some 10⟩, none, some 10, none⟩ := by
  intro h
  exact absurd (h ⟨true, false, true⟩ rfl).1 (by decide)

end TokenEra.QuotaChange
