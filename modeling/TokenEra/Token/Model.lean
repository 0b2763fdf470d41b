import TokenEra.Payment

/-!
# API tokens

The row of a token, the statements that move quota between its two quota columns, and the edits of
`UpdateToken` and `DisableModelLimits`.
-/

namespace TokenEra.Tokens

inductive TokenStatus
  | enabled
  | disabled
  | expired
  | exhausted
  | other (code : Int)
deriving DecidableEq, Repr

structure Token where
  id : Int
  userId : Int
  key : String
  status : TokenStatus
  name : String
  createdTime : Int
  accessedTime : Int
  /-- `-1` for a token that does not expire. -/
  expiredTime : Int
  remainQuota : Int
  unlimitedQuota : Bool
  modelLimitsEnabled : Bool
  modelLimits : String
  allowIps : Option String
  usedQuota : Int
deriving DecidableEq, Repr

/-! ### Quota -/

/-- The update of `persistTokenQuotaDelta`, and of the two functions below. -/
def Token.addQuota (t : Token) (delta now : Int) : Token :=
  { t with remainQuota := t.remainQuota + delta, usedQuota := t.usedQuota - delta, accessedTime := now }

@[simp] theorem remainQuota_addQuota (t : Token) (delta now : Int) :
    (t.addQuota delta now).remainQuota = t.remainQuota + delta := rfl

@[simp] theorem usedQuota_addQuota (t : Token) (delta now : Int) :
    (t.addQuota delta now).usedQuota = t.usedQuota - delta := rfl

def increaseTokenQuota (quota now : Int) (t : Token) : Token := t.addQuota quota now

def decreaseTokenQuota (quota now : Int) (t : Token) : Token := t.addQuota (-quota) now

/-- The conditional update, and whether it changed the row. -/
def reserveTokenQuotaDB (quota now : Int) (t : Token) : Token × Bool :=
  if quota ≤ t.remainQuota then (t.addQuota (-quota) now, true) else (t, false)

/-! ### Edits -/

/-- The columns that `Token.Update` writes. -/
def Token.update (row edited : Token) : Token :=
  { row with
    name := edited.name
    status := edited.status
    expiredTime := edited.expiredTime
    remainQuota := edited.remainQuota
    unlimitedQuota := edited.unlimitedQuota
    modelLimitsEnabled := edited.modelLimitsEnabled
    modelLimits := edited.modelLimits
    allowIps := edited.allowIps }

inductive EditError
  | nameTooLong
  | quotaNegative
  | quotaExceedMax (max : Int)
  | expiredCannotEnable
  | exhaustedCannotEnable
  | notFound
deriving DecidableEq, Repr

/-- `QuotaFromFloat(1000000000 * QuotaPerUnit)`; the conversion truncates toward zero. -/
def maxQuotaValue (quotaPerUnit : ℚ) : Int :=
  (saturateQuota ((1000000000 * quotaPerUnit).num.tdiv (1000000000 * quotaPerUnit).den)).1

/-- The checks of `UpdateToken` before it reads the token. -/
def checkRequest (quotaPerUnit : ℚ) (token : Token) : Except EditError Unit :=
  if 50 < token.name.utf8ByteSize then .error .nameTooLong
  else if token.unlimitedQuota then .ok ()
  else if token.remainQuota < 0 then .error .quotaNegative
  else if maxQuotaValue quotaPerUnit < token.remainQuota then .error (.quotaExceedMax (maxQuotaValue quotaPerUnit))
  else .ok ()

/-- What `UpdateToken` makes of the token that it has read; `statusOnly` is the query parameter. -/
def editToken (statusOnly : String) (token cleanToken : Token) (now : Int) : Except EditError Token :=
  if token.status = .enabled ∧ cleanToken.status = .expired ∧ cleanToken.expiredTime ≤ now ∧
      cleanToken.expiredTime ≠ -1 then .error .expiredCannotEnable
  else if token.status = .enabled ∧ cleanToken.status = .exhausted ∧ cleanToken.remainQuota ≤ 0 ∧
      cleanToken.unlimitedQuota = false then .error .exhaustedCannotEnable
  else if statusOnly ≠ "" then .ok { cleanToken with status := token.status }
  else
    .ok
      { cleanToken with
        name := token.name
        expiredTime := token.expiredTime
        remainQuota := token.remainQuota
        unlimitedQuota := token.unlimitedQuota
        modelLimitsEnabled := token.modelLimitsEnabled
        modelLimits := token.modelLimits
        allowIps := token.allowIps }

/-- What `DisableModelLimits` makes of the token that it has read. -/
def disableModelLimits (token : Token) : Token := { token with modelLimitsEnabled := false, modelLimits := "" }

end TokenEra.Tokens
