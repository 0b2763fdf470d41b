import TokenEra.Lib.Table
import TokenEra.Payment

/-!
# Completing top-up orders

The functions of `model/topup.go` that complete an order: one for each payment provider and
`ManualCompleteTopUp` for all of them. Each is a transaction that locks the order row, checks it,
marks it and credits the user. What a function does after it has read the row is a list of
statements (`Stmt`), so that the same list can be run at once (`transact`) or interleaved with
others.

`ManualCompleteTopUp` chooses the quota by the provider again. It agrees with the provider's own
function except for Creem, whose function takes `Amount` as a quota and not as an amount of money.
-/

namespace TokenEra.TopUps

open Lib

structure User where
  id : Int
  quota : Int
  email : String := ""
  stripeCustomer : String := ""
deriving DecidableEq, Repr

structure Bank where
  topUps : List TopUp
  users : List User
deriving DecidableEq, Repr

inductive Error
  | tradeNoMissing
  | orderNoMissing
  | orderMissing
  | topUpNotFound
  | paymentMethodMismatch
  | topUpStatusInvalid
  | orderStatusWrong
  | orderNotPending
  | invalidTopUpQuota
  | quotaLimitExceeded
  | recordNotFound
  | tryLater
  | db (text : String)
deriving DecidableEq, Repr

def Error.text : Error → String
  | .tradeNoMissing => "未提供支付单号"
  | .orderNoMissing => "未提供订单号"
  | .orderMissing => "充值订单不存在"
  | .topUpNotFound => "topup not found"
  | .paymentMethodMismatch => "payment method mismatch"
  | .topUpStatusInvalid => "topup status invalid"
  | .orderStatusWrong => "充值订单状态错误"
  | .orderNotPending => "订单状态不是待支付，无法补单"
  | .invalidTopUpQuota => "invalid top-up quota"
  | .quotaLimitExceeded => "top-up quota limit exceeded"
  | .recordNotFound => "record not found"
  | .tryLater => "充值失败，请稍后重试"
  | .db text => text

/-! ### Credit -/

def topUpQuotaMaxCurrent (creditedQuota : Int) : Except Error Int :=
  if creditedQuota ≤ 0 ∨ maxQuota ≤ creditedQuota then .error .invalidTopUpQuota
  else .ok (maxQuota - 1 - creditedQuota)

structure Updates where
  email : Option String := none
  stripeCustomer : Option String := none
deriving DecidableEq, Repr

def User.credit (u : User) (quota : Int) (updates : Updates) : User :=
  { u with
    quota := u.quota + quota
    email := updates.email.getD u.email
    stripeCustomer := updates.stripeCustomer.getD u.stripeCustomer }

/-- `creditTopUpQuota`: the conditional update, and why it touched no row. -/
def creditTopUpQuota (users : List User) (userId creditedQuota : Int) (updates : Updates) :
    Except Error (List User) :=
  match topUpQuotaMaxCurrent creditedQuota with
  | .error e => .error e
  | .ok maxCurrent =>
    match findRow User.id userId users with
    | none => .error .recordNotFound
    | some u =>
      if u.quota ≤ maxCurrent then .ok (saveRow User.id (u.credit creditedQuota updates) users)
      else .error .quotaLimitExceeded

def Creditable (balance quota : Int) : Prop :=
  0 < quota ∧ quota < maxQuota ∧ balance ≤ maxQuota - 1 - quota

instance (balance quota : Int) : Decidable (Creditable balance quota) :=
  inferInstanceAs (Decidable (_ ∧ _ ∧ _))

theorem creditTopUpQuota_ok {users users' : List User} {userId quota : Int} {updates : Updates} :
    creditTopUpQuota users userId quota updates = .ok users' ↔
      ∃ u, findRow User.id userId users = some u ∧ Creditable u.quota quota ∧
        users' = saveRow User.id (u.credit quota updates) users := by
  unfold creditTopUpQuota topUpQuotaMaxCurrent Creditable
  split_ifs with hquota
  · simp only [false_iff, not_exists, not_and]
    intro u _ h
    omega
  · cases findRow User.id userId users with
    | none => simp
    | some u =>
      simp only [Option.some.injEq]
      split_ifs with hroom
      · simp only [Except.ok.injEq, exists_eq_left']
        constructor
        · rintro rfl
          exact ⟨⟨by omega, by omega, hroom⟩, rfl⟩
        · rintro ⟨-, rfl⟩
          rfl
      · simp only [exists_eq_left', false_iff, not_and]
        intro h
        omega

/-! ### Statements -/

inductive Stmt
  | refuse (e : Error)
  | save (row : TopUp)
  /-- Read the user; fill in the email of the payment when there is none. -/
  | readUser (userId : Int) (email : String)
  | credit (userId quota : Int) (stripeCustomer : Option String)
deriving DecidableEq, Repr

/-- One statement; `email` is the update that the read of the user prepared. -/
def Stmt.exec (bank : Bank) (email : Option String) : Stmt → Except Error (Bank × Option String)
  | .refuse e => .error e
  | .save row => .ok ({ bank with topUps := saveRow TopUp.tradeNo row bank.topUps }, email)
  | .readUser userId text =>
    match findRow User.id userId bank.users with
    | none => .error .recordNotFound
    | some u => .ok (bank, if u.email = "" then some text else email)
  | .credit userId quota customer =>
    match creditTopUpQuota bank.users userId quota ⟨email, customer⟩ with
    | .error e => .error e
    | .ok users => .ok ({ bank with users := users }, email)

def runStmts (bank : Bank) (email : Option String) : List Stmt → Except Error Bank
  | [] => .ok bank
  | stmt :: rest =>
    match stmt.exec bank email with
    | .error e => .error e
    | .ok (bank', email') => runStmts bank' email' rest

/-- The quota of a decimal, when it is in range and positive. -/
def topUpQuota? (d : ℚ) : Option Int :=
  match quotaFromDecimalStrict d with
  | .error _ => none
  | .ok quota => if quota ≤ 0 then none else some quota

theorem topUpQuota?_eq_some {d : ℚ} {quota : Int} :
    topUpQuota? d = some quota ↔ quota = roundHalfAway d ∧ 0 < roundHalfAway d ∧ roundHalfAway d < maxQuota := by
  unfold topUpQuota?
  cases h : quotaFromDecimalStrict d with
  | error e =>
    simp only [reduceCtorEq, false_iff, not_and]
    rintro rfl hpos hlt
    have := quotaFromDecimalStrict_ok.2 ⟨rfl, by simp [minQuota]; omega, hlt⟩
    rw [h] at this
    cases this
  | ok q =>
    obtain ⟨rfl, hlow, hhigh⟩ := quotaFromDecimalStrict_ok.1 h
    dsimp only
    split_ifs with hneg
    · simp only [false_iff, not_and]
      rintro rfl hpos
      omega
    · simp only [Option.some.injEq]
      constructor
      · rintro rfl
        exact ⟨rfl, by omega, hhigh⟩
      · rintro ⟨rfl, -, -⟩
        rfl

/-! ### The functions -/

def completed (row : TopUp) (now : Int) : TopUp :=
  { row with completeTime := now, status := .success }

section

variable (quotaPerUnit : ℚ) (now : Int)

/-- `RechargeEpay` after it has read the order. -/
def rechargeEpayBody (actualPaymentMethod : String) (row : TopUp) : List Stmt :=
  if row.paymentProvider ≠ .epay then [.refuse .paymentMethodMismatch]
  else if row.status = .success then []
  else if row.status ≠ .pending then [.refuse .topUpStatusInvalid]
  else
    match topUpQuota? (row.amount * quotaPerUnit) with
    | none => [.refuse .invalidTopUpQuota]
    | some quota =>
      [.save { completed row now with
          paymentMethod := if actualPaymentMethod = "" then row.paymentMethod else actualPaymentMethod },
        .credit row.userId quota none]

/-- `Recharge`, for Stripe: the order is marked before the quota is computed. -/
def rechargeBody (customerId : String) (row : TopUp) : List Stmt :=
  if row.paymentProvider ≠ .stripe then [.refuse .paymentMethodMismatch]
  else if row.status ≠ .pending then [.refuse .orderStatusWrong]
  else
    .save (completed row now) ::
      match topUpQuota? (row.money * quotaPerUnit) with
      | none => [.refuse .invalidTopUpQuota]
      | some quota => [.credit row.userId quota (some customerId)]

/-- `RechargeCreem`: `Amount` is the quota. -/
def rechargeCreemBody (customerEmail : String) (row : TopUp) : List Stmt :=
  if row.paymentProvider ≠ .creem then [.refuse .paymentMethodMismatch]
  else if row.status ≠ .pending then [.refuse .orderStatusWrong]
  else
    .save (completed row now) ::
      match topUpQuota? row.amount with
      | none => [.refuse .invalidTopUpQuota]
      | some quota =>
        (if customerEmail = "" then [] else [.readUser row.userId customerEmail]) ++
          [.credit row.userId quota none]

/-- The body that `RechargeWaffo` and `RechargeWaffoPancake` share. -/
def amountBody (provider : Provider) (row : TopUp) : List Stmt :=
  if row.paymentProvider ≠ provider then [.refuse .paymentMethodMismatch]
  else if row.status = .success then []
  else if row.status ≠ .pending then [.refuse .orderStatusWrong]
  else
    match topUpQuota? (row.amount * quotaPerUnit) with
    | none => [.refuse .invalidTopUpQuota]
    | some quota => [.save (completed row now), .credit row.userId quota none]

def rechargeWaffoBody : TopUp → List Stmt := amountBody quotaPerUnit now .waffo

def rechargeWaffoPancakeBody : TopUp → List Stmt := amountBody quotaPerUnit now .waffoPancake

/-- `ManualCompleteTopUp`: for Stripe `Money` is the amount of money, for every other provider
`Amount`. -/
def manualCompleteTopUpBody (row : TopUp) : List Stmt :=
  if row.status = .success then []
  else if row.status ≠ .pending then [.refuse .orderNotPending]
  else
    match topUpQuota? (if row.paymentProvider = .stripe then row.money * quotaPerUnit
      else row.amount * quotaPerUnit) with
    | none => [.refuse .invalidTopUpQuota]
    | some quota => [.save (completed row now), .credit row.userId quota none]

end

/-- `UpdatePendingTopUpStatus`; no expected provider skips the check. -/
def updatePendingTopUpStatusBody (expected : Option Provider) (targetStatus : TopUpStatus) (row : TopUp) :
    List Stmt :=
  if ∃ p ∈ expected, row.paymentProvider ≠ p then [.refuse .paymentMethodMismatch]
  else if row.status ≠ .pending then [.refuse .topUpStatusInvalid]
  else [.save { row with status := targetStatus }]

/-- The transaction around a body; `wrap` is what the function makes of an error. -/
def transact (noTradeNo noOrder : Error) (wrap : Error → Error) (body : TopUp → List Stmt)
    (tradeNo : String) (bank : Bank) : Except Error Bank :=
  if tradeNo = "" then .error noTradeNo
  else
    match findRow TopUp.tradeNo tradeNo bank.topUps with
    | none => .error (wrap noOrder)
    | some row => (runStmts bank none (body row)).mapError wrap

section

variable (quotaPerUnit : ℚ) (now : Int)

def rechargeEpay (actualPaymentMethod : String) : String → Bank → Except Error Bank :=
  transact .tradeNoMissing .topUpNotFound id (rechargeEpayBody quotaPerUnit now actualPaymentMethod)

def recharge (customerId : String) : String → Bank → Except Error Bank :=
  transact .tradeNoMissing .orderMissing (fun _ => .tryLater) (rechargeBody quotaPerUnit now customerId)

def rechargeCreem (customerEmail : String) : String → Bank → Except Error Bank :=
  transact .tradeNoMissing .orderMissing (fun _ => .tryLater) (rechargeCreemBody now customerEmail)

def rechargeWaffo : String → Bank → Except Error Bank :=
  transact .tradeNoMissing .orderMissing (fun _ => .tryLater) (rechargeWaffoBody quotaPerUnit now)

def rechargeWaffoPancake : String → Bank → Except Error Bank :=
  transact .tradeNoMissing .orderMissing (fun _ => .tryLater) (rechargeWaffoPancakeBody quotaPerUnit now)

def manualCompleteTopUp : String → Bank → Except Error Bank :=
  transact .orderNoMissing .orderMissing id (manualCompleteTopUpBody quotaPerUnit now)

structure Callback where
  actualPaymentMethod : String := ""
  customerId : String := ""
  customerEmail : String := ""

def gateway (cb : Callback) : Provider → Option (String → Bank → Except Error Bank)
  | .epay => some (rechargeEpay quotaPerUnit now cb.actualPaymentMethod)
  | .stripe => some (recharge quotaPerUnit now cb.customerId)
  | .creem => some (rechargeCreem now cb.customerEmail)
  | .waffo => some (rechargeWaffo quotaPerUnit now)
  | .waffoPancake => some (rechargeWaffoPancake quotaPerUnit now)
  | _ => none

end

def updatePendingTopUpStatus (expected : Option Provider) (targetStatus : TopUpStatus) :
    String → Bank → Except Error Bank :=
  transact .tradeNoMissing .topUpNotFound id (updatePendingTopUpStatusBody expected targetStatus)

/-! ### What a call credits -/

def gain (r : Except Error Bank) : Option (List (Int × Int)) :=
  r.toOption.map fun bank => bank.users.map fun u => (u.id, u.quota)

def creditGain (users : List User) (userId : Int) (d : ℚ) : Option (List (Int × Int)) :=
  match findRow User.id userId users with
  | none => none
  | some u =>
    if Creditable u.quota (roundHalfAway d) then
      some (users.map fun x =>
        if x.id = userId then (x.id, u.quota + roundHalfAway d) else (x.id, x.quota))
    else none

/-- The statement that credits ends each body with the balances of `creditGain`. -/
theorem gain_credit {bank : Bank} {email customer : Option String} {userId : Int} {d : ℚ} {quota : Int}
    (h : topUpQuota? d = some quota) :
    gain (runStmts bank email [.credit userId quota customer]) = creditGain bank.users userId d := by
  obtain ⟨rfl, hpos, hlt⟩ := topUpQuota?_eq_some.1 h
  unfold creditGain
  cases hcredit : creditTopUpQuota bank.users userId (roundHalfAway d) ⟨email, customer⟩ with
  | error e =>
    have hnone : gain (runStmts bank email [.credit userId (roundHalfAway d) customer]) = none := by
      simp [runStmts, Stmt.exec, hcredit, gain, Except.toOption]
    rw [hnone]
    cases hfind : findRow User.id userId bank.users with
    | none => rfl
    | some u =>
      dsimp only
      rw [if_neg fun hc => ?_]
      rw [creditTopUpQuota_ok.2 ⟨u, hfind, hc, rfl⟩] at hcredit
      cases hcredit
  | ok users =>
    obtain ⟨u, hfind, hc, rfl⟩ := creditTopUpQuota_ok.1 hcredit
    have hid : u.id = userId := (findRow_eq_some hfind).2
    simp only [hfind, if_pos hc]
    simp only [runStmts, Stmt.exec, hcredit, gain, Except.toOption, Option.map_some, saveRow, List.map_map,
      Option.some.injEq]
    refine List.map_congr_left fun x _ => ?_
    simp only [Function.comp_apply, User.credit, hid]
    split_ifs with hx
    · rw [hx]
    · rfl

theorem creditGain_of_none {users : List User} {userId : Int} {d : ℚ} (h : topUpQuota? d = none) :
    creditGain users userId d = none := by
  unfold creditGain
  cases findRow User.id userId users with
  | none => rfl
  | some u =>
    dsimp only
    rw [if_neg fun hc => ?_]
    have := topUpQuota?_eq_some.2 ⟨rfl, hc.1, hc.2.1⟩
    rw [h] at this
    cases this

section

variable {quotaPerUnit : ℚ} {now : Int} {bank : Bank} {tradeNo : String} {row : TopUp}

theorem gain_transact {noTradeNo noOrder : Error} {wrap : Error → Error} {body : TopUp → List Stmt}
    (htrade : tradeNo ≠ "") (hrow : findRow TopUp.tradeNo tradeNo bank.topUps = some row) :
    gain (transact noTradeNo noOrder wrap body tradeNo bank) = gain (runStmts bank none (body row)) := by
  simp only [transact, if_neg htrade, hrow]
  cases runStmts bank none (body row) <;> rfl

theorem gain_save (row' : TopUp) (email : Option String) (rest : List Stmt) :
    gain (runStmts bank email (.save row' :: rest)) =
      gain (runStmts { bank with topUps := saveRow TopUp.tradeNo row' bank.topUps } email rest) := rfl

/-- Reading the user first fails only when the credit would. -/
theorem gain_readUser {email customer : Option String} {text : String} {userId quota : Int} {d : ℚ}
    (h : topUpQuota? d = some quota) :
    gain (runStmts bank email [.readUser userId text, .credit userId quota customer]) =
      creditGain bank.users userId d := by
  cases hfind : findRow User.id userId bank.users with
  | none => simp [runStmts, Stmt.exec, hfind, gain, creditGain, Except.toOption]
  | some u =>
    have hnext : runStmts bank email [.readUser userId text, .credit userId quota customer] =
        runStmts bank (if u.email = "" then some text else email) [.credit userId quota customer] := by
      rw [runStmts]
      simp only [Stmt.exec, hfind]
    rw [hnext, gain_credit h]

/-- A body that refuses an amount without a quota credits what it credits for the quota. -/
theorem gain_quota {email : Option String} {userId : Int} {d : ℚ} {e : Error} {body : Int → List Stmt}
    (h : ∀ quota, topUpQuota? d = some quota → gain (runStmts bank email (body quota)) =
      creditGain bank.users userId d) :
    gain (runStmts bank email (match topUpQuota? d with | none => [.refuse e] | some quota => body quota)) =
      creditGain bank.users userId d := by
  cases hquota : topUpQuota? d with
  | none => exact (creditGain_of_none hquota).symm
  | some quota => exact h quota hquota

theorem gain_manual (hpending : row.status = .pending) :
    gain (runStmts bank none (manualCompleteTopUpBody quotaPerUnit now row)) =
      creditGain bank.users row.userId
        (if row.paymentProvider = .stripe then row.money * quotaPerUnit else row.amount * quotaPerUnit) := by
  unfold manualCompleteTopUpBody
  rw [if_neg (by simp [hpending]), if_neg (by simp [hpending])]
  generalize (if row.paymentProvider = .stripe then row.money * quotaPerUnit
    else row.amount * quotaPerUnit) = d
  exact gain_quota fun quota hquota => by rw [gain_save, gain_credit hquota]

theorem gain_amount {provider : Provider} (hprovider : row.paymentProvider = provider)
    (hpending : row.status = .pending) :
    gain (runStmts bank none (amountBody quotaPerUnit now provider row)) =
      creditGain bank.users row.userId (row.amount * quotaPerUnit) := by
  unfold amountBody
  rw [if_neg (by simp [hprovider]), if_neg (by simp [hpending]), if_neg (by simp [hpending])]
  exact gain_quota fun quota hquota => by rw [gain_save, gain_credit hquota]

theorem gain_epay {method : String} (hprovider : row.paymentProvider = .epay)
    (hpending : row.status = .pending) :
    gain (runStmts bank none (rechargeEpayBody quotaPerUnit now method row)) =
      creditGain bank.users row.userId (row.amount * quotaPerUnit) := by
  unfold rechargeEpayBody
  rw [if_neg (by simp [hprovider]), if_neg (by simp [hpending]), if_neg (by simp [hpending])]
  exact gain_quota fun quota hquota => by rw [gain_save, gain_credit hquota]

theorem gain_stripe {customerId : String} (hprovider : row.paymentProvider = .stripe)
    (hpending : row.status = .pending) :
    gain (runStmts bank none (rechargeBody quotaPerUnit now customerId row)) =
      creditGain bank.users row.userId (row.money * quotaPerUnit) := by
  unfold rechargeBody
  rw [if_neg (by simp [hprovider]), if_neg (by simp [hpending]), gain_save]
  exact gain_quota fun quota hquota => gain_credit hquota

theorem gain_creem {customerEmail : String} (hprovider : row.paymentProvider = .creem)
    (hpending : row.status = .pending) :
    gain (runStmts bank none (rechargeCreemBody now customerEmail row)) =
      creditGain bank.users row.userId row.amount := by
  unfold rechargeCreemBody
  rw [if_neg (by simp [hprovider]), if_neg (by simp [hpending]), gain_save]
  refine gain_quota fun quota hquota => ?_
  split_ifs
  · exact gain_credit hquota
  · exact gain_readUser hquota

/-- Two decimals credit the same when they round alike or neither can be credited. -/
theorem creditGain_eq_iff {users : List User} {userId : Int} {d e : ℚ} :
    creditGain users userId d = creditGain users userId e ↔
      ∀ u, findRow User.id userId users = some u → roundHalfAway d = roundHalfAway e ∨
        (¬Creditable u.quota (roundHalfAway d) ∧ ¬Creditable u.quota (roundHalfAway e)) := by
  unfold creditGain
  cases hfind : findRow User.id userId users with
  | none => simp
  | some u =>
    obtain ⟨hmem, hid⟩ := findRow_eq_some hfind
    simp only [Option.some.injEq, forall_eq']
    by_cases hd : Creditable u.quota (roundHalfAway d) <;>
      by_cases he : Creditable u.quota (roundHalfAway e)
    · rw [if_pos hd, if_pos he, Option.some.injEq]
      constructor
      · intro h
        have hu := List.map_inj_left.1 h u hmem
        simp only [hid, if_true, Prod.mk.injEq, true_and] at hu
        exact Or.inl (by omega)
      · rintro (h | ⟨hnot, -⟩)
        · rw [h]
        · exact absurd hd hnot
    · rw [if_pos hd, if_neg he]
      constructor
      · intro h
        cases h
      · rintro (h | ⟨hnot, -⟩)
        · exact absurd (h ▸ hd) he
        · exact absurd hd hnot
    · rw [if_neg hd, if_pos he]
      constructor
      · intro h
        cases h
      · rintro (h | ⟨-, hnot⟩)
        · exact absurd (h ▸ he) hd
        · exact absurd he hnot
    · rw [if_neg hd, if_neg he]
      exact ⟨fun _ => Or.inr ⟨hd, he⟩, fun _ => rfl⟩

end

/-- For a pending order, manual completion succeeds exactly when the provider's function would and
leaves the same balances, precisely unless the order is Creem's and `Amount` as money and `Amount`
as quota differ and one of them can be credited. -/
theorem manualComplete_agrees_iff (quotaPerUnit : ℚ) (now now' : Int) (cb : Callback) (bank : Bank)
    (tradeNo : String) (row : TopUp) (own : String → Bank → Except Error Bank) (htrade : tradeNo ≠ "")
    (hrow : findRow TopUp.tradeNo tradeNo bank.topUps = some row) (hpending : row.status = .pending)
    (hown : gateway quotaPerUnit now' cb row.paymentProvider = some own) :
    gain (manualCompleteTopUp quotaPerUnit now tradeNo bank) = gain (own tradeNo bank) ↔
      (row.paymentProvider = .creem → ∀ u, findRow User.id row.userId bank.users = some u →
        roundHalfAway (row.amount * quotaPerUnit) = row.amount ∨
          (¬Creditable u.quota (roundHalfAway (row.amount * quotaPerUnit)) ∧
            ¬Creditable u.quota row.amount)) := by
  rw [manualCompleteTopUp, gain_transact htrade hrow, gain_manual hpending]
  cases hprovider : row.paymentProvider with rw [hprovider] at hown
  | epay =>
    cases hown
    simp [rechargeEpay, gain_transact htrade hrow, gain_epay hprovider hpending]
  | stripe =>
    cases hown
    simp [recharge, gain_transact htrade hrow, gain_stripe hprovider hpending]
  | creem =>
    cases hown
    rw [rechargeCreem, gain_transact htrade hrow, gain_creem hprovider hpending]
    simp [creditGain_eq_iff]
  | waffo =>
    cases hown
    simp [rechargeWaffo, rechargeWaffoBody, gain_transact htrade hrow, gain_amount hprovider hpending]
  | waffoPancake =>
    cases hown
    simp [rechargeWaffoPancake, rechargeWaffoPancakeBody, gain_transact htrade hrow,
      gain_amount hprovider hpending]
  | balance =>
    cases hown
  | other text =>
    cases hown

/-- A pending order over `3` by one provider, of a user with an empty balance. -/
def pendingOrder (provider : Provider) : Bank where
  topUps := [⟨7, 3, 3, "t1", "card", provider, 10, 0, .pending⟩]
  users := [⟨7, 0, "", ""⟩]

theorem manualComplete_agrees_waffo :
    gain (manualCompleteTopUp 500000 20 "t1" (pendingOrder .waffo)) =
      gain (rechargeWaffo 500000 20 "t1" (pendingOrder .waffo)) :=
  (manualComplete_agrees_iff 500000 20 20 {} (pendingOrder .waffo) "t1"
    ⟨7, 3, 3, "t1", "card", .waffo, 10, 0, .pending⟩ _ (by decide) rfl rfl rfl).2 (by decide)

/-- Creem sells `3` units of quota; the manual completion credits three times `QuotaPerUnit`. -/
theorem manualComplete_creem_differs :
    gain (rechargeCreem 20 "" "t1" (pendingOrder .creem)) = some [(7, 3)] ∧
      gain (manualCompleteTopUp 500000 20 "t1" (pendingOrder .creem)) = some [(7, 1500000)] := by
  decide +kernel

end TokenEra.TopUps
