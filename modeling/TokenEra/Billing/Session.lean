import TokenEra.Subscription.Refund

/-!
# Billing sessions

`service/billing_session.go` and `service/funding_source.go`. A session takes an amount in advance
from a funding source (the wallet or a subscription) and from the token, may take more of both while
the request is prepared (`reserve`), and ends with a settlement (`settle`) or a refund (`refund`).
The refund decides under the session's lock; the giving back runs later, as three steps of a
background job.

The operations of the model layer on the wallet and on the token either happen in full or fail
without an effect. Which of the two is an argument here (`Reply`, or a `fault`), since it depends on
caches and on other requests; the subscription operations are the functions of
`model/subscription.go`.
-/

namespace TokenEra.Billing

open Lib Subscription

structure Store where
  userQuota : Int
  tokenQuota : Int
  db : Db
deriving DecidableEq, Repr

/-- The zone, the plans, `GetTrustQuota` and `logger.FormatQuota`. -/
structure Settings extends Env where
  trustQuota : Int
  formatQuota : Int → String

/-- The answer of `TryReserveUserQuota` or `TryReserveTokenQuota`; a refusal carries the balance
that is read for its message. -/
inductive Reply
  | reserved
  | refused (remaining : Int)
  | failed (text : String)
deriving DecidableEq, Repr

/-! ### Operations on the wallet and the token -/

def negativeQuota : String := "quota 不能为负数！"

/-- `IncreaseUserQuota` by `quota`, and `DecreaseUserQuota` with `take`. -/
def changeUserQuota (take : Bool) (fault : Option String) (quota : Int) (st : Store) :
    Except String Store :=
  if quota < 0 then .error negativeQuota
  else
    match fault with
    | some text => .error text
    | none => .ok { st with userQuota := if take then st.userQuota - quota else st.userQuota + quota }

def increaseUserQuota := changeUserQuota false

def decreaseUserQuota := changeUserQuota true

/-- `IncreaseTokenQuota` by `quota`, and `DecreaseTokenQuota` with `take`. -/
def changeTokenQuota (take : Bool) (fault : Option String) (quota : Int) (st : Store) :
    Except String Store :=
  if quota < 0 then .error negativeQuota
  else
    match fault with
    | some text => .error text
    | none => .ok { st with tokenQuota := if take then st.tokenQuota - quota else st.tokenQuota + quota }

def increaseTokenQuota := changeTokenQuota false

def decreaseTokenQuota := changeTokenQuota true

def preConsumeTokenQuota (env : Settings) (isPlayground : Bool) (reply : Reply) (quota : Int)
    (st : Store) : Except String Store :=
  if quota < 0 then .error negativeQuota
  else if isPlayground ∨ quota = 0 then .ok st
  else
    match reply with
    | .failed text => .error text
    | .refused remaining =>
      .error ("token quota is not enough, token remain quota: " ++ env.formatQuota remaining ++
        ", need quota: " ++ env.formatQuota quota)
    | .reserved => .ok { st with tokenQuota := st.tokenQuota - quota }

/-! ### Funding sources -/

structure WalletFunding where
  userId : Int
  consumed : Int := 0
deriving DecidableEq, Repr

structure SubscriptionFunding where
  requestId : String
  userId : Int
  amount : Int
  subscriptionId : Int := 0
  preConsumed : Int := 0
deriving DecidableEq, Repr

inductive Funding
  | wallet (w : WalletFunding)
  | subscription (f : SubscriptionFunding)
deriving DecidableEq, Repr

inductive FundingError
  | insufficientWalletQuota (remaining : Int)
  | other (text : String)
deriving DecidableEq, Repr

structure Attempt where
  now : Int
  turns : Nat
  token : Reply := .reserved
  wallet : Reply := .reserved
  subscription : Option String := none
  rollback : Option String := none

def WalletFunding.preConsume (reply : Reply) (amount : Int) (w : WalletFunding) (st : Store) :
    Except FundingError (WalletFunding × Store) :=
  if amount ≤ 0 then .ok (w, st)
  else
    match reply with
    | .failed text => .error (.other text)
    | .refused remaining => .error (.insufficientWalletQuota remaining)
    | .reserved => .ok ({ w with consumed := amount }, { st with userQuota := st.userQuota - amount })

/-- The amount argument of the source is ignored: the one of the construction is taken. -/
def SubscriptionFunding.preConsume (env : Settings) (a : Attempt) (f : SubscriptionFunding) (st : Store) :
    Option (Except FundingError (SubscriptionFunding × Store) × List ResetEvent) :=
  (preConsumeUserSubscription env.toEnv a.subscription a.turns a.now f.requestId f.userId f.amount
      st.db).map fun out =>
    match out.result with
    | .error e => (.error (.other e.text), [])
    | .ok res =>
      (.ok ({ f with subscriptionId := res.userSubscriptionId, preConsumed := res.preConsumed },
        { st with db := out.db }), out.events)

def Funding.preConsume (env : Settings) (a : Attempt) (amount : Int) (funding : Funding) (st : Store) :
    Option (Except FundingError (Funding × Store) × List ResetEvent) :=
  match funding with
  | .wallet w => some ((w.preConsume a.wallet amount st).map fun (w, st) => (.wallet w, st), [])
  | .subscription f =>
    (f.preConsume env a st).map fun (r, events) => (r.map fun (f, st) => (.subscription f, st), events)

def postConsumeDelta (fault : Option String) (subscriptionId delta : Int) (st : Store) :
    Except String Store :=
  let out := postConsumeUserSubscriptionDelta fault subscriptionId delta st.db
  match out.result with
  | .error e => .error e.text
  | .ok () => .ok { st with db := out.db }

def Funding.settle (fault : Option String) (delta : Int) (funding : Funding) (st : Store) :
    Except String Store :=
  if delta = 0 then .ok st
  else
    match funding with
    | .wallet _ =>
      if 0 < delta then decreaseUserQuota fault delta st else increaseUserQuota fault (-delta) st
    | .subscription f => postConsumeDelta fault f.subscriptionId delta st

structure JobFaults where
  fault : Option String := none
  refund : Nat → RefundFaults := fun _ => {}

/-- Whether the refund succeeded, and the store after it. A failed one of a subscription may have
changed the tables: see `halfCommits`. -/
def Funding.refund (faults : JobFaults) (funding : Funding) (st : Store) : Bool × Store :=
  match funding with
  | .wallet w =>
    if w.consumed ≤ 0 then (true, st)
    else
      match increaseUserQuota faults.fault w.consumed st with
      | .error _ => (false, st)
      | .ok st => (true, st)
  | .subscription f =>
    if f.preConsumed ≤ 0 then (true, st)
    else
      let out := refundWithRetry (fun i => refundSubscriptionPreConsume (faults.refund i) f.requestId) st.db
      (out.result.isOk, { st with db := out.db })

/-! ### The session -/

/-- What a session reads of `RelayInfo` and of the request's context. -/
structure RelayInfo where
  userId : Int
  requestId : String
  isPlayground : Bool := false
  tokenUnlimited : Bool := false
  tokenQuota : Int := 0
  forcePreConsume : Bool := false
  billingPreference : String := ""
  userQuota : Int := 0
  subscriptionId : Int := 0
deriving DecidableEq, Repr

structure Session where
  relayInfo : RelayInfo
  funding : Funding
  preConsumedQuota : Int := 0
  tokenConsumed : Int := 0
  /-- Taken by `Reserve`; the refund of a subscription gives it back on its own. -/
  extraReserved : Int := 0
  trusted : Bool := false
  fundingSettled : Bool := false
  settled : Bool := false
  refunded : Bool := false
deriving DecidableEq, Repr

inductive ErrorCode
  | preConsumeTokenQuotaFailed
  | insufficientUserQuota
  | updateDataError
  | queryDataError
  | modelPriceError
deriving DecidableEq, Repr

structure ApiError where
  code : ErrorCode
  message : String
deriving DecidableEq, Repr

def Session.shouldTrust (env : Settings) (s : Session) : Bool :=
  if s.relayInfo.forcePreConsume then false
  else if env.trustQuota ≤ 0 then false
  else if ¬s.relayInfo.tokenUnlimited ∧ s.relayInfo.tokenQuota ≤ env.trustQuota then false
  else
    match s.funding with
    | .wallet _ => env.trustQuota < s.relayInfo.userQuota
    | .subscription _ => false

def Session.syncRelayInfo (s : Session) : Session :=
  { s with
    relayInfo := { s.relayInfo with
      subscriptionId := match s.funding with
        | .wallet _ => 0
        | .subscription f => f.subscriptionId } }

/-- The error of a failed pre-consumption. The codes of a subscription depend on the error's text.
-/
def preConsumeError (env : Settings) : FundingError → ApiError
  | .insufficientWalletQuota remaining =>
    ⟨.insufficientUserQuota, "用户额度不足, 剩余额度: " ++ env.formatQuota remaining⟩
  | .other text =>
    if contains text "no active subscription" ∨ contains text "subscription quota insufficient" then
      ⟨.insufficientUserQuota, "订阅额度不足或未配置订阅: " ++ text⟩
    else ⟨.updateDataError, text⟩

def Session.effectiveQuota (env : Settings) (quota : Int) (s : Session) : Int :=
  if s.shouldTrust env then 0 else quota

def Session.preConsumeToken (env : Settings) (reply : Reply) (quota : Int) (s : Session) (st : Store) :
    Except String Store :=
  if 0 < quota then preConsumeTokenQuota env s.relayInfo.isPlayground reply quota st else .ok st

def Session.rollbackToken (fault : Option String) (tokenConsumed : Int) (s : Session) (st : Store) : Store :=
  if 0 < tokenConsumed ∧ ¬s.relayInfo.isPlayground then
    match increaseTokenQuota fault tokenConsumed st with
    | .error _ => st
    | .ok st => st
  else st

def Session.preConsume (env : Settings) (a : Attempt) (quota : Int) (s : Session) (st : Store) :
    Option (Except ApiError Session × Store × List ResetEvent) :=
  let effectiveQuota := s.effectiveQuota env quota
  match s.preConsumeToken env a.token effectiveQuota st with
  | .error text => some (.error ⟨.preConsumeTokenQuotaFailed, text⟩, st, [])
  | .ok st =>
    let tokenConsumed := if 0 < effectiveQuota then effectiveQuota else s.tokenConsumed
    (s.funding.preConsume env a effectiveQuota st).map fun (r, events) =>
      match r with
      | .error e => (.error (preConsumeError env e), s.rollbackToken a.rollback tokenConsumed st, [])
      | .ok (funding, st) =>
        (.ok { s with
            funding := funding
            trusted := s.shouldTrust env || s.trusted
            tokenConsumed := tokenConsumed
            preConsumedQuota := effectiveQuota }.syncRelayInfo,
          st, events)

def Session.reserveFunding (fault : Option String) (delta : Int) (s : Session) (st : Store) :
    Except ApiError (Session × Store) :=
  match s.funding with
  | .wallet w =>
    match decreaseUserQuota fault delta st with
    | .error text => .error ⟨.updateDataError, text⟩
    | .ok st => .ok ({ s with funding := .wallet { w with consumed := w.consumed + delta } }, st)
  | .subscription f =>
    match postConsumeDelta fault f.subscriptionId delta st with
    | .error text => .error ⟨.insufficientUserQuota, "订阅额度不足或未配置订阅: " ++ text⟩
    | .ok st => .ok (s, st)

def Session.rollbackFundingReserve (fault : Option String) (delta : Int) (s : Session) (st : Store) :
    Session × Store :=
  match s.funding with
  | .wallet w =>
    match increaseUserQuota fault delta st with
    | .error _ => (s, st)
    | .ok st => ({ s with funding := .wallet { w with consumed := w.consumed - delta } }, st)
  | .subscription f =>
    match postConsumeDelta fault f.subscriptionId (-delta) st with
    | .error _ => (s, st)
    | .ok st => (s, st)

def Session.reserveToken (env : Settings) (reply : Reply) (delta : Int) (s : Session) (st : Store) :
    Except ApiError Store :=
  if delta ≤ 0 ∨ s.relayInfo.isPlayground then .ok st
  else
    match preConsumeTokenQuota env s.relayInfo.isPlayground reply delta st with
    | .error text => .error ⟨.preConsumeTokenQuotaFailed, text⟩
    | .ok st => .ok st

structure ReserveFaults where
  funding : Option String := none
  token : Reply := .reserved
  rollback : Option String := none

def Session.reserve (env : Settings) (faults : ReserveFaults) (targetQuota : Int) (s : Session)
    (st : Store) : Except ApiError Unit × Session × Store :=
  if s.settled ∨ s.refunded ∨ s.trusted ∨ targetQuota ≤ s.preConsumedQuota then (.ok (), s, st)
  else
    let delta := targetQuota - s.preConsumedQuota
    match s.reserveFunding faults.funding delta st with
    | .error e => (.error e, s, st)
    | .ok (s, st) =>
      match s.reserveToken env faults.token delta st with
      | .error e => (.error e, s.rollbackFundingReserve faults.rollback delta st)
      | .ok st =>
        (.ok (), { s with
            preConsumedQuota := s.preConsumedQuota + delta
            tokenConsumed := s.tokenConsumed + delta
            extraReserved := s.extraReserved + delta }.syncRelayInfo, st)

structure SettleFaults where
  funding : Option String := none
  token : Option String := none

/-- The second half of `Settle`. -/
def Session.settleToken (fault : Option String) (delta : Int) (s : Session) (st : Store) :
    Except String Store :=
  if s.relayInfo.isPlayground then .ok st
  else if 0 < delta then decreaseTokenQuota fault delta st
  else increaseTokenQuota fault (-delta) st

def Session.settle (faults : SettleFaults) (actualQuota : Int) (s : Session) (st : Store) :
    Except String Unit × Session × Store :=
  if s.settled then (.ok (), s, st)
  else
    let delta := actualQuota - s.preConsumedQuota
    if delta = 0 then (.ok (), { s with settled := true }, st)
    else
      match if s.fundingSettled then .ok st else s.funding.settle faults.funding delta st with
      | .error text => (.error text, s, st)
      | .ok st =>
        match s.settleToken faults.token delta st with
        | .error text => (.error text, { s with fundingSettled := true, settled := true }, st)
        | .ok st => (.ok (), { s with fundingSettled := true, settled := true }, st)

/-- `needsRefundLocked`. -/
def Session.needsRefund (s : Session) : Bool :=
  if s.settled ∨ s.refunded ∨ s.fundingSettled then false
  else if 0 < s.tokenConsumed then true
  else
    match s.funding with
    | .wallet _ => false
    | .subscription f => 0 < f.preConsumed

/-- The steps of the job that `Refund` starts, with the values it copied. -/
inductive JobStep
  | funding
  | extraReserved (subscriptionId amount : Int)
  | token (amount : Int)
deriving DecidableEq, Repr

def Session.extraJob (s : Session) : List JobStep :=
  match s.funding with
  | .wallet _ => []
  | .subscription _ =>
    if 0 < s.extraReserved ∧ 0 < s.relayInfo.subscriptionId then
      [.extraReserved s.relayInfo.subscriptionId s.extraReserved]
    else []

def Session.tokenJob (s : Session) : List JobStep :=
  if 0 < s.tokenConsumed ∧ ¬s.relayInfo.isPlayground then [.token s.tokenConsumed] else []

def Session.refundJob (s : Session) : List JobStep := .funding :: (s.extraJob ++ s.tokenJob)

def Session.refund (s : Session) : Session × List JobStep :=
  if s.settled ∨ s.refunded ∨ ¬s.needsRefund then (s, [])
  else ({ s with refunded := true }, s.refundJob)

def JobStep.run (faults : JobFaults) (s : Session) (st : Store) : JobStep → Store
  | .funding => (s.funding.refund faults st).2
  | .extraReserved subscriptionId amount =>
    match postConsumeDelta faults.fault subscriptionId (-amount) st with
    | .error _ => st
    | .ok st => st
  | .token amount =>
    match increaseTokenQuota faults.fault amount st with
    | .error _ => st
    | .ok st => st

/-! ### Construction -/

inductive Preference
  | subscriptionOnly
  | walletOnly
  | walletFirst
  | subscriptionFirst
deriving DecidableEq, Repr

def normalizeBillingPreference (pref : String) : Preference :=
  match trimSpace pref with
  | "wallet_first" => .walletFirst
  | "subscription_only" => .subscriptionOnly
  | "wallet_only" => .walletOnly
  | _ => .subscriptionFirst

structure Circumstances where
  wallet : Attempt
  subscription : Attempt
  userQuota : Except String Int
  hasActive : Option String := none
  overflow : Option String := none

def hasActiveUserSubscription (fault : Option String) (now userId : Int) (db : Db) : Except String Bool :=
  if userId ≤ 0 then .error "invalid userId"
  else
    match fault with
    | some text => .error text
    | none => .ok (db.activeSubs userId now ≠ [])

def userActiveSubscriptionsAllowWalletOverflow (fault : Option String) (now userId : Int) (db : Db) :
    Except String Bool :=
  if userId ≤ 0 then .error "invalid userId"
  else
    match fault with
    | some text => .error text
    | none => .ok ((db.activeSubs userId now).all UserSubscription.allowWalletOverflow)

def walletSession (info : RelayInfo) (userQuota : Int) : Session where
  relayInfo := { info with userQuota := userQuota }
  funding := .wallet { userId := info.userId }

def subscriptionSession (info : RelayInfo) (subConsume : Int) : Session where
  relayInfo := info
  funding := .subscription { requestId := info.requestId, userId := info.userId, amount := subConsume }

section Construction

variable (env : Settings) (c : Circumstances) (info : RelayInfo) (preConsumedQuota : Int) (st : Store)

def tryWallet : Option (Except ApiError Session × Store × List ResetEvent) :=
  match c.userQuota with
  | .error text => some (.error ⟨.queryDataError, text⟩, st, [])
  | .ok userQuota =>
    if userQuota ≤ 0 then
      some (.error ⟨.insufficientUserQuota, "用户额度不足, 剩余额度: " ++ env.formatQuota userQuota⟩, st, [])
    else if userQuota - preConsumedQuota < 0 then
      some (.error ⟨.insufficientUserQuota, "预扣费额度失败, 用户剩余额度: " ++ env.formatQuota userQuota ++
        ", 需要预扣费额度: " ++ env.formatQuota preConsumedQuota⟩, st, [])
    else (walletSession info userQuota).preConsume env c.wallet preConsumedQuota st

/-- A subscription is charged at least `1`. -/
def trySubscription : Option (Except ApiError Session × Store × List ResetEvent) :=
  let subConsume := if preConsumedQuota ≤ 0 then 1 else preConsumedQuota
  (subscriptionSession info subConsume).preConsume env c.subscription subConsume st

def newBillingSession : Option (Except ApiError Session × Store × List ResetEvent) :=
  match normalizeBillingPreference info.billingPreference with
  | .subscriptionOnly => trySubscription env c info preConsumedQuota st
  | .walletOnly => tryWallet env c info preConsumedQuota st
  | .walletFirst =>
    (tryWallet env c info preConsumedQuota st).bind fun (r, st', events) =>
      match r with
      | .ok session => some (.ok session, st', events)
      | .error e =>
        if e.code = .insufficientUserQuota then trySubscription env c info preConsumedQuota st'
        else some (.error e, st', events)
  | .subscriptionFirst =>
    match hasActiveUserSubscription c.hasActive c.subscription.now info.userId st.db with
    | .error text => some (.error ⟨.queryDataError, text⟩, st, [])
    | .ok false => tryWallet env c info preConsumedQuota st
    | .ok true =>
      (trySubscription env c info preConsumedQuota st).bind fun (r, st', events) =>
        match r with
        | .ok session => some (.ok session, st', events)
        | .error e =>
          if e.code = .insufficientUserQuota then
            match userActiveSubscriptionsAllowWalletOverflow c.overflow c.wallet.now info.userId st'.db with
            | .error text => some (.error ⟨.queryDataError, text⟩, st', events)
            | .ok true => tryWallet env c info preConsumedQuota st'
            | .ok false => some (.error e, st', events)
          else some (.error e, st', events)

end Construction

/-! ### A session in use -/

/-- What other code added to the balances of the user and the token and to the used amount of the
session's subscription since the session began. -/
structure Others where
  userQuota : Int := 0
  tokenQuota : Int := 0
  amountUsed : Int := 0
deriving DecidableEq, Repr

/-- A completed `Settle`: its amount, what others had used of the subscription at that time, and
whether the token's step failed. -/
structure Settlement where
  actual : Int
  othersUsed : Int
  tokenFailed : Bool
deriving DecidableEq, Repr

inductive Move
  | settle (delta : Int)
  | refund
deriving DecidableEq, Repr

structure State where
  session : Session
  store : Store
  job : List JobStep := []
  others : Others := {}
  settlement : Option Settlement := none
  moves : List Move := []

inductive Action
  | reserve (faults : ReserveFaults) (targetQuota : Int)
  | settle (faults : SettleFaults) (actualQuota : Int)
  | refund
  | job (faults : JobFaults)
  | others (change : Others)

def Session.subscription? (s : Session) (db : Db) : Option UserSubscription :=
  match s.funding with
  | .wallet _ => none
  | .subscription f => db.sub? f.subscriptionId

def State.othersUsed (start : Store) (s : State) : Int :=
  match s.session.funding with
  | .wallet _ => 0
  | .subscription f => usedOf start.db f.subscriptionId + s.others.amountUsed

/-- Other code moves the balances. It does not give back more of the subscription than others used,
and stays within its total. -/
def State.applyOthers (start : Store) (change : Others) (s : State) : Option State :=
  let others : Others :=
    ⟨s.others.userQuota + change.userQuota, s.others.tokenQuota + change.tokenQuota,
      s.others.amountUsed + change.amountUsed⟩
  let store : Store :=
    { s.store with
      userQuota := s.store.userQuota + change.userQuota
      tokenQuota := s.store.tokenQuota + change.tokenQuota }
  match s.session.subscription? s.store.db with
  | none => some { s with others := others, store := store }
  | some sub =>
    let used := sub.amountUsed + change.amountUsed
    if s.othersUsed start + change.amountUsed < 0 ∨ (0 < sub.amountTotal ∧ sub.amountTotal < used) then none
    else
      some { s with
        others := others, store := { store with db := s.store.db.saveSub { sub with amountUsed := used } } }

def step (env : Settings) (start : Store) (s : State) : Action → Option State
  | .reserve faults targetQuota =>
    let (_, session, store) := s.session.reserve env faults targetQuota s.store
    some { s with session := session, store := store }
  | .settle faults actualQuota =>
    let (result, session, store) := s.session.settle faults actualQuota s.store
    let delta := actualQuota - s.session.preConsumedQuota
    some { s with
      session := session
      store := store
      settlement :=
        if session.settled ∧ ¬s.session.settled then
          some ⟨actualQuota, s.othersUsed start, !result.isOk⟩
        else s.settlement
      moves :=
        if session.settled ∧ ¬s.session.settled ∧ delta ≠ 0 then s.moves ++ [.settle delta] else s.moves }
  | .refund =>
    let (session, job) := s.session.refund
    some { s with session := session, job := s.job ++ job }
  | .job faults =>
    match s.job with
    | [] => none
    | j :: rest =>
      some { s with
        store := j.run faults s.session s.store
        job := rest
        moves :=
          if j = .funding ∧ (s.session.funding.refund faults s.store).1 then s.moves ++ [.refund]
          else s.moves }
  | .others change => s.applyOthers start change

def State.fundingTaken (start : Store) (s : State) : Int :=
  match s.session.funding with
  | .wallet _ => start.userQuota + s.others.userQuota - s.store.userQuota
  | .subscription f => usedOf s.store.db f.subscriptionId - s.othersUsed start

def State.tokenTaken (start : Store) (s : State) : Int :=
  start.tokenQuota + s.others.tokenQuota - s.store.tokenQuota

end TokenEra.Billing
