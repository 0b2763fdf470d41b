import Mathlib.Data.List.Sort
import TokenEra.Lib.Table
import TokenEra.Subscription.Plan

/-!
# The subscription tables and the functions that write them

`Db` holds the rows of `user_subscriptions` and `subscription_pre_consume_records`. Each function of
`model/subscription.go` becomes a function from a `Db` to an `Outcome`: the tables after the call,
what it returned, and the resets it committed (`ResetEvent`, a log for the theorems about resets). A
`DB.Transaction` is atomic: when its body returns an error, or when a statement or the commit fails
in the database (`fault`), the tables stay as they were (`transaction`).

`maybeResetUserSubscriptionWithPlanTx` walks from boundary to boundary. The walk takes a bound on
its number of turns and gives `none` when it has not ended by then, so `none` means "has not
returned yet"; `resetWalk_terminates` says that `now - base` turns are enough when every boundary
lies after its base.
-/

namespace TokenEra.Subscription

open Lib Lib.Calendar

/-! ### Rows -/

inductive SubStatus
  | active
  | expired
  | cancelled
deriving DecidableEq, Repr

structure UserSubscription where
  id : Int
  userId : Int
  planId : Int
  amountTotal : Int
  amountUsed : Int
  startTime : Int
  endTime : Int
  status : SubStatus
  source : String
  lastResetTime : Int
  nextResetTime : Int
  allowWalletOverflow : Bool
deriving DecidableEq, Repr

inductive RecordStatus
  | consumed
  | refunded
deriving DecidableEq, Repr

/-- `SubscriptionPreConsumeRecord`; `requestId` has a unique index. -/
structure PreConsumeRecord where
  requestId : String
  userId : Int
  userSubscriptionId : Int
  preConsumed : Int
  status : RecordStatus
deriving DecidableEq, Repr

structure Db where
  subs : List UserSubscription := []
  records : List PreConsumeRecord := []
  /-- The next automatic id of `user_subscriptions`. -/
  nextId : Int := 1
deriving DecidableEq, Repr

namespace Db

def sub? (db : Db) (id : Int) : Option UserSubscription := findRow UserSubscription.id id db.subs

def record? (db : Db) (requestId : String) : Option PreConsumeRecord :=
  findRow PreConsumeRecord.requestId requestId db.records

def saveSub (db : Db) (sub : UserSubscription) : Db :=
  { db with subs := saveRow UserSubscription.id sub db.subs }

def saveSubs (db : Db) (subs : List UserSubscription) : Db :=
  { db with subs := saveRows UserSubscription.id subs db.subs }

def saveRecord (db : Db) (record : PreConsumeRecord) : Db :=
  { db with records := saveRow PreConsumeRecord.requestId record db.records }

def activeSubs (db : Db) (userId now : Int) : List UserSubscription :=
  (db.subs.filter fun s => s.userId = userId ∧ s.status = .active ∧ now < s.endTime).insertionSort
    fun a b => a.endTime < b.endTime ∨ (a.endTime = b.endTime ∧ a.id ≤ b.id)

/-- The rows whose reset is due, the earliest first, up to the limit of a batch. -/
def dueSubs (db : Db) (now limit : Int) : List UserSubscription :=
  ((db.subs.filter fun s => 0 < s.nextResetTime ∧ s.nextResetTime ≤ now ∧ s.status = .active).insertionSort
    fun a b => a.nextResetTime ≤ b.nextResetTime).take (if limit ≤ 0 then 200 else limit.toNat)

end Db

def usedOf (db : Db) (id : Int) : Int := ((db.sub? id).map UserSubscription.amountUsed).getD 0

variable {db : Db} {sub sub' : UserSubscription} {now : Int}

theorem sub?_saveSub (h : db.sub? sub.id = some sub)
    (hid : sub'.id = sub.id) : (db.saveSub sub').sub? sub.id = some sub' := by
  rw [← hid] at h ⊢
  exact findRow_saveRow_self h

theorem usedOf_saveSub (h : db.sub? sub.id = some sub)
    (hid : sub'.id = sub.id) : usedOf (db.saveSub sub') sub.id = sub'.amountUsed := by
  rw [usedOf, sub?_saveSub h hid]
  rfl

theorem usedOf_saveSub_of_ne {id : Int} (h : id ≠ sub.id) :
    usedOf (db.saveSub sub) id = usedOf db id := by
  rw [usedOf, Db.sub?, Db.saveSub, findRow_saveRow_of_ne h]
  rfl

/-! ### Outcomes and transactions -/

inductive ResetKind
  | created
  | automatic
  /-- An admin reset; `true` when it also moves the reset clock. -/
  | admin (advanceResetTime : Bool)
deriving DecidableEq, Repr

/-- The used amount of a subscription to a plan was set to `0` at a time. -/
structure ResetEvent where
  subId : Int
  planId : Int
  kind : ResetKind
  time : Int
deriving DecidableEq, Repr

structure Outcome (α : Type) where
  db : Db
  result : Except Error α
  events : List ResetEvent := []

/-- `DB.Transaction`: keep what the body wrote unless it failed or the database did. -/
def transaction {α : Type} (fault : Option String) (db : Db)
    (body : Except Error (α × Db × List ResetEvent)) : Outcome α :=
  match fault, body with
  | some text, _ => ⟨db, .error (.db text), []⟩
  | none, .error e => ⟨db, .error e, []⟩
  | none, .ok (a, db', events) => ⟨db', .ok a, events⟩

theorem transaction_cases {α : Type} (fault : Option String) (db : Db)
    (body : Except Error (α × Db × List ResetEvent)) :
    ((transaction fault db body).db = db ∧ (transaction fault db body).events = [] ∧
      ∃ e, (transaction fault db body).result = .error e) ∨
    ∃ a db' events, fault = none ∧ body = .ok (a, db', events) ∧
      transaction fault db body = ⟨db', .ok a, events⟩ := by
  rcases fault with _ | text
  · rcases body with e | ⟨a, db', events⟩
    · exact Or.inl ⟨rfl, rfl, e, rfl⟩
    · exact Or.inr ⟨a, db', events, rfl, rfl, rfl⟩
  · exact Or.inl ⟨rfl, rfl, _, rfl⟩

structure Env where
  loc : Location
  plans : List Plan

/-- `getSubscriptionPlanByIdTx`; the cache in front of the table holds the same rows. -/
def Env.plan (env : Env) (id : Int) : Except Error Plan :=
  if id ≤ 0 then .error .invalidPlanId
  else
    match findRow Plan.id id env.plans with
    | none => .error .recordNotFound
    | some plan => .ok plan

/-! ### Creation -/

def purchaseCount (db : Db) (userId planId : Int) : Nat :=
  (db.subs.filter fun s => s.userId = userId ∧ s.planId = planId).length

/-- `CreateUserSubscriptionFromPlanTx` at the database time `now`; `seen` is what its count reads.
-/
def createUserSubscriptionFromPlanTx (env : Env) (now userId : Int) (plan : Plan) (source : String)
    (seen db : Db) : Except Error (UserSubscription × Db) :=
  if plan.id = 0 then .error .invalidPlan
  else if userId ≤ 0 then .error .invalidUser
  else if 0 < plan.maxPurchasePerUser ∧ plan.maxPurchasePerUser ≤ purchaseCount seen userId plan.id then
    .error .purchaseLimitReached
  else
    match calcPlanEndTime env.loc now plan with
    | .error e => .error e
    | .ok endUnix =>
      let nextReset := calcNextResetTime env.loc now plan endUnix
      let sub : UserSubscription :=
        { id := db.nextId, userId := userId, planId := plan.id, amountTotal := plan.totalAmount,
          amountUsed := 0, startTime := now, endTime := endUnix, status := .active, source := source,
          lastResetTime := if 0 < nextReset then now else 0, nextResetTime := nextReset,
          allowWalletOverflow := plan.allowWalletOverflow.getD true }
      .ok (sub, { db with subs := db.subs ++ [sub], nextId := db.nextId + 1 })

def createSubscription (env : Env) (fault : Option String) (now userId planId : Int) (source : String)
    (db : Db) : Outcome UserSubscription :=
  transaction fault db <|
    match env.plan planId with
    | .error e => .error e
    | .ok plan =>
      match createUserSubscriptionFromPlanTx env now userId plan source db db with
      | .error e => .error e
      | .ok (sub, db') => .ok (sub, db', [⟨sub.id, sub.planId, .created, now⟩])

/-! ### Resets -/

/-- The loop `for next > 0 && next <= now`: from boundary to boundary until one is not due. -/
def resetWalk (next : Int → Int) (now : Int) : Nat → Int → Int → Option (Int × Int)
  | turns, base, upcoming =>
    if 0 < upcoming ∧ upcoming ≤ now then
      match turns with
      | 0 => none
      | turns + 1 => resetWalk next now turns upcoming (next upcoming)
    else some (base, upcoming)

theorem resetWalk_of_not_due (next : Int → Int) {upcoming : Int} (turns : Nat) (base : Int)
    (h : ¬(0 < upcoming ∧ upcoming ≤ now)) :
    resetWalk next now turns base upcoming = some (base, upcoming) := by
  cases turns <;> rw [resetWalk, if_neg h]

/-- When every boundary lies after its base, the walk ends within the seconds up to `now`. -/
theorem resetWalk_terminates {next : Int → Int} {since : Int}
    (h : ∀ t, since ≤ t → next t ≠ 0 → t < next t) (turns : Nat) (base upcoming : Int)
    (hsince : 0 < upcoming → since ≤ upcoming) (hturns : now < upcoming + turns ∨ upcoming ≤ 0) :
    ∃ r, resetWalk next now turns base upcoming = some r := by
  induction turns generalizing base upcoming with
  | zero =>
    rw [resetWalk, if_neg (by omega)]
    exact ⟨_, rfl⟩
  | succ turns ih =>
    rw [resetWalk]
    split_ifs with hdue
    · have hbase := hsince hdue.1
      by_cases hzero : next upcoming = 0
      · exact ih upcoming (next upcoming) (by omega) (Or.inr (by omega))
      · have := h upcoming hbase hzero
        push_cast at hturns
        exact ih upcoming (next upcoming) (by omega) (Or.inl (by omega))
    · exact ⟨_, rfl⟩

/-- The walk stops at a boundary that is not due, and what it returns follows from its last base. -/
theorem resetWalk_spec {next : Int → Int} {turns : Nat} {base upcoming : Int}
    {r : Int × Int} (h : resetWalk next now turns base upcoming = some r)
    (hup : upcoming = next base) : r.2 = next r.1 ∧ ¬(0 < r.2 ∧ r.2 ≤ now) ∧
      ((r.1 = base ∧ ¬(0 < upcoming ∧ upcoming ≤ now)) ∨ 0 < r.1) := by
  induction turns generalizing base upcoming with rw [resetWalk] at h
  | zero =>
    split_ifs at h with hdue
    cases h
    exact ⟨hup, hdue, Or.inl ⟨rfl, hdue⟩⟩
  | succ turns ih =>
    split_ifs at h with hdue
    · obtain ⟨hnext, hnot, hbase⟩ := ih h rfl
      refine ⟨hnext, hnot, Or.inr ?_⟩
      rcases hbase with ⟨heq, -⟩ | hpos
      · rw [heq]
        exact hdue.1
      · exact hpos
    · cases h
      exact ⟨hup, hdue, Or.inl ⟨rfl, hdue⟩⟩

/-- The base of the boundary walk: the last reset, or the start while there was none. -/
def UserSubscription.resetBase (sub : UserSubscription) : Int :=
  if sub.lastResetTime ≤ 0 then sub.startTime else sub.lastResetTime

/-- The subscription to save, and whether its used amount was set to `0`. -/
def maybeResetUserSubscriptionWithPlanTx (env : Env) (turns : Nat) (sub : UserSubscription)
    (plan : Plan) (now : Int) : Option (UserSubscription × Bool) :=
  if 0 < sub.nextResetTime ∧ now < sub.nextResetTime then some (sub, false)
  else if plan.resetPeriod = .never then some (sub, false)
  else
    let next := fun base => calcNextResetTime env.loc base plan sub.endTime
    let first := next sub.resetBase
    match resetWalk next now turns sub.resetBase first with
    | none => none
    | some (base, upcoming) =>
      if 0 < first ∧ first ≤ now then
        some ({ sub with amountUsed := 0, lastResetTime := base, nextResetTime := upcoming }, true)
      else if sub.nextResetTime = 0 ∧ 0 < upcoming then
        some ({ sub with nextResetTime := upcoming, lastResetTime := base }, false)
      else some (sub, false)

def resetEvents (sub : UserSubscription) (now : Int) (zeroed : Bool) : List ResetEvent :=
  if zeroed then [⟨sub.id, sub.planId, .automatic, now⟩] else []

def resetUserSubscriptionTx (env : Env) (plan : Plan) (now : Int) (advanceResetTime : Bool)
    (sub : UserSubscription) : UserSubscription :=
  if advanceResetTime then
    let nextReset := calcNextResetTime env.loc now plan sub.endTime
    { sub with
      amountUsed := 0
      nextResetTime := nextReset
      lastResetTime := if 0 < nextReset then now else 0 }
  else { sub with amountUsed := 0 }

structure SubscriptionResetResult where
  planId : Int
  matchedCount : Nat
  resetCount : Nat
  userCount : Nat
  advanceResetTime : Bool
  affectedUserIds : List Int
deriving DecidableEq, Repr

/-- User ids in the order in which they first appear. -/
def distinctUserIds (subs : List UserSubscription) : List Int :=
  subs.foldl (fun ids s => if s.userId ∈ ids then ids else ids ++ [s.userId]) []

def buildSubscriptionResetResult (plan : Plan) (subs : List UserSubscription)
    (advanceResetTime : Bool) : SubscriptionResetResult :=
  { planId := plan.id, matchedCount := subs.length, resetCount := subs.length,
    userCount := (distinctUserIds subs).length, advanceResetTime := advanceResetTime,
    affectedUserIds := distinctUserIds subs }

def resetMatched (env : Env) (plan : Plan) (now : Int) (advanceResetTime : Bool)
    (subs : List UserSubscription) (db : Db) : SubscriptionResetResult × Db × List ResetEvent :=
  (buildSubscriptionResetResult plan subs advanceResetTime,
    db.saveSubs (subs.map (resetUserSubscriptionTx env plan now advanceResetTime)),
    subs.map fun s => ⟨s.id, s.planId, .admin advanceResetTime, now⟩)

def adminResetUserSubscriptionsByPlan (env : Env) (fault : Option String) (now userId planId : Int)
    (advanceResetTime : Bool) (db : Db) : Outcome SubscriptionResetResult :=
  if userId ≤ 0 ∨ planId ≤ 0 then ⟨db, .error .invalidUserIdOrPlanId, []⟩
  else
    transaction fault db <|
      match env.plan planId with
      | .error e => .error e
      | .ok plan =>
        let subs := (db.activeSubs userId now).filter fun s => s.planId = plan.id
        if subs = [] then .error .noActivePlanSubscription
        else .ok (resetMatched env plan now advanceResetTime subs db)

def adminResetPlanSubscriptions (env : Env) (fault : Option String) (now planId : Int)
    (advanceResetTime : Bool) (db : Db) : Outcome SubscriptionResetResult :=
  if planId ≤ 0 then ⟨db, .error .invalidPlanIdArgument, []⟩
  else
    transaction fault db <|
      match env.plan planId with
      | .error e => .error e
      | .ok plan =>
        let subs := (db.subs.filter fun s =>
            s.planId = plan.id ∧ s.status = .active ∧ now < s.endTime).insertionSort fun a b =>
          a.userId < b.userId ∨ (a.userId = b.userId ∧
            (a.endTime < b.endTime ∨ (a.endTime = b.endTime ∧ a.id ≤ b.id)))
        .ok (resetMatched env plan now advanceResetTime subs db)

/-- One transaction of `ResetDueSubscriptions`: reset the row if it is still due. A row that is no
longer due, or that the lock does not find, is skipped without an error. -/
def resetDueRow (env : Env) (fault : Option String) (turns : Nat) (now : Int) (plan : Plan) (id : Int)
    (db : Db) : Option (Outcome Bool) :=
  match (db.sub? id).filter fun s => 0 < s.nextResetTime ∧ s.nextResetTime ≤ now with
  | none => some (transaction fault db (.ok (false, db, [])))
  | some locked =>
    (maybeResetUserSubscriptionWithPlanTx env turns locked plan now).map fun (sub, zeroed) =>
      transaction fault db (.ok (true, db.saveSub sub, resetEvents sub now zeroed))

def resetDueRows (env : Env) (fault : Int → Option String) (turns : Nat) (now : Int) :
    List UserSubscription → Nat → List ResetEvent → Db → Option (Outcome Nat)
  | [], count, events, db => some ⟨db, .ok count, events⟩
  | s :: rest, count, events, db =>
    match env.plan s.planId with
    | .error _ => resetDueRows env fault turns now rest count events db
    | .ok plan =>
      match resetDueRow env (fault s.id) turns now plan s.id db with
      | none => none
      | some out =>
        match out.result with
        | .error e => some ⟨out.db, .error e, events ++ out.events⟩
        | .ok counted =>
          resetDueRows env fault turns now rest (if counted then count + 1 else count)
            (events ++ out.events) out.db

def resetDueSubscriptions (env : Env) (select : Option String) (fault : Int → Option String)
    (turns : Nat) (now limit : Int) (db : Db) : Option (Outcome Nat) :=
  match select with
  | some text => some ⟨db, .error (.db text), []⟩
  | none => resetDueRows env fault turns now (db.dueSubs now limit) 0 [] db

/-! ### Consumption -/

structure PreConsumeResult where
  userSubscriptionId : Int
  preConsumed : Int
  amountTotal : Int
  amountUsedBefore : Int
  amountUsedAfter : Int
deriving DecidableEq, Repr

/-- What the loop over the candidates did: the rows it saved, its resets, and the first
subscription, after its reset, with enough quota left. -/
structure Visit where
  saved : List UserSubscription
  events : List ResetEvent
  chosen : Option UserSubscription

/-! The amounts are `int64`s. Where the functions below compute one, `w` is what is kept of it:
all of it by default, and with `wrap64` what the code keeps. -/

/-- The loop of `PreConsumeUserSubscription` up to the candidate that it charges. -/
def visitCandidates (env : Env) (turns : Nat) (now amount : Int) (subs : List UserSubscription)
    (w : Int → Int := id) : Option (Except Error Visit) :=
  match subs with
  | [] => some (.ok ⟨[], [], none⟩)
  | candidate :: rest =>
    match env.plan candidate.planId with
    | .error e => some (.error e)
    | .ok plan =>
      match maybeResetUserSubscriptionWithPlanTx env turns candidate plan now with
      | none => none
      | some (sub, zeroed) =>
        let events := resetEvents sub now zeroed
        if 0 < sub.amountTotal ∧ w (sub.amountTotal - sub.amountUsed) < amount then
          (visitCandidates env turns now amount rest w).map fun r =>
            r.map fun v => ⟨sub :: v.saved, events ++ v.events, v.chosen⟩
        else some (.ok ⟨[sub], events, some sub⟩)

def preConsumeResult (sub : UserSubscription) (preConsumed charged : Int) (w : Int → Int := id) :
    PreConsumeResult :=
  { userSubscriptionId := sub.id, preConsumed := preConsumed, amountTotal := sub.amountTotal,
    amountUsedBefore := sub.amountUsed, amountUsedAfter := w (sub.amountUsed + charged) }

/-- The transaction body of `PreConsumeUserSubscription` when no other one runs: the request id is
looked up first, so the insert of its record does not meet a duplicate. -/
def preConsumeBody (env : Env) (turns : Nat) (now : Int) (requestId : String) (userId amount : Int)
    (db : Db) (w : Int → Int := id) :
    Option (Except Error (PreConsumeResult × Db × List ResetEvent)) :=
  match db.record? requestId with
  | some existing =>
    some <|
      if existing.status = .refunded then .error .alreadyRefunded
      else
        match db.sub? existing.userSubscriptionId with
        | none => .error .recordNotFound
        | some sub => .ok (preConsumeResult sub existing.preConsumed 0, db, [])
  | none =>
    if db.activeSubs userId now = [] then some (.error .noActiveSubscription)
    else
      (visitCandidates env turns now amount (db.activeSubs userId now) w).map fun r =>
        match r with
        | .error e => .error e
        | .ok visit =>
          match visit.chosen with
          | none => .error (.quotaInsufficient amount)
          | some sub =>
            let charged := { sub with amountUsed := w (sub.amountUsed + amount) }
            .ok (preConsumeResult sub amount amount w,
              { (db.saveSubs visit.saved).saveSub charged with
                records := db.records ++ [⟨requestId, userId, sub.id, amount, .consumed⟩] },
              visit.events)

def preConsumeUserSubscription (env : Env) (fault : Option String) (turns : Nat) (now : Int)
    (requestId : String) (userId amount : Int) (db : Db) (w : Int → Int := id) :
    Option (Outcome PreConsumeResult) :=
  if userId ≤ 0 then some ⟨db, .error .invalidUserId, []⟩
  else if trimSpace requestId = "" then some ⟨db, .error .requestIdEmpty, []⟩
  else if amount ≤ 0 then some ⟨db, .error .amountNotPositive, []⟩
  else (preConsumeBody env turns now requestId userId amount db w).map (transaction fault db)

/-- The new used amount of `PostConsumeUserSubscriptionDelta`: never below `0`, and never above the
total of a limited subscription. -/
def applyDelta (sub : UserSubscription) (delta : Int) (w : Int → Int := id) :
    Except Error UserSubscription :=
  let newUsed := if w (sub.amountUsed + delta) < 0 then 0 else w (sub.amountUsed + delta)
  if 0 < sub.amountTotal ∧ sub.amountTotal < newUsed then
    .error (.usedExceedsTotal newUsed sub.amountTotal)
  else .ok { sub with amountUsed := newUsed }

def postConsumeUserSubscriptionDelta (fault : Option String) (userSubscriptionId delta : Int)
    (db : Db) (w : Int → Int := id) : Outcome Unit :=
  if userSubscriptionId ≤ 0 then ⟨db, .error .invalidUserSubscriptionId, []⟩
  else if delta = 0 then ⟨db, .ok (), []⟩
  else
    transaction fault db <|
      match db.sub? userSubscriptionId with
      | none => .error .recordNotFound
      | some sub =>
        match applyDelta sub delta w with
        | .error e => .error e
        | .ok sub' => .ok ((), db.saveSub sub', [])

theorem applyDelta_ok {delta : Int} (h : applyDelta sub delta = .ok sub') :
    sub' = { sub with amountUsed := max 0 (sub.amountUsed + delta) } ∧
      (0 < sub.amountTotal → sub'.amountUsed ≤ sub.amountTotal) := by
  have hmax : (if sub.amountUsed + delta < 0 then 0 else sub.amountUsed + delta) =
      max 0 (sub.amountUsed + delta) := by
    split_ifs <;> omega
  simp only [applyDelta, id_eq, hmax] at h
  split_ifs at h with hover
  cases h
  refine ⟨rfl, fun hpos => ?_⟩
  simp only at hover ⊢
  omega

theorem applyDelta_fits {delta : Int}
    (h : 0 < sub.amountTotal → sub.amountUsed + delta ≤ sub.amountTotal) :
    ∃ sub', applyDelta sub delta = .ok sub' := by
  rw [applyDelta, if_neg]
  · exact ⟨_, rfl⟩
  · rintro ⟨hpos, hover⟩
    have := h hpos
    rw [id_eq] at hover
    split_ifs at hover <;> omega

/-- A delta is refused and changes nothing, is `0`, or goes to one existing row. -/
theorem postConsume_cases (fault : Option String) (subId delta : Int) (db : Db)
    (w : Int → Int := id) :
    ((postConsumeUserSubscriptionDelta fault subId delta db w).db = db ∧
      (postConsumeUserSubscriptionDelta fault subId delta db w).events = [] ∧
      ∃ e, (postConsumeUserSubscriptionDelta fault subId delta db w).result = .error e) ∨
    (delta = 0 ∧ postConsumeUserSubscriptionDelta fault subId delta db w = ⟨db, .ok (), []⟩) ∨
    ∃ sub sub', fault = none ∧ db.sub? subId = some sub ∧ applyDelta sub delta w = .ok sub' ∧
      postConsumeUserSubscriptionDelta fault subId delta db w = ⟨db.saveSub sub', .ok (), []⟩ := by
  unfold postConsumeUserSubscriptionDelta
  split_ifs with hid hzero
  · exact Or.inl ⟨rfl, rfl, _, rfl⟩
  · exact Or.inr (Or.inl ⟨hzero, rfl⟩)
  · rcases transaction_cases fault db _ with hfail | ⟨a, db', events, hfault, hbody, heq⟩
    · exact Or.inl hfail
    · refine Or.inr (Or.inr ?_)
      rw [heq]
      cases hsub : db.sub? subId with
      | none => simp [hsub] at hbody
      | some sub =>
        cases happly : applyDelta sub delta w with
        | error e => simp [hsub, happly] at hbody
        | ok sub' =>
          simp only [hsub, happly] at hbody
          cases hbody
          exact ⟨sub, sub', hfault, rfl, happly, rfl⟩

/-- The database failures one attempt of `RefundSubscriptionPreConsume` can meet: in the transaction
of `PostConsumeUserSubscriptionDelta`, which it opens and commits on its own, or in the record's
transaction around it. -/
structure RefundFaults where
  lookup : Option String := none
  inner : Option String := none
  save : Option String := none
  commit : Option String := none
deriving DecidableEq, Repr

/-- The first failure met after the inner transaction committed. -/
def RefundFaults.late (faults : RefundFaults) : Option String := faults.save <|> faults.commit

/-- `RefundSubscriptionPreConsume`. The used amount is given back in a transaction of its own on the
global handle; only the record's status belongs to the outer one. -/
def refundSubscriptionPreConsume (faults : RefundFaults) (requestId : String) (db : Db)
    (w : Int → Int := id) : Outcome Unit :=
  if trimSpace requestId = "" then ⟨db, .error .requestIdEmpty, []⟩
  else
    match faults.lookup with
    | some text => ⟨db, .error (.db text), []⟩
    | none =>
      match db.record? requestId with
      | none => ⟨db, .error .recordNotFound, []⟩
      | some record =>
        if record.status = .refunded then
          match faults.commit with
          | some text => ⟨db, .error (.db text), []⟩
          | none => ⟨db, .ok (), []⟩
        else
          let inner : Outcome Unit :=
            if record.preConsumed ≤ 0 then ⟨db, .ok (), []⟩
            else
              postConsumeUserSubscriptionDelta faults.inner record.userSubscriptionId
                (-record.preConsumed) db w
          match inner.result with
          | .error e => ⟨inner.db, .error e, []⟩
          | .ok () =>
            transaction faults.late inner.db
              (.ok ((), inner.db.saveRecord { record with status := .refunded }, []))

/-! ### Expiry and cancellation -/

def isExpirable (now : Int) (s : UserSubscription) : Bool :=
  s.status = .active ∧ 0 < s.endTime ∧ s.endTime ≤ now

def expireUser (now userId : Int) (db : Db) : Db :=
  { db with
    subs := db.subs.map fun s =>
      if s.userId = userId ∧ isExpirable now s then { s with status := .expired } else s }

def expireUsers (fault : Int → Option String) (now : Int) : List Int → Nat → Db → Outcome Nat
  | [], count, db => ⟨db, .ok count, []⟩
  | userId :: rest, count, db =>
    match fault userId with
    | some text => ⟨db, .error (.db text), []⟩
    | none =>
      expireUsers fault now rest
        (count + (db.subs.filter fun s => s.userId = userId ∧ isExpirable now s).length)
        (expireUser now userId db)

/-- `ExpireDueSubscriptions`. Go iterates over the map of users in any order: `order` rearranges
them. -/
def expireDueSubscriptions (select : Option String) (fault : Int → Option String)
    (order : List Int → List Int) (now limit : Int) (db : Db) : Outcome Nat :=
  match select with
  | some text => ⟨db, .error (.db text), []⟩
  | none =>
    let due := (db.subs.filter (isExpirable now)).insertionSort fun a b =>
      a.endTime < b.endTime ∨ (a.endTime = b.endTime ∧ a.id ≤ b.id)
    let subs := due.take (if limit ≤ 0 then 200 else limit.toNat)
    expireUsers fault now (order (distinctUserIds (subs.filter fun s => 0 < s.userId))) 0 db

def adminInvalidateUserSubscription (fault : Option String) (now userSubscriptionId : Int) (db : Db) :
    Outcome Unit :=
  if userSubscriptionId ≤ 0 then ⟨db, .error .invalidUserSubscriptionId, []⟩
  else
    transaction fault db <|
      match db.sub? userSubscriptionId with
      | none => .error .recordNotFound
      | some sub => .ok ((), db.saveSub { sub with status := .cancelled, endTime := now }, [])

def adminDeleteUserSubscription (fault : Option String) (userSubscriptionId : Int) (db : Db) :
    Outcome Unit :=
  if userSubscriptionId ≤ 0 then ⟨db, .error .invalidUserSubscriptionId, []⟩
  else
    transaction fault db <|
      match db.sub? userSubscriptionId with
      | none => .error .recordNotFound
      | some sub => .ok ((), { db with subs := db.subs.filter fun s => s.id ≠ sub.id }, [])

end TokenEra.Subscription
