import TokenEra.Lib.Run
import TokenEra.Payment
import TokenEra.Subscription.Ledger

/-!
# The purchase limit under concurrent purchases

`CompleteSubscriptionOrder`, `AdminBindSubscription` and `PurchaseSubscriptionWithBalance`
interleaved statement by statement on MySQL at REPEATABLE READ: a locking read sees the committed
rows and waits for the lock, a plain read inside a transaction sees the snapshot of that
transaction's first plain read. All three lock the user row and then count the user's rows for the
plan with a plain read.

For the first two the count is the first plain read, so it sees every commit made under the user
lock. A purchase with balance reads the plan inside its transaction before it locks the user row;
when the plan cache is cold that read opens the snapshot, and the count may miss a row committed
while the transaction waited for the lock (`FreshCount` says that it does not).
-/

namespace TokenEra.Subscription.PurchaseLimit

open Lib

/-! ### Rows and calls -/

structure SubscriptionOrder where
  userId : Int
  planId : Int
  money : ℚ
  tradeNo : String
  paymentMethod : String
  paymentProvider : Provider
  status : TopUpStatus
  createTime : Int
  completeTime : Int
  providerPayload : String
deriving DecidableEq, Repr

structure UserRow where
  id : Int
  quota : Int
deriving DecidableEq, Repr

structure World where
  db : Db := {}
  orders : List SubscriptionOrder := []
  topUps : List TopUp := []
  users : List UserRow := []
deriving DecidableEq, Repr

inductive Call
  /-- `expected` is `none` for an empty provider, which skips the check. -/
  | complete (tradeNo providerPayload : String) (expected : Option Provider) (actualMethod : String)
  | adminBind (userId planId : Int)
  | purchase (userId planId : Int)
deriving DecidableEq, Repr

structure Calls (n : Nat) where
  env : Env
  quotaPerUnit : ℚ
  call : Fin n → Call

structure Buyer where
  userId : Int
  plan : Plan
  source : String
  order : Option SubscriptionOrder := none
  /-- The wallet quota that a purchase with balance takes. -/
  required : Int := 0
  snapshot : Option World := none

structure Writes where
  order : Option SubscriptionOrder := none
  topUp : Option TopUp := none

inductive Phase
  | start
  /-- The order row is locked and pending. -/
  | ordered (order : SubscriptionOrder)
  /-- The plan is read; the user row is locked next. -/
  | planned (buyer : Buyer)
  | locked (buyer : Buyer)
  | created (buyer : Buyer) (sub : UserSubscription)
  /-- The body returned: commit. -/
  | returning (buyer : Buyer) (sub : UserSubscription) (writes : Writes)
  | done (result : Except Error Unit)

def Phase.user? : Phase → Option Int
  | .locked b => some b.userId
  | .created b _ => some b.userId
  | .returning b _ _ => some b.userId
  | _ => none

def Phase.trade? : Phase → Option String
  | .ordered order => some order.tradeNo
  | .planned b => b.order.map SubscriptionOrder.tradeNo
  | .locked b => b.order.map SubscriptionOrder.tradeNo
  | .created b _ => b.order.map SubscriptionOrder.tradeNo
  | .returning b _ _ => b.order.map SubscriptionOrder.tradeNo
  | _ => none

structure State (n : Nat) where
  world : World
  phase : Fin n → Phase

/-- A transaction runs its next statement: whether the plan cache is warm, the time, and the random
part of a new trade number; or it aborts. -/
inductive Action (n : Nat)
  | advance (i : Fin n) (hit : Bool) (now : Int) (random : String)
  | abort (i : Fin n) (text : String)

variable {n : Nat} (c : Calls n)

def State.set (s : State n) (i : Fin n) (q : Phase) : State n :=
  { s with phase := Function.update s.phase i q }

/-! ### The statements -/

def calcSubscriptionBalanceQuota (quotaPerUnit priceAmount : ℚ) : Except Error Int :=
  if priceAmount ≤ 0 then .ok 0
  else if quotaPerUnit ≤ 0 then .error .quotaUnitInvalid
  else
    match quotaFromDecimalStrict ⌈priceAmount * quotaPerUnit⌉ with
    | .error _ => .error .quotaOutOfRange
    | .ok quota => .ok quota

/-- The checks of `PurchaseSubscriptionWithBalance` on the plan: the quota that it takes. -/
def balancePrice (plan : Plan) : Except Error Int :=
  if ¬plan.enabled then .error .planDisabled
  else if plan.priceAmount < 0 then .error .priceNegative
  else if plan.allowBalancePay = some false then .error .balancePayNotAllowed
  else calcSubscriptionBalanceQuota c.quotaPerUnit plan.priceAmount

def begin (s : State n) (i : Fin n) (hit : Bool) : Option Phase :=
  match c.call i with
  | .complete tradeNo _ expected _ =>
    if tradeNo = "" then some (.done (.error .tradeNoEmpty))
    else if ∃ j, j ≠ i ∧ (s.phase j).trade? = some tradeNo then none
    else
      match findRow SubscriptionOrder.tradeNo tradeNo s.world.orders with
      | none => some (.done (.error .orderNotFound))
      | some order =>
        if ∃ p ∈ expected, order.paymentProvider ≠ p then some (.done (.error .paymentMethodMismatch))
        else if order.status = .success then some (.done (.ok ()))
        else if order.status ≠ .pending then some (.done (.error .orderStatusInvalid))
        else some (.ordered order)
  | .adminBind userId planId =>
    if userId ≤ 0 ∨ planId ≤ 0 then some (.done (.error .invalidUserIdOrPlanId))
    else
      match c.env.plan planId with
      | .error e => some (.done (.error e))
      -- the plan is read on the global handle, outside of the transaction
      | .ok plan => some (.planned { userId := userId, plan := plan, source := "admin" })
  | .purchase userId planId =>
    if userId ≤ 0 ∨ planId ≤ 0 then some (.done (.error .invalidUserIdOrPlanId))
    else
      match c.env.plan planId with
      | .error e => some (.done (.error e))
      | .ok plan =>
        match balancePrice c plan with
        | .error e => some (.done (.error e))
        | .ok required =>
          -- with a cold cache the plan is read inside the transaction
          some (.planned
            { userId := userId, plan := plan, source := "balance", required := required
              snapshot := if hit then none else some s.world })

def Buyer.view (b : Buyer) (w : World) : World := b.snapshot.getD w

/-- `upsertSubscriptionTopUpTx`: the row to write. -/
def upsertSubscriptionTopUpTx (b : Buyer) (w : World) (now : Int) (order : SubscriptionOrder) :
    Except Error TopUp :=
  match findRow TopUp.tradeNo order.tradeNo (b.view w).topUps with
  | none =>
    if ∃ t ∈ w.topUps, t.tradeNo = order.tradeNo then .error (.db "duplicate trade_no")
    else
      .ok { userId := order.userId, amount := 0, money := order.money, tradeNo := order.tradeNo,
            paymentMethod := order.paymentMethod, paymentProvider := .other "",
            createTime := order.createTime, completeTime := now, status := .success }
  | some topUp =>
    if topUp.paymentMethod ≠ "" ∧ topUp.paymentMethod ≠ order.paymentMethod then
      .error .paymentMethodMismatch
    else
      .ok { topUp with
            money := order.money
            paymentMethod := order.paymentMethod
            createTime := if topUp.createTime = 0 then order.createTime else topUp.createTime
            completeTime := now
            status := .success }

def finish (w : World) (call : Call) (b : Buyer) (now : Int) (random : String) : Except Error Writes :=
  match call, b.order with
  | .complete _ payload _ actualMethod, some order =>
    match upsertSubscriptionTopUpTx b w now order with
    | .error e => .error e
    | .ok topUp =>
      .ok { order := some { order with
              status := .success
              completeTime := now
              providerPayload := if payload = "" then order.providerPayload else payload
              paymentMethod := if actualMethod = "" then order.paymentMethod else actualMethod }
            topUp := some topUp }
  | .purchase userId _, _ =>
    .ok { order := some { userId := userId, planId := b.plan.id, money := b.plan.priceAmount
                          tradeNo := "SUBBALUSR" ++ toString userId ++ "NO" ++ random
                          paymentMethod := "balance", paymentProvider := .balance
                          status := .success, createTime := now, completeTime := now
                          providerPayload := "charged_quota=" ++ toString b.required } }
  | _, _ => .ok {}

def upsert {R K : Type} [DecidableEq K] (key : R → K) (r : R) (l : List R) : List R :=
  if key r ∈ l.map key then saveRow key r l else l ++ [r]

def World.commit (w : World) (b : Buyer) (sub : UserSubscription) (writes : Writes) : World where
  db := { w.db with
    subs := w.db.subs ++ [{ sub with id := w.db.nextId }]
    nextId := w.db.nextId + 1 }
  orders := writes.order.elim w.orders fun order => upsert SubscriptionOrder.tradeNo order w.orders
  topUps := writes.topUp.elim w.topUps fun topUp => upsert TopUp.tradeNo topUp w.topUps
  users := w.users.map fun u => if u.id = b.userId then { u with quota := u.quota - b.required } else u

def advance (s : State n) (i : Fin n) (hit : Bool) (now : Int) (random : String) : Option (State n) :=
  match s.phase i with
  | .start => (begin c s i hit).map (s.set i)
  | .ordered order =>
    some <| s.set i <|
      match c.env.plan order.planId with
      | .error e => .done (.error e)
      | .ok plan =>
        .planned { userId := order.userId, plan := plan, source := "order", order := some order }
  | .planned b =>
    if ∃ j, j ≠ i ∧ (s.phase j).user? = some b.userId then none
    else
      some <| s.set i <|
        match findRow UserRow.id b.userId s.world.users with
        | none => .done (.error .recordNotFound)
        | some user =>
          if 0 < b.required ∧ user.quota < b.required then .done (.error .balanceInsufficient)
          else .locked b
  | .locked b =>
    some <| s.set i <|
      match createUserSubscriptionFromPlanTx c.env now b.userId b.plan b.source (b.view s.world).db
        s.world.db with
      | .error e => .done (.error e)
      | .ok (sub, _) =>
        -- the count, when there is a limit, is a plain read
        .created
          { b with snapshot := if 0 < b.plan.maxPurchasePerUser then some (b.view s.world) else b.snapshot }
          sub
  | .created b sub =>
    some <| s.set i <|
      match finish s.world (c.call i) b now random with
      | .error e => .done (.error e)
      | .ok writes => .returning b sub writes
  | .returning b sub writes =>
    some
      { world := s.world.commit b sub writes
        phase := Function.update s.phase i (.done (.ok ())) }
  | .done _ => none

def step (s : State n) : Action n → Option (State n)
  | .advance i hit now random => advance c s i hit now random
  | .abort i text =>
    match s.phase i with
    | .done _ => none
    | _ => some (s.set i (.done (.error (.db text))))

/-- A count that reads an older snapshot finds room only when the committed rows leave room. -/
def FreshCount (s : State n) : Action n → Prop
  | .advance i _ _ _ =>
    match s.phase i with
    | .locked b =>
      ∀ w ∈ b.snapshot, purchaseCount w.db b.userId b.plan.id < b.plan.maxPurchasePerUser →
        purchaseCount s.world.db b.userId b.plan.id < b.plan.maxPurchasePerUser
    | _ => True
  | .abort _ _ => True

instance (s : State n) (a : Action n) : Decidable (FreshCount s a) := by
  unfold FreshCount
  split
  · split <;> infer_instance
  · infer_instance

/-! ### The invariant -/

def WithinLimits (env : Env) (db : Db) : Prop :=
  ∀ userId planId plan, env.plan planId = .ok plan → 0 < plan.maxPurchasePerUser →
    purchaseCount db userId planId ≤ plan.maxPurchasePerUser

def PhaseOk (env : Env) (db : Db) : Phase → Prop
  | .planned b => env.plan b.plan.id = .ok b.plan
  | .locked b => env.plan b.plan.id = .ok b.plan
  | .created b sub | .returning b sub _ =>
    env.plan b.plan.id = .ok b.plan ∧ sub.userId = b.userId ∧ sub.planId = b.plan.id ∧
      (0 < b.plan.maxPurchasePerUser →
        purchaseCount db b.userId b.plan.id < b.plan.maxPurchasePerUser)
  | _ => True

structure Inv (s : State n) : Prop where
  limits : WithinLimits c.env s.world.db
  /-- No user row is locked twice. -/
  exclusive : ∀ i j, i ≠ j → ∀ u ∈ (s.phase i).user?, (s.phase j).user? ≠ some u
  phases : ∀ i, PhaseOk c.env s.world.db (s.phase i)

variable {c} {s : State n} {i : Fin n}

theorem Inv.set (h : Inv c s) {q : Phase}
    (hexclusive : ∀ j, j ≠ i → ∀ u ∈ q.user?, (s.phase j).user? ≠ some u)
    (hphase : PhaseOk c.env s.world.db q) : Inv c (s.set i q) where
  limits := h.limits
  exclusive := pairwise_update (R := fun p q : Phase => ∀ u ∈ p.user?, q.user? ≠ some u)
    (fun _ _ hpq u hu hp => hpq u hp hu) h.exclusive hexclusive
  phases := (Function.forall_update_iff s.phase (p := fun _ (q : Phase) => PhaseOk c.env s.world.db q)).2
    ⟨hphase, fun j _ => h.phases j⟩

theorem Inv.keep (h : Inv c s) {q : Phase} (huser : q.user? = none ∨ q.user? = (s.phase i).user?)
    (hphase : PhaseOk c.env s.world.db q) : Inv c (s.set i q) := by
  refine h.set (fun j hj u hu => ?_) hphase
  rcases huser with hnone | hsame
  · rw [hnone] at hu
    cases hu
  · rw [hsame] at hu
    exact h.exclusive i j hj.symm u hu

theorem Inv.fail (h : Inv c s) (r : Except Error Unit) : Inv c (s.set i (.done r)) :=
  h.keep (Or.inl rfl) trivial

/-- A row is created for the buyer and plan, and its count found room. -/
theorem createTx_room {env : Env} {now userId : Int} {plan : Plan} {source : String} {seen db db' : Db}
    {sub : UserSubscription}
    (h : createUserSubscriptionFromPlanTx env now userId plan source seen db = .ok (sub, db')) :
    sub.userId = userId ∧ sub.planId = plan.id ∧
      (0 < plan.maxPurchasePerUser → purchaseCount seen userId plan.id < plan.maxPurchasePerUser) := by
  unfold createUserSubscriptionFromPlanTx at h
  split_ifs at h with hplan huser hlimit
  cases hend : calcPlanEndTime env.loc now plan with
  | error e => simp [hend] at h
  | ok endUnix =>
    simp only [hend, Except.ok.injEq, Prod.mk.injEq] at h
    rw [← h.1]
    exact ⟨rfl, rfl, fun hpos => by omega⟩

variable {writes : Writes}

theorem purchaseCount_commit (w : World) (b : Buyer) (sub : UserSubscription)
    (userId planId : Int) :
    purchaseCount (w.commit b sub writes).db userId planId =
      purchaseCount w.db userId planId + (if sub.userId = userId ∧ sub.planId = planId then 1 else 0) := by
  simp only [purchaseCount, World.commit, List.filter_append, List.length_append]
  congr 1
  by_cases h : sub.userId = userId ∧ sub.planId = planId <;> simp [h]

/-- A commit of another user's row leaves what a transaction knows. -/
theorem phaseOk_commit {w : World} {b : Buyer} {sub : UserSubscription} {q : Phase}
    (hq : q.user? ≠ some sub.userId) (h : PhaseOk c.env w.db q) :
    PhaseOk c.env (w.commit b sub writes).db q := by
  cases q with
  | created b' sub' =>
    have hne : ¬(sub.userId = b'.userId ∧ sub.planId = b'.plan.id) := fun heq => hq (heq.1 ▸ rfl)
    simp only [PhaseOk, purchaseCount_commit, if_neg hne, Nat.add_zero] at h ⊢
    exact h
  | returning b' sub' writes' =>
    have hne : ¬(sub.userId = b'.userId ∧ sub.planId = b'.plan.id) := fun heq => hq (heq.1 ▸ rfl)
    simp only [PhaseOk, purchaseCount_commit, if_neg hne, Nat.add_zero] at h ⊢
    exact h
  | start => exact h
  | ordered order => exact h
  | planned b' => exact h
  | locked b' => exact h
  | done r => exact h

theorem Inv.commit (h : Inv c s) {b : Buyer} {sub : UserSubscription} {writes : Writes}
    (hphase : s.phase i = .returning b sub writes) :
    Inv c { world := s.world.commit b sub writes
            phase := Function.update s.phase i (.done (.ok ())) } := by
  have hok := h.phases i
  rw [hphase] at hok
  obtain ⟨hplan, huser, hplanId, hroom⟩ := hok
  constructor
  case limits =>
    intro userId planId plan hplan' hpos
    simp only
    rw [purchaseCount_commit]
    by_cases hmine : sub.userId = userId ∧ sub.planId = planId
    · obtain ⟨rfl, rfl⟩ := hmine
      rw [hplanId, hplan] at hplan'
      cases hplan'
      have := hroom hpos
      rw [if_pos ⟨rfl, rfl⟩, huser, hplanId]
      omega
    · rw [if_neg hmine, Nat.add_zero]
      exact h.limits userId planId plan hplan' hpos
  case exclusive =>
    refine pairwise_update (R := fun p q : Phase => ∀ u ∈ p.user?, q.user? ≠ some u)
      (fun _ _ hpq u hu hp => hpq u hp hu) h.exclusive fun j _ u hu => ?_
    cases hu
  case phases =>
    refine (Function.forall_update_iff s.phase
      (p := fun _ (q : Phase) => PhaseOk c.env (s.world.commit b sub writes).db q)).2 ⟨trivial, fun j hj => ?_⟩
    refine phaseOk_commit ?_ (h.phases j)
    rw [huser]
    exact h.exclusive i j (Ne.symm hj) b.userId (by rw [hphase]; rfl)

/-- The first statements lock no user row, and a plan they read is the table's. -/
theorem begin_ok {hit : Bool} {q : Phase} (h : begin c s i hit = some q) :
    q.user? = none ∧ PhaseOk c.env s.world.db q := by
  unfold begin at h
  cases hcall : c.call i with simp only [hcall] at h
  | complete tradeNo payload expected actualMethod =>
    split_ifs at h
    · cases h
      exact ⟨rfl, trivial⟩
    cases horder : findRow SubscriptionOrder.tradeNo tradeNo s.world.orders with
    | none =>
      simp only [horder, Option.some.injEq] at h
      rw [← h]
      exact ⟨rfl, trivial⟩
    | some order =>
      simp only [horder] at h
      split_ifs at h <;> cases h <;> exact ⟨rfl, trivial⟩
  | adminBind userId planId =>
    split_ifs at h
    · cases h
      exact ⟨rfl, trivial⟩
    cases hplan : c.env.plan planId with simp only [hplan, Option.some.injEq] at h
    | error e =>
      rw [← h]
      exact ⟨rfl, trivial⟩
    | ok plan =>
      rw [← h]
      refine ⟨rfl, ?_⟩
      simp only [PhaseOk, plan_self hplan]
  | purchase userId planId =>
    by_cases hargs : userId ≤ 0 ∨ planId ≤ 0
    · rw [if_pos hargs] at h
      cases h
      exact ⟨rfl, trivial⟩
    rw [if_neg hargs] at h
    cases hplan : c.env.plan planId with
    | error e =>
      simp only [hplan, Option.some.injEq] at h
      rw [← h]
      exact ⟨rfl, trivial⟩
    | ok plan =>
      simp only [hplan] at h
      cases hprice : balancePrice c plan with simp only [hprice, Option.some.injEq] at h
      | error e =>
        rw [← h]
        exact ⟨rfl, trivial⟩
      | ok required =>
        rw [← h]
        refine ⟨rfl, ?_⟩
        simp only [PhaseOk, plan_self hplan]

theorem advance_inv {hit : Bool} {now : Int} {random : String} {t : State n} (h : Inv c s)
    (hfresh : FreshCount s (.advance i hit now random)) (ht : advance c s i hit now random = some t) :
    Inv c t := by
  have hok := h.phases i
  unfold advance at ht
  cases hphase : s.phase i with
  | start =>
    simp only [hphase] at ht
    obtain ⟨q, hq, rfl⟩ := Option.map_eq_some_iff.1 ht
    exact h.keep (Or.inl (begin_ok hq).1) (begin_ok hq).2
  | ordered order =>
    simp only [hphase] at ht
    cases ht
    cases hplan : c.env.plan order.planId with
    | error e => exact h.fail _
    | ok plan =>
      refine h.keep (Or.inl rfl) ?_
      simp only [PhaseOk, plan_self hplan]
  | planned b =>
    rw [hphase] at hok
    simp only [hphase] at ht
    split_ifs at ht with hblocked
    cases ht
    cases findRow UserRow.id b.userId s.world.users with
    | none => exact h.fail _
    | some user =>
      dsimp only
      split_ifs
      · exact h.fail _
      · refine h.set (fun j hj u hu hj' => hblocked ⟨j, hj, ?_⟩) hok
        cases hu
        exact hj'
  | locked b =>
    rw [hphase] at hok
    simp only [FreshCount, hphase] at hfresh
    simp only [hphase] at ht
    cases ht
    cases hcreate : createUserSubscriptionFromPlanTx c.env now b.userId b.plan b.source
      (b.view s.world).db s.world.db with
    | error e => exact h.fail _
    | ok r =>
      obtain ⟨huser, hplanId, hroom⟩ := createTx_room hcreate
      refine h.keep (Or.inr (by rw [hphase]; rfl)) ⟨hok, huser, hplanId, fun hpos => ?_⟩
      -- the count saw the committed rows, or an older snapshot that the condition speaks about
      cases hsnapshot : b.snapshot with
      | none => simpa [Buyer.view, hsnapshot] using hroom hpos
      | some w => exact hfresh w hsnapshot (by simpa [Buyer.view, hsnapshot] using hroom hpos)
  | created b sub =>
    rw [hphase] at hok
    simp only [hphase] at ht
    cases ht
    cases finish s.world (c.call i) b now random with
    | error e => exact h.fail _
    | ok writes => exact h.keep (Or.inr (by rw [hphase]; rfl)) hok
  | returning b sub writes =>
    simp only [hphase] at ht
    cases ht
    exact h.commit hphase
  | done r => simp [hphase] at ht

theorem step_inv {a : Action n} {t : State n} (h : Inv c s) (hfresh : FreshCount s a)
    (ht : step c s a = some t) : Inv c t := by
  cases a with
  | advance i hit now random => exact advance_inv h hfresh ht
  | abort i text =>
    simp only [step] at ht
    split at ht <;> cases ht
    · exact h.fail _

/-- In every interleaving in which no count finds room only in an older snapshot, no user ever has
more rows for a plan than its limit. -/
theorem purchase_limit (c : Calls n) (w : World) (hw : WithinLimits c.env w.db) (l : List (Action n))
    (s : State n) (hfresh : Along (step c) FreshCount ⟨w, fun _ => .start⟩ l)
    (hrun : run (step c) ⟨w, fun _ => .start⟩ l = some s) :
    ∀ userId planId plan, c.env.plan planId = .ok plan → 0 < plan.maxPurchasePerUser →
      purchaseCount s.world.db userId planId ≤ plan.maxPurchasePerUser := by
  have hinv : Inv c s := by
    refine run_inv_along (fun s a t hs hc ht => step_inv hs hc ht) ?_ hfresh hrun
    exact ⟨hw, fun i j _ u hu => (by cases hu), fun i => trivial⟩
  exact hinv.limits

def trialPlan : Plan :=
  { id := 3, durationUnit := .day, durationValue := 1, priceAmount := 0, maxPurchasePerUser := 1 }

def twoPurchases : Calls 2 where
  env := { loc := .fixed 0, plans := [trialPlan] }
  quotaPerUnit := 500000
  call _ := .purchase 7 3

def newUser : World where
  users := [⟨7, 0⟩]

def purchases (i j : Fin 2) (hit : Bool) : List (Action 2) :=
  [.advance i hit 1000 "a", .advance j hit 1000 "b", .advance i hit 1000 "a", .advance i hit 1000 "a",
    .advance i hit 1000 "a", .advance i hit 1000 "a", .advance j hit 1001 "b", .advance j hit 1001 "b"]

theorem withinLimits_empty (env : Env) : WithinLimits env {} :=
  fun userId planId plan hplan hpos => by simpa [purchaseCount] using hpos.le

theorem purchase_limit_warm :
    ∃ s, run (step twoPurchases) ⟨newUser, fun _ => .start⟩ (purchases 0 1 true) = some s ∧
      s.phase 1 = .done (.error .purchaseLimitReached) ∧
      (purchaseCount s.world.db 7 3 : Int) ≤ trialPlan.maxPurchasePerUser :=
  ⟨_, rfl, rfl, purchase_limit twoPurchases newUser (withinLimits_empty _) (purchases 0 1 true) _ (by decide)
    rfl 7 3 trialPlan rfl (by decide)⟩

/-- With a cold cache both purchases succeed: the second one counts in the snapshot that its read of
the plan opened before the first one committed. -/
theorem purchase_limit_cold :
    ∃ s, run (step twoPurchases) ⟨newUser, fun _ => .start⟩
        (purchases 0 1 false ++ [.advance 1 false 1001 "b", .advance 1 false 1001 "b"]) = some s ∧
      s.phase 0 = .done (.ok ()) ∧ s.phase 1 = .done (.ok ()) ∧ purchaseCount s.world.db 7 3 = 2 :=
  ⟨_, rfl, rfl, rfl, by rfl⟩

end TokenEra.Subscription.PurchaseLimit
