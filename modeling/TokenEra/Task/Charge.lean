import TokenEra.Billing.Accounting

/-!
# What a task is charged

`RelayTask` of `controller/relay.go` with `RelayTaskSubmit`, `SettleBilling` and the later
adjustments of `service/task_billing.go`. A request submits its task in one attempt after the other,
each with a price of its own. The first attempt that is not free takes its price in advance; when an
attempt succeeds, its price is settled, and the task is stored with that price as its quota. Later
the quota is recalculated, any number of times, and refunded at the end.

Every later adjustment moves the funding source by the difference to the stored quota, and writes
the quota only when that succeeded. So what the task took stays its quota if it was at the start
(`Matches.step`), and at the start it is when the settlement reached the price
(`quota_is_charge_iff`). The error of a settlement is only logged: the task is stored with the new
price although the source still has the old one.
-/

namespace TokenEra.TaskCharge

open Lib Subscription Billing

/-! ### Submitting -/

structure Submission where
  /-- It fails before it has a price: no adaptor, an invalid request, a model without a price. -/
  rejected : Bool := false
  quota : Int
  freeModel : Bool := false
  /-- The message of the clamp of the quota, if it was out of range. -/
  clamp : Option String := none
  circumstances : Circumstances
  accepted : Bool := true
  /-- The quota after `AdjustBillingOnSubmit`, with its own clamp. -/
  adjusted : Option (Int × Option String) := none

/-- What the attempts of a request share. `resets` are the resets that its pre-consumption made. -/
structure Request where
  relayInfo : RelayInfo
  tokenId : Int := 0
  billing : Option Session := none
  billingSource : String := ""
  finalPreConsumedQuota : Int := 0
  quotaClamp : Option String := none
  resets : List ResetEvent := []

def fundingSource : Billing.Funding → String
  | .wallet _ => "wallet"
  | .subscription _ => "subscription"

/-- The first clamp stays. -/
def Request.noteTaskQuotaClamp (r : Request) (clamp : Option String) : Request :=
  { r with quotaClamp := r.quotaClamp <|> clamp }

def Request.withSession (r : Request) (session : Session) (events : List ResetEvent) : Request :=
  { r with
    relayInfo := session.relayInfo
    billing := some session
    billingSource := fundingSource session.funding
    finalPreConsumedQuota := session.preConsumedQuota
    resets := events }

def preConsumeBilling (env : Settings) (c : Circumstances) (preConsumedQuota : Int) (r : Request) (st : Store) :
    Option (Except ApiError Request × Store) :=
  match r.quotaClamp with
  | some text => some (.error ⟨.modelPriceError, text⟩, st)
  | none =>
    if preConsumedQuota < 0 then
      some (.error ⟨.modelPriceError, "pre-consume quota cannot be negative: " ++ toString preConsumedQuota⟩, st)
    else
      (newBillingSession env c r.relayInfo preConsumedQuota st).map fun (result, st, events) =>
        (result.map fun session => r.withSession session events, st)

/-- The end of `RelayTaskSubmit`: the quota of a task that the upstream took. -/
def Submission.finish (a : Submission) (r : Request) : Option Int × Request :=
  if a.accepted then
    match a.adjusted with
    | none => (some a.quota, r)
    | some (quota, clamp) => (some quota, r.noteTaskQuotaClamp clamp)
  else (none, r)

/-- The quota, or `none` for an error; a request has at most one session. -/
def relayTaskSubmit (env : Settings) (a : Submission) (r : Request) (st : Store) :
    Option (Option Int × Request × Store) :=
  if a.rejected then some (none, r, st)
  else
    let r := r.noteTaskQuotaClamp a.clamp
    if r.billing = none ∧ ¬a.freeModel then
      let r := { r with relayInfo := { r.relayInfo with forcePreConsume := true } }
      (preConsumeBilling env a.circumstances a.quota r st).map fun (result, st) =>
        match result with
        | .error _ => (none, r, st)
        | .ok r => ((a.finish r).1, (a.finish r).2, st)
    else some ((a.finish r).1, (a.finish r).2, st)

def submitAttempts (env : Settings) : List Submission → Request → Store → Option (Option Int × Request × Store)
  | [], r, st => some (none, r, st)
  | a :: rest, r, st =>
    match relayTaskSubmit env a r st with
    | none => none
    | some (some quota, r, st) => some (some quota, r, st)
    | some (none, r, st) => submitAttempts env rest r st

/-! ### Settling -/

def Request.postConsumeFunding (fault : Option String) (quota : Int) (r : Request) (st : Store) :
    Except String Store :=
  if r.billingSource = "subscription" then
    if r.relayInfo.subscriptionId = 0 then .error "subscription id is missing"
    else if quota = 0 then .ok st
    else postConsumeDelta fault r.relayInfo.subscriptionId quota st
  else if 0 < quota then decreaseUserQuota fault quota st
  else increaseUserQuota fault (-quota) st

def postConsumeQuota (faults : SettleFaults) (quota : Int) (r : Request) (st : Store) :
    Except String Unit × Store :=
  match r.postConsumeFunding faults.funding quota st with
  | .error text => (.error text, st)
  | .ok st =>
    if r.relayInfo.isPlayground then (.ok (), st)
    else
      match if 0 < quota then decreaseTokenQuota faults.token quota st
        else increaseTokenQuota faults.token (-quota) st with
      | .error text => (.error text, st)
      | .ok st => (.ok (), st)

def settleBilling (faults : SettleFaults) (actualQuota : Int) (r : Request) (st : Store) :
    Except String Unit × Store :=
  match r.billing with
  | some session =>
    let (result, _, st) := session.settle faults actualQuota st
    (result, st)
  | none =>
    let quotaDelta := actualQuota - r.finalPreConsumedQuota
    if quotaDelta ≠ 0 then postConsumeQuota faults quotaDelta r st else (.ok (), st)

/-! ### The task -/

structure TaskRow where
  billingSource : String
  subscriptionId : Int
  tokenId : Int
  quota : Int
deriving DecidableEq, Repr

inductive Source
  | wallet
  | subscription (id : Int)
deriving DecidableEq, Repr

/-- `taskIsSubscription`. -/
def sourceOf (billingSource : String) (subscriptionId : Int) : Source :=
  if billingSource = "subscription" ∧ 0 < subscriptionId then .subscription subscriptionId else .wallet

def TaskRow.source (task : TaskRow) : Source := sourceOf task.billingSource task.subscriptionId

def Request.source (r : Request) : Source := sourceOf r.billingSource r.relayInfo.subscriptionId

/-- `taskAdjustFunding`. -/
def Source.adjust (fault : Option String) (delta : Int) (source : Source) (st : Store) : Except String Store :=
  match source with
  | .subscription id => postConsumeDelta fault id delta st
  | .wallet => if 0 < delta then decreaseUserQuota fault delta st else increaseUserQuota fault (-delta) st

/-- What an adjustment meets: the failures of its two steps, and whether `resolveTokenKey` finds a
key. -/
structure AdjustFaults where
  funding : Option String := none
  tokenKey : Bool := true
  token : Option String := none

/-- A failure is only logged. -/
def taskAdjustTokenQuota (faults : AdjustFaults) (delta : Int) (task : TaskRow) (st : Store) : Store :=
  if task.tokenId ≤ 0 ∨ delta = 0 then st
  else if ¬faults.tokenKey then st
  else
    match if 0 < delta then decreaseTokenQuota faults.token delta st
      else increaseTokenQuota faults.token (-delta) st with
    | .error _ => st
    | .ok st => st

def recalculateTaskQuota (faults : AdjustFaults) (actualQuota : Int) (task : TaskRow) (st : Store) :
    TaskRow × Store :=
  if actualQuota ≤ 0 then (task, st)
  else
    let quotaDelta := actualQuota - task.quota
    if quotaDelta = 0 then (task, st)
    else
      match task.source.adjust faults.funding quotaDelta st with
      | .error _ => (task, st)
      | .ok st => ({ task with quota := actualQuota }, taskAdjustTokenQuota faults quotaDelta task st)

def refundTaskQuota (faults : AdjustFaults) (task : TaskRow) (st : Store) : Bool × TaskRow × Store :=
  if task.quota = 0 then (true, task, st)
  else
    match task.source.adjust faults.funding (-task.quota) st with
    | .error _ => (false, task, st)
    | .ok st => (true, { task with quota := 0 }, taskAdjustTokenQuota faults (-task.quota) task st)

structure State where
  task : TaskRow
  store : Store
  resets : List ResetEvent
  refunded : Option Bool := none

inductive Action
  | recalculate (faults : AdjustFaults) (actualQuota : Int)
  | refund (faults : AdjustFaults)

/-- Nothing follows the refund. -/
def step (s : State) (a : Action) : Option State :=
  if s.refunded ≠ none then none
  else
    match a with
    | .recalculate faults actualQuota =>
      let (task, store) := recalculateTaskQuota faults actualQuota s.task s.store
      some { s with task := task, store := store }
    | .refund faults =>
      let (returned, task, store) := refundTaskQuota faults s.task s.store
      some { s with task := task, store := store, refunded := some returned }

/-- `RelayTask` after a successful attempt: the settlement, whose error is only logged, and the
insert. -/
def insertTask (faults : SettleFaults) (quota : Int) (r : Request) (st : Store) : State where
  task := ⟨r.billingSource, r.relayInfo.subscriptionId, r.tokenId, quota⟩
  store := (settleBilling faults quota r st).2
  resets := r.resets

def relayTask (env : Settings) (attempts : List Submission) (faults : SettleFaults) (r : Request) (st : Store) :
    Option (Option State) :=
  (submitAttempts env attempts r st).map fun (quota, r, st) => quota.map fun quota => insertTask faults quota r st

/-! ### What was taken -/

/-- The net amount taken from a source since `start`. A row that the pre-consumption reset had used
nothing then. -/
def Source.taken (start : Store) (resets : List ResetEvent) (source : Source) (st : Store) : Int :=
  match source with
  | .wallet => start.userQuota - st.userQuota
  | .subscription id => usedOf st.db id - usedAtCharge start.db resets id

def State.taken (start : Store) (s : State) : Int := s.task.source.taken start s.resets s.store

/-- At every moment of every later run the task took its quota, and nothing after a successful
refund. -/
def QuotaIsCharge (start : Store) (s : State) : Prop :=
  ∀ l t, run step s l = some t →
    t.taken start = t.task.quota ∧ (t.refunded = some true → t.taken start = 0)

variable {start : Store} {resets : List ResetEvent} {source : Source} {st st' : Store}

/-- A subscription's row is there, and others had used no less than nothing of it. -/
def Source.Sound (start : Store) (resets : List ResetEvent) (source : Source) (st : Store) : Prop :=
  match source with
  | .wallet => True
  | .subscription id => RowOk st.db id ∧ 0 ≤ usedOf st.db id ∧ 0 ≤ usedAtCharge start.db resets id

/-- The used amount of a subscription stays between `0` and its total when it moves by `delta`. -/
def Source.Room (delta : Int) (source : Source) (st : Store) : Prop :=
  match source with
  | .wallet => True
  | .subscription id =>
    0 ≤ usedOf st.db id + delta ∧
      ∀ sub, st.db.sub? id = some sub → 0 < sub.amountTotal → usedOf st.db id + delta ≤ sub.amountTotal

def SameFunds (st st' : Store) : Prop := st'.userQuota = st.userQuota ∧ st'.db = st.db

theorem SameFunds.refl : SameFunds st st := ⟨rfl, rfl⟩

theorem SameFunds.taken (h : SameFunds st st') (start : Store) (resets : List ResetEvent) (source : Source) :
    source.taken start resets st' = source.taken start resets st := by
  cases source with
  | wallet => simp only [Source.taken, h.1]
  | subscription id => simp only [Source.taken, h.2]

theorem SameFunds.sound (h : SameFunds st st') (hs : source.Sound start resets st) :
    source.Sound start resets st' := by
  cases source with
  | wallet => trivial
  | subscription id =>
    simp only [Source.Sound, h.2]
    exact hs

variable {fault : Option String} {quota delta : Int} {s : State} {r : Request} {env : Settings}

theorem changeTokenQuota_sameFunds {take : Bool}
    (h : changeTokenQuota take fault quota st = .ok st') : SameFunds st st' := by
  obtain ⟨-, -, rfl⟩ := changeTokenQuota_eq_ok.1 h
  exact ⟨rfl, rfl⟩

theorem taskAdjustTokenQuota_sameFunds (faults : AdjustFaults) (delta : Int) (task : TaskRow) (st : Store) :
    SameFunds st (taskAdjustTokenQuota faults delta task st) := by
  unfold taskAdjustTokenQuota
  by_cases hskip : task.tokenId ≤ 0 ∨ delta = 0
  · rw [if_pos hskip]
    exact .refl
  rw [if_neg hskip]
  by_cases hkey : faults.tokenKey
  · rw [if_neg (not_not.2 hkey)]
    split
    · exact .refl
    · rename_i st' hchange
      split_ifs at hchange
      · exact changeTokenQuota_sameFunds hchange
      · exact changeTokenQuota_sameFunds hchange
  · rw [if_pos hkey]
    exact .refl

/-- A delta that a subscription takes is one that the database accepted, and stays within its total.
-/
theorem postConsumeDelta_total {id : Int} (hrow : RowOk st.db id)
    (h : postConsumeDelta fault id delta st = .ok st') :
    (delta ≠ 0 → fault = none) ∧
      ∀ sub, st.db.sub? id = some sub → 0 < sub.amountTotal → usedOf st.db id + delta ≤ sub.amountTotal := by
  unfold postConsumeDelta at h
  rcases postConsume_cases fault id delta st.db with
    ⟨-, -, e, herr⟩ | ⟨rfl, -⟩ | ⟨sub, sub', hfault, hsub, happly, -⟩
  · simp only [herr] at h
    cases h
  · obtain ⟨-, sub, hsub, hbound⟩ := hrow
    refine ⟨fun hne => absurd rfl hne, fun x hx hpos => ?_⟩
    cases hsub.symm.trans hx
    rw [usedOf_of_sub? hsub, add_zero]
    exact hbound hpos
  · refine ⟨fun _ => hfault, fun x hx hpos => ?_⟩
    cases hsub.symm.trans hx
    obtain ⟨rfl, hbound⟩ := applyDelta_ok happly
    rw [usedOf_of_sub? hsub]
    exact (le_max_right 0 _).trans (hbound hpos)

/-- An adjustment moves its source by the difference, unless a used amount would go below `0`. -/
theorem Source.adjust_ok (hs : source.Sound start resets st)
    (h : source.adjust fault delta st = .ok st') :
    source.Sound start resets st' ∧ (delta ≠ 0 → fault = none) ∧
      (source.Room delta st ∧ source.taken start resets st' = source.taken start resets st + delta ∨
        ∃ id, source = .subscription id ∧ usedOf st.db id + delta < 0 ∧
          source.taken start resets st' ≠ source.taken start resets st + delta) := by
  cases source with
  | wallet =>
    simp only [Source.adjust] at h
    simp only [Source.taken]
    split_ifs at h
    · obtain ⟨-, hfault, rfl⟩ := changeUserQuota_eq_ok.1 h
      refine ⟨trivial, fun _ => hfault, Or.inl ⟨trivial, ?_⟩⟩
      simp only [if_true]
      omega
    · obtain ⟨-, hfault, rfl⟩ := changeUserQuota_eq_ok.1 h
      refine ⟨trivial, fun _ => hfault, Or.inl ⟨trivial, ?_⟩⟩
      simp only [Bool.false_eq_true, if_false]
      omega
  | subscription id =>
    obtain ⟨hrow, hused, hbase⟩ := hs
    obtain ⟨-, -, hrow', -, hmoved⟩ := postConsumeDelta_eq_ok hrow hused h
    obtain ⟨hfault, htotal⟩ := postConsumeDelta_total hrow h
    refine ⟨⟨hrow', by omega, hbase⟩, hfault, ?_⟩
    simp only [Source.taken]
    by_cases hfloor : 0 ≤ usedOf st.db id + delta
    · exact Or.inl ⟨⟨hfloor, htotal⟩, by omega⟩
    · exact Or.inr ⟨id, rfl, by omega, by omega⟩

/-- An adjustment that the database accepts fails only where a subscription has no room for it. -/
theorem Source.adjust_of_room (hs : source.Sound start resets st) (hroom : source.Room delta st) :
    ∃ st', source.adjust none delta st = .ok st' := by
  cases source with
  | wallet =>
    simp only [Source.adjust]
    split_ifs
    · exact ⟨_, changeUserQuota_eq_ok.2 ⟨by omega, rfl, rfl⟩⟩
    · exact ⟨_, changeUserQuota_eq_ok.2 ⟨by omega, rfl, rfl⟩⟩
  | subscription id =>
    obtain ⟨⟨hid, sub, hsub, -⟩, -, -⟩ := hs
    obtain ⟨hfloor, htotal⟩ := hroom
    have hused := usedOf_of_sub? hsub
    obtain ⟨sub', happly⟩ : ∃ sub', applyDelta sub delta = .ok sub' :=
      applyDelta_fits fun hpos => by linarith [htotal sub hsub hpos]
    simp only [Source.adjust, postConsumeDelta, postConsumeUserSubscriptionDelta]
    rw [if_neg (by omega)]
    split_ifs
    · exact ⟨_, rfl⟩
    · simp only [hsub, happly, transaction]
      exact ⟨_, rfl⟩

/-! ### Later adjustments -/

structure Matches (start : Store) (s : State) : Prop where
  sound : s.task.source.Sound start s.resets s.store
  taken : s.taken start = s.task.quota
  refunded : s.refunded = some true → s.task.quota = 0

/-- Up to a quota that is not negative no adjustment stops short. -/
theorem Source.adjust_to {target : Int} (hs : source.Sound start resets st)
    (htaken : source.taken start resets st = quota) (htarget : 0 ≤ target)
    (h : source.adjust fault (target - quota) st = .ok st') :
    source.Sound start resets st' ∧ source.taken start resets st' = target := by
  obtain ⟨hs', -, ⟨-, hmoved⟩ | ⟨id, rfl, hbelow, -⟩⟩ := Source.adjust_ok hs h
  · exact ⟨hs', by omega⟩
  · have hbase := hs.2.2
    simp only [Source.taken] at htaken
    omega

theorem Matches.recalculate (h : Matches start s) (faults : AdjustFaults) (actualQuota : Int)
    (hopen : s.refunded = none) :
    Matches start { s with
      task := (recalculateTaskQuota faults actualQuota s.task s.store).1
      store := (recalculateTaskQuota faults actualQuota s.task s.store).2 } := by
  unfold recalculateTaskQuota
  by_cases hpos : actualQuota ≤ 0
  · rw [if_pos hpos]
    exact h
  rw [if_neg hpos]
  dsimp only
  by_cases hsame : actualQuota - s.task.quota = 0
  · rw [if_pos hsame]
    exact h
  · rw [if_neg hsame]
    split
    · exact h
    · rename_i st hadjust
      obtain ⟨hsound, htaken⟩ := Source.adjust_to h.sound h.taken (by omega) hadjust
      have hfunds := taskAdjustTokenQuota_sameFunds faults (actualQuota - s.task.quota) s.task st
      refine ⟨hfunds.sound hsound, ?_, fun hr => ?_⟩
      · exact (hfunds.taken start s.resets s.task.source).trans htaken
      · rw [hopen] at hr
        cases hr

theorem Matches.refund (h : Matches start s) (faults : AdjustFaults) :
    Matches start { s with
      task := (refundTaskQuota faults s.task s.store).2.1
      store := (refundTaskQuota faults s.task s.store).2.2
      refunded := some (refundTaskQuota faults s.task s.store).1 } := by
  unfold refundTaskQuota
  split_ifs with hzero
  · exact ⟨h.sound, h.taken, fun _ => hzero⟩
  · split
    · exact ⟨h.sound, h.taken, fun hr => by cases hr⟩
    · rename_i st hadjust
      have hback : s.task.source.adjust faults.funding (0 - s.task.quota) s.store = .ok st := by
        rw [zero_sub]
        exact hadjust
      obtain ⟨hsound, htaken⟩ := Source.adjust_to h.sound h.taken (le_refl 0) hback
      have hfunds := taskAdjustTokenQuota_sameFunds faults (-s.task.quota) s.task st
      exact ⟨hfunds.sound hsound, (hfunds.taken start s.resets s.task.source).trans htaken, fun _ => rfl⟩

theorem Matches.step {t : State} {a : Action} (h : Matches start s) (hstep : step s a = some t) :
    Matches start t := by
  unfold TaskCharge.step at hstep
  split_ifs at hstep with hopen
  rw [not_not] at hopen
  cases a with cases hstep
  | recalculate faults actualQuota =>
    exact h.recalculate faults actualQuota hopen
  | refund faults =>
    exact h.refund faults

theorem Matches.quotaIsCharge (h : Matches start s) : QuotaIsCharge start s := by
  intro l t hrun
  have ht : Matches start t := run_inv (fun _ _ _ hs hstep => Matches.step hs hstep) h hrun
  exact ⟨ht.taken, fun hr => ht.taken.trans (ht.refunded hr)⟩

/-! ### The advance -/

/-- What a request took before its settlement is what it remembers as its advance. -/
structure Advanced (start : Store) (r : Request) (st : Store) : Prop where
  sound : r.source.Sound start r.resets st
  taken : r.source.taken start r.resets st = r.finalPreConsumedQuota
  none : r.billing = none → r.billingSource = "" ∧ r.finalPreConsumedQuota = 0 ∧ SameFunds start st
  /-- A session is open and has the source and the advance that the request says. -/
  some : ∀ session, r.billing = some session →
    session.settled = false ∧ session.fundingSettled = false ∧
      session.preConsumedQuota = r.finalPreConsumedQuota ∧
      ∀ fault delta st, delta ≠ 0 → session.funding.settle fault delta st = r.source.adjust fault delta st

theorem advanced_of_sameFunds (hbilling : r.billing = none) (hsource : r.billingSource = "")
    (hfinal : r.finalPreConsumedQuota = 0) (h : SameFunds start st) : Advanced start r st := by
  have hwallet : r.source = .wallet := by simp [Request.source, sourceOf, hsource]
  refine ⟨?_, ?_, fun _ => ⟨hsource, hfinal, h⟩, fun session hs => ?_⟩
  · rw [hwallet]
    trivial
  · rw [hwallet, hfinal]
    simp only [Source.taken, h.1]
    omega
  · rw [hbilling] at hs
    cases hs

theorem Advanced.noteTaskQuotaClamp (h : Advanced start r st) (clamp : Option String) :
    Advanced start (r.noteTaskQuotaClamp clamp) st :=
  { h with }

theorem Advanced.finish (h : Advanced start r st) (a : Submission) :
    Advanced start (a.finish r).2 st := by
  unfold Submission.finish
  split_ifs
  · split
    · exact h
    · exact h.noteTaskQuotaClamp _
  · exact h

theorem advanced_withSession {session : Session} {events : List ResetEvent}
    (hsource : (r.withSession session events).source = source)
    (hopen : session.settled = false ∧ session.fundingSettled = false)
    (hsettle : ∀ fault delta st, delta ≠ 0 →
      session.funding.settle fault delta st = source.adjust fault delta st)
    (hsound : source.Sound start events st) (htaken : source.taken start events st = session.preConsumedQuota) :
    Advanced start (r.withSession session events) st := by
  subst hsource
  refine ⟨hsound, htaken, fun hnone => ?_, fun session' hs => ?_⟩
  · cases hnone
  · cases hs
    exact ⟨hopen.1, hopen.2, rfl, hsettle⟩

/-- A construction that fails takes nothing; one that succeeds takes what its session says. -/
theorem newBillingSession_advanced {c : Circumstances}
    {result : Except ApiError Session} {events : List ResetEvent} (hquota : 0 ≤ quota)
    (hready : Ready start.db r.relayInfo.requestId) (hsame : SameFunds start st)
    (h : newBillingSession env c r.relayInfo quota st = some (result, st', events)) :
    Built (SameFunds start) (fun session st events => Advanced start (r.withSession session events) st)
      st' events result := by
  refine newBillingSession_rule (P := SameFunds start) hsame (fun {st result st' events} hst h => ?_)
    (fun {st result st' events} hst h => ?_) h
  · cases result with
    | error e =>
      have hfail := tryWallet_error (E := False) hquota nofun h
      exact ⟨hfail.userQuota.trans hst.1, hfail.db.trans hst.2⟩
    | ok session =>
      obtain ⟨w, userQuota, trusted, -, rfl, rfl⟩ := tryWallet_eq_ok hquota h
      refine advanced_withSession rfl ⟨rfl, rfl⟩ (fun fault delta st hdelta => ?_) trivial ?_
      · exact if_neg hdelta
      · show start.userQuota - (st.userQuota - w.consumed) = w.consumed
        rw [hst.1]
        omega
  · cases result with
    | error e =>
      have hfail := trySubscription_error (E := False) nofun h
      exact ⟨hfail.userQuota.trans hst.1, hfail.db.trans hst.2⟩
    | ok session =>
      rw [← hst.2] at hready
      obtain ⟨amount, id, trusted, db', hamount, hid, rfl, rfl, -, hrow, -, hbase, hused⟩ :=
        trySubscription_eq_ok hready h
      rw [hst.2] at hbase hused
      have hbase' := usedAtCharge_nonneg events hbase
      refine advanced_withSession (if_pos ⟨rfl, hid⟩) ⟨rfl, rfl⟩
        (fun fault delta st hdelta => ?_) ⟨hrow, ?_, hbase'⟩ ?_
      · exact if_neg hdelta
      · show 0 ≤ usedOf db' id
        omega
      · show usedOf db' id - usedAtCharge start.db events id = amount
        omega

/-- What a request keeps from one attempt to the next: while it has no session, its id is still
unused. -/
structure Submitting (start : Store) (r : Request) (st : Store) : Prop where
  advanced : Advanced start r st
  ready : r.billing = none → Ready start.db r.relayInfo.requestId

theorem preConsumeBilling_submitting {c : Circumstances}
    {result : Except ApiError Request} (h : Submitting start r st) (hbilling : r.billing = none)
    (hpre : preConsumeBilling env c quota r st = some (result, st')) :
    Submitting start (match result with | .error _ => r | .ok r => r) st' := by
  obtain ⟨hsource, hfinal, hfunds⟩ := h.advanced.none hbilling
  have hkept : ∀ {st'}, SameFunds start st' → Submitting start r st' := fun hst =>
    ⟨advanced_of_sameFunds hbilling hsource hfinal hst, h.ready⟩
  unfold preConsumeBilling at hpre
  split at hpre
  · cases hpre
    exact h
  · split_ifs at hpre with hneg
    · cases hpre
      exact h
    · obtain ⟨⟨built, st₁, events⟩, hnew, hpair⟩ := Option.map_eq_some_iff.1 hpre
      have hbuilt := newBillingSession_advanced (not_lt.1 hneg) (h.ready hbilling) hfunds hnew
      cases built with cases hpair
      | error e =>
        exact hkept hbuilt
      | ok session =>
        exact ⟨hbuilt, fun hnone => by cases hnone⟩

theorem Submitting.finish (h : Submitting start r st) (a : Submission) :
    Submitting start (a.finish r).2 st := by
  refine ⟨h.advanced.finish a, ?_⟩
  unfold Submission.finish
  split_ifs
  · split
    · exact h.ready
    · exact h.ready
  · exact h.ready

theorem relayTaskSubmit_submitting {a : Submission} {r' : Request} {quota : Option Int}
    (h : Submitting start r st) (hsubmit : relayTaskSubmit env a r st = some (quota, r', st')) :
    Submitting start r' st' := by
  unfold relayTaskSubmit at hsubmit
  by_cases hrejected : a.rejected
  · rw [if_pos hrejected] at hsubmit
    cases hsubmit
    exact h
  rw [if_neg hrejected] at hsubmit
  dsimp only at hsubmit
  have hnoted : Submitting start (r.noteTaskQuotaClamp a.clamp) st := ⟨h.advanced.noteTaskQuotaClamp _, h.ready⟩
  split_ifs at hsubmit with hfirst
  · obtain ⟨⟨result, st₁⟩, hpre, hpair⟩ := Option.map_eq_some_iff.1 hsubmit
    have hforced : Submitting start { r.noteTaskQuotaClamp a.clamp with
        relayInfo := { r.relayInfo with forcePreConsume := true } } st :=
      ⟨⟨hnoted.advanced.sound, hnoted.advanced.taken, hnoted.advanced.none, hnoted.advanced.some⟩, hnoted.ready⟩
    have hafter := preConsumeBilling_submitting hforced hfirst.1 hpre
    cases result with cases hpair
    | error e =>
      exact hafter
    | ok r₁ =>
      exact hafter.finish a
  · cases hsubmit
    exact hnoted.finish a

/-- By induction over the attempts: each starts from what the failed ones before it have left. -/
theorem submitAttempts_advanced {attempts : List Submission} {r' : Request}
    {quota : Option Int} (h : Submitting start r st)
    (hsubmit : submitAttempts env attempts r st = some (quota, r', st')) : Advanced start r' st' := by
  induction attempts generalizing r st with
  | nil =>
    cases hsubmit
    exact h.advanced
  | cons a rest ih =>
    simp only [submitAttempts] at hsubmit
    split at hsubmit
    · cases hsubmit
    · rename_i hone
      cases hsubmit
      exact (relayTaskSubmit_submitting h hone).advanced
    · rename_i hone
      exact ih (relayTaskSubmit_submitting h hone) hsubmit

/-! ### The settlement -/

/-- There is nothing to settle, or the database takes the difference and the source has room for it.
-/
def Reached (faults : SettleFaults) (actualQuota : Int) (r : Request) (st : Store) : Prop :=
  actualQuota = r.finalPreConsumedQuota ∨
    faults.funding = none ∧ r.source.Room (actualQuota - r.finalPreConsumedQuota) st

variable {faults : SettleFaults} {actualQuota : Int}

/-- A settlement adjusts the source by the difference, if there is one; the token's step is on its
own. -/
theorem settleBilling_cases (h : Advanced start r st) :
    (actualQuota = r.finalPreConsumedQuota ∧ SameFunds st (settleBilling faults actualQuota r st).2) ∨
    (actualQuota ≠ r.finalPreConsumedQuota ∧
      match r.source.adjust faults.funding (actualQuota - r.finalPreConsumedQuota) st with
      | .error _ => SameFunds st (settleBilling faults actualQuota r st).2
      | .ok st' => SameFunds st' (settleBilling faults actualQuota r st).2) := by
  unfold settleBilling
  cases hbilling : r.billing with
  | some session =>
    obtain ⟨hsettled, hfunding, hadvance, hsettle⟩ := h.some session hbilling
    simp only [Session.settle, hsettled, hfunding, hadvance, Bool.false_eq_true, if_false]
    by_cases hzero : actualQuota - r.finalPreConsumedQuota = 0
    · rw [if_pos hzero]
      exact Or.inl ⟨by omega, .refl⟩
    · rw [if_neg hzero, hsettle _ _ _ hzero]
      refine Or.inr ⟨by omega, ?_⟩
      cases r.source.adjust faults.funding (actualQuota - r.finalPreConsumedQuota) st with
      | error text => exact .refl
      | ok st₁ =>
        dsimp only
        cases htoken : session.settleToken faults.token (actualQuota - r.finalPreConsumedQuota) st₁ with
        | error text => exact .refl
        | ok st₂ =>
          rw [settleToken_eq_ok htoken]
          exact ⟨rfl, rfl⟩
  | none =>
    obtain ⟨hsource, -, -⟩ := h.none hbilling
    have hwallet : r.source = .wallet := by simp [Request.source, sourceOf, hsource]
    have hfund : r.postConsumeFunding faults.funding (actualQuota - r.finalPreConsumedQuota) st =
        r.source.adjust faults.funding (actualQuota - r.finalPreConsumedQuota) st := by
      rw [hwallet, Request.postConsumeFunding, hsource]
      rfl
    dsimp only
    by_cases hzero : actualQuota - r.finalPreConsumedQuota = 0
    · rw [if_neg (not_not.2 hzero)]
      exact Or.inl ⟨by omega, .refl⟩
    · rw [if_pos hzero, postConsumeQuota, hfund]
      refine Or.inr ⟨by omega, ?_⟩
      cases r.source.adjust faults.funding (actualQuota - r.finalPreConsumedQuota) st with
      | error text => exact .refl
      | ok st₁ =>
        dsimp only
        by_cases hplay : r.relayInfo.isPlayground
        · rw [if_pos hplay]
          exact .refl
        · rw [if_neg hplay]
          split
          · exact .refl
          · rename_i st₂ hchange
            split_ifs at hchange
            · exact changeTokenQuota_sameFunds hchange
            · exact changeTokenQuota_sameFunds hchange

theorem settleBilling_sound (h : Advanced start r st) :
    r.source.Sound start r.resets (settleBilling faults actualQuota r st).2 := by
  rcases settleBilling_cases h with ⟨-, hfunds⟩ | ⟨-, hfunds⟩
  · exact hfunds.sound h.sound
  · cases hadjust : r.source.adjust faults.funding (actualQuota - r.finalPreConsumedQuota)
      st with rw [hadjust] at hfunds
    | error text =>
      exact hfunds.sound h.sound
    | ok st₁ =>
      exact hfunds.sound (Source.adjust_ok h.sound hadjust).1

/-- After the settlement the source has given the price exactly when the settlement reached it. -/
theorem settleBilling_taken (h : Advanced start r st) :
    r.source.taken start r.resets (settleBilling faults actualQuota r st).2 = actualQuota ↔
      Reached faults actualQuota r st := by
  have hadvance := h.taken
  rcases settleBilling_cases h with ⟨hsame, hfunds⟩ | ⟨hdiff, hfunds⟩
  · rw [hfunds.taken, hadvance]
    exact ⟨fun _ => Or.inl hsame, fun _ => hsame.symm⟩
  · cases hadjust : r.source.adjust faults.funding (actualQuota - r.finalPreConsumedQuota) st with
    | error text =>
      -- The source still has the advance, which is not the price.
      rw [hadjust] at hfunds
      dsimp only at hfunds
      rw [hfunds.taken, hadvance]
      refine ⟨fun heq => absurd heq.symm hdiff, ?_⟩
      rintro (heq | ⟨hfault, hroom⟩)
      · exact absurd heq hdiff
      · obtain ⟨st₁, hok⟩ := Source.adjust_of_room h.sound hroom
        rw [hfault, hok] at hadjust
        cases hadjust
    | ok st₁ =>
      rw [hadjust] at hfunds
      dsimp only at hfunds
      rw [hfunds.taken]
      obtain ⟨-, hfault, ⟨hroom, hmoved⟩ | ⟨id, hid, hbelow, hshort⟩⟩ := Source.adjust_ok h.sound hadjust
      · exact ⟨fun _ => Or.inr ⟨hfault (by omega), hroom⟩, fun _ => by omega⟩
      · refine ⟨fun heq => absurd heq (by omega), ?_⟩
        rintro (heq | ⟨-, hroom⟩)
        · exact absurd heq hdiff
        · rw [hid] at hroom
          exact absurd hroom.1 (by omega)

/-- A stored task took its quota, at every later moment, exactly when its settlement reached the
price. -/
theorem insertTask_iff (h : Advanced start r st) :
    QuotaIsCharge start (insertTask faults quota r st) ↔ Reached faults quota r st := by
  rw [← settleBilling_taken h]
  constructor
  · intro hcharge
    exact (hcharge [] _ rfl).1
  · intro htaken
    exact Matches.quotaIsCharge ⟨settleBilling_sound h, htaken, fun hr => by cases hr⟩

def SettlesInFull (env : Settings) (attempts : List Submission) (faults : SettleFaults) (r : Request)
    (start : Store) : Prop :=
  ∀ quota r' st, submitAttempts env attempts r start = some (some quota, r', st) → Reached faults quota r' st

/-- For every request that stores a task, over any attempts and any later recalculations that end in
at most one refund: what was taken for the task is its quota at every moment, and nothing after a
successful refund, exactly when the settlement had nothing to move or moved it. -/
theorem quota_is_charge_iff (env : Settings) (info : RelayInfo) (tokenId : Int) (attempts : List Submission)
    (faults : SettleFaults) (start : Store) (hready : Ready start.db info.requestId) {s : State}
    (hrelay : relayTask env attempts faults ⟨info, tokenId, none, "", 0, none, []⟩ start = some (some s)) :
    QuotaIsCharge start s ↔
      SettlesInFull env attempts faults ⟨info, tokenId, none, "", 0, none, []⟩ start := by
  obtain ⟨⟨quota, r, st⟩, hsubmit, hinsert⟩ := Option.map_eq_some_iff.1 hrelay
  obtain ⟨quota, rfl, rfl⟩ := Option.map_eq_some_iff.1 hinsert
  have hfresh : Submitting start ⟨info, tokenId, none, "", 0, none, []⟩ start :=
    ⟨advanced_of_sameFunds rfl rfl rfl (.refl), fun _ => hready⟩
  rw [insertTask_iff (submitAttempts_advanced hfresh hsubmit)]
  constructor
  · intro hreached quota' r' st' hsubmit'
    cases hsubmit.symm.trans hsubmit'
    exact hreached
  · intro hsettles
    exact hsettles quota r st hsubmit

def twoAttempts (first second : Int) : List Submission :=
  [{ quota := first, circumstances := exampleCircumstances, accepted := false },
    { quota := second, circumstances := exampleCircumstances }]

/-- The second attempt is cheaper and the wallet gets the difference back; the task is recalculated
to `35` and refunded. -/
theorem quota_is_charge_iff_cheaper :
    ∃ s, relayTask exampleSettings (twoAttempts 50 20) {} ⟨exampleInfo "wallet_only", 1, none, "", 0, none, []⟩
        exampleStore = some (some s) ∧
      QuotaIsCharge exampleStore s ∧
      (run step s [.recalculate {} 35, .refund {}]).map (fun t => (t.refunded, t.store.userQuota)) =
        some (some true, 100) := by
  refine ⟨_, rfl, ?_, rfl⟩
  refine (quota_is_charge_iff exampleSettings (exampleInfo "wallet_only") 1 (twoAttempts 50 20) {} exampleStore
    exampleStore_ready rfl).2 fun quota r st hsubmit => ?_
  cases hsubmit
  exact Or.inr ⟨rfl, trivial⟩

def limitedStore : Store where
  userQuota := 100
  tokenQuota := 100
  db := { subs := [⟨1, 7, 3, 20, 3, 0, 1000, .active, "order", 0, 0, true⟩], nextId := 2 }

/-- The first attempt takes `10` of the subscription. The price of the second is `50`, which the
subscription has no room for: the settlement fails, the task has a quota of `50`, and its refund
takes the used amount down to `0`, below what it was before the request. -/
theorem quota_is_not_charge :
    ¬ ∀ (env : Settings) (info : RelayInfo) (tokenId : Int) (attempts : List Submission) (faults : SettleFaults)
      (start : Store) (s : State), Ready start.db info.requestId →
      relayTask env attempts faults ⟨info, tokenId, none, "", 0, none, []⟩ start = some (some s) →
      QuotaIsCharge start s := by
  intro h
  have hready : Ready limitedStore.db "r" := ⟨⟨by decide, by decide⟩, by decide, by decide⟩
  have hcharge := h exampleSettings (exampleInfo "subscription_only") 1 (twoAttempts 10 50) {} limitedStore _
    hready rfl
  have hzero := (hcharge [.refund {}] _ rfl).2 rfl
  exact absurd hzero (by decide)

end TokenEra.TaskCharge
