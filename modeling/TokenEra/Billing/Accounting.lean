import TokenEra.Billing.Invariant
import TokenEra.Lib.Run

/-!
# What a billing session takes

The net amount taken from the funding source and from the token, over every run of a session: any
number of `Reserve`, `Settle` and `Refund` calls in any order, each with any failures, the steps of
the refund job at any later time, and other code that moves the same balances in between.

`NewBillingSession` tries the wallet and the subscription in the order of the user's preference. A
failed attempt leaves the store as it was (`Unchanged`), so the next one starts from the same
balances, and a successful one starts the invariant (`newBillingSession_inv`).
-/

namespace TokenEra.Billing

open Lib Subscription

variable {E : Prop} {start : Store} {s : State}

/-! ### Construction -/

/-- The store is as before the construction; the token too, when the rollbacks succeed. -/
structure Unchanged (E : Prop) (start st : Store) : Prop where
  userQuota : st.userQuota = start.userQuota
  db : st.db = start.db
  tokenQuota : E → st.tokenQuota = start.tokenQuota

theorem Unchanged.refl : Unchanged E start start := ⟨rfl, rfl, fun _ => rfl⟩

theorem Unchanged.eq {st : Store} (h : Unchanged True start st) : st = start := by
  obtain ⟨huser, hdb, htoken⟩ := h
  cases st
  cases start
  simp only at huser hdb htoken
  rw [huser, hdb, htoken trivial]

section Attempts

variable {env : Settings} {a : Attempt} {quota : Int} {blank session : Session} {st st' : Store}
  {events : List ResetEvent}

theorem preConsumeToken_eq_ok {reply : Reply} (hquota : 0 ≤ quota)
    (h : blank.preConsumeToken env reply quota st = .ok st') :
    st' = { st with tokenQuota := st.tokenQuota - if blank.relayInfo.isPlayground then 0 else quota } := by
  unfold Session.preConsumeToken at h
  split_ifs at h with hpos
  · exact preConsumeTokenQuota_eq_ok hpos h
  · cases h
    have hzero : quota = 0 := by omega
    simp [hzero]

theorem effectiveQuota_nonneg (env : Settings) (blank : Session) (hquota : 0 ≤ quota) :
    0 ≤ blank.effectiveQuota env quota := by
  unfold Session.effectiveQuota
  split_ifs <;> omega

/-- A rollback takes the token back to where it was, or leaves what was taken. -/
theorem rollbackToken_unchanged {fault : Option String} {quota' : Int} (hquota : 0 ≤ quota)
    (hquota' : quota' = quota) (hfault : E → fault = none) :
    Unchanged E st (blank.rollbackToken fault quota'
      { st with tokenQuota := st.tokenQuota - if blank.relayInfo.isPlayground then 0 else quota }) := by
  subst hquota'
  unfold Session.rollbackToken
  split_ifs with hguard hplay
  · exact absurd hplay hguard.2
  · cases hinc : increaseTokenQuota fault quota' { st with tokenQuota := st.tokenQuota - quota' } with
    | error text =>
      refine ⟨rfl, rfl, fun he => ?_⟩
      have hdone : increaseTokenQuota none quota' { st with tokenQuota := st.tokenQuota - quota' } =
          .ok { st with tokenQuota := st.tokenQuota - quota' + quota' } :=
        changeTokenQuota_eq_ok.2 ⟨hquota, rfl, rfl⟩
      rw [hfault he, hdone] at hinc
      cases hinc
    | ok st' =>
      obtain ⟨-, -, rfl⟩ := changeTokenQuota_eq_ok.1 hinc
      exact ⟨rfl, rfl, fun _ => by simp⟩
  · exact ⟨rfl, rfl, fun _ => by simp⟩
  · have hzero : quota' = 0 := by
      by_contra hne
      exact hguard ⟨by omega, by assumption⟩
    exact ⟨rfl, rfl, fun _ => by simp [hzero]⟩

theorem preConsume_error {e : ApiError} (hquota : 0 ≤ quota) (hblank : blank.tokenConsumed = 0)
    (hrollback : E → a.rollback = none)
    (h : blank.preConsume env a quota st = some (.error e, st', events)) : Unchanged E st st' := by
  have heff := effectiveQuota_nonneg env blank hquota
  simp only [Session.preConsume] at h
  cases htok : blank.preConsumeToken env a.token (blank.effectiveQuota env quota) st with
  | error text =>
    simp only [htok] at h
    cases h
    exact .refl
  | ok st1 =>
    have hst1 := preConsumeToken_eq_ok heff htok
    simp only [htok] at h
    obtain ⟨⟨r, events'⟩, -, hr⟩ := Option.map_eq_some_iff.1 h
    cases r with
    | ok p => simp at hr
    | error e' =>
      simp only [hblank] at hr
      cases hr
      rw [hst1]
      refine rollbackToken_unchanged heff ?_ hrollback
      split_ifs <;> omega

/-- A successful pre-consumption took the effective quota from the token, and the funding source
succeeded. -/
theorem preConsume_eq_ok (hquota : 0 ≤ quota) (hblank : blank.tokenConsumed = 0)
    (h : blank.preConsume env a quota st = some (.ok session, st', events)) :
    ∃ funding,
      blank.funding.preConsume env a (blank.effectiveQuota env quota)
        { st with
          tokenQuota := st.tokenQuota -
            if blank.relayInfo.isPlayground then 0 else blank.effectiveQuota env quota } =
        some (.ok (funding, st'), events) ∧
      session = { blank with
        funding := funding
        trusted := blank.shouldTrust env || blank.trusted
        tokenConsumed := blank.effectiveQuota env quota
        preConsumedQuota := blank.effectiveQuota env quota }.syncRelayInfo := by
  have heff := effectiveQuota_nonneg env blank hquota
  simp only [Session.preConsume] at h
  cases htok : blank.preConsumeToken env a.token (blank.effectiveQuota env quota) st with
  | error text => simp [htok] at h
  | ok st1 =>
    have hst1 := preConsumeToken_eq_ok heff htok
    have htoken : (if 0 < blank.effectiveQuota env quota then blank.effectiveQuota env quota
        else blank.tokenConsumed) = blank.effectiveQuota env quota := by
      split_ifs <;> omega
    simp only [htok, htoken] at h
    obtain ⟨⟨r, events'⟩, hfund, hr⟩ := Option.map_eq_some_iff.1 h
    cases r with
    | error e => simp at hr
    | ok p =>
      obtain ⟨funding, st2⟩ := p
      cases hr
      rw [hst1] at hfund
      exact ⟨funding, hfund, rfl⟩

end Attempts

/-- Tables that a request meets: unique positive ids, no used amount below `0`, and no record of the
request yet. -/
structure Ready (db : Db) (requestId : String) : Prop where
  keyed : db.Keyed
  rows : ∀ sub ∈ db.subs, 0 < sub.id ∧ 0 ≤ sub.amountUsed
  fresh : db.record? requestId = none

section Construction

variable {env : Settings} {c : Circumstances} {info : RelayInfo} {quota : Int} {st st' : Store}
  {session : Session} {events : List ResetEvent}

def State.initial (session : Session) (st : Store) : State := { session := session, store := st }

theorem map_eq_ok {ε α β : Type} {f : α → β} {r : Except ε α} {b : β} (h : r.map f = .ok b) :
    ∃ a, r = .ok a ∧ f a = b := by
  cases r with
  | error e => cases h
  | ok a => exact ⟨a, rfl, Except.ok.inj h⟩

theorem walletPreConsume_ok {reply : Reply} {amount : Int} {w w' : WalletFunding} (hamount : 0 ≤ amount)
    (hw : w.consumed = 0) (h : w.preConsume reply amount st = .ok (w', st')) :
    w'.consumed = amount ∧ st' = { st with userQuota := st.userQuota - amount } := by
  unfold WalletFunding.preConsume at h
  split_ifs at h with hzero
  · cases h
    have : amount = 0 := by omega
    simp [hw, this]
  · cases reply with
    | failed text => cases h
    | refused remaining => cases h
    | reserved =>
      cases h
      exact ⟨rfl, rfl⟩

theorem tryWallet_eq_ok (hquota : 0 ≤ quota)
    (h : tryWallet env c info quota st = some (.ok session, st', events)) :
    ∃ (w : WalletFunding) (userQuota : Int) (trusted : Bool), 0 ≤ w.consumed ∧
      session = { walletSession info userQuota with
        funding := .wallet w
        trusted := trusted
        tokenConsumed := w.consumed
        preConsumedQuota := w.consumed }.syncRelayInfo ∧
      st' = ⟨st.userQuota - w.consumed, st.tokenQuota - if info.isPlayground then 0 else w.consumed, st.db⟩ := by
  unfold tryWallet at h
  cases hread : c.userQuota with
  | error text => simp [hread] at h
  | ok userQuota =>
    simp only [hread] at h
    split_ifs at h
    · simp at h
    · simp at h
    obtain ⟨funding, hfund, rfl⟩ := preConsume_eq_ok hquota rfl h
    have heff := effectiveQuota_nonneg env (walletSession info userQuota) hquota
    generalize (walletSession info userQuota).effectiveQuota env quota = q at hfund heff ⊢
    simp only [walletSession, Funding.preConsume, Option.some.injEq, Prod.mk.injEq] at hfund
    obtain ⟨hmap, -⟩ := hfund
    obtain ⟨⟨w, st2⟩, hw, hpair⟩ := map_eq_ok hmap
    obtain ⟨rfl, rfl⟩ := walletPreConsume_ok heff rfl hw
    cases hpair
    exact ⟨w, userQuota, _, heff, rfl, rfl⟩

theorem tryWallet_inv (hquota : 0 ≤ quota) (hsame : Unchanged E start st)
    (h : tryWallet env c info quota st = some (.ok session, st', events)) :
    Inv E start (.initial session st') := by
  obtain ⟨w, userQuota, trusted, hq, rfl, rfl⟩ := tryWallet_eq_ok hquota h
  have huser := hsame.userQuota
  refine Inv.of_open ⟨rfl, rfl, rfl, rfl, rfl⟩ ?_ ?_ ?_ ?_ ⟨?_, ?_, ?_⟩
  · refine ⟨hq, rfl, fun w' hw' => ?_, fun f hf => by cases hf⟩
    cases hw'
    exact le_refl _
  · intro f hf
    cases hf
  · exact le_refl _
  · intro w' hw'
    cases hw'
    simp only [State.initial, State.fundingTaken, Session.syncRelayInfo, walletSession]
    omega
  · simp only [State.initial, State.fundingTaken, Session.syncRelayInfo, walletSession]
    omega
  · intro _
    simp only [State.initial, State.fundingTaken, Session.syncRelayInfo, walletSession]
    omega
  · intro he
    have htoken := hsame.tokenQuota he
    by_cases hplay : info.isPlayground = true <;>
      simp [State.initial, State.tokenTaken, Session.syncRelayInfo, walletSession, hplay] <;> omega

theorem trySubscription_eq_ok (hready : Ready st.db info.requestId)
    (h : trySubscription env c info quota st = some (.ok session, st', events)) :
    ∃ amount id trusted db', 0 < amount ∧ 0 < id ∧
      session = { subscriptionSession info amount with
        funding := .subscription ⟨info.requestId, info.userId, amount, id, amount⟩
        trusted := trusted
        tokenConsumed := amount
        preConsumedQuota := amount }.syncRelayInfo ∧
      st' = ⟨st.userQuota, st.tokenQuota - if info.isPlayground then 0 else amount, db'⟩ ∧
      trimSpace info.requestId ≠ "" ∧ RowOk db' id ∧
      db'.record? info.requestId = some ⟨info.requestId, info.userId, id, amount, .consumed⟩ ∧
      0 ≤ usedOf st.db id ∧ usedOf db' id = usedAtCharge st.db events id + amount := by
  simp only [trySubscription] at h
  have hamount : 0 < (if quota ≤ 0 then 1 else quota) := by split_ifs <;> omega
  generalize (if quota ≤ 0 then 1 else quota) = amount at h hamount
  obtain ⟨funding, hfund, rfl⟩ := preConsume_eq_ok hamount.le rfl h
  have heff : (subscriptionSession info amount).effectiveQuota env amount = amount := by
    have hnever : (subscriptionSession info amount).shouldTrust env = false := by
      unfold Session.shouldTrust
      split_ifs <;> rfl
    rw [Session.effectiveQuota, hnever]
    rfl
  rw [heff] at hfund ⊢
  simp only [subscriptionSession, Funding.preConsume, SubscriptionFunding.preConsume, Option.map_map] at hfund
  obtain ⟨o, hpre, hr⟩ := Option.map_eq_some_iff.1 hfund
  simp only [Function.comp_apply] at hr
  cases hres : o.result with
  | error e => simp [hres, Except.map] at hr
  | ok res =>
    simp only [hres, Except.map] at hr
    cases hr
    obtain ⟨hid, hcharged, -, hrecord, x, y, hx, hy, hused, hbound⟩ :=
      preConsume_ok hready.keyed hready.fresh hpre hres
    obtain ⟨hmem, hkey⟩ := sub?_mem hx
    obtain ⟨hidpos, hnonneg⟩ := hready.rows x hmem
    rw [hkey] at hidpos
    refine ⟨amount, res.userSubscriptionId, _, o.db, hamount, hidpos, by rw [hcharged], rfl, hid,
      ⟨hidpos, y, hy, hbound⟩, hrecord, ?_, ?_⟩
    · rw [usedOf_of_sub? hx]
      exact hnonneg
    · rw [usedOf_of_sub? hy]
      exact hused

theorem trySubscription_inv (hready : Ready start.db info.requestId) (hsame : Unchanged E start st)
    (hevents : events = [])
    (h : trySubscription env c info quota st = some (.ok session, st', events)) :
    Inv E start (.initial session st') := by
  subst hevents
  rw [← hsame.db] at hready
  obtain ⟨amount, id, trusted, db', hamount, hid, rfl, rfl, hrequest, hrow, hrecord, hbase, hused⟩ :=
    trySubscription_eq_ok hready h
  rw [usedAtCharge_nil, hsame.db] at hused
  rw [hsame.db] at hbase
  refine Inv.of_open ⟨rfl, rfl, rfl, rfl, rfl⟩ ?_ ?_ ?_ ?_ ⟨?_, ?_, ?_⟩
  · refine ⟨hamount.le, rfl, (fun w hw => by cases hw), fun f hf => ?_⟩
    cases hf
    exact ⟨by simp [State.initial, Session.syncRelayInfo, subscriptionSession], hamount, le_refl _, rfl, hrequest⟩
  · intro f hf
    cases hf
    exact ⟨hrow, fun _ => hrecord⟩
  · simp only [State.initial, State.othersUsed, Session.syncRelayInfo, subscriptionSession]
    omega
  · intro w hw
    cases hw
  · simp only [State.initial, State.fundingTaken, State.othersUsed, Session.syncRelayInfo, subscriptionSession]
    omega
  · intro _
    simp only [State.initial, State.fundingTaken, State.othersUsed, Session.syncRelayInfo, subscriptionSession]
    omega
  · intro he
    have htoken := hsame.tokenQuota he
    by_cases hplay : info.isPlayground = true <;>
      simp [State.initial, State.tokenTaken, Session.syncRelayInfo, subscriptionSession, hplay] <;> omega

theorem tryWallet_error {e : ApiError} (hquota : 0 ≤ quota) (hrollback : E → c.wallet.rollback = none)
    (h : tryWallet env c info quota st = some (.error e, st', events)) : Unchanged E st st' := by
  unfold tryWallet at h
  cases hread : c.userQuota with simp only [hread] at h
  | error text =>
    cases h
    exact .refl
  | ok userQuota =>
    split_ifs at h
    · cases h
      exact .refl
    · cases h
      exact .refl
    · exact preConsume_error hquota rfl hrollback h

theorem trySubscription_error {e : ApiError} (hrollback : E → c.subscription.rollback = none)
    (h : trySubscription env c info quota st = some (.error e, st', events)) : Unchanged E st st' := by
  refine preConsume_error ?_ rfl hrollback h
  split_ifs <;> omega

theorem Unchanged.trans {st'' : Store} (h : Unchanged E st st') (h' : Unchanged E st' st'') :
    Unchanged E st st'' :=
  ⟨h'.userQuota.trans h.userQuota, h'.db.trans h.db, fun he => (h'.tokenQuota he).trans (h.tokenQuota he)⟩

/-- `P` holds of the store after a failed construction, `R` after a successful one. -/
def Built (P : Store → Prop) (R : Session → Store → List ResetEvent → Prop) (st : Store)
    (events : List ResetEvent) : Except ApiError Session → Prop
  | .error _ => P st
  | .ok session => R session st events

/-- What holds before the construction, and what both attempts make of it. -/
theorem newBillingSession_rule {P : Store → Prop} {R : Session → Store → List ResetEvent → Prop}
    (hstart : P start)
    (hwallet : ∀ {st r st' events}, P st → tryWallet env c info quota st = some (r, st', events) →
      Built P R st' events r)
    (hsubscription : ∀ {st r st' events}, P st →
      trySubscription env c info quota st = some (r, st', events) → Built P R st' events r)
    {r : Except ApiError Session} (h : newBillingSession env c info quota start = some (r, st', events)) :
    Built P R st' events r := by
  unfold newBillingSession at h
  split at h
  · exact hsubscription hstart h
  · exact hwallet hstart h
  · obtain ⟨⟨r1, st1, events1⟩, hfirst, hnext⟩ := Option.bind_eq_some_iff.1 h
    have hone := hwallet hstart hfirst
    cases r1 with
    | ok session =>
      cases hnext
      exact hone
    | error e =>
      simp only at hnext
      split_ifs at hnext
      · exact hsubscription hone hnext
      · cases hnext
        exact hone
  · split at h
    · cases h
      exact hstart
    · exact hwallet hstart h
    · obtain ⟨⟨r1, st1, events1⟩, hfirst, hnext⟩ := Option.bind_eq_some_iff.1 h
      have hone := hsubscription hstart hfirst
      cases r1 with
      | ok session =>
        cases hnext
        exact hone
      | error e =>
        simp only at hnext
        split_ifs at hnext
        · split at hnext
          · cases hnext
            exact hone
          · exact hwallet hone hnext
          · cases hnext
            exact hone
        · cases hnext
          exact hone

/-- A new session took what its counters say, and a failed construction took nothing. -/
theorem newBillingSession_inv {r : Except ApiError Session} (hquota : 0 ≤ quota)
    (hready : Ready start.db info.requestId)
    (hrollback : E → c.wallet.rollback = none ∧ c.subscription.rollback = none)
    (h : newBillingSession env c info quota start = some (r, st', events)) :
    Built (Unchanged E start)
      (fun session st events => events = [] → Inv E start (.initial session st)) st' events r := by
  refine newBillingSession_rule (.refl) (fun {st r st' events} hsame h => ?_)
    (fun {st r st' events} hsame h => ?_) h
  · cases r with
    | error e => exact hsame.trans (tryWallet_error hquota (fun he => (hrollback he).1) h)
    | ok session => exact fun _ => tryWallet_inv hquota hsame h
  · cases r with
    | error e => exact hsame.trans (trySubscription_error (fun he => (hrollback he).2) h)
    | ok session => exact fun hevents => trySubscription_inv hready hsame hevents h

end Construction

/-! ### Runs -/

theorem reserve_flags (env : Settings) (faults : ReserveFaults) (targetQuota : Int) (session : Session)
    (st : Store) :
    (session.reserve env faults targetQuota st).2.1.refunded = session.refunded ∧
      (session.reserve env faults targetQuota st).2.1.settled = session.settled ∧
      (session.reserve env faults targetQuota st).2.1.fundingSettled = session.fundingSettled := by
  simp only [Session.reserve]
  split_ifs
  · exact ⟨rfl, rfl, rfl⟩
  cases hfund : session.reserveFunding faults.funding (targetQuota - session.preConsumedQuota) st with
  | error e => exact ⟨rfl, rfl, rfl⟩
  | ok p =>
    obtain ⟨session1, st1⟩ := p
    have hone : session1.refunded = session.refunded ∧ session1.settled = session.settled ∧
        session1.fundingSettled = session.fundingSettled := by
      unfold Session.reserveFunding at hfund
      split at hfund
      · split at hfund <;> cases hfund
        · exact ⟨rfl, rfl, rfl⟩
      · split at hfund
        · cases hfund
        · cases hfund
          exact ⟨rfl, rfl, rfl⟩
    simp only
    cases session1.reserveToken env faults.token (targetQuota - session.preConsumedQuota) st1 with
    | ok st2 => exact hone
    | error e =>
      simp only [Session.rollbackFundingReserve]
      split
      · split
        · exact hone
        · exact hone
      · split
        · exact hone
        · exact hone

theorem preConsumedQuota_of_not_needsRefund (h : Counters s.session) (ho : Open s)
    (hneeds : s.session.needsRefund = false) : s.session.preConsumedQuota = 0 := by
  have hnonneg := h.nonneg
  have htoken := h.token
  unfold Session.needsRefund at hneeds
  rw [if_neg (by simp [ho.settled, ho.refunded, ho.fundingSettled])] at hneeds
  split_ifs at hneeds with hpos
  omega

def AsCalled (s : State) : Action → Prop
  | .settle _ _ => s.session.refunded = false
  | _ => True

instance (s : State) (a : Action) : Decidable (AsCalled s a) := by
  cases a <;> unfold AsCalled <;> infer_instance

theorem noLateSettle_of_asCalled {a : Action} (h : AsCalled s a) : NoLateSettle s a := by
  cases a with
  | settle faults actual =>
    intro hr
    exact absurd (hr.symm.trans h) (by simp)
  | reserve => trivial
  | refund => trivial
  | job => trivial
  | others => trivial

/-- A session that callers use as they do is settled or refunded, not both. -/
theorem asCalled_step {env : Settings} {a : Action} {t : State} (h : Inv E start s)
    (hone : s.session.refunded = true → s.settlement = none) (hcalled : AsCalled s a)
    (hstep : step env start s a = some t) : t.session.refunded = true → t.settlement = none := by
  cases a with
  | reserve faults targetQuota =>
    simp only [step] at hstep
    cases hstep
    simp only [(reserve_flags env faults targetQuota s.session s.store).1]
    exact hone
  | settle faults actual =>
    intro hr
    have hrefunded : s.session.refunded = false := hcalled
    rcases step_settle h.fundingSettled hstep with rfl | ⟨-, -, rfl⟩ | ⟨-, -, st, st', tokenFailed, -, -, rfl⟩
    · exact hone hr
    · exact absurd (hr.symm.trans hrefunded) (by simp)
    · exact absurd (hr.symm.trans hrefunded) (by simp)
  | refund =>
    simp only [step] at hstep
    cases hstep
    unfold Session.refund
    split_ifs with hguard
    · exact hone
    · intro _
      simp only [not_or, Bool.not_eq_true] at hguard
      have := h.settled
      rw [hguard.1] at this
      exact Option.not_isSome_iff_eq_none.1 (by simp [← this])
  | job faults =>
    simp only [step] at hstep
    split at hstep <;> cases hstep
    · exact hone
  | others change =>
    simp only [step, State.applyOthers] at hstep
    split at hstep
    · cases hstep
      exact hone
    · split_ifs at hstep
      cases hstep
      exact hone

/-- The accounting of a session, for every run in which callers do not settle after a refund and
rollbacks and refunds succeed. A settled session took the actual amount from its funding source (of
a subscription no less than down to a used amount of `0`), a refunded one nothing, and an open one
`preConsumedQuota`; the same holds of the token, unless its step of the settlement failed. -/
theorem billing_accounting (env : Settings) (c : Circumstances) (info : RelayInfo) (quota : Int)
    (start : Store) (hquota : 0 ≤ quota) (hready : Ready start.db info.requestId)
    (hrollback : c.wallet.rollback = none ∧ c.subscription.rollback = none)
    {r : Except ApiError Session} {st : Store} {events : List ResetEvent}
    (hnew : newBillingSession env c info quota start = some (r, st, events)) :
    (∀ e, r = .error e → st = start) ∧
    ∀ session, r = .ok session → events = [] → ∀ actions s,
      Along (step env start) (fun s a => AsCalled s a ∧ CreditsSucceed a) (.initial session st) actions →
      run (step env start) (.initial session st) actions = some s →
      (s.session.refunded = false → s.settlement = none →
        s.fundingTaken start = s.session.preConsumedQuota ∧
        s.tokenTaken start = if s.session.relayInfo.isPlayground then 0 else s.session.preConsumedQuota) ∧
      (∀ r, s.settlement = some r →
        (s.fundingTaken start =
          match s.session.funding with
          | .wallet _ => r.actual
          | .subscription _ => max r.actual (-r.othersUsed)) ∧
        s.tokenTaken start =
          if s.session.relayInfo.isPlayground then 0
          else if r.tokenFailed then s.session.preConsumedQuota else r.actual) ∧
      (s.session.refunded = true → s.job = [] → s.fundingTaken start = 0 ∧ s.tokenTaken start = 0) ∧
      (s.session.settled = false → s.session.refunded = false → s.session.needsRefund = false →
        s.fundingTaken start = 0 ∧ s.tokenTaken start = 0) := by
  have hbuilt := newBillingSession_inv (E := True) hquota hready (fun _ => hrollback) hnew
  refine ⟨?_, ?_⟩
  · rintro e rfl
    exact Unchanged.eq hbuilt
  rintro session rfl hevents actions s halong hrun
  obtain ⟨hinv, hone⟩ : Inv True start s ∧ (s.session.refunded = true → s.settlement = none) := by
    refine run_inv_along (I := fun s => Inv True start s ∧ (s.session.refunded = true → s.settlement = none))
      ?_ ⟨hbuilt hevents, fun _ => ?_⟩ halong hrun
    · rintro u a v ⟨hu, hone⟩ ⟨hcalled, hcredit⟩ hstep
      exact ⟨step_inv hu (noLateSettle_of_asCalled hcalled) (refundsWhole_of_creditsSucceed hcredit)
        (fun _ => hcredit) hstep, asCalled_step hu hone hcalled hstep⟩
    · rfl
  have hfunding := le_antisymm (hinv.upper trivial) hinv.lower
  have htoken := hinv.token trivial
  refine ⟨fun hrefunded hnone => ?_, fun r hr => ?_, fun hrefunded hjob => ?_, fun hsettled hrefunded hneeds => ?_⟩
  · rw [hfunding, htoken]
    simp [State.due, State.dueToken, hrefunded, hnone]
  · have hrefunded : s.session.refunded = false := by
      by_contra hne
      have := hone (by simpa using hne)
      rw [hr] at this
      cases this
    rw [hfunding, htoken]
    simp only [State.due, State.dueToken, hrefunded, hr, Bool.false_eq_true, if_false]
    refine ⟨?_, trivial⟩
    cases s.session.funding <;> rfl
  · rw [hfunding, htoken]
    simp [State.due, State.dueToken, hrefunded, hjob, Session.owed]
  · have ho := hinv.isOpen hsettled hrefunded
    have hzero := preConsumedQuota_of_not_needsRefund hinv.counters ho hneeds
    simp [hfunding, htoken, State.due, State.dueToken, hrefunded, ho.settlement, hzero]

def exampleStore : Store where
  userQuota := 100
  tokenQuota := 100
  db := { subs := [⟨1, 7, 3, 0, 3, 0, 1000, .active, "order", 0, 0, true⟩], nextId := 2 }

def exampleSettings : Settings where
  loc := .fixed 0
  plans := [{ id := 3 }]
  trustQuota := 0
  formatQuota := toString

def exampleCircumstances : Circumstances where
  wallet := { now := 10, turns := 5 }
  subscription := { now := 10, turns := 5 }
  userQuota := .ok 100

def exampleInfo (preference : String) : RelayInfo :=
  { userId := 7, requestId := "r", billingPreference := preference }

theorem exampleStore_ready : Ready exampleStore.db "r" := by
  refine ⟨⟨by decide, by decide⟩, by decide, by decide⟩

theorem billing_accounting_wallet :
    ∃ session st, newBillingSession exampleSettings exampleCircumstances (exampleInfo "wallet_only") 10
        exampleStore = some (.ok session, st, []) ∧
      ∃ s, run (step exampleSettings exampleStore) (.initial session st) [.reserve {} 25, .settle {} 18] =
          some s ∧
        s.settlement = some ⟨18, 0, false⟩ ∧ s.fundingTaken exampleStore = 18 := by
  refine ⟨_, _, rfl, _, rfl, rfl, ?_⟩
  refine ((((billing_accounting exampleSettings exampleCircumstances (exampleInfo "wallet_only") 10
    exampleStore (by decide) exampleStore_ready ⟨rfl, rfl⟩ rfl).2 _ rfl rfl
      [.reserve {} 25, .settle {} 18] _ ?_ rfl).2.1 ⟨18, 0, false⟩ rfl).1).trans rfl
  refine ⟨⟨trivial, rfl⟩, fun t ht => ?_⟩
  cases ht
  exact ⟨⟨rfl, trivial⟩, fun _ _ => trivial⟩

/-- A subscription session takes `10` and settles at `-5`: its used amount only goes down to `0`, so
that the session gave back `3` and not `5`. -/
theorem settle_negative_stops_at_zero :
    ∃ session st, newBillingSession exampleSettings exampleCircumstances (exampleInfo "subscription_only")
        10 exampleStore = some (.ok session, st, []) ∧
      ∃ s, run (step exampleSettings exampleStore) (.initial session st) [.settle {} (-5)] = some s ∧
        s.settlement = some ⟨-5, 3, false⟩ ∧ s.fundingTaken exampleStore = -3 ∧
        s.tokenTaken exampleStore = -5 :=
  ⟨_, _, rfl, _, rfl, rfl, by decide, by decide⟩

end TokenEra.Billing
