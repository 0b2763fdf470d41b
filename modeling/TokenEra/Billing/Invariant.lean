import TokenEra.Billing.Operations

/-!
# The counters of a session and its balances

While a session is open, its counters say what it took (`Inv`): `consumed` for a wallet, the record
and `extraReserved` for a subscription, `tokenConsumed` for the token, and all of them add up to
`preConsumedQuota`. A settlement moves the difference to the actual amount; the refund job owes what
the counters said when it started (`Session.owed`).

A failed rollback leaves more taken than the counters say, never less. So the invariant has a lower
part that every step keeps, and an upper part that needs the credits to succeed; `E` says whether
they did. The give-back of a subscription stops at a used amount of `0`: a settlement below `0`
takes from what others used, and no further (`Settlement.amount`).
-/

namespace TokenEra.Billing

open Lib Subscription

/-! ### The invariant -/

def Session.owedBy (s : Session) : JobStep → Int
  | .funding =>
    match s.funding with
    | .wallet w => w.consumed
    | .subscription f => f.preConsumed
  | .extraReserved _ amount => amount
  | .token _ => 0

def Session.owed (s : Session) (job : List JobStep) : Int := (job.map s.owedBy).sum

def JobStep.owedToken : JobStep → Int
  | .token amount => amount
  | _ => 0

/-- What a settlement leaves taken from a funding source: a subscription's used amount stops at `0`.
-/
def Settlement.amount (r : Settlement) : Funding → Int
  | .wallet _ => r.actual
  | .subscription _ => max r.actual (-r.othersUsed)

def State.due (s : State) : Int :=
  if s.session.refunded then s.session.owed s.job
  else
    match s.settlement with
    | some r => r.amount s.session.funding
    | none => s.session.preConsumedQuota

def State.dueToken (s : State) : Int :=
  if s.session.relayInfo.isPlayground then 0
  else if s.session.refunded then (s.job.map JobStep.owedToken).sum
  else
    match s.settlement with
    | some r => if r.tokenFailed then s.session.preConsumedQuota else r.actual
    | none => s.session.preConsumedQuota

structure Counters (s : Session) : Prop where
  nonneg : 0 ≤ s.preConsumedQuota
  token : s.tokenConsumed = s.preConsumedQuota
  wallet : ∀ w, s.funding = .wallet w → s.preConsumedQuota ≤ w.consumed
  subscription : ∀ f, s.funding = .subscription f →
    f.preConsumed + s.extraReserved = s.preConsumedQuota ∧ 0 < f.preConsumed ∧ 0 ≤ s.extraReserved ∧
      s.relayInfo.subscriptionId = f.subscriptionId ∧ trimSpace f.requestId ≠ ""

theorem Counters.mark {s : Session} (h : Counters s) (fundingSettled settled refunded : Bool) :
    Counters { s with fundingSettled := fundingSettled, settled := settled, refunded := refunded } :=
  { h with }

def Tables (s : State) : Prop :=
  ∀ f, s.session.funding = .subscription f → RowOk s.store.db f.subscriptionId ∧
    (s.session.refunded = false ∨ .funding ∈ s.job →
      s.store.db.record? f.requestId =
        some ⟨f.requestId, f.userId, f.subscriptionId, f.preConsumed, .consumed⟩)

def JobOk (s : Session) : JobStep → Prop
  | .funding => True
  | .extraReserved subscriptionId amount =>
    0 ≤ amount ∧ ∃ f, s.funding = .subscription f ∧ subscriptionId = f.subscriptionId
  | .token amount => 0 ≤ amount ∧ s.relayInfo.isPlayground = false

/-- `E` says whether every credit so far succeeded. -/
structure Inv (E : Prop) (start : Store) (s : State) : Prop where
  counters : Counters s.session
  settled : s.session.settled = s.settlement.isSome
  fundingSettled : s.session.fundingSettled = true → s.session.settled = true
  idle : s.session.refunded = false → s.job = []
  job : ∀ j ∈ s.job, JobOk s.session j
  jobTail : .funding ∉ s.job.tail
  tables : Tables s
  others : 0 ≤ s.othersUsed start
  consumed : s.session.refunded = false → s.settlement = none → ∀ w, s.session.funding = .wallet w →
    s.fundingTaken start = w.consumed
  lower : s.due ≤ s.fundingTaken start
  upper : E → s.fundingTaken start ≤ s.due
  token : E → s.tokenTaken start = s.dueToken

variable {E : Prop} {start : Store} {s : State}

structure Open (s : State) : Prop where
  settled : s.session.settled = false
  fundingSettled : s.session.fundingSettled = false
  refunded : s.session.refunded = false
  settlement : s.settlement = none
  job : s.job = []

theorem Inv.isOpen (h : Inv E start s) (hsettled : s.session.settled = false)
    (hrefunded : s.session.refunded = false) : Open s := by
  refine ⟨hsettled, ?_, hrefunded, ?_, h.idle hrefunded⟩
  · cases hf : s.session.fundingSettled with
    | false => rfl
    | true =>
      rw [h.fundingSettled hf] at hsettled
      cases hsettled
  · rw [h.settled] at hsettled
    exact Option.not_isSome_iff_eq_none.1 (by simp [hsettled])

/-- What the session took, where so much is due from its funding source and from the token. -/
structure Taken (E : Prop) (start : Store) (s : State) (due dueToken : Int) : Prop where
  lower : due ≤ s.fundingTaken start
  upper : E → s.fundingTaken start ≤ due
  token : E → s.tokenTaken start = if s.session.relayInfo.isPlayground then 0 else dueToken

theorem Inv.taken_open (h : Inv E start s) (ho : Open s) :
    Taken E start s s.session.preConsumedQuota s.session.preConsumedQuota where
  lower := by simpa [State.due, ho.refunded, ho.settlement] using h.lower
  upper := by simpa [State.due, ho.refunded, ho.settlement] using h.upper
  token := by simpa [State.dueToken, ho.refunded, ho.settlement] using h.token

theorem Inv.of_open (ho : Open s) (counters : Counters s.session) (tables : Tables s)
    (others : 0 ≤ s.othersUsed start)
    (consumed : ∀ w, s.session.funding = .wallet w → s.fundingTaken start = w.consumed)
    (taken : Taken E start s s.session.preConsumedQuota s.session.preConsumedQuota) : Inv E start s where
  counters := counters
  settled := by rw [ho.settled, ho.settlement]; rfl
  fundingSettled hf := by rw [ho.fundingSettled] at hf; cases hf
  idle _ := ho.job
  job := by simp [ho.job]
  jobTail := by simp [ho.job]
  tables := tables
  others := others
  consumed _ _ := consumed
  lower := by simpa [State.due, ho.refunded, ho.settlement] using taken.lower
  upper := by simpa [State.due, ho.refunded, ho.settlement] using taken.upper
  token := by simpa [State.dueToken, ho.refunded, ho.settlement] using taken.token

def NoLateSettle (s : State) : Action → Prop
  | .settle _ actual => s.session.refunded = true → s.session.settled = false →
      actual = s.session.preConsumedQuota
  | _ => True

/-- No attempt to refund a subscription gives its amount back without marking the record. -/
def RefundsWhole (s : State) : Action → Prop
  | .job faults => ∀ f, s.session.funding = .subscription f →
      ∀ i, halfCommits (faults.refund i) f.requestId s.store.db = false
  | _ => True

def CreditsSucceed : Action → Prop
  | .reserve faults _ => faults.rollback = none
  | .job faults => faults.fault = none ∧ ∀ i, faults.refund i = {}
  | _ => True

/-! ### Reserving -/

variable {delta targetQuota actual : Int} {env : Settings} {session : Session} {st st' : Store}
  {fault : Option String} {t : State}
  {j : JobStep} {faults : JobFaults}

theorem reserveToken_eq_ok {reply : Reply}
    (hdelta : 0 < delta) (h : session.reserveToken env reply delta st = .ok st') :
    st' = { st with tokenQuota := st.tokenQuota - if session.relayInfo.isPlayground then 0 else delta } := by
  unfold Session.reserveToken at h
  split_ifs at h with hskip
  · cases h
    simp [hskip.resolve_left (not_le.2 hdelta)]
  · cases hpre : preConsumeTokenQuota env session.relayInfo.isPlayground reply delta st with
    | error text => simp [hpre] at h
    | ok st'' =>
      simp only [hpre, Except.ok.injEq] at h
      rw [← h]
      exact preConsumeTokenQuota_eq_ok hdelta hpre

theorem reserve_wallet {faults : ReserveFaults} {w : WalletFunding}
    (h : Inv E start s) (ho : Open s) (hw : s.session.funding = .wallet w)
    (htarget : s.session.preConsumedQuota < targetQuota)
    (htrusted : s.session.trusted = false) (hcredit : E → faults.rollback = none) :
    Inv E start { s with
      session := (s.session.reserve env faults targetQuota s.store).2.1
      store := (s.session.reserve env faults targetQuota s.store).2.2 } := by
  have hconsumed := h.consumed ho.refunded ho.settlement w hw
  have hcounters := h.counters
  have hpre := hcounters.wallet w hw
  have hguard : ¬(s.session.settled = true ∨ s.session.refunded = true ∨ s.session.trusted = true ∨
      targetQuota ≤ s.session.preConsumedQuota) := by
    simp [ho.settled, ho.refunded, htrusted, htarget]
  obtain ⟨d, hd⟩ : ∃ d, targetQuota - s.session.preConsumedQuota = d := ⟨_, rfl⟩
  have hpos : 0 < d := by omega
  obtain ⟨-, hupper, htoken⟩ := h.taken_open ho
  simp only [Session.reserve, if_neg hguard, hd, Session.reserveFunding, hw]
  cases hdec : decreaseUserQuota faults.funding d s.store with
  | error text => exact h
  | ok st =>
    obtain ⟨-, -, rfl⟩ := changeUserQuota_eq_ok.1 hdec
    simp only [if_true]
    cases hres : Session.reserveToken env faults.token d
        { s.session with funding := .wallet { w with consumed := w.consumed + d } }
        { s.store with userQuota := s.store.userQuota - d } with
    | error e =>
      simp only [Session.rollbackFundingReserve]
      cases hinc : increaseUserQuota faults.rollback d
          { s.store with userQuota := s.store.userQuota - d } with
      | error text =>
        -- the rollback failed: the wallet keeps the amount, and `consumed` with it
        have hinexact : ¬E := fun he => changeUserQuota_fault hpos.le hinc (hcredit he)
        refine Inv.of_open { ho with } ?_ ?_ ?_ ?_
          ⟨?_, fun he => absurd he hinexact, fun he => absurd he hinexact⟩
        · refine ⟨hcounters.nonneg, hcounters.token, fun w' hw' => ?_, fun f hf => by cases hf⟩
          cases hw'
          simp only
          omega
        · intro f hf
          cases hf
        · exact le_refl _
        · intro w' hw'
          cases hw'
          simp only [State.fundingTaken, hw] at hconsumed ⊢
          omega
        · simp only [State.fundingTaken, hw] at hconsumed ⊢
          omega
      | ok st =>
        obtain ⟨-, -, rfl⟩ := changeUserQuota_eq_ok.1 hinc
        have hsame : s.store.userQuota - d + d = s.store.userQuota := by omega
        have hback : w.consumed + d - d = w.consumed := by omega
        have hstate : ({ s with session := { s.session with funding := .wallet w } } : State) = s := by
          rw [← hw]
        simp only [Bool.false_eq_true, if_false, hsame, hback]
        rw [← hstate] at h
        exact h
    | ok st =>
      have hst := reserveToken_eq_ok hpos hres
      subst hst
      refine Inv.of_open { ho with } ?_ ?_ ?_ ?_ ⟨?_, ?_, ?_⟩
      · refine ⟨?_, ?_, fun w' hw' => ?_, fun f hf => by cases hf⟩
        · have := hcounters.nonneg
          simp only [Session.syncRelayInfo]
          omega
        · simp only [Session.syncRelayInfo, hcounters.token]
        · cases hw'
          simp only [Session.syncRelayInfo]
          omega
      · intro f hf
        cases hf
      · exact le_refl _
      · intro w' hw'
        cases hw'
        simp only [State.fundingTaken, Session.syncRelayInfo, hw] at hconsumed ⊢
        omega
      · simp only [State.fundingTaken, Session.syncRelayInfo, hw] at hconsumed ⊢
        omega
      · intro he
        have := hupper he
        simp only [State.fundingTaken, Session.syncRelayInfo, hw] at hconsumed this ⊢
        omega
      · intro he
        have := htoken he
        cases hplay : s.session.relayInfo.isPlayground <;>
          simp [State.tokenTaken, Session.syncRelayInfo, hplay] at this ⊢ <;> omega

/-- A reservation that is rolled back leaves the session as it was, and the subscription with at
least what it had used: a failed rollback leaves the used amount with what no counter knows of. -/
theorem Inv.rolledBack {f : SubscriptionFunding} (h : Inv E start s) (ho : Open s)
    (hf : s.session.funding = .subscription f) (hrow : RowOk st.db f.subscriptionId)
    (hrecord : st.db.record? f.requestId = s.store.db.record? f.requestId)
    (hused : usedOf s.store.db f.subscriptionId ≤ usedOf st.db f.subscriptionId)
    (hexact : E → usedOf st.db f.subscriptionId = usedOf s.store.db f.subscriptionId ∧
      st.tokenQuota = s.store.tokenQuota) :
    Inv E start { s with store := st } := by
  have hothers := h.others
  obtain ⟨hlower, hupper, htoken⟩ := h.taken_open ho
  simp only [State.fundingTaken, State.othersUsed, hf] at hothers hlower hupper
  refine Inv.of_open { ho with } h.counters ?_ h.others ?_ ⟨?_, ?_, ?_⟩
  · intro f' hf'
    cases hf.symm.trans hf'
    exact ⟨hrow, fun hkept => hrecord.trans ((h.tables f hf).2 hkept)⟩
  · intro w hw
    cases hf.symm.trans hw
  · simp only [State.fundingTaken, State.othersUsed, hf]
    omega
  · intro he
    have := hupper he
    simp only [State.fundingTaken, State.othersUsed, hf, (hexact he).1]
    omega
  · intro he
    rw [← htoken he]
    simp only [State.tokenTaken, (hexact he).2]

theorem reserve_subscription {faults : ReserveFaults}
    {f : SubscriptionFunding} (h : Inv E start s) (ho : Open s)
    (hf : s.session.funding = .subscription f) (htarget : s.session.preConsumedQuota < targetQuota)
    (htrusted : s.session.trusted = false) (hcredit : E → faults.rollback = none) :
    Inv E start { s with
      session := (s.session.reserve env faults targetQuota s.store).2.1
      store := (s.session.reserve env faults targetQuota s.store).2.2 } := by
  have hcounters := h.counters
  obtain ⟨hsum, hfpos, hextra, hrelay, hid⟩ := hcounters.subscription f hf
  obtain ⟨hrow, hrecord⟩ := h.tables f hf
  have hguard : ¬(s.session.settled = true ∨ s.session.refunded = true ∨ s.session.trusted = true ∨
      targetQuota ≤ s.session.preConsumedQuota) := by
    simp [ho.settled, ho.refunded, htrusted, htarget]
  obtain ⟨d, hd⟩ : ∃ d, targetQuota - s.session.preConsumedQuota = d := ⟨_, rfl⟩
  have hpos : 0 < d := by omega
  have hothers := h.others
  obtain ⟨hlower, hupper, htoken⟩ := h.taken_open ho
  simp only [State.fundingTaken, State.othersUsed, hf] at hothers hlower hupper
  have hnonneg := hcounters.nonneg
  simp only [Session.reserve, if_neg hguard, hd, Session.reserveFunding, hf]
  cases hpost : postConsumeDelta faults.funding f.subscriptionId d s.store with
  | error text => exact h
  | ok st =>
    obtain ⟨huser, htok, hrow', hrec', hused⟩ := postConsumeDelta_eq_ok hrow (by omega) hpost
    simp only
    cases hres : s.session.reserveToken env faults.token d st with
    | error e =>
      simp only [Session.rollbackFundingReserve, hf]
      cases hback : postConsumeDelta faults.rollback f.subscriptionId (-d) st with
      | error text =>
        have hinexact : ¬E := fun he => postConsumeDelta_fault hrow' (by omega) hback (hcredit he)
        have hmore : usedOf s.store.db f.subscriptionId ≤ usedOf st.db f.subscriptionId := by omega
        exact h.rolledBack ho hf hrow' (hrec' _) hmore fun he => absurd he hinexact
      | ok st' =>
        obtain ⟨huser', htok', hrow'', hrec'', hused'⟩ := postConsumeDelta_eq_ok hrow' (by omega) hback
        have hsame : usedOf st'.db f.subscriptionId = usedOf s.store.db f.subscriptionId := by omega
        exact h.rolledBack ho hf hrow'' ((hrec'' _).trans (hrec' _)) hsame.ge fun _ => ⟨hsame, htok'.trans htok⟩
    | ok st' =>
      have hst := reserveToken_eq_ok hpos hres
      subst hst
      refine Inv.of_open { ho with } ?_ ?_ ?_ ?_ ⟨?_, ?_, ?_⟩
      · refine ⟨?_, ?_, fun w hw => ?_, fun f' hf' => ?_⟩
        · simp only [Session.syncRelayInfo]
          omega
        · simp only [Session.syncRelayInfo, hcounters.token]
        · cases hf.symm.trans hw
        · cases hf.symm.trans hf'
          simp only [Session.syncRelayInfo, hf]
          exact ⟨by omega, hfpos, by omega, trivial, hid⟩
      · intro f' hf'
        cases hf.symm.trans hf'
        exact ⟨hrow', fun hkept => (hrec' _).trans (hrecord hkept)⟩
      · simp only [State.othersUsed, Session.syncRelayInfo, hf]
        exact hothers
      · intro w hw
        cases hf.symm.trans hw
      · simp only [State.fundingTaken, State.othersUsed, Session.syncRelayInfo, hf]
        omega
      · intro he
        have := hupper he
        simp only [State.fundingTaken, State.othersUsed, Session.syncRelayInfo, hf]
        omega
      · intro he
        have := htoken he
        cases hplay : s.session.relayInfo.isPlayground <;>
          simp [State.tokenTaken, Session.syncRelayInfo, hplay] at this ⊢ <;> omega

theorem reserve_inv {faults : ReserveFaults}
    (h : Inv E start s) (hcredit : E → faults.rollback = none) :
    Inv E start { s with
      session := (s.session.reserve env faults targetQuota s.store).2.1
      store := (s.session.reserve env faults targetQuota s.store).2.2 } := by
  by_cases hguard : s.session.settled = true ∨ s.session.refunded = true ∨ s.session.trusted = true ∨
      targetQuota ≤ s.session.preConsumedQuota
  · simp only [Session.reserve, if_pos hguard]
    exact h
  · simp only [not_or, Bool.not_eq_true, not_le] at hguard
    obtain ⟨hsettled, hrefunded, htrusted, htarget⟩ := hguard
    have ho := h.isOpen hsettled hrefunded
    cases hfunding : s.session.funding with
    | wallet w => exact reserve_wallet h ho hfunding htarget htrusted hcredit
    | subscription f => exact reserve_subscription h ho hfunding htarget htrusted hcredit

/-! ### Settling -/

theorem settle_wallet_ok {w : WalletFunding}
    (h : (Funding.wallet w).settle fault delta st = .ok st') :
    st' = { st with userQuota := st.userQuota - delta } := by
  unfold Funding.settle at h
  split_ifs at h with hzero hpos
  · cases h
    simp [hzero]
  · obtain ⟨-, -, rfl⟩ := changeUserQuota_eq_ok.1 h
    rfl
  · obtain ⟨-, -, rfl⟩ := changeUserQuota_eq_ok.1 h
    simp [sub_eq_add_neg]

theorem settleToken_eq_ok (h : session.settleToken fault delta st = .ok st') :
    st' = { st with tokenQuota := st.tokenQuota - if session.relayInfo.isPlayground then 0 else delta } := by
  unfold Session.settleToken at h
  split_ifs at h with hplay hpos
  · cases h
    simp [hplay]
  · obtain ⟨-, -, rfl⟩ := changeTokenQuota_eq_ok.1 h
    simp [hplay]
  · obtain ⟨-, -, rfl⟩ := changeTokenQuota_eq_ok.1 h
    simp [hplay, sub_eq_add_neg]

theorem settleToken_error {text : String} (h : session.settleToken fault delta st = .error text) :
    session.relayInfo.isPlayground = false := by
  unfold Session.settleToken at h
  split_ifs at h with hplay hpos
  · simpa using hplay
  · simpa using hplay

theorem Inv.of_settled {r : Settlement} (hsettled : s.session.settled = true)
    (hrefunded : s.session.refunded = false) (hjob : s.job = []) (hr : s.settlement = some r)
    (counters : Counters s.session) (tables : Tables s) (others : 0 ≤ s.othersUsed start)
    (taken : Taken E start s (r.amount s.session.funding)
      (if r.tokenFailed then s.session.preConsumedQuota else r.actual)) : Inv E start s where
  counters := counters
  settled := by rw [hsettled, hr]; rfl
  fundingSettled _ := hsettled
  idle _ := hjob
  job := by simp [hjob]
  jobTail := by simp [hjob]
  tables := tables
  others := others
  consumed _ hnone := by rw [hr] at hnone; cases hnone
  lower := by simpa [State.due, hrefunded, hr] using taken.lower
  upper := by simpa [State.due, hrefunded, hr] using taken.upper
  token := by simpa [State.dueToken, hrefunded, hr] using taken.token

/-- The funding source moves by the difference to the actual amount; a subscription's used amount
stops at `0`. -/
theorem settle_funding (h : Inv E start s)
    (ho : Open s) (hst : s.session.funding.settle fault (actual - s.session.preConsumedQuota) s.store = .ok st)
    (hdelta : actual - s.session.preConsumedQuota ≠ 0) :
    let t : State := { s with store := st }
    let r : Settlement := ⟨actual, s.othersUsed start, false⟩
    st.tokenQuota = s.store.tokenQuota ∧ Tables t ∧
      r.amount s.session.funding ≤ t.fundingTaken start ∧
      (E → t.fundingTaken start ≤ r.amount s.session.funding) := by
  obtain ⟨hlower, hupper, -⟩ := h.taken_open ho
  cases hfunding : s.session.funding with
  | wallet w =>
    rw [hfunding] at hst
    have := settle_wallet_ok hst
    subst this
    simp only [State.fundingTaken, Settlement.amount, hfunding] at hlower hupper ⊢
    refine ⟨trivial, fun f hf => ?_, by omega, fun he => ?_⟩
    · cases hfunding.symm.trans hf
    · have := hupper he
      omega
  | subscription f =>
    obtain ⟨hrow, hrecord⟩ := h.tables f hfunding
    have hothers := h.others
    have hnonneg := h.counters.nonneg
    rw [hfunding, Funding.settle, if_neg hdelta] at hst
    simp only [State.fundingTaken, State.othersUsed, Settlement.amount, hfunding]
      at hothers hlower hupper ⊢
    obtain ⟨-, htok, hrow', hrec', hused⟩ := postConsumeDelta_eq_ok hrow (by omega) hst
    refine ⟨htok, fun f' hf' => ?_, by omega, fun he => ?_⟩
    · cases hfunding.symm.trans hf'
      exact ⟨hrow', fun hkept => (hrec' _).trans (hrecord hkept)⟩
    · have := hupper he
      omega

/-- A settlement does nothing; or only marks the session, when there is no difference; or moves the
funding source and then the token, unless the token's step fails. -/
theorem step_settle {faults : SettleFaults}
    (hfunding : s.session.fundingSettled = true → s.session.settled = true)
    (hstep : step env start s (.settle faults actual) = some t) :
    t = s ∨
    (s.session.settled = false ∧ actual = s.session.preConsumedQuota ∧
      t = { s with
        session := { s.session with settled := true }
        settlement := some ⟨actual, s.othersUsed start, false⟩ }) ∨
    (s.session.settled = false ∧ actual - s.session.preConsumedQuota ≠ 0 ∧ ∃ st st' tokenFailed,
      s.session.funding.settle faults.funding (actual - s.session.preConsumedQuota) s.store = .ok st ∧
      ((tokenFailed = true ∧ s.session.relayInfo.isPlayground = false ∧ st' = st) ∨
        (tokenFailed = false ∧ st' = { st with
          tokenQuota := st.tokenQuota -
            if s.session.relayInfo.isPlayground then 0 else actual - s.session.preConsumedQuota })) ∧
      t = { s with
        session := { s.session with fundingSettled := true, settled := true }
        store := st'
        settlement := some ⟨actual, s.othersUsed start, tokenFailed⟩
        moves := s.moves ++ [.settle (actual - s.session.preConsumedQuota)] }) := by
  simp only [step] at hstep
  cases hstep
  by_cases hsettled : s.session.settled = true
  · simp [Session.settle, hsettled]
  have hfalse : s.session.settled = false := by simpa using hsettled
  have hopen : s.session.fundingSettled = false := by
    by_contra hf
    exact hsettled (hfunding (by simpa using hf))
  by_cases hdelta : actual - s.session.preConsumedQuota = 0
  · refine Or.inr (Or.inl ⟨hfalse, by omega, ?_⟩)
    simp [Session.settle, hfalse, hdelta, Except.isOk, Except.toBool]
  · simp only [Session.settle, if_neg hsettled, if_neg hdelta, hopen, Bool.false_eq_true, if_false]
    cases hfund : s.session.funding.settle faults.funding (actual - s.session.preConsumedQuota) s.store with
    | error text => exact Or.inl (by simp [hfalse])
    | ok st =>
      refine Or.inr (Or.inr ⟨hfalse, hdelta, st, ?_⟩)
      cases hset : s.session.settleToken faults.token (actual - s.session.preConsumedQuota) st with
      | error text =>
        refine ⟨st, true, rfl, Or.inl ⟨rfl, settleToken_error hset, rfl⟩, ?_⟩
        simp [hset, hfalse, hdelta, Except.isOk, Except.toBool]
      | ok st' =>
        refine ⟨st', false, rfl, Or.inr ⟨rfl, settleToken_eq_ok hset⟩, ?_⟩
        simp [hset, hfalse, hdelta, Except.isOk, Except.toBool]

theorem Inv.of_refunded (hrefunded : s.session.refunded = true) (counters : Counters s.session)
    (settled : s.session.settled = s.settlement.isSome)
    (fundingSettled : s.session.fundingSettled = true → s.session.settled = true)
    (job : ∀ j ∈ s.job, JobOk s.session j) (jobTail : .funding ∉ s.job.tail) (tables : Tables s)
    (others : 0 ≤ s.othersUsed start)
    (taken : Taken E start s (s.session.owed s.job) (s.job.map JobStep.owedToken).sum) : Inv E start s where
  counters := counters
  settled := settled
  fundingSettled := fundingSettled
  idle hr := by rw [hrefunded] at hr; cases hr
  job := job
  jobTail := jobTail
  tables := tables
  others := others
  consumed hr := by rw [hrefunded] at hr; cases hr
  lower := by simpa [State.due, hrefunded] using taken.lower
  upper := by simpa [State.due, hrefunded] using taken.upper
  token := by simpa [State.dueToken, hrefunded] using taken.token

/-- What a refunded session took is what its job still owes. -/
theorem Inv.taken_refunded (h : Inv E start s) (hrefunded : s.session.refunded = true) :
    Taken E start s (s.session.owed s.job) (s.job.map JobStep.owedToken).sum where
  lower := by simpa [State.due, hrefunded] using h.lower
  upper := by simpa [State.due, hrefunded] using h.upper
  token := by simpa [State.dueToken, hrefunded] using h.token

/-- A settlement keeps the invariant, unless it moves money after a refund. -/
theorem settle_inv {faults : SettleFaults} (h : Inv E start s)
    (hlate : s.session.refunded = true → s.session.settled = false →
      actual = s.session.preConsumedQuota)
    (hstep : step env start s (.settle faults actual) = some t) : Inv E start t := by
  have hnonneg := h.counters.nonneg
  have hothers := h.others
  rcases step_settle h.fundingSettled hstep with
    rfl | ⟨hsettled, hactual, rfl⟩ | ⟨hsettled, hdelta, st, st', tokenFailed, hfund, htok, rfl⟩
  · exact h
  · by_cases hrefunded : s.session.refunded = true
    · exact Inv.of_refunded hrefunded (h.counters.mark _ _ _) rfl (fun _ => rfl) h.job h.jobTail h.tables
        h.others { h.taken_refunded hrefunded with }
    · have ho := h.isOpen hsettled (by simpa using hrefunded)
      obtain ⟨hlower, hupper, htoken⟩ := h.taken_open ho
      have hamount : (⟨actual, s.othersUsed start, false⟩ : Settlement).amount s.session.funding =
          s.session.preConsumedQuota := by
        unfold Settlement.amount
        cases s.session.funding with
        | wallet w => exact hactual
        | subscription f =>
          simp only
          omega
      refine Inv.of_settled rfl ho.refunded ho.job rfl (h.counters.mark _ _ _) h.tables h.others ⟨?_, ?_, ?_⟩
      · exact hamount.trans_le hlower
      · exact fun he => (hupper he).trans hamount.ge
      · intro he
        rw [hactual]
        exact htoken he
  · have hrefunded : s.session.refunded = false := by
      by_contra hr
      exact hdelta (by rw [hlate (by simpa using hr) hsettled]; omega)
    have ho := h.isOpen hsettled hrefunded
    obtain ⟨hsame, htables, hlower, hupper⟩ := settle_funding h ho hfund hdelta
    obtain ⟨-, -, htoken⟩ := h.taken_open ho
    have hstore : st'.userQuota = st.userQuota ∧ st'.db = st.db := by
      rcases htok with ⟨-, -, rfl⟩ | ⟨-, rfl⟩ <;> exact ⟨rfl, rfl⟩
    have htaken : ∀ r m, ({ s with
        session := { s.session with fundingSettled := true, settled := true }, store := st'
        settlement := r, moves := m } : State).fundingTaken start =
        ({ s with store := st } : State).fundingTaken start := by
      intro r m
      simp only [State.fundingTaken, State.othersUsed, hstore]
    refine Inv.of_settled rfl hrefunded ho.job rfl (h.counters.mark _ _ _) ?_ h.others ⟨?_, ?_, ?_⟩
    · intro f hf
      rw [hstore.2]
      exact htables f hf
    · rw [htaken]
      exact hlower
    · rw [htaken]
      exact hupper
    · intro he
      have := htoken he
      rcases htok with ⟨rfl, hplay, rfl⟩ | ⟨rfl, rfl⟩
      · simp only [State.tokenTaken, hplay, hsame] at this ⊢
        simpa using this
      · cases hplay : s.session.relayInfo.isPlayground <;>
          simp [State.tokenTaken, hplay, hsame] at this ⊢ <;> omega

/-! ### Refunding -/

theorem owedBy_nonneg (h : Counters s.session) (hj : JobOk s.session j) :
    0 ≤ s.session.owedBy j := by
  have := h.nonneg
  cases j with
  | funding =>
    unfold Session.owedBy
    cases hfunding : s.session.funding with
    | wallet w => exact h.nonneg.trans (h.wallet w hfunding)
    | subscription f => exact (h.subscription f hfunding).2.1.le
  | extraReserved subscriptionId amount => exact hj.1
  | token amount => exact le_refl _

theorem owed_nonneg (h : Counters s.session) {job : List JobStep} (hjob : ∀ j ∈ job, JobOk s.session j) :
    0 ≤ s.session.owed job := by
  refine List.sum_nonneg fun x hx => ?_
  obtain ⟨j, hj, rfl⟩ := List.mem_map.1 hx
  exact owedBy_nonneg h (hjob j hj)

variable {job : List JobStep}

@[simp] theorem owed_cons :
    session.owed (j :: job) = session.owedBy j + session.owed job := rfl

theorem owed_append (job' : List JobStep) :
    session.owed (job ++ job') = session.owed job + session.owed job' := by
  rw [Session.owed, List.map_append, List.sum_append]
  rfl

theorem refundJob_ok (h : Counters s.session) : ∀ j ∈ s.session.refundJob, JobOk s.session j := by
  intro j hj
  simp only [Session.refundJob, List.mem_cons, List.mem_append] at hj
  rcases hj with rfl | hj | hj
  · trivial
  · unfold Session.extraJob at hj
    cases hfunding : s.session.funding with
    | wallet w => simp [hfunding] at hj
    | subscription f =>
      simp only [hfunding] at hj
      split_ifs at hj with hextra
      · rw [List.mem_singleton] at hj
        subst hj
        exact ⟨hextra.1.le, f, hfunding, (h.subscription f hfunding).2.2.2.1⟩
      · cases hj
  · unfold Session.tokenJob at hj
    split_ifs at hj with htoken
    · rw [List.mem_singleton] at hj
      subst hj
      exact ⟨htoken.1.le, by simpa using htoken.2⟩
    · cases hj

theorem refundJob_tail : .funding ∉ session.refundJob.tail := by
  simp only [Session.refundJob, List.tail_cons, List.mem_append, not_or]
  constructor
  · unfold Session.extraJob
    split
    · simp
    · split_ifs <;> simp
  · unfold Session.tokenJob
    split_ifs <;> simp

theorem owed_refundJob (h : Counters s.session) (hid : ∀ f, s.session.funding = .subscription f →
    0 < f.subscriptionId) :
    s.session.owed s.session.refundJob =
      match s.session.funding with
      | .wallet w => w.consumed
      | .subscription _ => s.session.preConsumedQuota := by
  have htoken : s.session.owed s.session.tokenJob = 0 := by
    unfold Session.tokenJob
    split_ifs <;> rfl
  rw [Session.refundJob, owed_cons, owed_append, htoken, add_zero]
  cases hfunding : s.session.funding with
  | wallet w => simp [Session.owed, Session.owedBy, Session.extraJob, hfunding]
  | subscription f =>
    obtain ⟨hsum, -, hextra, hrelay, -⟩ := h.subscription f hfunding
    have hpos := hid f hfunding
    simp only [Session.extraJob, hfunding]
    split_ifs with hjob
    · simp only [Session.owed, List.map_cons, List.map_nil, List.sum_cons, List.sum_nil, Session.owedBy,
        hfunding]
      omega
    · simp only [Session.owed, List.map_nil, List.sum_nil, Session.owedBy, hfunding]
      omega

theorem owedToken_refundJob (h : Counters s.session) :
    (s.session.refundJob.map JobStep.owedToken).sum =
      if s.session.relayInfo.isPlayground then 0 else s.session.preConsumedQuota := by
  have hextra : (s.session.extraJob.map JobStep.owedToken).sum = 0 := by
    unfold Session.extraJob
    split
    · rfl
    · split_ifs <;> rfl
  have hnonneg := h.nonneg
  have htoken := h.token
  simp only [Session.refundJob, List.map_cons, List.sum_cons, List.map_append, List.sum_append, hextra,
    Session.tokenJob, JobStep.owedToken, zero_add]
  split_ifs with hjob hplay hplay
  · exact absurd hplay hjob.2
  · simp [JobStep.owedToken, htoken]
  · rfl
  · simp only [List.map_nil, List.sum_nil]
    have : ¬0 < s.session.tokenConsumed := fun hpos => hjob ⟨hpos, hplay⟩
    omega

theorem refund_inv (h : Inv E start s)
    (hstep : step env start s .refund = some t) : Inv E start t := by
  simp only [step] at hstep
  cases hstep
  by_cases hguard : s.session.settled = true ∨ s.session.refunded = true ∨ ¬s.session.needsRefund = true
  · simp only [Session.refund, if_pos hguard, List.append_nil]
    exact h
  simp only [Session.refund, if_neg hguard]
  simp only [not_or, Bool.not_eq_true] at hguard
  have ho := h.isOpen hguard.1 hguard.2.1
  obtain ⟨hlower, hupper, htoken⟩ := h.taken_open ho
  have howed := owed_refundJob h.counters fun f hf => (h.tables f hf).1.1
  -- a wallet took what `consumed` says, whatever rollbacks failed before
  have hbounds : s.session.owed s.session.refundJob ≤ s.fundingTaken start ∧
      (E → s.fundingTaken start ≤ s.session.owed s.session.refundJob) := by
    rw [howed]
    cases hfunding : s.session.funding with
    | wallet w =>
      have hconsumed := h.consumed ho.refunded ho.settlement w hfunding
      exact ⟨hconsumed.ge, fun _ => hconsumed.le⟩
    | subscription f => exact ⟨hlower, hupper⟩
  rw [ho.job, List.nil_append]
  refine Inv.of_refunded rfl (h.counters.mark _ _ _) h.settled h.fundingSettled (refundJob_ok h.counters)
    refundJob_tail ?_ h.others ⟨hbounds.1, hbounds.2, ?_⟩
  · intro f hf
    obtain ⟨hrow, hrecord⟩ := h.tables f hf
    exact ⟨hrow, fun _ => hrecord (Or.inl ho.refunded)⟩
  · intro he
    refine (htoken he).trans ?_
    simp only [owedToken_refundJob h.counters]
    split_ifs <;> rfl

structure Gives (E : Prop) (session : Session) (st st' : Store) (j : JobStep) (taken : Int) : Prop where
  row : ∀ f, session.funding = .subscription f → RowOk st'.db f.subscriptionId
  /-- At most what the step owes is given back. -/
  most : taken ≤ session.owedBy j
  least : E → taken = session.owedBy j
  token : E → st'.tokenQuota = st.tokenQuota + j.owedToken

def Session.given (session : Session) (st st' : Store) : Int :=
  match session.funding with
  | .wallet _ => st'.userQuota - st.userQuota
  | .subscription f => usedOf st.db f.subscriptionId - usedOf st'.db f.subscriptionId

theorem Gives.nothing (hinexact : ¬E)
    (hrow : ∀ f, session.funding = .subscription f → RowOk st.db f.subscriptionId) (howed : 0 ≤ session.owedBy j) :
    Gives E session st st j (session.given st st) := by
  refine ⟨hrow, ?_, fun he => absurd he hinexact, fun he => absurd he hinexact⟩
  unfold Session.given
  cases session.funding with
  | wallet w =>
    simp only
    omega
  | subscription f =>
    simp only
    omega

theorem Gives.whole (hrow : ∀ f, session.funding = .subscription f → RowOk st'.db f.subscriptionId)
    (hgiven : session.given st st' = session.owedBy j) (htoken : st'.tokenQuota = st.tokenQuota + j.owedToken) :
    Gives E session st st' j (session.given st st') :=
  ⟨hrow, hgiven.le, fun _ => hgiven, fun _ => htoken⟩

theorem gives_funding {rest : List JobStep} (h : Inv E start s) (hjob : s.job = .funding :: rest)
    (hcovered : ∀ f, s.session.funding = .subscription f →
      f.preConsumed ≤ usedOf s.store.db f.subscriptionId)
    (hwhole : RefundsWhole s (.job faults)) (hcredit : E → CreditsSucceed (.job faults)) :
    Gives E s.session s.store (JobStep.funding.run faults s.session s.store) .funding
      (s.session.given s.store (JobStep.funding.run faults s.session s.store)) := by
  have howed := owedBy_nonneg h.counters (j := .funding) trivial
  have hrow : ∀ f, s.session.funding = .subscription f → RowOk s.store.db f.subscriptionId :=
    fun f hf => (h.tables f hf).1
  cases hfunding : s.session.funding with
  | wallet w =>
    have hconsumed : 0 ≤ w.consumed := h.counters.nonneg.trans (h.counters.wallet w hfunding)
    have hno : ∀ f, s.session.funding ≠ .subscription f := fun f hf => by cases hfunding.symm.trans hf
    simp only [JobStep.run, Funding.refund, hfunding]
    split_ifs with hzero
    · refine Gives.whole hrow ?_ (by simp [JobStep.owedToken])
      simp only [Session.given, Session.owedBy, hfunding]
      omega
    · cases hinc : increaseUserQuota faults.fault w.consumed s.store with
      | error text =>
        exact Gives.nothing (fun he => changeUserQuota_fault hconsumed hinc (hcredit he).1) hrow howed
      | ok st =>
        obtain ⟨-, -, rfl⟩ := changeUserQuota_eq_ok.1 hinc
        refine Gives.whole (fun f hf => absurd hf (hno f)) ?_ (by simp [JobStep.owedToken])
        simp [Session.given, Session.owedBy, hfunding]
  | subscription f =>
    obtain ⟨-, hpos, -, -, hid⟩ := h.counters.subscription f hfunding
    have hr := (h.tables f hfunding).2 (Or.inr (by simp [hjob]))
    have hcov := hcovered f hfunding
    simp only [JobStep.run, Funding.refund, hfunding, if_neg (not_le.2 hpos)]
    have hcases : (¬E ∧ (refundWithRetry (fun i => refundSubscriptionPreConsume (faults.refund i)
          f.requestId) s.store.db).db = s.store.db) ∨
        Released s.store.db (refundWithRetry (fun i => refundSubscriptionPreConsume (faults.refund i)
          f.requestId) s.store.db).db
            ⟨f.requestId, f.userId, f.subscriptionId, f.preConsumed, .consumed⟩ := by
      by_cases he : E
      · right
        simp only [(hcredit he).2]
        exact refundWithRetry_faultless hid hr rfl hpos (hrow f hfunding)
      · rcases retryLoop_whole hr rfl hpos (hwhole f hfunding) 3 0 (.ok ()) with hsame | hreleased
        · exact Or.inl ⟨he, hsame⟩
        · exact Or.inr hreleased
    rcases hcases with ⟨hinexact, hsame⟩ | hreleased
    · rw [hsame]
      exact Gives.nothing hinexact hrow howed
    · obtain ⟨hrow', hused⟩ := hreleased.spec (hrow f hfunding) hpos hcov
      simp only at hrow' hused
      refine Gives.whole (fun f' hf' => ?_) ?_ (by simp [JobStep.owedToken])
      · cases hfunding.symm.trans hf'
        exact hrow'
      · simp only [Session.given, Session.owedBy, hfunding]
        omega

theorem gives_extra {id amount : Int} (h : Inv E start s)
    (hok : JobOk s.session (.extraReserved id amount)) (hcovered : amount ≤ usedOf s.store.db id)
    (hcredit : E → CreditsSucceed (.job faults)) :
    Gives E s.session s.store ((JobStep.extraReserved id amount).run faults s.session s.store)
      (.extraReserved id amount)
      (s.session.given s.store ((JobStep.extraReserved id amount).run faults s.session s.store)) := by
  have howed := owedBy_nonneg h.counters hok
  obtain ⟨hamount, f, hfunding, rfl⟩ := hok
  obtain ⟨hrow, -⟩ := h.tables f hfunding
  simp only [JobStep.run]
  cases hpost : postConsumeDelta faults.fault f.subscriptionId (-amount) s.store with
  | error text =>
    exact Gives.nothing (fun he => postConsumeDelta_fault hrow (by omega) hpost (hcredit he).1)
      (fun f hf => (h.tables f hf).1) howed
  | ok st =>
    obtain ⟨-, htok, hrow', -, hused⟩ := postConsumeDelta_eq_ok hrow (by omega) hpost
    refine Gives.whole (fun f' hf' => ?_) ?_ (by simp [JobStep.owedToken, htok])
    · cases hfunding.symm.trans hf'
      exact hrow'
    · simp only [Session.given, Session.owedBy, hfunding]
      omega

theorem gives_token {amount : Int} (h : Inv E start s) (hok : JobOk s.session (.token amount))
    (hcredit : E → CreditsSucceed (.job faults)) :
    Gives E s.session s.store ((JobStep.token amount).run faults s.session s.store) (.token amount)
      (s.session.given s.store ((JobStep.token amount).run faults s.session s.store)) := by
  simp only [JobStep.run]
  cases hinc : increaseTokenQuota faults.fault amount s.store with
  | error text =>
    exact Gives.nothing (fun he => changeTokenQuota_fault hok.1 hinc (hcredit he).1)
      (fun f hf => (h.tables f hf).1) (owedBy_nonneg h.counters hok)
  | ok st =>
    obtain ⟨-, -, rfl⟩ := changeTokenQuota_eq_ok.1 hinc
    refine Gives.whole (fun f hf => (h.tables f hf).1) ?_ (by simp [JobStep.owedToken])
    unfold Session.given
    cases s.session.funding <;> simp [Session.owedBy]

/-- The next step of the job gives back what it owes, or less when a credit fails. -/
theorem gives_next {rest : List JobStep} (h : Inv E start s)
    (hrefunded : s.session.refunded = true) (hjob : s.job = j :: rest)
    (hwhole : RefundsWhole s (.job faults)) (hcredit : E → CreditsSucceed (.job faults)) :
    Gives E s.session s.store (j.run faults s.session s.store) j
      (s.session.given s.store (j.run faults s.session s.store)) := by
  have hok : JobOk s.session j := h.job j (by simp [hjob])
  have hrest : 0 ≤ s.session.owed rest := owed_nonneg h.counters fun x hx => h.job x (by simp [hjob, hx])
  have hothers := h.others
  -- What the step owes is still taken, so the used amount of a subscription covers it.
  have hlower := (h.taken_refunded hrefunded).1
  rw [hjob, owed_cons] at hlower
  cases j with
  | funding =>
    refine gives_funding h hjob (fun f hf => ?_) hwhole hcredit
    simp only [State.fundingTaken, State.othersUsed, Session.owedBy, hf] at hlower hothers
    omega
  | extraReserved id amount =>
    refine gives_extra h hok ?_ hcredit
    obtain ⟨-, f, hf, rfl⟩ := hok
    simp only [State.fundingTaken, State.othersUsed, Session.owedBy, hf] at hlower hothers
    omega
  | token amount => exact gives_token h hok hcredit

theorem fundingTaken_given (moves : List Move) :
    ({ s with store := st, job := job, moves := moves } : State).fundingTaken start =
      s.fundingTaken start - s.session.given s.store st := by
  simp only [State.fundingTaken, State.othersUsed, Session.given]
  cases s.session.funding with
  | wallet w =>
    simp only
    omega
  | subscription f =>
    simp only
    omega

theorem JobOk.owedToken_playground (h : JobOk session j)
    (hplay : session.relayInfo.isPlayground = true) : j.owedToken = 0 := by
  cases j with
  | token amount =>
    have hnot := h.2
    rw [hplay] at hnot
    cases hnot
  | funding => rfl
  | extraReserved => rfl

theorem job_inv (h : Inv E start s)
    (hwhole : RefundsWhole s (.job faults)) (hcredit : E → CreditsSucceed (.job faults))
    (hstep : step env start s (.job faults) = some t) : Inv E start t := by
  simp only [step] at hstep
  cases hjob : s.job with
  | nil => simp [hjob] at hstep
  | cons j rest =>
    simp only [hjob] at hstep
    cases hstep
    have hrefunded : s.session.refunded = true := by
      by_contra hr
      have := h.idle (by simpa using hr)
      rw [hjob] at this
      cases this
    obtain ⟨hlower, hupper, htoken⟩ := h.taken_refunded hrefunded
    rw [hjob, owed_cons] at hlower hupper
    rw [hjob, List.map_cons, List.sum_cons] at htoken
    have hrest : ∀ x ∈ rest, JobOk s.session x := fun x hx => h.job x (by simp [hjob, hx])
    have htail : .funding ∉ rest := by
      have := h.jobTail
      rwa [hjob] at this
    have hgives := gives_next h hrefunded hjob hwhole hcredit
    generalize (j.run faults s.session s.store) = st' at hgives ⊢
    have hmost := hgives.most
    refine Inv.of_refunded hrefunded h.counters h.settled h.fundingSettled hrest ?_ ?_ h.others ⟨?_, ?_, ?_⟩
    · exact fun hmem => htail (List.mem_of_mem_tail hmem)
    · intro f hf
      refine ⟨hgives.row f hf, ?_⟩
      rintro (hr | hmem)
      · exact absurd (hrefunded.symm.trans hr) (by simp)
      · exact absurd hmem htail
    · rw [fundingTaken_given]
      simp only
      omega
    · intro he
      have := hupper he
      have := hgives.least he
      rw [fundingTaken_given]
      simp only
      omega
    · intro he
      have h1 := htoken he
      have h2 := hgives.token he
      simp only [State.tokenTaken] at h1 ⊢
      cases hplay : s.session.relayInfo.isPlayground with
      | false =>
        simp only [hplay, Bool.false_eq_true, if_false] at h1 ⊢
        omega
      | true =>
        have hzero := (h.job j (by simp [hjob])).owedToken_playground hplay
        simp only [hplay, if_true] at h1 ⊢
        omega

/-! ### Steps -/

/-- A step of other code that leaves what the session took as it is. -/
theorem Inv.of_same_taken {others : Others} (h : Inv E start s)
    (htables : Tables { s with others := others, store := st })
    (hothers : 0 ≤ ({ s with others := others, store := st } : State).othersUsed start)
    (hfunding : ({ s with others := others, store := st } : State).fundingTaken start = s.fundingTaken start)
    (htoken : ({ s with others := others, store := st } : State).tokenTaken start = s.tokenTaken start) :
    Inv E start { s with others := others, store := st } :=
  { h with
    tables := htables
    others := hothers
    consumed := fun hr hs w hw => hfunding.trans (h.consumed hr hs w hw)
    lower := hfunding ▸ h.lower
    upper := fun he => hfunding ▸ h.upper he
    token := fun he => htoken.trans (h.token he) }

theorem others_inv {change : Others} (h : Inv E start s)
    (hstep : step env start s (.others change) = some t) : Inv E start t := by
  have hothers := h.others
  simp only [step, State.applyOthers] at hstep
  cases hfunding : s.session.funding with
  | wallet w =>
    simp only [Session.subscription?, hfunding] at hstep
    cases hstep
    refine h.of_same_taken (fun f hf => ?_) ?_ ?_ ?_
    · cases hfunding.symm.trans hf
    · simp only [State.othersUsed, hfunding]
      exact le_refl _
    · simp only [State.fundingTaken, hfunding]
      omega
    · simp only [State.tokenTaken]
      omega
  | subscription f =>
    obtain ⟨⟨hid, sub, hsub, -⟩, hrecord⟩ := h.tables f hfunding
    obtain ⟨-, hkey⟩ := sub?_mem hsub
    simp only [Session.subscription?, hfunding, hsub] at hstep
    split_ifs at hstep with hguard
    cases hstep
    simp only [State.othersUsed, hfunding, not_or, not_lt] at hguard hothers
    have hrow : (s.store.db.saveSub { sub with amountUsed := sub.amountUsed + change.amountUsed }).sub?
        f.subscriptionId = some { sub with amountUsed := sub.amountUsed + change.amountUsed } := by
      rw [← hkey] at hsub ⊢
      exact sub?_saveSub hsub rfl
    have hused : usedOf (s.store.db.saveSub { sub with amountUsed := sub.amountUsed + change.amountUsed })
        f.subscriptionId = usedOf s.store.db f.subscriptionId + change.amountUsed := by
      rw [usedOf_of_sub? hrow, usedOf_of_sub? hsub]
    refine h.of_same_taken (fun f' hf' => ?_) ?_ ?_ ?_
    · cases hfunding.symm.trans hf'
      refine ⟨⟨hid, _, hrow, fun hpos => ?_⟩, hrecord⟩
      by_contra hover
      exact hguard.2 ⟨hpos, not_le.1 hover⟩
    · simp only [State.othersUsed, hfunding]
      omega
    · simp only [State.fundingTaken, State.othersUsed, hfunding, hused]
      omega
    · simp only [State.tokenTaken]
      omega

theorem refundsWhole_of_creditsSucceed {a : Action} (h : CreditsSucceed a) : RefundsWhole s a := by
  cases a with
  | job faults =>
    intro f _ i
    rw [h.2 i]
    simp [halfCommits, RefundFaults.late]
  | reserve => trivial
  | settle => trivial
  | refund => trivial
  | others => trivial

theorem step_inv {a : Action} (h : Inv E start s)
    (hlate : NoLateSettle s a) (hwhole : RefundsWhole s a) (hcredit : E → CreditsSucceed a)
    (hstep : step env start s a = some t) : Inv E start t := by
  cases a with
  | reserve faults targetQuota =>
    simp only [step] at hstep
    cases hstep
    exact reserve_inv h hcredit
  | settle faults actual => exact settle_inv h hlate hstep
  | refund => exact refund_inv h hstep
  | job faults => exact job_inv h hwhole hcredit hstep
  | others change => exact others_inv h hstep

end TokenEra.Billing
