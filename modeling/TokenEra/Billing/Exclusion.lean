import TokenEra.Billing.Accounting

/-!
# Settlement and refund exclude each other

`Refund` and `Reserve` look at both flags of a session. `Settle` looks at `settled` only: a
settlement that arrives after a refund still moves the difference to the actual amount, on a funding
source that gets the advance back as well (`late_settle_pays_out`). The flags keep the two apart in
every run without such a call, whatever the operations meet and whenever the refund job runs
(`Exclusive`).
-/

namespace TokenEra.Billing

open Lib Subscription

variable {E : Prop} {start : Store} {s : State}

structure Exclusive (s : State) : Prop where
  settle : ∀ delta, .settle delta ∈ s.moves → s.session.settled = true ∧ s.session.refunded = false
  refund : .refund ∈ s.moves → s.session.refunded = true
  job : s.job ≠ [] → s.session.refunded = true
  fundingSettled : s.session.fundingSettled = true → s.session.settled = true

theorem exclusive_step {env : Settings} {a : Action} {t : State} (h : Exclusive s)
    (hlate : NoLateSettle s a) (hstep : step env start s a = some t) : Exclusive t := by
  cases a with
  | reserve faults targetQuota =>
    obtain ⟨hrefunded, hsettled, hfunding⟩ := reserve_flags env faults targetQuota s.session s.store
    simp only [step] at hstep
    cases hstep
    refine ⟨?_, ?_, ?_, ?_⟩
    · simp only [hrefunded, hsettled]
      exact h.settle
    · simp only [hrefunded]
      exact h.refund
    · simp only [hrefunded]
      exact h.job
    · simp only [hfunding, hsettled]
      exact h.fundingSettled
  | settle faults actual =>
    rcases step_settle h.fundingSettled hstep with
      rfl | ⟨hsettled, hactual, rfl⟩ | ⟨hsettled, hdelta, st, st', tokenFailed, -, -, rfl⟩
    · exact h
    · exact ⟨fun delta hd => ⟨rfl, (h.settle delta hd).2⟩, h.refund, h.job, fun _ => rfl⟩
    · -- the difference is not `0`, so this is no late call
      have hrefunded : s.session.refunded = false := by
        by_contra hr
        have := hlate (by simpa using hr) hsettled
        omega
      refine ⟨fun _ _ => ⟨rfl, hrefunded⟩, fun hmem => ?_, h.job, fun _ => rfl⟩
      simp only [List.mem_append, List.mem_singleton, reduceCtorEq, or_false] at hmem
      exact h.refund hmem
  | refund =>
    simp only [step] at hstep
    cases hstep
    unfold Session.refund
    split_ifs with hguard
    · simp only [List.append_nil]
      exact h
    · simp only [not_or, Bool.not_eq_true] at hguard
      refine ⟨fun delta hd => ?_, fun _ => rfl, fun _ => rfl, h.fundingSettled⟩
      have := (h.settle delta hd).1
      rw [hguard.1] at this
      cases this
  | job faults =>
    simp only [step] at hstep
    cases hjob : s.job with
    | nil => simp [hjob] at hstep
    | cons j rest =>
      have hrefunded := h.job (by simp [hjob])
      simp only [hjob] at hstep
      cases hstep
      refine ⟨fun delta hd => ?_, fun _ => hrefunded, fun _ => hrefunded, h.fundingSettled⟩
      have hbefore : .settle delta ∈ s.moves := by
        simp only at hd
        split_ifs at hd
        · simpa using hd
        · exact hd
      exact h.settle delta hbefore
  | others change =>
    simp only [step, State.applyOthers] at hstep
    split at hstep
    · cases hstep
      exact { h with }
    · split_ifs at hstep
      cases hstep
      exact { h with }

def Action.charges : Action → Bool
  | .reserve _ _ => true
  | .settle _ _ => true
  | _ => false

/-- After a refund such a call moves nothing. -/
theorem store_of_refunded {env : Settings} {a : Action} {t : State} (h : Exclusive s)
    (hrefunded : s.session.refunded = true) (hlate : NoLateSettle s a) (ha : a.charges = true)
    (hstep : step env start s a = some t) : t.store = s.store := by
  cases a with
  | reserve faults targetQuota =>
    simp only [step] at hstep
    cases hstep
    simp [Session.reserve, hrefunded]
  | settle faults actual =>
    rcases step_settle h.fundingSettled hstep with rfl | ⟨-, -, rfl⟩ | ⟨hsettled, hdelta, -⟩
    · rfl
    · rfl
    · have := hlate hrefunded hsettled
      omega
  | refund => cases ha
  | job faults => cases ha
  | others change => cases ha

def Nonnegative : Action → Prop
  | .settle _ actual => 0 ≤ actual
  | _ => True

theorem nonnegative_step {env : Settings} {a : Action} {t : State} (h : Exclusive s)
    (hpos : ∀ r, s.settlement = some r → 0 ≤ r.actual) (ha : Nonnegative a)
    (hstep : step env start s a = some t) : ∀ r, t.settlement = some r → 0 ≤ r.actual := by
  cases a with
  | settle faults actual =>
    rcases step_settle h.fundingSettled hstep with rfl | ⟨-, -, rfl⟩ | ⟨-, -, st, st', tokenFailed, -, -, rfl⟩
    · exact hpos
    · rintro r ⟨⟩
      exact ha
    · rintro r ⟨⟩
      exact ha
  | reserve faults targetQuota =>
    cases hstep
    exact hpos
  | refund =>
    cases hstep
    exact hpos
  | job faults =>
    simp only [step] at hstep
    split at hstep <;> cases hstep
    · exact hpos
  | others change =>
    simp only [step, State.applyOthers] at hstep
    split at hstep
    · cases hstep
      exact hpos
    · split_ifs at hstep
      cases hstep
      exact hpos

/-- What a session ought to have taken is not negative, unless it was settled at less than `0`. -/
theorem due_nonneg (h : Inv E start s) (hpos : ∀ r, s.settlement = some r → 0 ≤ r.actual) : 0 ≤ s.due := by
  unfold State.due
  split_ifs
  · exact owed_nonneg h.counters h.job
  · cases hr : s.settlement with
    | none => exact h.counters.nonneg
    | some r =>
      have := hpos r hr
      simp only [Settlement.amount]
      cases s.session.funding with
      | wallet w => exact this
      | subscription f => exact this.trans (le_max_left _ _)

theorem newBillingSession_exclusive {env : Settings} {c : Circumstances} {info : RelayInfo} {quota : Int}
    {st : Store} {session : Session} {events : List ResetEvent} (hquota : 0 ≤ quota)
    (h : newBillingSession env c info quota start = some (.ok session, st, events)) :
    Exclusive (.initial session st) := by
  have hbuilt : Built (fun _ => True) (fun session st _ => Exclusive (.initial session st)) st events
      (.ok session) := by
    refine newBillingSession_rule trivial (fun {st r st' events} _ h => ?_) (fun {st r st' events} _ h => ?_) h
    · cases r with
      | error e => trivial
      | ok session =>
        unfold tryWallet at h
        cases hread : c.userQuota with
        | error text => simp [hread] at h
        | ok userQuota =>
          simp only [hread] at h
          split_ifs at h
          · simp at h
          · simp at h
          obtain ⟨funding, -, rfl⟩ := preConsume_eq_ok hquota rfl h
          exact ⟨by simp [State.initial], by simp [State.initial], by simp [State.initial], fun hf => by cases hf⟩
    · cases r with
      | error e => trivial
      | ok session =>
        obtain ⟨funding, -, rfl⟩ := preConsume_eq_ok (by split_ifs <;> omega) rfl h
        exact ⟨by simp [State.initial], by simp [State.initial], by simp [State.initial], fun hf => by cases hf⟩
  exact hbuilt

/-- In every run without a late settlement, whatever fails in it: not both the difference of a
settlement and the giving back of the advance reach the funding source; after a refund no call takes
or settles anything; and the session's net charge is not negative, unless a settlement is or a
refund of a subscription is half-committed. -/
theorem refund_excludes_settle (env : Settings) (c : Circumstances) (info : RelayInfo) (quota : Int)
    (start : Store) (hquota : 0 ≤ quota) (hready : Ready start.db info.requestId) {session : Session}
    {st : Store} {events : List ResetEvent}
    (hnew : newBillingSession env c info quota start = some (.ok session, st, events))
    (actions : List Action) {s : State}
    (hlate : Along (step env start) NoLateSettle (.initial session st) actions)
    (hrun : run (step env start) (.initial session st) actions = some s) :
    ¬((∃ delta, .settle delta ∈ s.moves) ∧ .refund ∈ s.moves) ∧
      (s.session.refunded = true → ∀ a t, a.charges = true → NoLateSettle s a →
        step env start s a = some t → t.store = s.store) ∧
      (events = [] →
        Along (step env start) (fun s a => RefundsWhole s a ∧ Nonnegative a) (.initial session st) actions →
        0 ≤ s.fundingTaken start) := by
  have hfirst := newBillingSession_exclusive hquota hnew
  have hex : Exclusive s := run_inv_along (fun _ _ _ h ha hstep => exclusive_step h ha hstep) hfirst hlate hrun
  refine ⟨?_, fun hrefunded a t ha hla hstep => store_of_refunded hex hrefunded hla ha hstep, ?_⟩
  · rintro ⟨⟨delta, hd⟩, hr⟩
    exact absurd ((hex.settle delta hd).2.symm.trans (hex.refund hr)) (by simp)
  · intro hevents hwhole
    have hstart := newBillingSession_inv (E := False) hquota hready False.elim hnew hevents
    obtain ⟨hinv, -, hpos⟩ : Inv False start s ∧ Exclusive s ∧
        ∀ r, s.settlement = some r → 0 ≤ r.actual := by
      refine run_inv_along (I := fun s => Inv False start s ∧ Exclusive s ∧
        ∀ r, s.settlement = some r → 0 ≤ r.actual) ?_ ⟨hstart, hfirst, by simp [State.initial]⟩
        (hlate.and hwhole) hrun
      rintro u a v ⟨hu, hue, hup⟩ ⟨hla, hrw, hnn⟩ hstep
      exact ⟨step_inv hu hla hrw False.elim hstep, exclusive_step hue hla hstep,
        nonnegative_step hue hup hnn hstep⟩
    exact (due_nonneg hinv hpos).trans hinv.lower

theorem refund_excludes_settle_wallet :
    ∃ session st, newBillingSession exampleSettings exampleCircumstances (exampleInfo "wallet_only") 10
        exampleStore = some (.ok session, st, []) ∧
      ∃ s, run (step exampleSettings exampleStore) (.initial session st)
          [.refund, .job {}, .job {}, .settle {} 10] = some s ∧
        s.moves = [.refund] ∧
        ¬((∃ delta, .settle delta ∈ s.moves) ∧ .refund ∈ s.moves) := by
  refine ⟨_, _, rfl, _, rfl, rfl, ?_⟩
  refine (refund_excludes_settle exampleSettings exampleCircumstances (exampleInfo "wallet_only") 10
    exampleStore (by decide) exampleStore_ready rfl [.refund, .job {}, .job {}, .settle {} 10] ?_ rfl).1
  refine ⟨trivial, fun t ht => ?_⟩
  cases ht
  refine ⟨trivial, fun t ht => ?_⟩
  cases ht
  refine ⟨trivial, fun t ht => ?_⟩
  cases ht
  exact ⟨fun _ _ => rfl, fun _ _ => trivial⟩

/-- The advance of `10` is refunded, and a settlement at `4` then pays out another `6`. -/
theorem late_settle_pays_out :
    ∃ session st, newBillingSession exampleSettings exampleCircumstances (exampleInfo "wallet_only") 10
        exampleStore = some (.ok session, st, []) ∧
      0 < session.preConsumedQuota ∧
      ∃ s, run (step exampleSettings exampleStore) (.initial session st)
          [.refund, .job {}, .job {}, .settle {} 4] = some s ∧
        s.moves = [.refund, .settle (-6)] ∧ s.store.userQuota = 106 ∧ s.fundingTaken exampleStore = -6 :=
  ⟨_, _, rfl, by decide, _, rfl, rfl, rfl, by decide⟩

end TokenEra.Billing
