import TokenEra.Billing.Session
import TokenEra.Subscription.Ledger

/-!
# What the operations of a session do

One lemma for each operation on the wallet, the token and the subscription tables: when it succeeds,
what it leaves, and when it cannot fail. A pre-consumption adds its amount to one row, which it may
have reset before, and records it (`preConsume_ok`); a delta moves a used amount, down to `0` at
most (`postConsumeDelta_eq_ok`); and a refund that is not half-committed does nothing or everything
(`refund_whole`).
-/

namespace TokenEra.Subscription

open Lib

/-! ### A charge -/

/-- What a row had used when a call that reset some rows charged it. -/
def usedAtCharge (db : Db) (events : List ResetEvent) (id : Int) : Int :=
  if ∃ e ∈ events, e.subId = id then 0 else usedOf db id

@[simp] theorem usedAtCharge_nil (db : Db) (id : Int) : usedAtCharge db [] id = usedOf db id := by
  simp [usedAtCharge]

variable {db : Db}

theorem usedAtCharge_nonneg (events : List ResetEvent) {id : Int} (h : 0 ≤ usedOf db id) :
    0 ≤ usedAtCharge db events id := by
  unfold usedAtCharge
  split_ifs
  · exact le_refl 0
  · exact h

/-- The resets of a walk over rows with different ids say what one of them has used after it. -/
theorem resetRow_usedAtCharge {env : Env} {turns : Nat} {now : Int} {xs : List UserSubscription}
    {x : UserSubscription} (hids : (xs.map UserSubscription.id).Nodup) (hx : x ∈ xs)
    (hused : usedOf db x.id = x.amountUsed) :
    (resetRow env turns now x).2.amountUsed =
      usedAtCharge db (xs.flatMap fun y => (resetRow env turns now y).1) x.id := by
  have hown : (∃ e ∈ xs.flatMap fun y => (resetRow env turns now y).1, e.subId = x.id) ↔
      (resetRow env turns now x).1 ≠ [] := by
    rw [← eventsOf_resets env turns now hids hx, eventsOf, Ne, List.filter_eq_nil_iff]
    push Not
    simp only [decide_eq_true_eq]
  unfold usedAtCharge
  rcases resetRow_used env turns now x with ⟨hnil, hsame⟩ | ⟨⟨e, hone, -⟩, hzero⟩
  · rw [if_neg (by rw [hown, hnil]; simp), hsame, hused]
  · rw [if_pos (by rw [hown, hone]; simp), hzero]

theorem preConsume_ok {env : Env} {fault : Option String} {turns : Nat} {now : Int} {requestId : String}
    {userId amount : Int} {o : Outcome PreConsumeResult} {res : PreConsumeResult}
    (hdb : db.Keyed) (hfresh : db.record? requestId = none)
    (h : preConsumeUserSubscription env fault turns now requestId userId amount db = some o)
    (hok : o.result = .ok res) :
    trimSpace requestId ≠ "" ∧ res.preConsumed = amount ∧ 0 < amount ∧
      o.db.record? requestId = some ⟨requestId, userId, res.userSubscriptionId, amount, .consumed⟩ ∧
      ∃ x y, db.sub? res.userSubscriptionId = some x ∧ o.db.sub? res.userSubscriptionId = some y ∧
        y.amountUsed = usedAtCharge db o.events res.userSubscriptionId + amount ∧
        (0 < y.amountTotal → y.amountUsed ≤ y.amountTotal) := by
  rcases preConsume_cases h with
    ⟨-, -, e, herr⟩ | ⟨existing, -, hfound, -, -⟩ | ⟨v, sub, -, hid, hamount, hvisit, hchosen, rfl⟩
  · rw [herr] at hok
    cases hok
  · rw [hfresh] at hfound
    cases hfound
  cases hok
  obtain ⟨xs, hids, hxs, -, hvisited, ⟨x, hx, hreset⟩, hrow, henough⟩ := visit_spec hdb hvisit hchosen
  have hxid : x.id = sub.id := by rw [hreset, resetRow_id]
  have hsub : db.sub? x.id = some x := sub?_of_mem hdb (hxs x hx).1
  have hused : sub.amountUsed = usedAtCharge db v.events sub.id := by
    rw [hvisited, ← hxid, ← resetRow_usedAtCharge hids hx (by rw [usedOf, hsub]; rfl), ← hreset]
  refine ⟨hid, rfl, hamount, ?_, x, { sub with amountUsed := sub.amountUsed + amount }, ?_, ?_, ?_, henough⟩
  · let record : PreConsumeRecord := ⟨requestId, userId, sub.id, amount, .consumed⟩
    have hnone : findRow PreConsumeRecord.requestId record.requestId db.records = none := hfresh
    exact findRow_append_one hnone
  · show db.sub? sub.id = some x
    rw [← hxid]
    exact hsub
  · exact sub?_saveSub hrow rfl
  · show sub.amountUsed + amount = usedAtCharge db v.events sub.id + amount
    rw [hused]

end TokenEra.Subscription

namespace TokenEra.Billing

open Lib Subscription

/-! ### The operations -/

variable {fault : Option String} {quota id delta : Int} {st st' : Store} {take : Bool} {text : String}

@[simp] theorem changeUserQuota_eq_ok :
    changeUserQuota take fault quota st = .ok st' ↔ 0 ≤ quota ∧ fault = none ∧
      st' = { st with userQuota := if take then st.userQuota - quota else st.userQuota + quota } := by
  unfold changeUserQuota
  by_cases hneg : quota < 0
  · rw [if_pos hneg]
    simp
    omega
  · rw [if_neg hneg]
    cases fault with
    | none => simp [not_lt.1 hneg, eq_comm]
    | some text => simp

theorem changeUserQuota_fault
    (hquota : 0 ≤ quota) (h : changeUserQuota take fault quota st = .error text) :
    fault ≠ none := by
  rintro rfl
  rw [changeUserQuota_eq_ok.2 ⟨hquota, rfl, rfl⟩] at h
  cases h

@[simp] theorem changeTokenQuota_eq_ok :
    changeTokenQuota take fault quota st = .ok st' ↔ 0 ≤ quota ∧ fault = none ∧
      st' = { st with tokenQuota := if take then st.tokenQuota - quota else st.tokenQuota + quota } := by
  unfold changeTokenQuota
  by_cases hneg : quota < 0
  · rw [if_pos hneg]
    simp
    omega
  · rw [if_neg hneg]
    cases fault with
    | none => simp [not_lt.1 hneg, eq_comm]
    | some text => simp

theorem changeTokenQuota_fault
    (hquota : 0 ≤ quota) (h : changeTokenQuota take fault quota st = .error text) :
    fault ≠ none := by
  rintro rfl
  rw [changeTokenQuota_eq_ok.2 ⟨hquota, rfl, rfl⟩] at h
  cases h

theorem preConsumeTokenQuota_eq_ok {env : Settings} {isPlayground : Bool} {reply : Reply}
    (hquota : 0 < quota) (h : preConsumeTokenQuota env isPlayground reply quota st = .ok st') :
    st' = { st with tokenQuota := st.tokenQuota - if isPlayground then 0 else quota } := by
  unfold preConsumeTokenQuota at h
  rw [if_neg (by omega)] at h
  cases isPlayground with
  | true =>
    simp only [true_or, if_true, Except.ok.injEq] at h
    simp [← h]
  | false =>
    rw [if_neg (by simp; omega)] at h
    cases reply with
    | reserved =>
      cases h
      rfl
    | refused remaining => cases h
    | failed text => cases h

def RowOk (db : Db) (id : Int) : Prop :=
  0 < id ∧ ∃ sub, db.sub? id = some sub ∧ (0 < sub.amountTotal → sub.amountUsed ≤ sub.amountTotal)

theorem usedOf_of_sub? {db : Db} {sub : UserSubscription} (h : db.sub? id = some sub) :
    usedOf db id = sub.amountUsed := by
  rw [usedOf, h]
  rfl

theorem postConsumeDelta_eq_ok (hrow : RowOk st.db id) (hused : 0 ≤ usedOf st.db id)
    (h : postConsumeDelta fault id delta st = .ok st') :
    st'.userQuota = st.userQuota ∧ st'.tokenQuota = st.tokenQuota ∧ RowOk st'.db id ∧
      (∀ r, st'.db.record? r = st.db.record? r) ∧ usedOf st'.db id = max 0 (usedOf st.db id + delta) := by
  unfold postConsumeDelta at h
  rcases postConsume_cases fault id delta st.db with
    ⟨-, -, e, herr⟩ | ⟨rfl, heq⟩ | ⟨sub, sub', -, hsub, happly, heq⟩
  · simp only [herr] at h
    cases h
  · simp only [heq] at h
    cases h
    exact ⟨rfl, rfl, hrow, fun _ => rfl, by simp only; omega⟩
  · simp only [heq] at h
    cases h
    obtain ⟨hsub', hbound⟩ := applyDelta_ok happly
    obtain ⟨-, rfl⟩ := sub?_mem hsub
    have hid : sub'.id = sub.id := by rw [hsub']
    have hrow' := sub?_saveSub hsub hid
    refine ⟨rfl, rfl, ⟨hrow.1, sub', hrow', fun hpos => ?_⟩, fun _ => rfl, ?_⟩
    · rw [hsub'] at hpos hbound ⊢
      exact hbound hpos
    · rw [usedOf_of_sub? hrow', usedOf_of_sub? hsub, hsub']

theorem postConsume_credit {db : Db} (hrow : RowOk db id) (hdelta : delta ≤ 0) :
    (postConsumeUserSubscriptionDelta none id delta db).result = .ok () := by
  obtain ⟨hid, sub, hsub, hbound⟩ := hrow
  unfold postConsumeUserSubscriptionDelta
  rw [if_neg (by omega)]
  split_ifs
  · rfl
  · obtain ⟨sub', happly⟩ : ∃ sub', applyDelta sub delta = .ok sub' :=
      applyDelta_fits fun hpos => by linarith [hbound hpos]
    simp only [hsub, happly, transaction]

theorem postConsumeDelta_fault
    (hrow : RowOk st.db id) (hdelta : delta ≤ 0) (h : postConsumeDelta fault id delta st = .error text) :
    fault ≠ none := by
  rintro rfl
  rw [postConsumeDelta, postConsume_credit hrow hdelta] at h
  cases h

/-! ### Refunds of a subscription -/

section Refund

variable {requestId : String} {db : Db} {r : PreConsumeRecord}

def Released (db db' : Db) (r : PreConsumeRecord) : Prop :=
  ∃ fault inner, postConsumeUserSubscriptionDelta fault r.userSubscriptionId (-r.preConsumed) db =
      ⟨inner, .ok (), []⟩ ∧
    db' = inner.saveRecord { r with status := .refunded }

/-- An attempt that is not half-committed does nothing or everything. -/
theorem refund_whole (faults : RefundFaults) (hr : db.record? requestId = some r)
    (hstatus : r.status = .consumed) (ha : 0 < r.preConsumed)
    (hwhole : halfCommits faults requestId db = false) :
    ((refundSubscriptionPreConsume faults requestId db).db = db ∧
      ∃ e, (refundSubscriptionPreConsume faults requestId db).result = .error e) ∨
    ((refundSubscriptionPreConsume faults requestId db).result = .ok () ∧
      Released db (refundSubscriptionPreConsume faults requestId db).db r) := by
  rcases refund_cases faults requestId db with ⟨-, hdb, -, herr⟩ | ⟨r', hr', -, hcase⟩
  · exact Or.inl ⟨hdb, herr r hr hstatus⟩
  obtain rfl : r = r' := Option.some.inj (hr.symm.trans hr')
  rcases hcase with ⟨hzero, -, -⟩ | ⟨-, inner, hinner, ⟨hhalf, -⟩ | ⟨-, heq⟩⟩
  · omega
  · rw [hwhole] at hhalf
    cases hhalf
  · rw [heq]
    exact Or.inr ⟨rfl, faults.inner, inner, hinner, rfl⟩

theorem retryLoop_whole {faults : Nat → RefundFaults} (hr : db.record? requestId = some r)
    (hstatus : r.status = .consumed) (ha : 0 < r.preConsumed)
    (hwhole : ∀ i, halfCommits (faults i) requestId db = false) (left i : Nat)
    (lastErr : Except Error Unit) :
    (retryLoop (fun i => refundSubscriptionPreConsume (faults i) requestId) left i lastErr db).db = db ∨
    Released db
      (retryLoop (fun i => refundSubscriptionPreConsume (faults i) requestId) left i lastErr db).db r := by
  induction left generalizing i lastErr with
  | zero => exact Or.inl rfl
  | succ left ih =>
    rw [retryLoop]
    rcases refund_whole (faults i) hr hstatus ha (hwhole i) with ⟨hdb, e, herr⟩ | ⟨hok, hreleased⟩
    · simp only [herr, hdb]
      exact ih (i + 1) (.error e)
    · simp only [hok]
      exact Or.inr hreleased

theorem refundWithRetry_faultless (hid : trimSpace requestId ≠ "")
    (hr : db.record? requestId = some r) (hstatus : r.status = .consumed) (ha : 0 < r.preConsumed)
    (hrow : RowOk db r.userSubscriptionId) :
    Released db (refundWithRetry (fun _ => refundSubscriptionPreConsume {} requestId) db).db r := by
  have hwhole : halfCommits {} requestId db = false := by simp [halfCommits, RefundFaults.late]
  rw [refundWithRetry, retryLoop]
  rcases refund_whole {} hr hstatus ha hwhole with ⟨-, e, herr⟩ | ⟨hok, hreleased⟩
  · exfalso
    have hnot : r.status ≠ .refunded := by simp [hstatus]
    have hcredit := postConsume_credit hrow (by omega : -r.preConsumed ≤ 0)
    simp only [refundSubscriptionPreConsume, if_neg hid, hr, if_neg hnot, if_neg (not_le.mpr ha)] at herr
    simp [hcredit, transaction, RefundFaults.late] at herr
  · simp only [hok]
    exact hreleased

theorem Released.spec {db' : Db} (h : Released db db' r) (hrow : RowOk db r.userSubscriptionId)
    (hpos : 0 < r.preConsumed) (hcovered : r.preConsumed ≤ usedOf db r.userSubscriptionId) :
    RowOk db' r.userSubscriptionId ∧
      usedOf db' r.userSubscriptionId = usedOf db r.userSubscriptionId - r.preConsumed := by
  obtain ⟨fault, inner, heq, rfl⟩ := h
  have hok : postConsumeDelta fault r.userSubscriptionId (-r.preConsumed) ⟨0, 0, db⟩ =
      .ok ⟨0, 0, inner⟩ := by
    simp only [postConsumeDelta, heq]
  obtain ⟨-, -, hrow', -, hused⟩ := postConsumeDelta_eq_ok hrow (by simp only; omega) hok
  refine ⟨hrow', ?_⟩
  rw [usedOf_saveRecord]
  simp only at hused
  omega

end Refund

end TokenEra.Billing
