import TokenEra.Task.Invariant

/-!
# Billing of asynchronous tasks

A task is refunded or settled at most once, by the visit whose status swap finished it, as long as
no pass dispatches two tasks of a platform under one upstream id. With two such tasks a pass visits
one object twice. At the second visit the object already has the terminal status that the first one
gave it, no status is left to swap, and the billing goes ahead although the first visit had lost its
swap.

The tasks that a pass fails by a bulk update (they have no upstream id, or their channel cannot be
read) are not refunded; every other task that a pass fails is.
-/

namespace TokenEra.TaskPolling

open Lib

variable {n : Nat} {cfg : Config} {rows₀ : Nat → Task}

/-! ### At most once -/

/-- Every row is billed at most once, by the visit that moved it to its terminal status and for its
own quota. -/
def BilledOnce (rows₀ : Nat → Task) (s : State n) : Prop :=
  ∀ r, (s.ledger.filter fun e => e.row = r).length ≤ 1 ∧
    ∀ e ∈ s.ledger, e.row = r →
      (r, e.caller) ∈ s.moved ∧ (∀ m ∈ s.moved, m.1 = r → m.2 = e.caller) ∧ e.quota = (rows₀ r).quota

variable {s t : State n} {c : Slot n} {k r : Nat}

theorem inv_of_run {l : List (Act n)} (hrun : run (step cfg) (init n rows₀) l = some s)
    (hd : Along (step cfg) DistinctUpstream (init n rows₀) l) : Inv rows₀ s :=
  run_inv_along (fun _ _ _ h hd hstep => h.step hd hstep) (inv_init n rows₀) hd hrun

theorem Books.length_filter_le_one {rows : Nat → Task} {moved : List (Nat × Caller n)} {ledger : List (Entry n)}
    (h : Books rows₀ rows moved ledger) (r : Nat) : (ledger.filter fun e => e.row = r).length ≤ 1 := by
  have hpair := h.billed_once.filter fun e => decide (e.row = r)
  have hrow : ∀ e ∈ ledger.filter fun e => e.row = r, e.row = r := fun e he => by
    simpa using (List.mem_filter.1 he).2
  generalize ledger.filter (fun e => e.row = r) = l at hpair hrow ⊢
  rcases l with _ | ⟨e, _ | ⟨e', _⟩⟩
  · exact Nat.zero_le 1
  · exact Nat.le_refl 1
  · refine absurd ?_ ((List.pairwise_cons.1 hpair).1 e' List.mem_cons_self)
    rw [hrow e List.mem_cons_self, hrow e' (List.mem_cons_of_mem _ List.mem_cons_self)]

/-- Whatever the upstreams answer and however any number of passes interleave, if no pass dispatches
two tasks of a platform under one upstream id then every task is billed at most once. -/
theorem task_billed_at_most_once (cfg : Config) (rows₀ : Nat → Task) (l : List (Act n)) (s : State n)
    (hrun : run (step cfg) (init n rows₀) l = some s)
    (hd : Along (step cfg) DistinctUpstream (init n rows₀) l) : BilledOnce rows₀ s := by
  have hbooks := (inv_of_run hrun hd).books
  refine fun r => ⟨hbooks.length_filter_le_one r, fun e he hr => ?_⟩
  subst hr
  refine ⟨hbooks.billed_by e he, fun m hm heq => ?_, (hbooks.billed_own e he).1⟩
  exact congrArg Prod.snd (hbooks.moved_once m hm _ (hbooks.billed_by e he) heq)

def queuedTask : Task where
  taskID := "task"
  upstreamTaskID := "up"
  platform := "kling"
  userId := 1
  channelId := 7
  submitTime := 1800000000
  billingSource := "wallet"
  subscriptionId := 0
  perCallBilling := false
  quota := 10
  status := .queued
  failReason := ""
  startTime := 0
  finishTime := 0
  progress := "20%"
  resultURL := ""
  data := ""

def failedAnswer : Answer := .parsed (failTaskInfo "rejected") "body" .undecodable

/-- The steps by which a pass reaches the loop over channel `7` with the rows listed. -/
def reachChannel (p : Fin n) (ids : List Nat) : List (Act n) :=
  [.sweep p 0 [], .list p ids, .platform p "kling" false, .channel p 7 .found false]

def refundingVisit (p : Fin n) : List (Act n) :=
  [.visit p 7 1800000100 failedAnswer, .update (p, some 7) false, .bill (p, some 7) 0 none true,
    .writeQuota (p, some 7) false]

theorem task_billed_at_most_once_refund :
    ∃ s, run (step ⟨"", 60, true⟩) (init 1 fun _ => queuedTask) (reachChannel 0 [2] ++ refundingVisit 0) = some s ∧
      s.ledger.length = 1 ∧ BilledOnce (fun _ => queuedTask) s := by
  have hread : (run (step ⟨"", 60, true⟩) (init 1 fun _ => queuedTask)
      (reachChannel 0 [2] ++ refundingVisit 0)).map (fun s => s.ledger.length) = some 1 := by decide +kernel
  obtain ⟨s, hs, hl⟩ := Option.map_eq_some_iff.1 hread
  exact ⟨s, hs, hl, task_billed_at_most_once _ _ _ s hs (by decide +kernel)⟩

/-- Rows `1` and `2` have one upstream id. The pass of node `p` lists both, so that it visits the
object of row `2` twice; node `q` fails and refunds the task first. Node `p` loses its swap at the
first visit and refunds again at the second. -/
def secondVisit (p q : Fin n) : List (Act n) :=
  reachChannel p [1, 2] ++ reachChannel q [2] ++ refundingVisit q ++
    [.visit p 7 1800000100 failedAnswer, .update (p, some 7) false, .visit p 7 1800000101 failedAnswer,
      .bill (p, some 7) 0 none true]

theorem task_billed_twice :
    ¬ ∀ (cfg : Config) (rows₀ : Nat → Task) (l : List (Act 2)) (s : State 2),
      run (step cfg) (init 2 rows₀) l = some s → BilledOnce rows₀ s := by
  intro h
  have hread : (run (step ⟨"", 60, true⟩) (init 2 fun _ => queuedTask) (secondVisit 0 1)).map
      (fun s => (s.ledger.filter fun e => e.row = 2).length) = some 2 := by decide +kernel
  obtain ⟨s, hs, hl⟩ := Option.map_eq_some_iff.1 hread
  have := (h _ _ _ s hs 2).1
  omega

/-! ### Failed tasks are refunded -/

def State.returned (s : State n) (r : Nat) (source : Funding) : Int :=
  ((s.ledger.filter fun e => e.row = r ∧ e.kind = .refund ∧ e.funding = source).map (·.quota)).sum

/-- Every task that is not a legacy task and that the passes have failed has its quota back. -/
def NoneLeftCharged (rows₀ : Nat → Task) (s : State n) : Prop :=
  ∀ r, (s.rows r).status = .failure → (rows₀ r).status ≠ .failure →
    ¬ (rows₀ r).submitTime < taskRefundLegacyCutoff → s.returned r (rows₀ r).funding = (rows₀ r).quota

def Funded (_ : State n) : Act n → Prop
  | .bill _ _ _ ok => ok = true
  | _ => True

/-- The step fails no task by a bulk update: every task of the platform has an upstream id, and the
channel can be read. -/
def NoBulkFailure (s : State n) : Act n → Prop
  | .platform p name _ =>
    ∀ r ∈ (s.stage p).listed.filter fun r => (s.mem p r).platform = name, (s.mem p r).getUpstreamTaskID ≠ ""
  | .channel _ _ lookup _ => lookup ≠ .missing
  | _ => True

instance (s : State n) (a : Act n) : Decidable (Funded s a) :=
  match a with
  | .bill .. => inferInstanceAs (Decidable (_ = true))
  | .platform .. | .sweep .. | .sweepNext .. | .list .. | .channel .. | .visit .. | .leave .. | .join ..
  | .finish .. | .update .. | .writeQuota .. => .isTrue trivial

instance (s : State n) (a : Act n) : Decidable (NoBulkFailure s a) :=
  match a with
  | .platform .. => List.decidableBAll _ _
  | .channel .. => inferInstanceAs (Decidable (_ ≠ _))
  | .sweep .. | .sweepNext .. | .list .. | .visit .. | .leave .. | .join .. | .finish .. | .update ..
  | .bill .. | .writeQuota .. => .isTrue trivial

/-- A failed task that was charged and is not a legacy task is refunded, or the visit that failed it
is about to. -/
def Owed (rows₀ : Nat → Task) (s : State n) : Prop :=
  ∀ r, (s.rows r).status = .failure → (rows₀ r).status ≠ .failure → ¬ (rows₀ r).isLegacy → (rows₀ r).quota ≠ 0 →
    (∃ e ∈ s.ledger, e.row = r ∧ e.kind = .refund) ∨ ∃ c k, s.visit c = .bill k r .refund

theorem Owed.keep (h : Owed rows₀ s)
    (hrows : ∀ r, (t.rows r).status = .failure → (s.rows r).status = .failure)
    (hledger : ∀ e ∈ s.ledger, e ∈ t.ledger)
    (hvisit : ∀ c k r, s.visit c = .bill k r .refund → (rows₀ r).quota ≠ 0 →
      t.visit c = .bill k r .refund ∨ ∃ e ∈ t.ledger, e.row = r ∧ e.kind = .refund) : Owed rows₀ t := by
  intro r hr hr₀ hlegacy hquota
  rcases h r (hrows r hr) hr₀ hlegacy hquota with ⟨e, he, her⟩ | ⟨c, k, hc⟩
  · exact .inl ⟨e, hledger e he, her⟩
  · rcases hvisit c k r hc hquota with hc | he
    · exact .inr ⟨c, k, hc⟩
    · exact .inl he

theorem Owed.setVisit (h : Owed rows₀ s) {v : Visit}
    (hc : ∀ k r, s.visit c ≠ .bill k r .refund) (hvisit : t.visit = Function.update s.visit c v)
    (hrows : ∀ r, (t.rows r).status = .failure → (s.rows r).status = .failure)
    (hledger : ∀ e ∈ s.ledger, e ∈ t.ledger) : Owed rows₀ t := by
  refine h.keep hrows hledger fun c' k r hc' _ => .inl ?_
  rw [hvisit, Function.update_of_ne, hc']
  rintro rfl
  exact hc k r hc'

/-- A row that a won swap has failed is owed its refund by the visit. -/
theorem Owed.swapped (h : Owed rows₀ s) (hinv : Inv rows₀ s)
    {fromStatus : TaskStatus} {guarded : Bool} {b : Bill} (hv : s.visit c = .update k r fromStatus guarded b) :
    Owed rows₀ (s.swapped c k r b) := by
  have hother : ∀ c' k' r', s.visit c' = .bill k' r' .refund →
      Function.update s.visit c (.ofBill k r b) c' = .bill k' r' .refund := by
    intro c' k' r' hc'
    rw [Function.update_of_ne, hc']
    rintro rfl
    rw [hv] at hc'
    cases hc'
  intro r' hr' hr₀ hlegacy hquota
  by_cases heq : r' = r
  · subst heq
    have hmem : (s.mem c.1 r').status = .failure := by simpa [State.swapped] using hr'
    have hok := hinv.visit c
    rw [hv] at hok
    cases guarded with
    | false =>
      have := hok.2.1.open_
      rw [hmem] at this
      cases this
    | true =>
      obtain rfl := hok.2.2.2.2 hmem hlegacy hquota
      exact .inr ⟨c, k, Function.update_self _ _ _⟩
  · have hr' : (s.rows r').status = .failure := by simpa [State.swapped, heq] using hr'
    rcases h r' hr' hr₀ hlegacy hquota with he | ⟨c', k', hc'⟩
    · exact .inl he
    · exact .inr ⟨c', k', hother c' k' r' hc'⟩

theorem Owed.refundTaskQuota (h : Owed rows₀ s) (hinv : Inv rows₀ s)
    (hv : s.visit c = .bill k r .refund) : Owed rows₀ (refundTaskQuota s c k r true) := by
  have hok := hinv.visit c
  rw [hv] at hok
  unfold TaskPolling.refundTaskQuota
  dsimp only
  split_ifs with hzero
  · refine h.keep (fun _ hr => hr) (fun _ he => he) fun c' k' r' hc' hq => ?_
    by_cases hc : c' = c
    · subst hc
      rw [hv] at hc'
      cases hc'
      simp [hok.2.2.2, hq] at hzero
    · exact .inl (by rw [← hc']; exact Function.update_of_ne hc _ _)
  · refine h.keep (fun _ hr => hr) (fun _ he => List.mem_append_left _ he) fun c' k' r' hc' _ => ?_
    by_cases hc : c' = c
    · subst hc
      rw [hv] at hc'
      cases hc'
      exact .inr ⟨_, List.mem_append_right _ List.mem_cons_self, rfl, rfl⟩
    · exact .inl (by rw [← hc']; exact Function.update_of_ne hc _ _)

theorem Owed.settleTaskBillingOnComplete (h : Owed rows₀ s)
    {totalTokens : Int} (hv : s.visit c = .bill k r (.settle totalTokens)) (adjust : Int)
    (byTokens : Option Int) (ok : Bool) :
    Owed rows₀ (settleTaskBillingOnComplete s c k r totalTokens adjust byTokens ok) := by
  have hc : ∀ k r, s.visit c ≠ .bill k r .refund := by simp [hv]
  rcases settleTaskBillingOnComplete_cases s c k r totalTokens adjust byTokens ok with heq | ⟨kind, v, -, heq⟩
  · rw [heq]
    exact h.setVisit hc rfl (fun _ hr => hr) fun _ he => he
  · rw [heq]
    exact h.setVisit hc rfl (fun _ hr => hr) fun _ he => List.mem_append_left _ he

theorem Owed.step {a : Act n} (h : Owed rows₀ s) (hinv : Inv rows₀ s) (hb : NoBulkFailure s a)
    (hf : Funded s a) (hstep : step cfg s a = some t) : Owed rows₀ t := by
  cases step_cases hstep with
  | sweep | list | channel | leave | join | finish => exact h
  | sweepNext hst hidle => exact h.setVisit (by simp [hidle]) rfl (fun _ hr => hr) fun _ he => he
  | @platform p name fault rest hst =>
    have hnone : (rest.filter fun r => (s.mem p r).platform = name).filter
        (fun r => (s.mem p r).getUpstreamTaskID = "") = [] := by
      simp only [NoBulkFailure, hst, Stage.listed] at hb
      rw [List.filter_eq_nil_iff]
      intro r hr
      simpa using hb r hr
    refine h.keep (fun r hr => ?_) (fun _ he => he) fun _ _ _ hc _ => .inl hc
    cases fault <;> simpa [State.dispatch, hnone, taskBulkUpdateByID] using hr
  | missing => exact absurd rfl hb
  | visit hst hidle hw => exact h.setVisit (by simp [hidle]) rfl (fun _ hr => hr) fun _ he => he
  | @update c fault k r fromStatus guarded b hv =>
    rcases updateWithStatus_cases cfg s c k r fromStatus guarded b fault with heq | ⟨rfl, heq⟩ <;> rw [heq]
    · exact h.setVisit (by simp [hv]) rfl (fun _ hr => hr) fun _ he => he
    · exact h.swapped hinv hv
  | refund hv =>
    obtain rfl := hf
    exact h.refundTaskQuota hinv hv
  | settle hv => exact h.settleTaskBillingOnComplete hv _ _ _
  | @writeQuota c fault k r quota hv =>
    refine h.setVisit (by simp [hv]) rfl (fun r' hr' => ?_) fun _ he => he
    by_cases heq : r' = r
    · subst heq
      cases fault <;> simpa [updateQuota] using hr'
    · cases fault <;> simpa [updateQuota, heq] using hr'

/-- The refund of a task that is in the ledger once is what the task has back. -/
theorem Inv.returned_eq (h : Inv rows₀ s) {e : Entry n} (he : e ∈ s.ledger) (hk : e.kind = .refund) :
    s.returned e.row (rows₀ e.row).funding = (rows₀ e.row).quota := by
  have hown := h.books.billed_own e he
  have hmem : e ∈ s.ledger.filter fun e' => e'.row = e.row ∧ e'.kind = .refund ∧
      e'.funding = (rows₀ e.row).funding := List.mem_filter.2 ⟨he, by simp [hk, hown.2]⟩
  have hone : (s.ledger.filter fun e' => e'.row = e.row ∧ e'.kind = .refund ∧
      e'.funding = (rows₀ e.row).funding).length ≤ 1 := by
    refine le_trans (List.Sublist.length_le ?_) (h.books.length_filter_le_one e.row)
    exact List.monotone_filter_right _ fun e' he' => by
      simp only [decide_eq_true_eq] at he' ⊢
      exact he'.1
  unfold State.returned
  generalize s.ledger.filter (fun e' => e'.row = e.row ∧ e'.kind = .refund ∧
      e'.funding = (rows₀ e.row).funding) = l at hmem hone
  rcases l with _ | ⟨e', _ | ⟨_, _⟩⟩
  · cases hmem
  · rw [← List.mem_singleton.1 hmem]
    simpa using hown.1
  · simp at hone

theorem Inv.returned_eq_zero (h : Inv rows₀ s) (hq : (rows₀ r).quota = 0)
    (source : Funding) : s.returned r source = 0 := by
  refine List.sum_eq_zero fun x hx => ?_
  obtain ⟨e, he, rfl⟩ := List.mem_map.1 hx
  obtain ⟨he, hr⟩ := List.mem_filter.1 he
  have hr : e.row = r := (of_decide_eq_true hr).1
  rw [(h.books.billed_own e he).1, hr, hq]

/-- However any number of passes interleave, with all funding adjustments succeeding, when they are
over every task they have failed has its quota back, if no step failed tasks by a bulk update and no
pass dispatched two tasks of a platform under one upstream id. -/
theorem failed_task_refunded (cfg : Config) (rows₀ : Nat → Task) (l : List (Act n)) (s : State n)
    (hrun : run (step cfg) (init n rows₀) l = some s)
    (hfunded : Along (step cfg) Funded (init n rows₀) l)
    (hbulk : Along (step cfg) NoBulkFailure (init n rows₀) l)
    (hd : Along (step cfg) DistinctUpstream (init n rows₀) l)
    (hidle : ∀ p, s.stage p = .idle) : NoneLeftCharged rows₀ s := by
  have hinv := inv_of_run hrun hd
  have howed : Inv rows₀ s ∧ Owed rows₀ s := by
    refine run_inv_along (C := fun s a => (Funded s a ∧ NoBulkFailure s a) ∧ DistinctUpstream s a)
      (I := fun s => Inv rows₀ s ∧ Owed rows₀ s) (fun s a t h hc hstep => ?_) ⟨inv_init n rows₀, ?_⟩
      ((hfunded.and hbulk).and hd) hrun
    · exact ⟨h.1.step hc.2 hstep, h.2.step h.1 hc.1.2 hc.1.1 hstep⟩
    · exact fun r hr hr₀ => absurd hr hr₀
  intro r hr hr₀ hnew
  by_cases hq : (rows₀ r).quota = 0
  · rw [hinv.returned_eq_zero hq, hq]
  · have hlegacy : ¬ (rows₀ r).isLegacy := by
      simp only [TaskFacts.isLegacy, Bool.and_eq_true, decide_eq_true_eq, not_and]
      exact fun _ => hnew
    rcases howed.2 r hr hr₀ hlegacy hq with ⟨e, he, rfl, hk⟩ | ⟨c, k, hc⟩
    · exact hinv.returned_eq he hk
    · -- No visit is under way when every pass is over.
      have hnone := (hinv.pass c.1).idle_of_stage c.2 fun r' => by rw [hidle c.1]; exact id
      rw [hc] at hnone
      cases hnone

theorem eq_idle {stage : Stage} (h : (stage matches .idle) = true) : stage = .idle := by
  split at h
  · rfl
  · cases h

theorem failed_task_refunded_pass :
    ∃ s, run (step ⟨"", 60, true⟩) (init 1 fun _ => queuedTask)
        (reachChannel 0 [2] ++ refundingVisit 0 ++ [.leave 0 7, .join 0, .finish 0]) = some s ∧
      (s.rows 2).status = .failure ∧ s.returned 2 (.wallet 1) = 10 := by
  have hread : (run (step ⟨"", 60, true⟩) (init 1 fun _ => queuedTask)
      (reachChannel 0 [2] ++ refundingVisit 0 ++ ([.leave 0 7, .join 0, .finish 0] : List (Act 1)))).map
        (fun s => (s.stage 0 matches .idle, (s.rows 2).status)) = some (true, .failure) := by decide +kernel
  obtain ⟨s, hs, hst⟩ := Option.map_eq_some_iff.1 hread
  obtain ⟨hidle, hst⟩ := Prod.mk.inj hst
  refine ⟨s, hs, hst, failed_task_refunded _ _ _ s hs (by decide +kernel) (by decide +kernel)
    (by decide +kernel) ?_ 2 hst (by decide) (by decide)⟩
  intro p
  rw [Subsingleton.elim p 0]
  exact eq_idle hidle

/-- A pass over a task that has no upstream id. -/
theorem null_task_left_charged :
    ¬ ∀ (cfg : Config) (rows₀ : Nat → Task) (l : List (Act 1)) (s : State 1),
      run (step cfg) (init 1 rows₀) l = some s → Along (step cfg) Funded (init 1 rows₀) l →
        (∀ p, s.stage p = .idle) → NoneLeftCharged rows₀ s := by
  intro h
  have hread : (run (step ⟨"", 60, true⟩) (init 1 fun _ => { queuedTask with taskID := "", upstreamTaskID := "" })
      ([.sweep 0 0 [], .list 0 [2], .platform 0 "kling" false, .join 0, .finish 0] : List (Act 1))).map
        (fun s => (s.stage 0 matches .idle, (s.rows 2).status, s.returned 2 (.wallet 1))) =
      some (true, .failure, 0) := by decide +kernel
  obtain ⟨s, hs, hst⟩ := Option.map_eq_some_iff.1 hread
  obtain ⟨hidle, hst⟩ := Prod.mk.inj hst
  obtain ⟨hst, hback⟩ := Prod.mk.inj hst
  have hidle : ∀ p, s.stage p = .idle := fun p => by rw [Subsingleton.elim p 0]; exact eq_idle hidle
  have := h _ _ _ s hs (by decide +kernel) hidle 2 hst (by decide) (by decide)
  rw [show TaskFacts.funding _ = .wallet 1 from rfl, hback] at this
  cases this

end TokenEra.TaskPolling
