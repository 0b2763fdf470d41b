import TokenEra.Task.Polling

/-!
# The invariant of the polling passes

The invariant of passes that never list two tasks of a platform under one upstream id. It has three
parts. `Books` is about the rows: a row that is not terminal still has the quota it was charged, a
row is moved to a terminal status once, and what is billed is billed by the visit that moved the
row. `VisitOk` says what a visit that is under way knows of its object, and `PassOk` that the
objects a pass has still to visit are as they were listed and are not those that it is visiting.
-/

namespace TokenEra.TaskPolling

open Lib

variable {n : Nat} {cfg : Config} {rows₀ : Nat → Task}

/-! ### What a visit does to its object -/

structure Fresh (t₀ t : Task) : Prop where
  facts : t.toTaskFacts = t₀.toTaskFacts
  quota : t.quota = t₀.quota
  open_ : t.status.isTerminal = false

/-- What a plan for an object that was fresh promises, the object being `t` now. A billing is
planned only with the status swap it depends on, and a failure plans the refund. -/
def Plan.Ok (t₀ t : Task) : Plan → Prop
  | .stop => True
  | .update fromStatus true b =>
    fromStatus.isTerminal = false ∧ t.toTaskFacts = t₀.toTaskFacts ∧ t.status.isTerminal = true ∧
      (b ≠ .none → t.quota = t₀.quota) ∧
      (t.status = .failure → ¬ t₀.isLegacy → t₀.quota ≠ 0 → b = .refund)
  | .update fromStatus false b => fromStatus.isTerminal = false ∧ Fresh t₀ t ∧ b = .none
  | .bill b => b = .none

theorem timeOut_ok {t₀ t : Task} (h : Fresh t₀ t) (now : Int) :
    (timeOut cfg now t).2.Ok t₀ (timeOut cfg now t).1 := by
  refine ⟨h.open_, h.facts, rfl, fun hb => ?_, fun _ hlegacy hq => ?_⟩
  · have hnot : t.isLegacy = false := by
      by_contra hl
      simp [hl] at hb
    simp only [timeOut, hnot, Bool.false_eq_true, if_false]
    exact h.quota
  · have hnot : t.isLegacy = false := by
      rw [h.facts]
      simpa using hlegacy
    simp [hnot, h.quota, hq]

variable {b : Bill} {v : Visit} {mem : Nat → Task} {r k : Nat} {st : Stage} {c : Slot n} {ledger : List (Entry n)}
  {moved : List (Nat × Caller n)} {s t : State n} {p : Fin n} {rest : List Nat} {id : Int} {workers : Int → Worker}

/-- What the switch on the answered status does. -/
theorem applyStatus_ok {now : Int} {t t' : Task} {info : TaskInfo}
    (h : applyStatus cfg now t info = some (t', b)) :
    t'.toTaskFacts = t.toTaskFacts ∧ t'.quota = t.quota ∧ (t'.status.isTerminal = false → b = .none) ∧
      (t'.status = .failure → t.quota ≠ 0 → b = .refund) := by
  cases hst : info.status
  case notStart | unknown | other => simp [applyStatus, hst] at h
  all_goals
    simp only [applyStatus, hst] at h
    obtain ⟨rfl, rfl⟩ := Prod.mk.inj (Option.some.inj h)
    refine ⟨rfl, rfl, ?_, ?_⟩ <;> simp +contextual [TaskStatus.isTerminal]

theorem updateVideoSingleTask_ok {t₀ t : Task} (h : Fresh t₀ t) (now : Int) (answer : Answer) :
    (updateVideoSingleTask cfg now t answer).2.Ok t₀ (updateVideoSingleTask cfg now t answer).1 := by
  cases answer with
  | failed => trivial
  | parsed info data body =>
    simp only [updateVideoSingleTask]
    cases readStatus info body with
    | none => trivial
    | some info =>
      dsimp only
      cases happ : applyStatus cfg now { t with data := data } info with
      | none => trivial
      | some out =>
        obtain ⟨t', b⟩ := out
        obtain ⟨hfacts, hquota, hopen, hfail⟩ := applyStatus_ok happ
        have hfacts : t'.toTaskFacts = t₀.toTaskFacts := hfacts.trans h.facts
        have hquota : t'.quota = t₀.quota := hquota.trans h.quota
        dsimp only
        split_ifs with hdone hsnap
        · refine ⟨h.open_, hfacts, hdone.1, fun _ => hquota, fun hf _ hq => hfail hf ?_⟩
          exact fun hz => hq (h.quota ▸ hz)
        · have ht : t'.status.isTerminal = false := by
            by_contra hterm
            rw [Bool.not_eq_false] at hterm
            -- The object was not terminal, so a terminal answer differs from it.
            refine hdone ⟨hterm, fun heq => ?_⟩
            rw [← heq, h.open_] at hterm
            cases hterm
          exact ⟨h.open_, ⟨hfacts, hquota, ht⟩, hopen ht⟩
        · rw [not_not] at hsnap
          have hst : t'.status = t.status := (congrArg Snapshot.status hsnap).symm
          exact hopen (hst ▸ h.open_)

/-! ### The three parts -/

structure Books (rows₀ rows : Nat → Task) (moved : List (Nat × Caller n)) (ledger : List (Entry n)) : Prop where
  facts : ∀ r, (rows r).toTaskFacts = (rows₀ r).toTaskFacts
  quota : ∀ r, (rows r).status.isTerminal = false → (rows r).quota = (rows₀ r).quota
  moved_terminal : ∀ m ∈ moved, (rows m.1).status.isTerminal = true
  moved_once : ∀ m ∈ moved, ∀ m' ∈ moved, m.1 = m'.1 → m = m'
  billed_by : ∀ e ∈ ledger, (e.row, e.caller) ∈ moved
  billed_own : ∀ e ∈ ledger, e.quota = (rows₀ e.row).quota ∧ e.funding = (rows₀ e.row).funding
  billed_once : ledger.Pairwise fun e e' => e.row ≠ e'.row

def VisitOk (rows₀ mem : Nat → Task) (moved : List (Nat × Caller n)) (ledger : List (Entry n)) (c : Slot n) :
    Visit → Prop
  | .idle => True
  | .update _ r fromStatus guarded b => (Plan.update fromStatus guarded b).Ok (rows₀ r) (mem r)
  | .bill k r _ =>
    (r, ⟨c, k⟩) ∈ moved ∧ (∀ e ∈ ledger, e.row ≠ r) ∧ (mem r).toTaskFacts = (rows₀ r).toTaskFacts ∧
      (mem r).quota = (rows₀ r).quota
  | .writeQuota k r _ => (r, ⟨c, k⟩) ∈ moved

def Visit.row : Visit → Option Nat
  | .idle => none
  | .update _ r _ _ _ => some r
  | .bill _ r _ => some r
  | .writeQuota _ r _ => some r

def Stage.Pending (rows₀ : Nat → Task) : Stage → Nat → Prop
  | .idle, _ => False
  | .sweeping todo, r => r ∈ todo
  | .polling rest, r => r ∈ rest
  | .dispatched rest _ workers, r => r ∈ rest ∨ r ∈ (workers (rows₀ r).channelId).todo

def Stage.Wf (rows₀ : Nat → Task) : Stage → Prop
  | .idle => True
  | .sweeping todo => todo.Nodup
  | .polling rest => rest.Nodup
  | .dispatched rest channels workers =>
    rest.Nodup ∧ ∀ id, (workers id).todo.Nodup ∧
      ∀ r ∈ (workers id).todo, (rows₀ r).channelId = id ∧ id ∈ channels ∧ r ∉ rest

def Stage.Allows (rows₀ : Nat → Task) : Stage → Option Int → Nat → Prop
  | .sweeping _, none, _ => True
  | .dispatched _ channels _, some id, r => id ∈ channels ∧ (rows₀ r).channelId = id
  | _, _, _ => False

structure PassOk (rows₀ mem : Nat → Task) (st : Stage) (visit : Option Int → Visit) : Prop where
  wf : st.Wf rows₀
  fresh : ∀ r, st.Pending rows₀ r → Fresh (rows₀ r) (mem r)
  apart : ∀ slot r, (visit slot).row = some r → st.Allows rows₀ slot r ∧ ¬ st.Pending rows₀ r

structure Inv (rows₀ : Nat → Task) (s : State n) : Prop where
  books : Books rows₀ s.rows s.moved s.ledger
  visit : ∀ c, VisitOk rows₀ (s.mem c.1) s.moved s.ledger c (s.visit c)
  pass : ∀ p, PassOk rows₀ (s.mem p) (s.stage p) fun slot => s.visit (p, slot)

theorem inv_init (n : Nat) (rows₀ : Nat → Task) : Inv rows₀ (init n rows₀) := by
  refine ⟨⟨fun _ => rfl, fun _ _ => rfl, ?_, ?_, ?_, ?_, List.Pairwise.nil⟩, fun _ => trivial, fun _ => ?_⟩
  · simp [init]
  · simp [init]
  · simp [init]
  · simp [init]
  · exact ⟨trivial, fun _ h => h.elim, fun _ _ h => by simp [init, Visit.row] at h⟩

theorem Visit.eq_idle (h : v.row = none) : v = .idle := by
  cases v <;> first | rfl | cases h

theorem PassOk.slot_inj {visit : Option Int → Visit}
    (h : PassOk rows₀ mem st visit) {a b : Option Int} (ha : (visit a).row = some r)
    (hb : (visit b).row = some r) : a = b := by
  have ha := (h.apart a r ha).1
  have hb := (h.apart b r hb).1
  cases st with
  | idle | polling => cases ha
  | sweeping => cases a <;> cases b <;> first | rfl | exact False.elim ha | exact False.elim hb
  | dispatched rest channels workers =>
    cases a with
    | none => cases ha
    | some id =>
      cases b with
      | none => cases hb
      | some id' => rw [← ha.2, ← hb.2]

theorem PassOk.idle_of_stage {visit : Option Int → Visit}
    (h : PassOk rows₀ mem st visit) (slot : Option Int) (hst : ∀ r, ¬ st.Allows rows₀ slot r) :
    visit slot = .idle := by
  refine Visit.eq_idle ?_
  by_contra hne
  obtain ⟨r, hr⟩ := Option.ne_none_iff_exists'.1 hne
  exact hst r (h.apart slot r hr).1

/-! ### One step -/

/-- A visit keeps what it relies on while its object stays, nothing is unsaid of the moves, and its
row is not billed by another. -/
theorem VisitOk.mono {mem' : Nat → Task} {moved' : List (Nat × Caller n)}
    {ledger' : List (Entry n)} (h : VisitOk rows₀ mem moved ledger c v)
    (hmem : ∀ r, v.row = some r → mem' r = mem r) (hmoved : ∀ m ∈ moved, m ∈ moved')
    (hledger : ∀ r, v.row = some r → (∃ k, (r, ⟨c, k⟩) ∈ moved) → ∀ e ∈ ledger', e ∈ ledger ∨ e.row ≠ r) :
    VisitOk rows₀ mem' moved' ledger' c v := by
  cases v with
  | idle => trivial
  | update k r fromStatus guarded b =>
    have hr := hmem r rfl
    simp only [VisitOk] at h ⊢
    rw [hr]
    exact h
  | bill k r b =>
    obtain ⟨hin, hnone, hfacts, hquota⟩ := h
    refine ⟨hmoved _ hin, fun e he => ?_, ?_, ?_⟩
    · rcases hledger r rfl ⟨k, hin⟩ e he with h | h
      · exact hnone e h
      · exact h
    · rw [hmem r rfl, hfacts]
    · rw [hmem r rfl, hquota]
  | writeQuota k r q => exact hmoved _ h

theorem Books.bulk {rows rows' : Nat → Task} (h : Books rows₀ rows moved ledger)
    (hrows : ∀ r, rows' r = rows r ∨ ((rows' r).toTaskFacts = (rows r).toTaskFacts ∧
      (rows' r).status.isTerminal = true)) : Books rows₀ rows' moved ledger := by
  refine ⟨fun r => ?_, fun r ht => ?_, fun m hm => ?_, h.moved_once, h.billed_by, h.billed_own, h.billed_once⟩
  · rcases hrows r with heq | ⟨hfacts, -⟩
    · rw [heq, h.facts]
    · rw [hfacts, h.facts]
  · rcases hrows r with heq | ⟨-, hterm⟩
    · rw [heq] at ht ⊢
      exact h.quota r ht
    · rw [hterm] at ht
      cases ht
  · rcases hrows m.1 with heq | ⟨-, hterm⟩
    · rw [heq, h.moved_terminal m hm]
    · exact hterm

theorem Inv.advance (h : Inv rows₀ s)
    (hmem : t.mem = Function.update s.mem p mem) (hstage : t.stage = Function.update s.stage p st)
    (hvisit : t.visit = s.visit) (hmoved : t.moved = s.moved) (hledger : t.ledger = s.ledger)
    (hbooks : Books rows₀ t.rows s.moved s.ledger)
    (hsame : ∀ slot r, (s.visit (p, slot)).row = some r → mem r = s.mem p r)
    (hpass : PassOk rows₀ mem st fun slot => s.visit (p, slot)) : Inv rows₀ t := by
  refine ⟨by rwa [hmoved, hledger], fun c => ?_, fun q => ?_⟩
  · rw [hvisit, hmoved, hledger]
    refine (h.visit c).mono (fun r hr => ?_) (fun _ hm => hm) (fun _ _ _ _ he => .inl he)
    by_cases hc : c.1 = p
    · subst hc
      rw [hmem, Function.update_self]
      exact hsame c.2 r hr
    · rw [hmem, Function.update_of_ne hc]
  · rw [hmem, hstage, hvisit]
    by_cases hq : q = p
    · subst hq
      rw [Function.update_self, Function.update_self]
      exact hpass
    · rw [Function.update_of_ne hq, Function.update_of_ne hq]
      exact h.pass q

/-- A pass lists rows: its objects are the rows as they are now. -/
theorem Inv.load (h : Inv rows₀ s) (p : Fin n) {ids : List Nat}
    (hidle : ∀ slot, s.visit (p, slot) = .idle) (hopen : ∀ r ∈ ids, (s.rows r).Unfinished)
    (hwf : st.Wf rows₀) (hpending : ∀ r, st.Pending rows₀ r → r ∈ ids) :
    Inv rows₀ ((s.load p).setStage p st) := by
  have hrow : ∀ slot r, (s.visit (p, slot)).row ≠ some r := fun slot r hr => by
    rw [hidle slot] at hr
    cases hr
  refine h.advance rfl rfl rfl rfl rfl h.books (fun slot r hr => absurd hr (hrow slot r)) ⟨hwf, ?_, ?_⟩
  · intro r hr
    have hfin : (s.rows r).status.isTerminal = false := by
      obtain ⟨-, hf, hs⟩ := hopen r (hpending r hr)
      cases hst : (s.rows r).status <;> simp_all [TaskStatus.isTerminal]
    exact ⟨h.books.facts r, h.books.quota r hfin, hfin⟩
  · exact fun slot r hr => absurd hr (hrow slot r)

theorem Inv.setStage (h : Inv rows₀ s) (p : Fin n)
    (hmem : t.mem = s.mem) (hstage : t.stage = Function.update s.stage p st) (hvisit : t.visit = s.visit)
    (hmoved : t.moved = s.moved) (hledger : t.ledger = s.ledger) (hbooks : Books rows₀ t.rows s.moved s.ledger)
    (hwf : st.Wf rows₀) (hpending : ∀ r, st.Pending rows₀ r → (s.stage p).Pending rows₀ r)
    (hallows : ∀ slot r, (s.visit (p, slot)).row = some r → st.Allows rows₀ slot r) : Inv rows₀ t := by
  have hself : t.mem = Function.update s.mem p (s.mem p) := by rw [hmem, Function.update_eq_self]
  refine h.advance hself hstage hvisit hmoved hledger hbooks (fun _ _ _ => rfl) ?_
  · refine ⟨hwf, fun r hr => (h.pass p).fresh r (hpending r hr), fun slot r hr => ?_⟩
    exact ⟨hallows slot r hr, fun hp => ((h.pass p).apart slot r hr).2 (hpending r hp)⟩

/-- A slot starts to visit a row that was pending and is so no longer. -/
theorem Inv.beginVisit (h : Inv rows₀ s) {slot : Option Int}
    {after : Task × Plan} (hwas : (s.stage p).Pending rows₀ r)
    (hok : after.2.Ok (rows₀ r) after.1) (hwf : st.Wf rows₀)
    (hpending : ∀ r', st.Pending rows₀ r' → (s.stage p).Pending rows₀ r' ∧ r' ≠ r)
    (hallows : ∀ slot' r', (s.visit (p, slot')).row = some r' → st.Allows rows₀ slot' r')
    (hallowed : st.Allows rows₀ slot r) :
    Inv rows₀ (beginVisit (s.setStage p st) (p, slot) r after) := by
  -- No visit of the pass is of the row yet.
  have hother : ∀ slot' r', (s.visit (p, slot')).row = some r' → r' ≠ r := by
    intro slot' r' hr' heq
    subst heq
    exact ((h.pass p).apart slot' r' hr').2 hwas
  have hrow : ∀ r', (after.2.toVisit s.next r).row = some r' → r' = r := by
    intro r' hr'
    cases hplan : after.2 with
    | stop => rw [hplan] at hr'; cases hr'
    | update => rw [hplan] at hr'; exact (Option.some.inj hr').symm
    | bill b =>
      rw [hplan] at hok hr'
      cases hok
      cases hr'
  refine ⟨h.books, fun c => ?_, fun q => ?_⟩
  · change VisitOk rows₀ (Function.update s.mem p (Function.update (s.mem p) r after.1) c.1) s.moved s.ledger c
      (Function.update s.visit (p, slot) (after.2.toVisit s.next r) c)
    by_cases hc : c = (p, slot)
    · subst hc
      rw [Function.update_self, Function.update_self]
      cases hplan : after.2 with
      | stop => trivial
      | update fromStatus guarded b =>
        rw [hplan] at hok
        simp only [Plan.toVisit, VisitOk, Function.update_self]
        exact hok
      | bill b =>
        rw [hplan] at hok
        cases hok
        trivial
    · rw [Function.update_of_ne hc]
      refine (h.visit c).mono (fun r' hr' => ?_) (fun _ hm => hm) (fun _ _ _ _ he => .inl he)
      by_cases hp : c.1 = p
      · subst hp
        rw [Function.update_self, Function.update_of_ne (hother c.2 r' hr')]
      · rw [Function.update_of_ne hp]
  · change PassOk rows₀ (Function.update s.mem p (Function.update (s.mem p) r after.1) q)
      (Function.update s.stage p st q)
      fun slot' => Function.update s.visit (p, slot) (after.2.toVisit s.next r) (q, slot')
    by_cases hq : q = p
    · subst hq
      rw [Function.update_self, Function.update_self]
      refine ⟨hwf, fun r' hr' => ?_, fun slot' r' hr' => ?_⟩
      · obtain ⟨hp, hne⟩ := hpending r' hr'
        rw [Function.update_of_ne hne]
        exact (h.pass q).fresh r' hp
      · by_cases hs : slot' = slot
        · subst hs
          rw [Function.update_self] at hr'
          obtain rfl := hrow r' hr'
          exact ⟨hallowed, fun hp => (hpending r' hp).2 rfl⟩
        · rw [Function.update_of_ne (by simpa using hs)] at hr'
          exact ⟨hallows slot' r' hr', fun hp => ((h.pass q).apart slot' r' hr').2 (hpending r' hp).1⟩
    · have hne : ∀ slot', (q, slot') ≠ (p, slot) := fun _ heq => hq (congrArg Prod.fst heq)
      simp only [Function.update_of_ne hq, Function.update_of_ne (hne _)]
      exact h.pass q

/-- A visit goes on: it may change its object, and bill its row if it is the one that moved it. -/
theorem Inv.setVisit (h : Inv rows₀ s)
    (hr : (s.visit c).row = some r) (hmem : t.mem = Function.update s.mem c.1 mem)
    (hsame : ∀ r', r' ≠ r → mem r' = s.mem c.1 r') (hstage : t.stage = s.stage)
    (hvisit : t.visit = Function.update s.visit c v) (hrow : ∀ r', v.row = some r' → r' = r)
    (hbooks : Books rows₀ t.rows t.moved t.ledger) (hok : VisitOk rows₀ mem t.moved t.ledger c v)
    (hmoved : ∀ m ∈ s.moved, m ∈ t.moved)
    (hledger : ∀ e ∈ t.ledger, e ∈ s.ledger ∨ e.row = r ∧ ∃ k, (r, ⟨c, k⟩) ∈ s.moved) : Inv rows₀ t := by
  refine ⟨hbooks, fun c' => ?_, fun q => ?_⟩
  · rw [hvisit, hmem]
    by_cases hc : c' = c
    · subst hc
      rw [Function.update_self, Function.update_self]
      exact hok
    · rw [Function.update_of_ne hc]
      refine (h.visit c').mono (fun r' hr' => ?_) hmoved (fun r' _ hin e he => ?_)
      · by_cases hp : c'.1 = c.1
        · rw [hp, Function.update_self]
          refine hsame r' fun heq => hc (Prod.ext hp ?_)
          subst heq
          refine (h.pass c'.1).slot_inj hr' ?_
          rw [hp]
          exact hr
        · rw [Function.update_of_ne hp]
      · -- An entry for the row of another visit would be by a second visit that moved it.
        refine (hledger e he).imp_right fun ⟨her, k, hk⟩ heq => hc ?_
        obtain ⟨k', hk'⟩ := hin
        have hrr : r' = r := heq.symm.trans her
        subst hrr
        have := h.books.moved_once _ hk' _ hk rfl
        simp only [Prod.mk.injEq, Caller.mk.injEq, true_and] at this
        exact this.1
  · rw [hmem, hstage, hvisit]
    by_cases hq : q = c.1
    · subst hq
      rw [Function.update_self]
      have hpass := h.pass c.1
      refine ⟨hpass.wf, fun r' hr' => ?_, fun slot r' hr' => ?_⟩
      · rw [hsame r' fun heq => (hpass.apart c.2 r hr).2 (heq ▸ hr')]
        exact hpass.fresh r' hr'
      · by_cases hs : slot = c.2
        · subst hs
          rw [Function.update_self] at hr'
          obtain rfl := hrow r' hr'
          exact hpass.apart c.2 r' hr
        · rw [Function.update_of_ne fun heq => hs (congrArg Prod.snd heq)] at hr'
          exact hpass.apart slot r' hr'
    · rw [Function.update_of_ne hq]
      have hne : ∀ slot, (q, slot) ≠ c := fun _ heq => hq (congrArg Prod.fst heq)
      simp only [Function.update_of_ne (hne _)]
      exact h.pass q

theorem Visit.row_ofBill {r' : Nat} (h : (Visit.ofBill k r b).row = some r') : r' = r := by
  unfold Visit.ofBill at h
  split_ifs at h
  · cases h
  · exact (Option.some.inj h).symm

theorem Inv.stop (h : Inv rows₀ s) (hr : (s.visit c).row = some r) :
    Inv rows₀ (s.setVisit c .idle) :=
  h.setVisit hr (Function.update_eq_self _ _).symm (fun _ _ => rfl) rfl rfl (fun _ hn => by cases hn) h.books
    trivial (fun _ hm => hm) fun _ he => .inl he

def State.swapped (s : State n) (c : Slot n) (k r : Nat) (b : Bill) : State n :=
  { s with
    rows := Function.update s.rows r (s.mem c.1 r)
    moved :=
      if ¬ (s.rows r).status.isTerminal ∧ (s.mem c.1 r).status.isTerminal then s.moved ++ [(r, ⟨c, k⟩)]
      else s.moved
    visit := Function.update s.visit c (.ofBill k r b) }

theorem updateWithStatus_cases (cfg : Config) (s : State n) (c : Slot n) (k r : Nat) (fromStatus : TaskStatus)
    (guarded : Bool) (b : Bill) (fault : Bool) :
    updateWithStatus cfg s c k r fromStatus guarded b fault =
        s.setVisit c (if guarded then .idle else .ofBill k r b) ∨
      (s.rows r).status = fromStatus ∧
        updateWithStatus cfg s c k r fromStatus guarded b fault = s.swapped c k r b := by
  unfold updateWithStatus
  by_cases hf : fault = true
  · exact .inl (if_pos hf)
  rw [if_neg hf]
  by_cases hst : (s.rows r).status = fromStatus
  · rw [if_neg (not_not.2 hst)]
    by_cases hnoop : s.mem c.1 r = s.rows r ∧ ¬ cfg.countsMatched
    · exact .inl (if_pos hnoop)
    · exact .inr ⟨hst, if_neg hnoop⟩
  · exact .inl (if_pos hst)

/-- A swap of a row that was not terminal for an object of a visit. -/
theorem Inv.swapped (h : Inv rows₀ s) {guarded : Bool}
    (hv : s.visit c = .update k r (s.rows r).status guarded b) : Inv rows₀ (s.swapped c k r b) := by
  have hr : (s.visit c).row = some r := by rw [hv]; rfl
  have hok := h.visit c
  rw [hv] at hok
  have hopen : (s.rows r).status.isTerminal = false := by
    cases guarded with
    | true => exact hok.1
    | false => exact hok.1
  -- The row was not moved before, and so not billed.
  have hnew : ∀ m ∈ s.moved, m.1 ≠ r := by
    intro m hm heq
    have := h.books.moved_terminal m hm
    rw [heq, hopen] at this
    cases this
  have hrow : ∀ {m : Nat × Caller n}, m ∈ s.moved → Function.update s.rows r (s.mem c.1 r) m.1 = s.rows m.1 :=
    fun hm => Function.update_of_ne (hnew _ hm) _ _
  cases guarded with
  | true =>
    obtain ⟨-, hfacts, hterm, hquota, -⟩ := hok
    have hmoved : (s.swapped c k r b).moved = s.moved ++ [(r, ⟨c, k⟩)] := by simp [State.swapped, hopen, hterm]
    refine h.setVisit hr (Function.update_eq_self _ _).symm (fun _ _ => rfl) rfl rfl
      (fun _ => Visit.row_ofBill) ?_ ?_ (fun m hm => by rw [hmoved]; exact List.mem_append_left _ hm)
      fun _ he => .inl he
    · rw [hmoved]
      refine ⟨fun r' => ?_, fun r' hr' => ?_, fun m hm => ?_, ?_, fun e he => ?_, h.books.billed_own,
        h.books.billed_once⟩
      · by_cases heq : r' = r
        · subst heq
          simpa [State.swapped] using hfacts
        · simpa [State.swapped, heq] using h.books.facts r'
      · by_cases heq : r' = r
        · subst heq
          simp [State.swapped, hterm] at hr'
        · simp only [State.swapped, Function.update_of_ne heq] at hr' ⊢
          exact h.books.quota r' hr'
      · rcases List.mem_append.1 hm with hm | hm
        · simpa only [State.swapped, hrow hm] using h.books.moved_terminal m hm
        · rw [List.mem_singleton.1 hm]
          simpa [State.swapped] using hterm
      · intro m hm m' hm' heq
        rcases List.mem_append.1 hm with hm | hm <;> rcases List.mem_append.1 hm' with hm' | hm'
        · exact h.books.moved_once m hm m' hm' heq
        · rw [List.mem_singleton.1 hm'] at heq
          exact absurd heq (hnew m hm)
        · rw [List.mem_singleton.1 hm] at heq
          exact absurd heq.symm (hnew m' hm')
        · rw [List.mem_singleton.1 hm, List.mem_singleton.1 hm']
      · exact List.mem_append_left _ (h.books.billed_by e he)
    · rw [hmoved]
      unfold Visit.ofBill
      split_ifs with hb
      · trivial
      · exact ⟨by simp, fun e he => hnew _ (h.books.billed_by e he), hfacts, hquota hb⟩
  | false =>
    obtain ⟨-, hfresh, rfl⟩ := hok
    have hmoved : (s.swapped c k r .none).moved = s.moved := by simp [State.swapped, hfresh.open_]
    refine h.setVisit hr (Function.update_eq_self _ _).symm (fun _ _ => rfl) rfl rfl
      (fun _ => Visit.row_ofBill) ?_ trivial (fun m hm => by rwa [hmoved]) fun _ he => .inl he
    rw [hmoved]
    refine ⟨fun r' => ?_, fun r' hr' => ?_, fun m hm => ?_, h.books.moved_once, h.books.billed_by,
      h.books.billed_own, h.books.billed_once⟩
    · by_cases heq : r' = r
      · subst heq
        simpa [State.swapped] using hfresh.facts
      · simpa [State.swapped, heq] using h.books.facts r'
    · by_cases heq : r' = r
      · subst heq
        simpa [State.swapped] using hfresh.quota
      · simp only [State.swapped, Function.update_of_ne heq] at hr' ⊢
        exact h.books.quota r' hr'
    · simpa only [State.swapped, hrow hm] using h.books.moved_terminal m hm

theorem Inv.updateWithStatus (h : Inv rows₀ s) {fromStatus : TaskStatus} {guarded : Bool}
    (hv : s.visit c = .update k r fromStatus guarded b) (fault : Bool) :
    Inv rows₀ (updateWithStatus cfg s c k r fromStatus guarded b fault) := by
  have hr : (s.visit c).row = some r := by rw [hv]; rfl
  rcases updateWithStatus_cases cfg s c k r fromStatus guarded b fault with heq | ⟨rfl, heq⟩
  · rw [heq]
    cases guarded with
    | true => exact h.stop hr
    | false =>
      -- A visit whose billing does not depend on the swap has none.
      have hok := h.visit c
      rw [hv] at hok
      obtain ⟨-, -, rfl⟩ := hok
      exact h.stop hr
  · rw [heq]
    exact h.swapped hv

def State.billed (s : State n) (c : Slot n) (k r : Nat) (kind : Kind) (v : Visit) : State n :=
  { s with
    ledger := s.ledger ++ [⟨r, ⟨c, k⟩, kind, (s.mem c.1 r).funding, (s.mem c.1 r).quota⟩]
    visit := Function.update s.visit c v }

theorem settleTaskBillingOnComplete_cases (s : State n) (c : Slot n) (k r : Nat) (totalTokens adjust : Int)
    (byTokens : Option Int) (ok : Bool) :
    settleTaskBillingOnComplete s c k r totalTokens adjust byTokens ok = s.setVisit c .idle ∨
      ∃ kind v, (v = .idle ∨ ∃ q, v = .writeQuota k r q) ∧
        settleTaskBillingOnComplete s c k r totalTokens adjust byTokens ok = s.billed c k r kind v := by
  unfold settleTaskBillingOnComplete
  split
  · exact .inl rfl
  · rename_i actualQuota _
    unfold recalculateTaskQuota
    by_cases hpos : actualQuota ≤ 0
    · exact .inl (if_pos hpos)
    rw [if_neg hpos]
    by_cases hok : actualQuota - (s.mem c.1 r).quota ≠ 0 ∧ ¬ ok
    · exact .inl (if_pos hok)
    rw [if_neg hok]
    refine .inr ⟨.settle actualQuota, _, ?_, rfl⟩
    split_ifs
    · exact .inl rfl
    · exact .inr ⟨actualQuota, rfl⟩

/-- A row is billed by the visit that moved it, which is then done or has the quota left to write.
-/
theorem Inv.billed (h : Inv rows₀ s)
    (hv : s.visit c = .bill k r b) (kind : Kind) (hw : v = .idle ∨ ∃ q, v = .writeQuota k r q) :
    Inv rows₀ (s.billed c k r kind v) := by
  have hr : (s.visit c).row = some r := by rw [hv]; rfl
  have hok := h.visit c
  rw [hv] at hok
  obtain ⟨hin, hnone, hfacts, hquota⟩ := hok
  refine h.setVisit hr (Function.update_eq_self _ _).symm (fun _ _ => rfl) rfl rfl ?_ ?_ ?_ (fun _ hm => hm) ?_
  · rintro r' hr'
    rcases hw with rfl | ⟨q, rfl⟩
    · cases hr'
    · exact (Option.some.inj hr').symm
  · refine ⟨h.books.facts, h.books.quota, h.books.moved_terminal, h.books.moved_once, ?_, ?_, ?_⟩
    · intro e he
      rcases List.mem_append.1 he with he | he
      · exact h.books.billed_by e he
      · rw [List.mem_singleton.1 he]
        exact hin
    · intro e he
      rcases List.mem_append.1 he with he | he
      · exact h.books.billed_own e he
      · rw [List.mem_singleton.1 he]
        exact ⟨hquota, congrArg TaskFacts.funding hfacts⟩
    · refine List.pairwise_append.2 ⟨h.books.billed_once, List.pairwise_singleton _ _, fun e he e' he' => ?_⟩
      rw [List.mem_singleton.1 he']
      exact hnone e he
  · rcases hw with rfl | ⟨q, rfl⟩
    · trivial
    · exact hin
  · intro e he
    rcases List.mem_append.1 he with he | he
    · exact .inl he
    · rw [List.mem_singleton.1 he]
      exact .inr ⟨rfl, k, hin⟩

theorem Inv.refundTaskQuota (h : Inv rows₀ s)
    (hv : s.visit c = .bill k r .refund) (ok : Bool) : Inv rows₀ (refundTaskQuota s c k r ok) := by
  unfold TaskPolling.refundTaskQuota
  dsimp only
  split_ifs
  · exact h.stop (by rw [hv]; rfl)
  · exact h.billed hv .refund (.inr ⟨0, rfl⟩)

theorem Inv.settleTaskBillingOnComplete (h : Inv rows₀ s)
    {totalTokens : Int} (hv : s.visit c = .bill k r (.settle totalTokens)) (adjust : Int)
    (byTokens : Option Int) (ok : Bool) :
    Inv rows₀ (settleTaskBillingOnComplete s c k r totalTokens adjust byTokens ok) := by
  rcases settleTaskBillingOnComplete_cases s c k r totalTokens adjust byTokens ok with heq | ⟨kind, v, hw, heq⟩
  · rw [heq]
    exact h.stop (by rw [hv]; rfl)
  · rw [heq]
    exact h.billed hv kind hw

theorem Inv.updateQuota (h : Inv rows₀ s) {q : Int}
    (hv : s.visit c = .writeQuota k r q) (fault : Bool) : Inv rows₀ (updateQuota s c r q fault) := by
  have hin : (r, ⟨c, k⟩) ∈ s.moved := by
    have := h.visit c
    rwa [hv] at this
  refine h.setVisit (by rw [hv]; rfl) rfl (fun r' hr' => Function.update_of_ne hr' _ _) rfl rfl
    (fun _ hn => by cases hn) ?_ trivial (fun _ hm => hm) fun _ he => .inl he
  refine h.books.bulk fun r' => ?_
  unfold TaskPolling.updateQuota
  cases fault with
  | true => exact .inl rfl
  | false =>
    by_cases heq : r' = r
    · subst heq
      right
      simpa using h.books.moved_terminal _ hin
    · left
      simp [heq]

/-! ### The steps of a pass -/

def Stage.listed : Stage → List Nat
  | .polling rest => rest
  | _ => []

/-- The tasks of the platform that a step is about to dispatch have different upstream ids. -/
def DistinctUpstream (s : State n) : Act n → Prop
  | .platform p name _ =>
    ((withUpstream (s.mem p) ((s.stage p).listed.filter fun r => (s.mem p r).platform = name)).map fun r =>
      (s.mem p r).getUpstreamTaskID).Nodup
  | _ => True

instance (s : State n) (a : Act n) : Decidable (DistinctUpstream s a) :=
  match a with
  | .platform .. => List.nodupDecidable _
  | .sweep .. | .sweepNext .. | .list .. | .channel .. | .visit .. | .leave .. | .join .. | .finish ..
  | .update .. | .bill .. | .writeQuota .. => .isTrue trivial

/-- With different upstream ids the map has every task under its own. -/
theorem taskM_self {group : List Nat}
    (h : ((withUpstream mem group).map fun r => (mem r).getUpstreamTaskID).Nodup)
    (hr : r ∈ withUpstream mem group) : taskM mem group (mem r).getUpstreamTaskID = some r := by
  have hmem : r ∈ (withUpstream mem group).filter fun r' => (mem r').getUpstreamTaskID = (mem r).getUpstreamTaskID :=
    List.mem_filter.2 ⟨hr, by simp⟩
  obtain ⟨r', hr'⟩ := Option.isSome_iff_exists.1
    (List.getLast?_isSome.2 (List.ne_nil_of_mem hmem))
  obtain ⟨hin, heq⟩ := List.mem_filter.1 (List.mem_of_getLast? hr')
  rw [taskM, hr', List.inj_on_of_nodup_map h hin hr (of_decide_eq_true heq)]

theorem taskChannelM_eq {group : List Nat}
    (h : ((withUpstream mem group).map fun r => (mem r).getUpstreamTaskID).Nodup) :
    taskChannelM mem group id = (withUpstream mem group).filter fun r => (mem r).channelId = id := by
  have hself : ∀ l : List Nat, (∀ r ∈ l, r ∈ withUpstream mem group) →
      l.filterMap (fun r => taskM mem group (mem r).getUpstreamTaskID) = l := by
    intro l hl
    induction l with
    | nil => rfl
    | cons r l ih =>
      rw [List.filterMap_cons, taskM_self h (hl r List.mem_cons_self),
        ih fun r' hr' => hl r' (List.mem_cons_of_mem _ hr')]
  exact hself _ fun r hr => (List.mem_filter.1 hr).1

theorem Inv.dispatch (h : Inv rows₀ s) {name : String} {fault : Bool}
    (hst : s.stage p = .polling rest) (hd : DistinctUpstream s (.platform p name fault))
    (hbooks : Books rows₀ (s.dispatch p rest name fault).rows s.moved s.ledger) :
    Inv rows₀ (s.dispatch p rest name fault) := by
  have hpass := h.pass p
  rw [hst] at hpass
  have hd : ((withUpstream (s.mem p) (rest.filter fun r => (s.mem p r).platform = name)).map fun r =>
      (s.mem p r).getUpstreamTaskID).Nodup := by
    simpa only [DistinctUpstream, hst, Stage.listed] using hd
  refine h.setStage p rfl rfl rfl rfl rfl hbooks ⟨hpass.wf.filter _, fun id => ?_⟩ ?_ ?_
  · simp only [Worker.todo_launch, taskChannelM_eq hd]
    refine ⟨((hpass.wf.filter _).filter _).filter _, fun r hr => ?_⟩
    obtain ⟨hwith, hid⟩ := List.mem_filter.1 hr
    obtain ⟨hin, hname⟩ := List.mem_filter.1 (List.mem_filter.1 hwith).1
    refine ⟨?_, List.mem_map.2 ⟨r, hwith, of_decide_eq_true hid⟩, fun hne => ?_⟩
    · rw [← of_decide_eq_true hid, (hpass.fresh r hin).facts]
    · simp [of_decide_eq_true hname] at hne
  · rw [hst]
    rintro r (hr | hr)
    · exact (List.mem_filter.1 hr).1
    · simp only [Worker.todo_launch, taskChannelM_eq hd] at hr
      exact (List.mem_filter.1 (List.mem_filter.1 (List.mem_filter.1 hr).1).1).1
  · intro slot r hr
    exact ((hpass.apart slot r hr).1).elim

theorem sublist_update {w : Worker} (hw : w.todo.Sublist (workers id).todo) (id' : Int) :
    (Function.update workers id w id').todo.Sublist (workers id').todo := by
  by_cases heq : id' = id
  · subst heq
    rwa [Function.update_self]
  · rw [Function.update_of_ne heq]

theorem Inv.setWorker (h : Inv rows₀ s) {channels : List Int}
    (hst : s.stage p = .dispatched rest channels workers) {w : Worker}
    (hw : w.todo.Sublist (workers id).todo) (hbooks : Books rows₀ t.rows s.moved s.ledger)
    (ht : t = { s.setWorker p rest channels workers id w with rows := t.rows }) : Inv rows₀ t := by
  have hpass := h.pass p
  rw [hst] at hpass
  obtain ⟨hnodup, hwf⟩ := hpass.wf
  have hsub := sublist_update hw
  rw [ht]
  refine h.setStage p rfl rfl rfl rfl rfl hbooks
    ⟨hnodup, fun id' => ⟨(hsub id').nodup (hwf id').1, fun r hr => (hwf id').2 r ((hsub id').subset hr)⟩⟩ ?_ ?_
  · rw [hst]
    exact fun r hr => hr.imp_right fun hr => (hsub _).subset hr
  · intro slot r hr
    have hallows := (hpass.apart slot r hr).1
    cases slot <;> exact hallows

theorem Inv.visitNext (h : Inv rows₀ s) {channels : List Int}
    (hst : s.stage p = .dispatched rest channels workers)
    {todo : List Nat} (hw : workers id = .visiting (r :: todo)) {after : Task × Plan}
    (hok : Fresh (rows₀ r) (s.mem p r) → after.2.Ok (rows₀ r) after.1) :
    Inv rows₀ (TaskPolling.beginVisit (s.setWorker p rest channels workers id (.visiting todo)) (p, some id) r
      after) := by
  have hpass := h.pass p
  rw [hst] at hpass
  obtain ⟨hnodup, hwf⟩ := hpass.wf
  have hin : r ∈ (workers id).todo := by rw [hw]; exact List.mem_cons_self
  obtain ⟨hid, hchannel, hnotrest⟩ := (hwf id).2 r hin
  have hwas : (s.stage p).Pending rows₀ r := by
    rw [hst, Stage.Pending, hid]
    exact .inr hin
  obtain ⟨hnottodo, htodo⟩ := List.nodup_cons.1 (by have := (hwf id).1; rwa [hw] at this)
  have hsublist : (Worker.visiting todo).todo.Sublist (workers id).todo := by
    rw [hw]
    exact List.sublist_cons_self r todo
  have hsub := sublist_update hsublist
  refine h.beginVisit hwas (hok ((h.pass p).fresh r hwas))
    ⟨hnodup, fun id' => ⟨(hsub id').nodup (hwf id').1, fun r hr => (hwf id').2 r ((hsub id').subset hr)⟩⟩ ?_ ?_
    ⟨hchannel, hid⟩
  · rintro r' (hr' | hr')
    · rw [hst]
      exact ⟨.inl hr', fun heq => hnotrest (heq ▸ hr')⟩
    · rw [hst]
      refine ⟨.inr ((hsub _).subset hr'), fun heq => ?_⟩
      subst heq
      rw [hid, Function.update_self] at hr'
      exact hnottodo hr'
  · intro slot r' hr'
    have hallows := (hpass.apart slot r' hr').1
    cases slot <;> exact hallows

/-- A bulk update to a terminal status, whether or not the database fails. -/
theorem Books.taskBulkUpdateByID {rows : Nat → Task}
    (h : Books rows₀ rows moved ledger) {f : Task → Task}
    (hf : ∀ t, (f t).toTaskFacts = t.toTaskFacts ∧ (f t).status.isTerminal = true) (ids : List Nat)
    (fault : Bool) :
    Books rows₀ (if fault then rows else TaskPolling.taskBulkUpdateByID rows ids f) moved ledger := by
  refine h.bulk fun r => ?_
  unfold TaskPolling.taskBulkUpdateByID
  cases fault with
  | true => exact .inl rfl
  | false =>
    by_cases hr : r ∈ ids
    · right
      simpa [hr] using hf (rows r)
    · left
      simp [hr]

theorem Inv.step {a : Act n} (h : Inv rows₀ s) (hd : DistinctUpstream s a)
    (hstep : step cfg s a = some t) : Inv rows₀ t := by
  cases step_cases hstep with
  | @sweep p cutoff ids hst hnodup hopen =>
    refine h.load p (fun slot => ?_) hopen hnodup fun r hr => hr
    exact (h.pass p).idle_of_stage slot fun r => by rw [hst]; exact id
  | @sweepNext p now r todo hst hidle =>
    have hwf := (h.pass p).wf
    rw [hst] at hwf
    obtain ⟨hnot, hnodup⟩ := List.nodup_cons.1 hwf
    have hwas : (s.stage p).Pending rows₀ r := by rw [hst]; exact List.mem_cons_self
    refine h.beginVisit hwas (timeOut_ok ((h.pass p).fresh r hwas) now) hnodup ?_ ?_ trivial
    · intro r' hr'
      rw [hst]
      exact ⟨List.mem_cons_of_mem _ hr', fun heq => hnot (heq ▸ hr')⟩
    · intro slot r' hr'
      have hallows := ((h.pass p).apart slot r' hr').1
      rw [hst] at hallows
      cases slot <;> exact hallows
  | @list p ids hst hidle hnodup hopen =>
    refine h.load p (fun slot => ?_) hopen hnodup fun r hr => hr
    cases slot with
    | none => exact hidle
    | some id => exact (h.pass p).idle_of_stage (some id) fun r => by rw [hst]; exact fun hn => hn
  | @platform p name fault rest hst =>
    exact h.dispatch hst hd (h.books.taskBulkUpdateByID (f := failNull) (fun _ => ⟨rfl, rfl⟩) _ fault)
  | @channel p id lookup fault rest channels workers todo w hst hw hlookup hw' =>
    refine h.setWorker hst ?_ h.books rfl
    rcases hw' with rfl | rfl
    · rw [hw]
      exact List.Sublist.refl _
    · exact List.nil_sublist _
  | @missing p id fault rest channels workers todo hst hw =>
    exact h.setWorker hst (w := .done) (List.nil_sublist _)
      (h.books.taskBulkUpdateByID (f := failChannel id) (fun _ => ⟨rfl, rfl⟩) todo fault) rfl
  | visit hst hidle hw => exact h.visitNext hst hw fun hf => updateVideoSingleTask_ok hf _ _
  | leave hst => exact h.setWorker hst (w := .done) (List.nil_sublist _) h.books rfl
  | @join p rest channels workers hst hdone =>
    have hpass := h.pass p
    rw [hst] at hpass
    refine h.setStage p rfl rfl rfl rfl rfl h.books hpass.wf.1 ?_ fun slot r hr => ?_
    · rw [hst]
      exact fun r hr => .inl hr
    · -- The workers' slots are the only ones that could be busy, and they are done.
      have hallows := (hpass.apart slot r hr).1
      cases slot with
      | none => exact hallows.elim
      | some id =>
        rw [(hdone id hallows.1).2] at hr
        cases hr
  | @finish p rest hst =>
    refine h.setStage p rfl rfl rfl rfl rfl h.books trivial (fun r hr => hr.elim) fun slot r hr => ?_
    have hallows := ((h.pass p).apart slot r hr).1
    rw [hst] at hallows
    exact hallows.elim
  | update hv => exact h.updateWithStatus hv _
  | refund hv => exact h.refundTaskQuota hv _
  | settle hv => exact h.settleTaskBillingOnComplete hv _ _ _
  | writeQuota hv => exact h.updateQuota hv _

end TokenEra.TaskPolling
