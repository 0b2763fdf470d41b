import TokenEra.Lib.Run
import TokenEra.TopUp.Recharge

/-!
# Concurrent completions of one order

Any number of transactions of the seven functions on one order, interleaved statement by statement,
each of which may abort at any point. Either the order row is locked from the first read to the end
(`rowLock`), or there is one writer at a time, and a transaction that read before another one
committed may not write any more (`singleWriter`). Other code may change the users in between, but
not a user row that a transaction has updated.

A transaction that may write has read the committed order. Its statements mark the order and credit
the user together or not at all (`Script`), and they start from a pending order; so an order is
credited when it becomes successful, and it becomes successful once.
-/

namespace TokenEra.TopUps.Race

open Lib

inductive Discipline
  | rowLock
  | singleWriter
deriving DecidableEq, Repr

inductive Entry
  | rechargeEpay (actualPaymentMethod : String)
  | recharge (customerId : String)
  | rechargeCreem (customerEmail : String)
  | rechargeWaffo
  | rechargeWaffoPancake
  | manualCompleteTopUp
  | updatePendingTopUpStatus (expected : Option Provider) (targetStatus : TopUpStatus)
deriving DecidableEq, Repr

def Entry.body (quotaPerUnit : ℚ) (now : Int) : Entry → TopUp → List Stmt
  | .rechargeEpay method => rechargeEpayBody quotaPerUnit now method
  | .recharge customerId => rechargeBody quotaPerUnit now customerId
  | .rechargeCreem email => rechargeCreemBody now email
  | .rechargeWaffo => rechargeWaffoBody quotaPerUnit now
  | .rechargeWaffoPancake => rechargeWaffoPancakeBody quotaPerUnit now
  | .manualCompleteTopUp => manualCompleteTopUpBody quotaPerUnit now
  | .updatePendingTopUpStatus expected target => updatePendingTopUpStatusBody expected target

structure Calls (n : Nat) where
  discipline : Discipline
  quotaPerUnit : ℚ
  entry : Fin n → Entry

inductive Write
  | row (row : TopUp)
  | credit (userId quota : Int) (updates : Updates)
deriving DecidableEq, Repr

inductive Phase
  | start
  /-- The order as read, the version of the database at that time, the writes so far and the
  statements to come. -/
  | running (row : TopUp) (seen : Nat) (writes : List Write) (rest : List Stmt) (email : Option String)
  | done (result : Except Error Unit)

/-- A committed credit, with the balance that it left. -/
structure Credit where
  userId : Int
  quota : Int
  balance : Int
deriving DecidableEq, Repr

structure State (n : Nat) where
  row : TopUp
  users : List User
  version : Nat
  credits : List Credit
  phase : Fin n → Phase

def initial (n : Nat) (row : TopUp) (users : List User) : State n :=
  ⟨row, users, 0, [], fun _ => .start⟩

inductive Action (n : Nat)
  | advance (i : Fin n) (now : Int)
  | abort (i : Fin n) (text : String)
  /-- Other code commits changes of the users. -/
  | others (users : List User)

def Phase.running? : Phase → Bool
  | .running .. => true
  | _ => false

def Phase.writes : Phase → List Write
  | .running _ _ writes _ _ => writes
  | _ => []

def Phase.owns (d : Discipline) (q : Phase) : Bool :=
  match d with
  | .rowLock => q.running?
  | .singleWriter => q.writes ≠ []

variable {n : Nat} (c : Calls n)

def State.set (s : State n) (i : Fin n) (q : Phase) : State n :=
  { s with phase := Function.update s.phase i q }

def Blocked (s : State n) (i : Fin n) : Prop := ∃ j, j ≠ i ∧ (s.phase j).owns c.discipline = true

instance (s : State n) (i : Fin n) : Decidable (Blocked c s i) :=
  inferInstanceAs (Decidable (∃ _, _))

def State.apply (s : State n) : Write → State n
  | .row row => { s with row := row }
  | .credit userId quota updates =>
    match findRow User.id userId s.users with
    | none => s
    | some u =>
      { s with
        users := saveRow User.id (u.credit quota updates) s.users
        credits := s.credits ++ [⟨userId, quota, u.quota + quota⟩] }

def State.commit (s : State n) (writes : List Write) : State n :=
  if writes = [] then s else { writes.foldl State.apply s with version := s.version + 1 }

/-- A first write of a single-writer database needs the database that was read. -/
def stale (s : State n) (seen : Nat) (writes : List Write) : Prop :=
  c.discipline = .singleWriter ∧ writes = [] ∧ seen ≠ s.version

instance (s : State n) (seen : Nat) (writes : List Write) : Decidable (stale c s seen writes) :=
  inferInstanceAs (Decidable (_ ∧ _ ∧ _))

/-- The next statement of a transaction; `none` while it is blocked or has ended. -/
def advance (s : State n) (i : Fin n) (now : Int) : Option (State n) :=
  match s.phase i with
  | .start =>
    if c.discipline = .rowLock ∧ Blocked c s i then none
    else
      some (s.set i (.running s.row s.version [] ((c.entry i).body c.quotaPerUnit now s.row) none))
  | .running row seen writes rest email =>
    match rest with
    | [] => some ((s.commit writes).set i (.done (.ok ())))
    | .refuse e :: _ => some (s.set i (.done (.error e)))
    | .readUser userId text :: rest =>
      some <| s.set i <|
        match findRow User.id userId s.users with
        | none => .done (.error .recordNotFound)
        | some u => .running row seen writes rest (if u.email = "" then some text else email)
    | .save row' :: rest =>
      if Blocked c s i then none
      else
        some <| s.set i <|
          if stale c s seen writes then .done (.error (.db "database is locked"))
          else .running row seen (writes ++ [.row row']) rest email
    | .credit userId quota customer :: rest =>
      if Blocked c s i then none
      else
        some <| s.set i <|
          if stale c s seen writes then .done (.error (.db "database is locked"))
          else
            match creditTopUpQuota s.users userId quota ⟨email, customer⟩ with
            | .error e => .done (.error e)
            | .ok _ => .running row seen (writes ++ [.credit userId quota ⟨email, customer⟩]) rest email
  | .done _ => none

/-- The user row that an uncommitted credit holds is the same. -/
def Write.Undisturbed (users users' : List User) : Write → Prop
  | .row _ => True
  | .credit userId _ _ => findRow User.id userId users' = findRow User.id userId users

instance (users users' : List User) (w : Write) : Decidable (w.Undisturbed users users') := by
  cases w <;> unfold Write.Undisturbed <;> infer_instance

/-- Other code may change the users: not a held row, and not while another writer is at work. -/
def MayChange (s : State n) (users : List User) : Prop :=
  (∀ i, ∀ w ∈ (s.phase i).writes, w.Undisturbed s.users users) ∧
    (c.discipline = .singleWriter → ∀ i, (s.phase i).writes = [])

instance (s : State n) (users : List User) : Decidable (MayChange c s users) :=
  inferInstanceAs (Decidable (_ ∧ _))

def step (s : State n) : Action n → Option (State n)
  | .advance i now => advance c s i now
  | .abort i text =>
    match s.phase i with
    | .done _ => none
    | _ => some (s.set i (.done (.error (.db text))))
  | .others users =>
    if MayChange c s users then some { s with users := users, version := s.version + 1 } else none

/-! ### Scripts -/

/-- The statements after an order is marked as paid: they refuse or credit once. -/
inductive Pays (userId : Int) : List Stmt → Prop
  | refuse (e : Error) : Pays userId [.refuse e]
  | credit (quota : Int) (customer : Option String) : Pays userId [.credit userId quota customer]
  | readUser (email : String) {rest : List Stmt} (h : Pays userId rest) :
      Pays userId (.readUser userId email :: rest)

inductive Script (row : TopUp) : List Stmt → Prop
  | refuse (e : Error) : Script row [.refuse e]
  | nothing : Script row []
  | close (row' : TopUp) (hpending : row.status = .pending) (huser : row'.userId = row.userId)
      (hstatus : row'.status ≠ .success) : Script row [.save row']
  | pay (row' : TopUp) {rest : List Stmt} (hpending : row.status = .pending)
      (huser : row'.userId = row.userId) (hstatus : row'.status = .success)
      (hpays : Pays row.userId rest) : Script row (.save row' :: rest)

variable {quotaPerUnit : ℚ} {now : Int} {row : TopUp}

theorem quota_script {row' : TopUp} {d : ℚ} {e : Error} (hpending : row.status = .pending)
    (huser : row'.userId = row.userId) (hstatus : row'.status = .success) :
    Script row (match topUpQuota? d with
      | none => [.refuse e]
      | some quota => [.save row', .credit row.userId quota none]) := by
  cases topUpQuota? d with
  | none => exact .refuse _
  | some quota => exact .pay _ hpending huser hstatus (.credit ..)

theorem amountBody_script (provider : Provider) :
    Script row (amountBody quotaPerUnit now provider row) := by
  unfold amountBody
  split_ifs with hprovider hsuccess hpending
  · exact .refuse _
  · exact .nothing
  · exact .refuse _
  · exact quota_script (not_not.1 hpending) rfl rfl

/-- Every function follows a script, when `UpdatePendingTopUpStatus` is not asked for a success. -/
theorem body_script (quotaPerUnit : ℚ) (now : Int) {entry : Entry}
    (hentry : ∀ expected target, entry = .updatePendingTopUpStatus expected target → target ≠ .success)
    (row : TopUp) : Script row (entry.body quotaPerUnit now row) := by
  cases entry with
  | rechargeEpay method =>
    simp only [Entry.body, rechargeEpayBody]
    split_ifs with hprovider hsuccess hpending
    · exact .refuse _
    · exact .nothing
    · exact .refuse _
    · exact quota_script (not_not.1 hpending) rfl rfl
    · exact quota_script (not_not.1 hpending) rfl rfl
  | recharge customerId =>
    simp only [Entry.body, rechargeBody]
    split_ifs with hprovider hpending
    · exact .refuse _
    · exact .refuse _
    · refine .pay _ (not_not.1 hpending) rfl rfl ?_
      cases topUpQuota? (row.money * quotaPerUnit) with
      | none => exact .refuse _
      | some quota => exact .credit ..
  | rechargeCreem email =>
    simp only [Entry.body, rechargeCreemBody]
    split_ifs with hprovider hpending hemail
    · exact .refuse _
    · exact .refuse _
    · refine .pay _ (not_not.1 hpending) rfl rfl ?_
      cases topUpQuota? row.amount with
      | none => exact .refuse _
      | some quota => exact .credit ..
    · refine .pay _ (not_not.1 hpending) rfl rfl ?_
      cases topUpQuota? row.amount with
      | none => exact .refuse _
      | some quota => exact .readUser _ (.credit ..)
  | rechargeWaffo => exact amountBody_script .waffo
  | rechargeWaffoPancake => exact amountBody_script .waffoPancake
  | manualCompleteTopUp =>
    simp only [Entry.body, manualCompleteTopUpBody]
    split_ifs with hsuccess hpending
    · exact .nothing
    · exact .refuse _
    all_goals exact quota_script (not_not.1 hpending) rfl rfl
  | updatePendingTopUpStatus expected target =>
    simp only [Entry.body, updatePendingTopUpStatusBody]
    split_ifs with hprovider hpending
    · exact .refuse _
    · exact .refuse _
    · exact .close _ (not_not.1 hpending) rfl (hentry expected target rfl)

/-! ### The invariant -/

inductive Midway (users : List User) (row : TopUp) : List Write → List Stmt → Prop
  | unwritten {rest : List Stmt} (h : Script row rest) : Midway users row [] rest
  | marked (row' : TopUp) {rest : List Stmt} (hpending : row.status = .pending)
      (huser : row'.userId = row.userId) (hstatus : row'.status = .success)
      (hpays : Pays row.userId rest) : Midway users row [.row row'] rest
  | closed (row' : TopUp) (hpending : row.status = .pending) (huser : row'.userId = row.userId)
      (hstatus : row'.status ≠ .success) : Midway users row [.row row'] []
  | paid (row' : TopUp) (quota : Int) (updates : Updates) (u : User)
      (hpending : row.status = .pending) (huser : row'.userId = row.userId)
      (hstatus : row'.status = .success) (hu : findRow User.id row.userId users = some u)
      (hcredit : Creditable u.quota quota) :
      Midway users row [.row row', .credit row.userId quota updates] []

/-- What a transaction that may write has read is what is committed. -/
def Current (s : State n) (row : TopUp) (seen : Nat) (writes : List Write) : Prop :=
  match c.discipline with
  | .rowLock => row = s.row
  | .singleWriter =>
    seen ≤ s.version ∧ (seen = s.version → row = s.row) ∧ (writes ≠ [] → seen = s.version)

def PhaseOk (s : State n) : Phase → Prop
  | .running row seen writes rest _ => Midway s.users row writes rest ∧ Current c s row seen writes
  | _ => True

def Credit.Of (order : TopUp) (k : Credit) : Prop :=
  k.userId = order.userId ∧ 0 < k.quota ∧ k.balance ≤ maxQuota - 1

structure Inv (order : TopUp) (s : State n) : Prop where
  phases : ∀ i, PhaseOk c s (s.phase i)
  exclusive : ∀ i j, i ≠ j → (s.phase i).owns c.discipline = true →
    (s.phase j).owns c.discipline = false
  credited : s.credits.length = if order.status ≠ .success ∧ s.row.status = .success then 1 else 0
  kept : order.status ≠ .pending → s.row.status = order.status
  user : s.row.userId = order.userId
  credits : ∀ k ∈ s.credits, k.Of order

variable {c} {order : TopUp} {s : State n} {i : Fin n}

theorem not_owns_of_not_blocked (h : ¬Blocked c s i) (j : Fin n) (hj : j ≠ i) :
    (s.phase j).owns c.discipline = false := by
  cases ho : (s.phase j).owns c.discipline with
  | false => rfl
  | true => exact absurd ⟨j, hj, ho⟩ h

theorem Inv.set (h : Inv c order s) {q : Phase} (hphase : PhaseOk c s q)
    (howns : q.owns c.discipline = true → ∀ j, j ≠ i → (s.phase j).owns c.discipline = false) :
    Inv c order (s.set i q) where
  phases := (Function.forall_update_iff s.phase (p := fun _ (q : Phase) => PhaseOk c s q)).2
    ⟨hphase, fun j _ => h.phases j⟩
  exclusive := pairwise_update (R := fun p q : Phase => p.owns c.discipline = true → q.owns c.discipline = false)
    (fun _ _ hpq hq => by
      by_contra hp
      rw [hpq (by simpa using hp)] at hq
      cases hq)
    h.exclusive fun j hj hq => howns hq j hj
  credited := h.credited
  kept := h.kept
  user := h.user
  credits := h.credits

theorem done_owns (d : Discipline) (r : Except Error Unit) : (Phase.done r).owns d = false := by
  cases d <;> rfl

theorem Inv.fail (h : Inv c order s) (r : Except Error Unit) : Inv c order (s.set i (.done r)) :=
  h.set trivial fun ho => by
    rw [done_owns] at ho
    cases ho

variable {email : Option String} {row : TopUp} {seen : Nat} {writes : List Write} {t : State n}

theorem owns_of_writes {d : Discipline} {rest : List Stmt} (h : writes ≠ []) :
    (Phase.running row seen writes rest email).owns d = true := by
  cases d with
  | rowLock => rfl
  | singleWriter => exact decide_eq_true h

/-- A transaction that keeps its writes keeps its rights. -/
theorem Inv.keep (h : Inv c order s) {row' : TopUp} {seen' : Nat}
    {rest rest' : List Stmt} {email' : Option String}
    (hphase : s.phase i = .running row seen writes rest email)
    (hok : PhaseOk c s (.running row' seen' writes rest' email')) :
    Inv c order (s.set i (.running row' seen' writes rest' email')) := by
  refine h.set hok fun ho j hj => h.exclusive i j hj.symm ?_
  rw [hphase]
  cases hd : c.discipline with
  | rowLock => rfl
  | singleWriter =>
    rw [hd] at ho
    exact ho

theorem Current.row_eq (h : Current c s row seen writes) (hwrites : writes ≠ []) : row = s.row := by
  unfold Current at h
  cases hd : c.discipline with simp only [hd] at h
  | rowLock =>
    exact h
  | singleWriter =>
    exact h.2.1 (h.2.2 hwrites)

/-- A write that is not refused as stale comes from the committed order. -/
theorem Current.write (h : Current c s row seen writes)
    (hstale : ¬stale c s seen writes) (w : Write) : Current c s row seen (writes ++ [w]) := by
  unfold Current at h ⊢
  cases hd : c.discipline with simp only [hd] at h ⊢
  | rowLock =>
    exact h
  | singleWriter =>
    obtain ⟨hle, hrow, hseen⟩ := h
    refine ⟨hle, hrow, fun _ => ?_⟩
    by_cases hwrites : writes = []
    · exact not_not.1 fun hne => hstale ⟨hd, hwrites, hne⟩
    · exact hseen hwrites

/-- A transaction that owns nothing knows nothing that a commit could change. -/
theorem phaseOk_of_not_owns {q : Phase} (h : PhaseOk c s q)
    (howns : q.owns c.discipline = false) (hversion : t.version = s.version + 1) : PhaseOk c t q := by
  cases q with
  | start => trivial
  | done r => trivial
  | running row seen writes rest email =>
    obtain ⟨hmid, hcurrent⟩ := h
    cases hd : c.discipline with
    | rowLock =>
      rw [hd] at howns
      cases howns
    | singleWriter =>
      have hempty : writes = [] := by
        rw [hd] at howns
        exact not_not.1 (of_decide_eq_false howns)
      subst hempty
      simp only [Current, hd] at hcurrent
      refine ⟨?_, ?_⟩
      · cases hmid with
        | unwritten hscript => exact .unwritten hscript
      · simp only [Current, hd, hversion]
        exact ⟨by omega, fun heq => absurd heq (by omega), fun hne => absurd rfl hne⟩

def balance (users : List User) (id : Int) : Option Int := (findRow User.id id users).map User.quota

/-- The balances grow by the credits to their users, and a credit notes the balance it leaves. -/
def Booked (users users' : List User) (credits : List Credit) : Prop :=
  (∀ id, balance users' id = (balance users id).map
      (· + (credits.map fun k => if k.userId = id then k.quota else 0).sum)) ∧
    ∀ k ∈ credits, balance users' k.userId = some k.balance

theorem booked_nil (users : List User) : Booked users users [] := by
  simp [Booked]

theorem booked_credit {users : List User} {userId quota : Int} {u : User} (updates : Updates)
    (hu : findRow User.id userId users = some u) :
    Booked users (saveRow User.id (u.credit quota updates) users)
      [⟨userId, quota, u.quota + quota⟩] := by
  obtain ⟨-, rfl⟩ := findRow_eq_some hu
  have hcredited : balance (saveRow User.id (u.credit quota updates) users) u.id =
      some (u.quota + quota) := by
    have hrow : findRow User.id (u.credit quota updates).id users = some u := hu
    exact congrArg (Option.map User.quota) (findRow_saveRow_self hrow)
  refine ⟨fun id => ?_, by simpa using hcredited⟩
  by_cases hid : u.id = id
  · subst hid
    rw [hcredited, balance, hu]
    simp
  · have hother : id ≠ (u.credit quota updates).id := Ne.symm hid
    rw [balance, findRow_saveRow_of_ne hother, ← balance]
    simp [hid]

/-- What the commit of a finished script does: a pending order is written, with one credit if it is
marked successful and none otherwise. -/
theorem commit_spec (h : Midway s.users row writes []) (hwrites : writes ≠ []) :
    row.status = .pending ∧ ∃ row' users credits,
      s.commit writes = ⟨row', users, s.version + 1, s.credits ++ credits, s.phase⟩ ∧
      row'.userId = row.userId ∧ credits.length = (if row'.status = .success then 1 else 0) ∧
      (∀ k ∈ credits, k.Of row) ∧ Booked s.users users credits := by
  rw [State.commit, if_neg hwrites]
  cases h with
  | unwritten => exact absurd rfl hwrites
  | marked row' hpending huser hstatus hpays => cases hpays
  | closed row' hpending huser hstatus =>
    refine ⟨hpending, row', s.users, [], ?_, huser, ?_, by simp, booked_nil _⟩
    · simp only [List.foldl, State.apply, List.append_nil]
    · rw [if_neg hstatus, List.length_nil]
  | paid row' quota updates u hpending huser hstatus hu hcredit =>
    refine ⟨hpending, row', saveRow User.id (u.credit quota updates) s.users,
      [⟨row.userId, quota, u.quota + quota⟩], ?_, huser, ?_, ?_, booked_credit updates hu⟩
    · simp only [List.foldl, State.apply, hu]
    · rw [if_pos hstatus, List.length_singleton]
    · intro k hk
      rw [List.mem_singleton] at hk
      subst hk
      obtain ⟨hpos, -, hle⟩ := hcredit
      refine ⟨rfl, hpos, ?_⟩
      show u.quota + quota ≤ maxQuota - 1
      omega

theorem Inv.commit (h : Inv c order s) (hphase : s.phase i = .running row seen writes [] email) :
    Inv c order ((s.commit writes).set i (.done (.ok ()))) := by
  have hok := h.phases i
  rw [hphase] at hok
  obtain ⟨hmid, hcurrent⟩ := hok
  by_cases hwrites : writes = []
  · rw [State.commit, if_pos hwrites]
    exact h.fail _
  have howns : (s.phase i).owns c.discipline = true := by
    rw [hphase]
    exact owns_of_writes hwrites
  obtain ⟨hpending, row', users, credits, hcommit, huser, hlength, hcredits, -⟩ :=
    commit_spec hmid hwrites
  rw [hcurrent.row_eq hwrites] at hpending huser
  -- the order was pending from the start, so nothing is credited yet
  have hstart : order.status = .pending := by
    by_contra hne
    exact hne ((h.kept hne).symm.trans hpending)
  have hnone : s.credits = [] := List.length_eq_zero_iff.1 (by simpa [hpending] using h.credited)
  have hother : ∀ j, j ≠ i → ((s.commit writes).set i (.done (.ok ()))).phase j = s.phase j := by
    intro j hj
    rw [hcommit]
    exact Function.update_of_ne hj _ _
  have hself : ((s.commit writes).set i (.done (.ok ()))).phase i = .done (.ok ()) :=
    Function.update_self ..
  refine ⟨fun j => ?_, fun j k hjk hj => ?_, ?_, fun hne => absurd hstart hne, ?_, ?_⟩
  · by_cases hj : j = i
    · subst hj
      rw [hself]
      trivial
    · rw [hother j hj]
      refine phaseOk_of_not_owns (h.phases j) (h.exclusive i j (Ne.symm hj) howns) ?_
      rw [hcommit]
      rfl
  · by_cases hji : j = i
    · subst hji
      rw [hself, done_owns] at hj
      cases hj
    · rw [hother j hji, h.exclusive i j (Ne.symm hji) howns] at hj
      cases hj
  · rw [hcommit]
    simp [State.set, hnone, hlength, hstart]
  · rw [hcommit]
    exact huser.trans h.user
  · intro k hk
    rw [hcommit] at hk
    simp only [State.set, hnone, List.nil_append] at hk
    obtain ⟨hk, hrest⟩ := hcredits k hk
    rw [hcurrent.row_eq hwrites] at hk
    exact ⟨hk.trans h.user, hrest⟩

theorem advance_inv
    (hentry : ∀ j expected target, c.entry j = .updatePendingTopUpStatus expected target →
      target ≠ .success) (h : Inv c order s) {now : Int}
    (hadvance : advance c s i now = some t) : Inv c order t := by
  unfold advance at hadvance
  cases hphase : s.phase i with simp only [hphase] at hadvance
  | done r =>
    cases hadvance
  | start =>
    split_ifs at hadvance with hblocked
    cases hadvance
    have hscript := body_script c.quotaPerUnit now (hentry i) s.row
    cases hd : c.discipline with
    | rowLock =>
      refine h.set ⟨.unwritten hscript, ?_⟩ fun _ => ?_
      · simp only [Current, hd]
      · exact not_owns_of_not_blocked fun hb => hblocked ⟨hd, hb⟩
    | singleWriter =>
      refine h.set ⟨.unwritten hscript, ?_⟩ fun ho => ?_
      · simp only [Current, hd]
        exact ⟨le_refl _, fun _ => trivial, fun hne => absurd rfl hne⟩
      · rw [hd] at ho
        cases ho
  | running row seen writes rest email =>
    have hok := h.phases i
    rw [hphase] at hok
    obtain ⟨hmid, hcurrent⟩ := hok
    cases rest with
    | nil =>
      cases hadvance
      exact h.commit hphase
    | cons stmt rest =>
      cases stmt with
      | refuse e =>
        cases hadvance
        exact h.fail _
      | readUser userId text =>
        cases hadvance
        cases hmid with
        | unwritten hscript => cases hscript
        | marked row' hpending huser hstatus hpays =>
          cases hpays with
          | readUser _ hpays =>
            cases findRow User.id row.userId s.users with
            | none => exact h.fail _
            | some u => exact h.keep hphase ⟨.marked row' hpending huser hstatus hpays, hcurrent⟩
      | save row' =>
        simp only at hadvance
        split_ifs at hadvance with hblocked hstale <;> cases hadvance
        · exact h.fail _
        · refine h.set ⟨?_, ?_⟩ fun _ => not_owns_of_not_blocked hblocked
          · cases hmid with
            | unwritten hscript =>
              cases hscript with
              | close _ hpending huser hstatus => exact .closed row' hpending huser hstatus
              | pay _ hpending huser hstatus hpays => exact .marked row' hpending huser hstatus hpays
            | marked _ _ _ _ hpays => cases hpays
          · exact hcurrent.write hstale _
      | credit userId quota customer =>
        simp only at hadvance
        split_ifs at hadvance with hblocked hstale
        · cases hadvance
          exact h.fail _
        · cases hadvance
          cases hcredit : creditTopUpQuota s.users userId quota ⟨email, customer⟩ with
          | error e => exact h.fail _
          | ok users =>
            obtain ⟨u, hu, hcreditable, -⟩ := creditTopUpQuota_ok.1 hcredit
            refine h.set ⟨?_, ?_⟩ fun _ => not_owns_of_not_blocked hblocked
            · cases hmid with
              | unwritten hscript => cases hscript
              | marked row' hpending huser hstatus hpays =>
                cases hpays with
                | credit => exact .paid row' quota _ u hpending huser hstatus hu hcreditable
            · exact hcurrent.write hstale _

theorem Inv.others (h : Inv c order s) {users : List User} (hmay : MayChange c s users) :
    Inv c order { s with users := users, version := s.version + 1 } := by
  refine ⟨fun i => ?_, h.exclusive, h.credited, h.kept, h.user, h.credits⟩
  have hok := h.phases i
  have hheld := hmay.1 i
  have hfree := fun hd => hmay.2 hd i
  cases hphase : s.phase i with
  | start => trivial
  | done r => trivial
  | running row seen writes rest email =>
    rw [hphase] at hok hheld hfree
    obtain ⟨hmid, hcurrent⟩ := hok
    refine ⟨?_, ?_⟩
    · cases hmid with
      | unwritten hscript => exact .unwritten hscript
      | marked row' hpending huser hstatus hpays => exact .marked row' hpending huser hstatus hpays
      | closed row' hpending huser hstatus => exact .closed row' hpending huser hstatus
      | paid row' quota updates u hpending huser hstatus hu hcredit =>
        have hsame := hheld (.credit row.userId quota updates) (by simp [Phase.writes])
        exact .paid row' quota updates u hpending huser hstatus (hsame.trans hu) hcredit
    · unfold Current at hcurrent ⊢
      cases hd : c.discipline with simp only [hd] at hcurrent ⊢
      | rowLock =>
        exact hcurrent
      | singleWriter =>
        exact ⟨by omega, fun heq => absurd heq (by omega), fun hne => absurd (hfree hd) hne⟩

theorem step_inv
    (hentry : ∀ j expected target, c.entry j = .updatePendingTopUpStatus expected target →
      target ≠ .success) {a : Action n} (h : Inv c order s) (hstep : step c s a = some t) :
    Inv c order t := by
  cases a with
  | advance i now => exact advance_inv hentry h hstep
  | abort i text =>
    simp only [step] at hstep
    split at hstep <;> cases hstep
    · exact h.fail _
  | others users =>
    simp only [step] at hstep
    split_ifs at hstep with hmay
    cases hstep
    exact h.others hmay

theorem inv_initial (c : Calls n) (users : List User) :
    Inv c order (initial n order users) := by
  refine ⟨fun i => trivial, fun i j _ hi => ?_, ?_, fun _ => rfl, rfl, by simp [initial]⟩
  · cases hd : c.discipline <;> rw [hd] at hi <;> cases hi
  · rw [if_neg fun h => h.1 h.2]
    rfl

/-! ### Runs -/

/-- What a step does to the order, the users and the credits. -/
theorem step_cases {a : Action n} (hstep : step c s a = some t) :
    (∃ i q, t = s.set i q) ∨
      (∃ i row seen writes email, s.phase i = .running row seen writes [] email ∧
        t = (s.commit writes).set i (.done (.ok ()))) ∨
      ∃ users, a = .others users ∧ t = { s with users := users, version := s.version + 1 } := by
  cases a with
  | advance i now =>
    simp only [step, advance] at hstep
    split at hstep
    · split_ifs at hstep
      exact Or.inl ⟨i, _, (Option.some.inj hstep).symm⟩
    · rename_i row seen writes rest email hphase
      split at hstep
      · exact Or.inr (Or.inl ⟨i, row, seen, writes, email, hphase, (Option.some.inj hstep).symm⟩)
      · exact Or.inl ⟨i, _, (Option.some.inj hstep).symm⟩
      · exact Or.inl ⟨i, _, (Option.some.inj hstep).symm⟩
      · split_ifs at hstep <;> exact Or.inl ⟨i, _, (Option.some.inj hstep).symm⟩
      · split_ifs at hstep <;> exact Or.inl ⟨i, _, (Option.some.inj hstep).symm⟩
    · cases hstep
  | abort i text =>
    simp only [step] at hstep
    split at hstep
    · cases hstep
    · exact Or.inl ⟨i, _, (Option.some.inj hstep).symm⟩
  | others users =>
    simp only [step] at hstep
    split_ifs at hstep
    exact Or.inr (Or.inr ⟨users, rfl, (Option.some.inj hstep).symm⟩)

/-- Only a pending order is written, and a step of the functions books what it credits. -/
theorem step_books {a : Action n} (h : Inv c order s) (hstep : step c s a = some t) :
    (t.row = s.row ∨ s.row.status = .pending) ∧
      ((∃ users, a = .others users ∧ t.credits = s.credits) ∨
        ∃ credits, t.credits = s.credits ++ credits ∧ Booked s.users t.users credits) := by
  rcases step_cases hstep with ⟨i, q, rfl⟩ | ⟨i, row, seen, writes, email, hphase, rfl⟩ | ⟨users, rfl, rfl⟩
  · exact ⟨Or.inl rfl, Or.inr ⟨[], (List.append_nil _).symm, booked_nil _⟩⟩
  · have hok := h.phases i
    rw [hphase] at hok
    by_cases hwrites : writes = []
    · rw [State.commit, if_pos hwrites]
      exact ⟨Or.inl rfl, Or.inr ⟨[], (List.append_nil _).symm, booked_nil _⟩⟩
    · obtain ⟨hpending, row', users, credits, hcommit, -, -, -, hbooked⟩ := commit_spec hok.1 hwrites
      rw [hok.2.row_eq hwrites] at hpending
      rw [hcommit]
      exact ⟨Or.inr hpending, Or.inr ⟨credits, rfl, hbooked⟩⟩
  · exact ⟨Or.inl rfl, Or.inl ⟨users, rfl, rfl⟩⟩

/-- For every order, whatever the functions called on it and however their transactions interleave
and abort: the order is credited at most once, to its user and within the quota; it is credited
exactly if it has become successful; a step of the functions changes the users' balances by what it
credits and by nothing else; and a status that is not pending never changes again. -/
theorem topUp_credited_once (c : Calls n)
    (hentry : ∀ i expected target, c.entry i = .updatePendingTopUpStatus expected target →
      target ≠ .success)
    (order : TopUp) (users : List User) (actions : List (Action n)) {s : State n}
    (hrun : run (step c) (initial n order users) actions = some s) :
    s.credits.length ≤ 1 ∧
      (s.credits ≠ [] ↔ order.status ≠ .success ∧ s.row.status = .success) ∧
      (∀ k ∈ s.credits, k.userId = order.userId ∧ 0 < k.quota ∧ k.balance ≤ maxQuota - 1) ∧
      (∀ a t, step c s a = some t → (∃ users, a = .others users ∧ t.credits = s.credits) ∨
        ∃ credits, t.credits = s.credits ++ credits ∧
          (∀ id, balance t.users id = (balance s.users id).map
            (· + (credits.map fun k => if k.userId = id then k.quota else 0).sum)) ∧
          ∀ k ∈ credits, balance t.users k.userId = some k.balance) ∧
      ∀ more t, run (step c) s more = some t → s.row.status ≠ .pending →
        t.row.status = s.row.status := by
  have hinv : Inv c order s :=
    run_inv (fun _ _ _ h hstep => step_inv hentry h hstep) (inv_initial c users) hrun
  refine ⟨?_, ?_, hinv.credits, fun a t hstep => (step_books hinv hstep).2, ?_⟩
  · rw [hinv.credited]
    split_ifs <;> omega
  · rw [← List.length_pos_iff, hinv.credited]
    split_ifs with h <;> simp [h]
  · intro more t hmore hstatus
    -- along the rest of the run the invariant holds and the order stays as it is
    have hkept : Inv c order t ∧ t.row = s.row := by
      refine run_inv (I := fun u => Inv c order u ∧ u.row = s.row) ?_ ⟨hinv, rfl⟩ hmore
      rintro u a v ⟨hu, hrow⟩ hstep
      refine ⟨step_inv hentry hu hstep, ?_⟩
      rcases (step_books hu hstep).1 with hsame | hpending
      · exact hsame.trans hrow
      · rw [hrow] at hpending
        exact absurd hpending hstatus
    rw [hkept.2]

/-- The callback and an administrator read the pending order together; the first to write completes
it. -/
theorem topUp_credited_once_two_readers :
    ∃ s : State 2,
      run (step ⟨.singleWriter, 500000, ![.rechargeWaffo, .manualCompleteTopUp]⟩)
          (initial 2 ⟨7, 3, 3, "t1", "card", .waffo, 10, 0, .pending⟩ [⟨7, 5, "", ""⟩])
          [.advance 0 20, .advance 1 20, .advance 0 20, .advance 0 20, .advance 0 20, .advance 1 21] =
        some s ∧
      s.credits = [⟨7, 1500000, 1500005⟩] ∧ balance s.users 7 = some 1500005 ∧
      s.credits.length ≤ 1 := by
  have hcredits : (run (step ⟨.singleWriter, 500000, ![.rechargeWaffo, .manualCompleteTopUp]⟩)
      (initial 2 ⟨7, 3, 3, "t1", "card", .waffo, 10, 0, .pending⟩ [⟨7, 5, "", ""⟩])
      [.advance 0 20, .advance 1 20, .advance 0 20, .advance 0 20, .advance 0 20, .advance 1 21]).map
        (fun s => (s.credits, balance s.users 7)) = some ([⟨7, 1500000, 1500005⟩], some 1500005) := by
    decide +kernel
  obtain ⟨s, hrun, hs⟩ := Option.map_eq_some_iff.1 hcredits
  refine ⟨s, hrun, congrArg Prod.fst hs, congrArg Prod.snd hs, (topUp_credited_once _ ?_ _ _ _ hrun).1⟩
  intro i expected target
  fin_cases i <;> simp

end TokenEra.TopUps.Race
