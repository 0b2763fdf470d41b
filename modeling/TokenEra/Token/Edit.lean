import TokenEra.Lib.Run
import TokenEra.Token.Model

/-!
# Edits of a token and consumption

Status-only `UpdateToken` requests and `DisableModelLimits` calls, each split into its read and its
write, interleaved with the statements by which `TryReserveTokenQuota`, `DecreaseTokenQuota` and
`IncreaseTokenQuota` move quota when they write to the database directly.

An edit writes the balance back that it has read. A consumption between its read and its write is
lost (`consumption_lost`); if there is none (`Undisturbed`), the balance is what is left of it
(`consumption_kept`).
-/

namespace TokenEra.Tokens.Edit

open Lib

inductive Request
  /-- `UpdateToken` with a non-empty `status_only`, by a user, with the token of the body. -/
  | updateToken (userId : Int) (statusOnly : String) (nonempty : statusOnly ≠ "") (token : Token)
  | disableModelLimits (id : Int)

inductive Phase
  | start
  | edited (token : Token)
  | done (result : Except EditError Unit)
deriving DecidableEq

def Phase.token? : Phase → Option Token
  | .edited token => some token
  | _ => none

/-- The answer of the reserve script, with a hash that was missing read in: `none` if Redis is
disabled. A failing script counts as a miss. -/
inductive CacheQuotaResult
  | insufficient
  | ok
  | miss
deriving DecidableEq, Repr

inductive Consumption
  | tryReserveTokenQuota (redis : Option CacheQuotaResult) (quota : Int) (unlimited : Bool)
  | decreaseTokenQuota (quota : Int)
  | increaseTokenQuota (quota : Int)
deriving DecidableEq, Repr

structure State (n : Nat) where
  token : Token
  /-- What the successful calls took, less what they gave back. -/
  consumed : Int
  phase : Fin n → Phase

inductive Action (n : Nat)
  | read (i : Fin n) (now : Int)
  | write (i : Fin n)
  | consume (call : Consumption) (now : Int)

structure Calls (n : Nat) where
  quotaPerUnit : ℚ
  request : Fin n → Request

variable {n : Nat} (c : Calls n)

def init (token : Token) : State n := ⟨token, 0, fun _ => .start⟩

def State.set (s : State n) (i : Fin n) (q : Phase) : State n := { s with phase := Function.update s.phase i q }

def readToken (row : Token) (quotaPerUnit : ℚ) (now : Int) : Request → Except EditError Token
  | .updateToken userId statusOnly _ token =>
    match checkRequest quotaPerUnit token with
    | .error e => .error e
    | .ok () =>
      if token.id = row.id ∧ userId = row.userId then editToken statusOnly token row now else .error .notFound
  | .disableModelLimits id => if id = row.id then .ok (Tokens.disableModelLimits row) else .error .notFound

def afterRead : Except EditError Token → Phase
  | .error e => .done (.error e)
  | .ok token => .edited token

/-- `TryReserveTokenQuota` in direct-write mode: the row afterwards, and whether the call returned
true. -/
def tryReserve (redis : Option CacheQuotaResult) (quota : Int) (unlimited : Bool) (now : Int) (row : Token) :
    Token × Bool :=
  if quota < 0 then (row, false)
  else if quota = 0 then (row, true)
  else if unlimited then (Tokens.decreaseTokenQuota quota now row, true)
  else
    match redis with
    | none | some .miss => reserveTokenQuotaDB quota now row
    | some .insufficient => (row, false)
    | some .ok => (row.addQuota (-quota) now, true)

def consume (now : Int) (row : Token) : Consumption → Token × Int
  | .tryReserveTokenQuota redis quota unlimited =>
    ((tryReserve redis quota unlimited now row).1, if (tryReserve redis quota unlimited now row).2 then quota else 0)
  | .decreaseTokenQuota quota => if quota < 0 then (row, 0) else (Tokens.decreaseTokenQuota quota now row, quota)
  | .increaseTokenQuota quota => if quota < 0 then (row, 0) else (Tokens.increaseTokenQuota quota now row, -quota)

def step (s : State n) : Action n → Option (State n)
  | .read i now =>
    match s.phase i with
    | .start => some (s.set i (afterRead (readToken s.token c.quotaPerUnit now (c.request i))))
    | _ => none
  | .write i =>
    match s.phase i with
    | .edited token => some ({ s with token := s.token.update token }.set i (.done (.ok ())))
    | _ => none
  | .consume call now =>
    some { s with token := (consume now s.token call).1, consumed := s.consumed + (consume now s.token call).2 }

/-! ### No consumption is lost -/

/-- The balance is what the calls have left of it, and the two quota columns add up to what they
did. -/
def ConsumptionKept (token₀ : Token) (s : State n) : Prop :=
  s.token.remainQuota = token₀.remainQuota - s.consumed ∧
    s.token.remainQuota + s.token.usedQuota = token₀.remainQuota + token₀.usedQuota

/-- Once every edit has finished. -/
def Kept (token₀ : Token) (s : State n) : Prop :=
  (∀ i, ∃ r, s.phase i = .done r) → ConsumptionKept token₀ s

/-- An edit writes only while the balance is the one that it has read. -/
def Undisturbed (s : State n) : Action n → Prop
  | .write i => ∀ token ∈ (s.phase i).token?, token.remainQuota = s.token.remainQuota
  | _ => True

instance (s : State n) (a : Action n) : Decidable (Undisturbed s a) :=
  match a with
  | .write i => inferInstanceAs (Decidable (∀ token ∈ (s.phase i).token?, _))
  | .read .. | .consume .. => .isTrue trivial

variable {c} {token₀ : Token}

/-- The row after an amount is taken from the balance and added to the used quota. -/
def Takes (row row' : Token) (quota : Int) : Prop :=
  row'.remainQuota = row.remainQuota - quota ∧ row'.usedQuota = row.usedQuota + quota

variable {row : Token}

theorem takes_nothing : Takes row row 0 := ⟨(sub_zero _).symm, (add_zero _).symm⟩

variable {quota now : Int}

theorem takes_addQuota (row : Token) (quota now : Int) : Takes row (row.addQuota (-quota) now) quota := by
  refine ⟨?_, ?_⟩
  · rw [remainQuota_addQuota, sub_eq_add_neg]
  · rw [usedQuota_addQuota, sub_neg_eq_add]

theorem takes_reserveTokenQuotaDB :
    Takes row (reserveTokenQuotaDB quota now row).1 (if (reserveTokenQuotaDB quota now row).2 then quota else 0) := by
  by_cases henough : quota ≤ row.remainQuota
  · simp only [reserveTokenQuotaDB, if_pos henough]
    exact takes_addQuota row quota now
  · simp only [reserveTokenQuotaDB, if_neg henough]
    exact takes_nothing

theorem takes_tryReserve (redis : Option CacheQuotaResult) (unlimited : Bool) :
    Takes row (tryReserve redis quota unlimited now row).1
      (if (tryReserve redis quota unlimited now row).2 then quota else 0) := by
  by_cases hneg : quota < 0
  · simp only [tryReserve, if_pos hneg]
    exact takes_nothing
  by_cases hzero : quota = 0
  · subst hzero
    exact takes_nothing
  by_cases hunlimited : unlimited = true
  · simp only [tryReserve, if_neg hneg, if_neg hzero, if_pos hunlimited]
    exact takes_addQuota row quota now
  simp only [tryReserve, if_neg hneg, if_neg hzero, if_neg hunlimited]
  rcases redis with _ | _ | _ | _
  · exact takes_reserveTokenQuotaDB
  · exact takes_nothing
  · exact takes_addQuota row quota now
  · exact takes_reserveTokenQuotaDB

theorem takes_consume (now : Int) (row : Token) (call : Consumption) :
    Takes row (consume now row call).1 (consume now row call).2 := by
  cases call with
  | tryReserveTokenQuota redis quota unlimited => exact takes_tryReserve redis unlimited
  | decreaseTokenQuota quota =>
    simp only [consume]
    split_ifs
    · exact takes_nothing
    · exact takes_addQuota row quota now
  | increaseTokenQuota quota =>
    simp only [consume]
    split_ifs
    · exact takes_nothing
    · have htakes := takes_addQuota row (-quota) now
      rwa [neg_neg] at htakes

theorem ConsumptionKept.consume {s : State n} (h : ConsumptionKept token₀ s) (call : Consumption) (now : Int) :
    ConsumptionKept token₀
      { s with token := (consume now s.token call).1, consumed := s.consumed + (consume now s.token call).2 } := by
  obtain ⟨hremain, hsum⟩ := h
  obtain ⟨hleft, hused⟩ := takes_consume now s.token call
  refine ⟨?_, ?_⟩
  · show (Edit.consume now s.token call).1.remainQuota = _ - (s.consumed + (Edit.consume now s.token call).2)
    omega
  · show (Edit.consume now s.token call).1.remainQuota + (Edit.consume now s.token call).1.usedQuota = _
    omega

theorem ConsumptionKept.step {s s' : State n} {a : Action n} (h : ConsumptionKept token₀ s) (ha : Undisturbed s a)
    (hstep : step c s a = some s') : ConsumptionKept token₀ s' := by
  cases a with
  | read i now =>
    simp only [Edit.step] at hstep
    split at hstep <;> cases hstep
    · exact h
  | write i =>
    simp only [Edit.step] at hstep
    split at hstep
    · rename_i token hi
      cases hstep
      have hsame : (s.token.update token).remainQuota = s.token.remainQuota := ha token (by rw [hi]; rfl)
      refine ⟨?_, ?_⟩
      · show (s.token.update token).remainQuota = _
        rw [hsame]
        exact h.1
      · show (s.token.update token).remainQuota + s.token.usedQuota = _
        rw [hsame]
        exact h.2
    · cases hstep
  | consume call now =>
    cases hstep
    exact h.consume call now

/-- No consumption is lost in a run in which each edit writes only while the balance is the one that
it has read. -/
theorem consumption_kept (c : Calls n) (token₀ : Token) (l : List (Action n)) (s : State n)
    (hrun : run (step c) (init token₀) l = some s)
    (hl : Along (step c) Undisturbed (init token₀) l) : Kept token₀ s := by
  have hstart : ConsumptionKept token₀ (init (n := n) token₀) := by simp [ConsumptionKept, init]
  exact fun _ => run_inv_along (fun _ _ _ h ha hstep => h.step ha hstep) hstart hl hrun

def limitedToken : Token where
  id := 1
  userId := 1
  key := "k"
  status := .enabled
  name := "token"
  createdTime := 0
  accessedTime := 0
  expiredTime := -1
  remainQuota := 100
  unlimitedQuota := false
  modelLimitsEnabled := false
  modelLimits := ""
  allowIps := none
  usedQuota := 0

def disabling : Calls 1 :=
  ⟨500000, fun _ => .updateToken 1 "true" (by decide) { limitedToken with status := .disabled }⟩

def editAfter (i : Fin 1) : List (Action 1) := [.consume (.decreaseTokenQuota 30) 5, .read i 6, .write i]

theorem consumption_kept_disable :
    ∃ s, run (step disabling) (init limitedToken) (editAfter 0) = some s ∧
      s.token.status = .disabled ∧ s.token.remainQuota = 70 ∧ Kept limitedToken s := by
  have hread : (run (step disabling) (init limitedToken) (editAfter 0)).map
    (fun s => (s.token.status, s.token.remainQuota)) =
      some (.disabled, 70) := by decide +kernel
  obtain ⟨s, hs, hst⟩ := Option.map_eq_some_iff.1 hread
  rw [Prod.mk.injEq] at hst
  exact ⟨s, hs, hst.1, hst.2, consumption_kept _ _ _ s hs (by decide +kernel)⟩

/-- The quota is reserved between the read and the write of the edit. -/
def editAround (i : Fin 1) : List (Action 1) := [.read i 5, .consume (.tryReserveTokenQuota none 30 false) 6, .write i]

/-- It is free again after the write. -/
theorem consumption_lost :
    ¬ ∀ (c : Calls 1) (token₀ : Token) (l : List (Action 1)) (s : State 1),
      run (step c) (init token₀) l = some s → Kept token₀ s := by
  intro h
  have hread : (run (step disabling) (init limitedToken) (editAround 0)).map
      (fun s => (s.phase 0, s.token.remainQuota, s.consumed)) = some (.done (.ok ()), 100, 30) := by decide +kernel
  obtain ⟨s, hs, hst⟩ := Option.map_eq_some_iff.1 hread
  rw [Prod.mk.injEq, Prod.mk.injEq] at hst
  obtain ⟨hdone, hremain, hconsumed⟩ := hst
  have hall : ∀ i, ∃ r, s.phase i = .done r := fun i => ⟨_, by rw [Subsingleton.elim i 0]; exact hdone⟩
  obtain ⟨hkept, -⟩ := h disabling limitedToken _ s hs hall
  rw [hremain, hconsumed] at hkept
  exact absurd hkept (by decide)

end TokenEra.Tokens.Edit
