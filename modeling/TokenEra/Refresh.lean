import Mathlib.Tactic

/-!
# The refresh of the web client's session

`createRefreshRunner`, with the runtime that `runRefresh` gives it. A run asks the server for a new
bundle. Some answers make it ask again: a lost race, after a delay, and once a session that is not
the expected one. The epoch counts the logins and logouts of the page; it can change whenever the
run waits, and then the run is superseded. A superseded run has no effect, and any run has at most
one last effect (`refresh_guarded`).

A call of `run` is one turn here (`turn`), which ends the run or calls for another. What a request
carries is left out.
-/

namespace TokenEra.Refresh

variable {Bundle : Type}

/-- The data of a response that is a record: `parseBundle` was applied to its `data`. -/
structure ResponseData (Bundle : Type) where
  success : Bool
  code : Option String
  bundle : Option Bundle

structure Response (Bundle : Type) where
  /-- `0` where there was none. -/
  status : Int
  data : Option (ResponseData Bundle)

inductive BootstrapState
  | idle
  | complete
deriving DecidableEq, Repr

inductive Call (Bundle : Type)
  | request
  | wait (delay : Nat)
  | acceptBundle (bundle : Bundle)
  | clear (synchronizeTabs : Bool) (bootstrapState : BootstrapState)
  | markTransient

inductive RefreshOutcome (Bundle : Type)
  | authenticated (bundle : Bundle)
  | anonymous
  | superseded
  | transientError
  | outOfSync (code : String)

/-- What the run meets: the responses, and how often the epoch changes while each request and each
wait is awaited. -/
structure World (Bundle : Type) where
  response : Nat → Response Bundle
  duringRequest : Nat → Nat
  duringWait : Nat → Nat

/-- `authEpoch`, the number of requests so far, and the calls so far, each with whether the run was
current at that moment. -/
structure State (Bundle : Type) where
  authEpoch : Nat
  requests : Nat := 0
  calls : List (Call Bundle × Bool) := []

def refreshRaceDelays : List Nat := [80, 200, 500]

section Runner

variable (world : World Bundle) (refreshEpoch : Nat)

def State.isCurrent (s : State Bundle) : Bool := s.authEpoch = refreshEpoch

def State.call (s : State Bundle) (call : Call Bundle) : State Bundle :=
  { s with calls := s.calls ++ [(call, s.isCurrent refreshEpoch)] }

def State.request (s : State Bundle) : State Bundle :=
  let s := s.call refreshEpoch .request
  { s with requests := s.requests + 1, authEpoch := s.authEpoch + world.duringRequest s.requests }

def State.wait (s : State Bundle) (delay : Nat) : State Bundle :=
  let s := s.call refreshEpoch (.wait delay)
  { s with authEpoch := s.authEpoch + world.duringWait s.requests }

/-- `applyAuthBundle`. -/
def State.acceptBundle (s : State Bundle) (bundle : Bundle) : State Bundle :=
  let s := s.call refreshEpoch (.acceptBundle bundle)
  { s with authEpoch := s.authEpoch + 1 }

/-- `clearAuthentication`, except that an idle state without the other tabs is no new epoch. -/
def State.clear (s : State Bundle) (synchronizeTabs : Bool)
    (bootstrapState : BootstrapState := .complete) : State Bundle :=
  let s := s.call refreshEpoch (.clear synchronizeTabs bootstrapState)
  if !synchronizeTabs && bootstrapState = .idle then s else { s with authEpoch := s.authEpoch + 1 }

def State.markTransient (s : State Bundle) : State Bundle := s.call refreshEpoch .markTransient

inductive Turn (Bundle : Type)
  | done (outcome : RefreshOutcome Bundle) (s : State Bundle)
  | again (raceAttempt : Nat) (allowMismatchRetry : Bool) (s : State Bundle)

/-- `abandonIfSuperseded`, with what follows it. -/
def unlessSuperseded (s : State Bundle) (next : State Bundle → Turn Bundle) : Turn Bundle :=
  if s.isCurrent refreshEpoch then next s else .done .superseded s

def turn (raceAttempt : Nat) (allowMismatchRetry : Bool) (s : State Bundle) : Turn Bundle :=
  unlessSuperseded refreshEpoch s fun s =>
    let response := world.response s.requests
    unlessSuperseded refreshEpoch (s.request world refreshEpoch) fun s =>
      let code := response.data.bind ResponseData.code
      match (response.data.filter ResponseData.success).bind ResponseData.bundle with
      | some bundle => .done (.authenticated bundle) (s.acceptBundle refreshEpoch bundle)
      | none =>
        if response.status = 409 ∧ code = some "AUTH_REFRESH_RACE" then
          match refreshRaceDelays[raceAttempt]? with
          | some delay => .again (raceAttempt + 1) allowMismatchRetry (s.wait world refreshEpoch delay)
          | none =>
            unlessSuperseded refreshEpoch s fun s =>
            .done (.outOfSync "AUTH_REFRESH_RACE") (s.clear refreshEpoch false)
        else if response.status = 409 ∧ code = some "AUTH_SESSION_MISMATCH" then
          if allowMismatchRetry then
            unlessSuperseded refreshEpoch s fun s => .again 0 false (s.clear refreshEpoch false .idle)
          else
            unlessSuperseded refreshEpoch s fun s =>
              .done (.outOfSync "AUTH_SESSION_MISMATCH") (s.clear refreshEpoch false)
        else if response.status = 401 then
          unlessSuperseded refreshEpoch s fun s => .done .anonymous (s.clear refreshEpoch true)
        else if response.status = 0 ∨ 500 ≤ response.status ∨ response.status = 429 then
          .done .transientError (s.markTransient refreshEpoch)
        else
          unlessSuperseded refreshEpoch s fun s =>
            .done (.outOfSync (code.getD "AUTH_INVALID_REFRESH_RESPONSE")) (s.clear refreshEpoch false)

/-! ### One turn -/

def budget (raceAttempt : Nat) (allowMismatchRetry : Bool) :
    Nat := 3 - raceAttempt + 1 + if allowMismatchRetry then 4 else 0

def Call.isLast : Call Bundle → Bool
  | .acceptBundle _ => true
  | .clear _ bootstrapState => bootstrapState ≠ .idle
  | .markTransient => true
  | _ => false

def Call.isRequest : Call Bundle → Bool
  | .request => true
  | _ => false

/-- Requests and waits apart, a call is an effect, and needs a run that is current. -/
def Guarded (entry : Call Bundle × Bool) : Prop :=
  match entry.1 with
  | .request | .wait _ => True
  | _ => entry.2 = true

/-- At most so many requests, every effect of a current run, and at most one last effect, at the
end. -/
structure Proper (n : Nat) (calls : List (Call Bundle × Bool)) : Prop where
  requests : calls.countP (fun entry => entry.1.isRequest) ≤ n
  guarded : ∀ entry ∈ calls, Guarded entry
  last : ∃ before after, calls = before ++ after ∧ after.length ≤ 1 ∧ (∀ entry ∈ before, entry.1.isLast = false) ∧
    ∀ entry ∈ after, entry.1.isRequest = false

variable {raceAttempt : Nat} {allowMismatchRetry : Bool} {s : State Bundle}

theorem proper_nil (n : Nat) : Proper n ([] : List (Call Bundle × Bool)) :=
  ⟨Nat.zero_le n, nofun, [], [], rfl, Nat.zero_le 1, nofun, nofun⟩

theorem proper_single {call : Call Bundle} (h : call.isRequest = false) : Proper 0 [(call, true)] := by
  refine ⟨by simp [h], ?_, [], [(call, true)], rfl, le_rfl, nofun, ?_⟩
  · intro entry hentry
    rw [List.mem_singleton.1 hentry, Guarded]
    split <;> trivial
  · intro entry hentry
    rw [List.mem_singleton.1 hentry]
    exact h

theorem Proper.cons {n : Nat} {calls : List (Call Bundle × Bool)} (h : Proper n calls) {entry : Call Bundle × Bool}
    (hguarded : Guarded entry) (hlast : entry.1.isLast = false) :
    Proper (n + if entry.1.isRequest then 1 else 0) (entry :: calls) := by
  obtain ⟨before, after, rfl, hlength, hbefore, hafter⟩ := h.last
  refine ⟨?_, List.forall_mem_cons.2 ⟨hguarded, h.guarded⟩, entry :: before, after, rfl, hlength,
    List.forall_mem_cons.2 ⟨hlast, hbefore⟩, hafter⟩
  rw [List.countP_cons]
  exact Nat.add_le_add_right h.requests _

theorem Proper.mono {n m : Nat} {calls : List (Call Bundle × Bool)} (h : Proper n calls)
    (hle : n ≤ m) : Proper m calls :=
  ⟨h.requests.trans hle, h.guarded, h.last⟩

theorem Proper.request {n : Nat} {calls : List (Call Bundle × Bool)} (h : Proper n calls) :
    Proper (n + 1) ((.request, true) :: calls) := by
  have hguarded : Guarded ((.request : Call Bundle), true) := trivial
  exact h.cons hguarded rfl

/-- What a turn does: it ends the run, or it calls for another after one request, with less of the
budget. -/
inductive TurnSpec (raceAttempt : Nat) (allowMismatchRetry : Bool) (s : State Bundle) : Turn Bundle → Prop
  | done {outcome : RefreshOutcome Bundle} {s' : State Bundle} (calls : List (Call Bundle × Bool))
      (hcalls : s'.calls = s.calls ++ calls) (hproper : Proper 1 calls) :
      TurnSpec raceAttempt allowMismatchRetry s (.done outcome s')
  | again {raceAttempt' : Nat} {allow' : Bool} {s' : State Bundle} (entry : Call Bundle × Bool)
      (hcalls : s'.calls = s.calls ++ [(.request, true), entry]) (hguarded : Guarded entry)
      (hentry : entry.1.isLast = false ∧ entry.1.isRequest = false)
      (hbudget : budget raceAttempt' allow' < budget raceAttempt allowMismatchRetry) :
      TurnSpec raceAttempt allowMismatchRetry s (.again raceAttempt' allow' s')

theorem turnSpec_last {outcome : RefreshOutcome Bundle} {s' : State Bundle} (call : Call Bundle)
    (hcalls : s'.calls = s.calls ++ [(.request, true), (call, true)]) (hcall : call.isRequest = false) :
    TurnSpec raceAttempt allowMismatchRetry s (.done outcome s') :=
  .done _ hcalls (proper_single hcall).request

theorem turn_spec (raceAttempt : Nat) (allowMismatchRetry : Bool) (s : State Bundle) :
    TurnSpec raceAttempt allowMismatchRetry s (turn world refreshEpoch raceAttempt allowMismatchRetry s) := by
  unfold turn
  by_cases hcurrent : s.isCurrent refreshEpoch = true
  swap
  · rw [unlessSuperseded, if_neg hcurrent]
    exact .done [] (List.append_nil _).symm (proper_nil 1)
  rw [unlessSuperseded, if_pos hcurrent]
  obtain ⟨t, ht⟩ : ∃ t, s.request world refreshEpoch = t := ⟨_, rfl⟩
  have hcalls : t.calls = s.calls ++ [(.request, true)] := by
    rw [← ht]
    simp [State.request, State.call, hcurrent]
  rw [ht]
  -- after the request, and with no wait since: every later check is about the same state
  by_cases hsame : t.isCurrent refreshEpoch = true
  swap
  · rw [unlessSuperseded, if_neg hsame]
    exact .done _ hcalls (proper_nil 0).request
  have hnext : ∀ next : State Bundle → Turn Bundle, unlessSuperseded refreshEpoch t next = next t := by
    intro next
    rw [unlessSuperseded, if_pos hsame]
  have hlast : ∀ (call : Call Bundle), (t.call refreshEpoch call).calls = s.calls ++
      [(.request, true), (call, true)] := by
    intro call
    simp [State.call, hcalls, hsame]
  rw [hnext]
  dsimp only
  split
  · exact turnSpec_last _ (hlast _) rfl
  split_ifs with hrace hmismatch hallow hanonymous htransient
  · cases hdelay : refreshRaceDelays[raceAttempt]? with
    | some delay =>
      refine .again (.wait delay, true) (hlast _) trivial ⟨rfl, rfl⟩ ?_
      have hlt := (List.getElem?_eq_some_iff.1 hdelay).1
      have : refreshRaceDelays.length = 3 := rfl
      unfold budget
      omega
    | none =>
      dsimp only
      rw [hnext]
      exact turnSpec_last _ (hlast _) rfl
  · rw [hnext]
    refine .again (.clear false .idle, true) (hlast _) rfl ⟨rfl, rfl⟩ ?_
    simp only [budget, hallow, if_true, Bool.false_eq_true, if_false]
    omega
  all_goals first | rw [hnext]; exact turnSpec_last _ (hlast _) rfl | exact turnSpec_last _ (hlast _) rfl

end Runner

/-! ### A run -/

/-- `run`: a turn that calls for another has less of the budget. -/
def run (world : World Bundle) (refreshEpoch raceAttempt : Nat) (allowMismatchRetry : Bool) (s : State Bundle) :
    RefreshOutcome Bundle × State Bundle :=
  match _h : turn world refreshEpoch raceAttempt allowMismatchRetry s with
  | .done outcome s => (outcome, s)
  | .again raceAttempt' allow' s' => run world refreshEpoch raceAttempt' allow' s'
termination_by budget raceAttempt allowMismatchRetry
decreasing_by
  have hspec := turn_spec world refreshEpoch raceAttempt allowMismatchRetry s
  rw [_h] at hspec
  cases hspec
  assumption

theorem run_proper (world : World Bundle) (refreshEpoch raceAttempt : Nat)
    (allowMismatchRetry : Bool) (s : State Bundle) :
    ∃ calls, (run world refreshEpoch raceAttempt allowMismatchRetry s).2.calls = s.calls ++ calls ∧
      Proper (budget raceAttempt allowMismatchRetry) calls := by
  have hspec := turn_spec world refreshEpoch raceAttempt allowMismatchRetry s
  unfold run
  split
  · rename_i outcome s' h
    rw [h] at hspec
    obtain ⟨calls, hcalls, hproper⟩ | _ := hspec
    refine ⟨calls, hcalls, hproper.mono ?_⟩
    unfold budget
    omega
  · rename_i raceAttempt' allow' s' h
    rw [h] at hspec
    obtain _ | ⟨entry, hcalls, hguarded, ⟨hlast, hrequest⟩, hbudget⟩ := hspec
    obtain ⟨calls, hrest, hproper⟩ := run_proper world refreshEpoch raceAttempt' allow' s'
    have hquiet := hproper.cons hguarded hlast
    rw [if_neg (by simp [hrequest])] at hquiet
    refine ⟨_, ?_, hquiet.request.mono hbudget⟩
    rw [hrest, hcalls, List.append_assoc]
    rfl
termination_by budget raceAttempt allowMismatchRetry

/-- **A run sends at most eight requests and stops, has effects only while it is current, and after
its one last effect, if any, it does nothing more.** -/
theorem refresh_guarded (world : World Bundle) (refreshEpoch authEpoch : Nat) :
    Proper 8 (run world refreshEpoch 0 true ⟨authEpoch, 0, []⟩).2.calls := by
  obtain ⟨calls, hcalls, hproper⟩ := run_proper world refreshEpoch 0 true ⟨authEpoch, 0, []⟩
  rw [hcalls]
  exact hproper

end TokenEra.Refresh
