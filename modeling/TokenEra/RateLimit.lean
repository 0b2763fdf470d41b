import Mathlib.Data.Int.Log
import TokenEra.Lib.Window

/-!
# The rate limiter in memory

`InMemoryRateLimiter` has a queue of times for each key; its users share one. Each calls `Init` with
an expiration of its own, of which the first is taken: from then on a background pass drops the
queues whose last time is older. A queue that is dropped is forgotten, so the limit of a key is kept
only if its window is over by then (`enforced_iff`).

A map is a function here, a `time.Duration` is in nanoseconds, and every call and every pass has the
mutex to itself.
-/

namespace TokenEra.RateLimit

open Lib

/-! ### `Duration.Seconds` -/

def roundHalfEven (x : ℚ) : Int :=
  if x - ⌊x⌋ < 1 / 2 then ⌊x⌋
  else if 1 / 2 < x - ⌊x⌋ then ⌊x⌋ + 1
  else if ⌊x⌋ % 2 = 0 then ⌊x⌋
  else ⌊x⌋ + 1

/-- The next `float64`, for numbers that are not too small or too large for 53 bits. -/
def roundDouble (x : ℚ) : ℚ :=
  if x = 0 then 0 else roundHalfEven (x / 2 ^ (Int.log 2 |x| - 52)) * 2 ^ (Int.log 2 |x| - 52)

/-- `int64(d.Seconds())`. -/
def seconds (d : Int) : Int :=
  let s := roundDouble (d.tdiv 1000000000 + roundDouble (d.tmod 1000000000 / 1000000000))
  if 0 ≤ s then ⌊s⌋ else ⌈s⌉

/-! ### The limiter -/

structure Limiter where
  /-- The queues, old to new; `none` until `Init`. -/
  store : Option (String → Option (List Int)) := none
  expirationDuration : Int := 0

def Limiter.init (l : Limiter) (expirationDuration : Int) : Limiter :=
  match l.store with
  | none => ⟨some fun _ => none, expirationDuration⟩
  | some _ => l

def isExpired (expirationDuration now : Int) (queue : List Int) : Bool :=
  match queue.getLast? with
  | none => true
  | some last => seconds expirationDuration < now - last

/-- A pass of `clearExpiredItems`, which runs if the first expiration was positive. -/
def Limiter.clearExpiredItems (l : Limiter) (now : Int) : Limiter :=
  match l.store with
  | none => l
  | some store =>
    if 0 < l.expirationDuration then
      { l with store := some fun key => (store key).filter fun queue => !isExpired l.expirationDuration now queue }
    else l

inductive Answer
  | allowed
  | refused
  | panics
deriving DecidableEq, Repr

def Limiter.set (l : Limiter) (store : String → Option (List Int)) (key : String) (queue : List Int) : Limiter :=
  { l with store := some (Function.update store key (some queue)) }

def Limiter.request (l : Limiter) (now : Int) (key : String) (maxRequestNum : Nat)
    (duration : Int) : Limiter × Answer :=
  match l.store with
  | none => (l, .panics)
  | some store =>
    match store key with
    | none => (l.set store key [now], .allowed)
    | some queue =>
      if queue.length < maxRequestNum then (l.set store key (queue ++ [now]), .allowed)
      else
        match queue with
        | [] => (l, .panics)
        | first :: rest => if duration ≤ now - first then (l.set store key (rest ++ [now]), .allowed) else (l, .refused)

/-! ### Runs -/

structure Rule where
  maxRequestNum : Nat
  pos : 1 ≤ maxRequestNum
  duration : Int

inductive Event
  | init (expirationDuration : Int)
  | request (key : String)
  | cleanup
deriving DecidableEq, Repr

variable (rules : String → Rule)

def step (l : Limiter) (now : Int) : Event → Limiter
  | .init expirationDuration => l.init expirationDuration
  | .request key => (l.request now key (rules key).maxRequestNum (rules key).duration).1
  | .cleanup => l.clearExpiredItems now

def isAllowed (l : Limiter) (now : Int) (key : String) (e : Event) : Bool :=
  e = .request key && (l.request now key (rules key).maxRequestNum (rules key).duration).2 = .allowed

def allowed (key : String) : Limiter → List (Int × Event) → List Int
  | _, [] => []
  | l, (now, e) :: es => (if isAllowed rules l now key e then [now] else []) ++ allowed key (step rules l now e) es

def Enforced (es : List (Int × Event)) : Prop :=
  ∀ key w, inWindow (rules key).duration w (allowed rules key {} es) ≤ (rules key).maxRequestNum

def firstInit (es : List (Int × Event)) : Option Int :=
  es.findSome? fun e => match e.2 with
    | .init expirationDuration => some expirationDuration
    | _ => none

/-! ### One key -/

def Limiter.queue (l : Limiter) (key : String) : List Int := (l.store.bind fun store => store key).getD []

def Covers (expirationDuration : Int) (rule : Rule) : Prop :=
  expirationDuration ≤ 0 ∨ rule.duration ≤ seconds expirationDuration + 1

/-- What was admitted and what is remembered, and that a limiter which is not initialized has
admitted nothing. -/
structure Inv (key : String) (now : Int) (l : Limiter) (history : List Int) : Prop where
  window : Window (rules key).maxRequestNum (rules key).duration now history (l.queue key)
  covers : l.store.isSome → Covers l.expirationDuration (rules key)

variable {rules} {key : String} {now : Int} {l : Limiter} {history : List Int}

variable {key' : String}

theorem queue_set (store : String → Option (List Int)) (queue : List Int)
    (h : l.store = some store) : (l.set store key' queue).queue key = if key = key' then queue else l.queue key := by
  by_cases hkey : key = key'
  · subst hkey
    simp [Limiter.queue, Limiter.set]
  · simp [Limiter.queue, Limiter.set, h, hkey]

theorem inv_clearExpiredItems (h : Inv rules key now l history) :
    Inv rules key now (l.clearExpiredItems now) history := by
  unfold Limiter.clearExpiredItems
  split
  · exact h
  rename_i store hstore
  split_ifs with hpositive
  swap
  · exact h
  refine ⟨?_, fun _ => h.covers (by rw [hstore]; rfl)⟩
  have hqueue : l.queue key = (store key).getD [] := by rw [Limiter.queue, hstore]; rfl
  have hwindow := h.window
  rw [hqueue] at hwindow
  show Window _ _ _ _ (((store key).filter fun queue => !isExpired l.expirationDuration now queue).getD [])
  cases hkey : store key with
  | none =>
    rw [hkey] at hwindow
    exact hwindow
  | some queue =>
    rw [hkey, Option.getD_some] at hwindow
    rw [Option.filter_some]
    cases hexpired : isExpired l.expirationDuration now queue with
    | false => exact hwindow
    | true =>
      have hcovers := (h.covers (by rw [hstore]; rfl)).resolve_left (not_le.2 hpositive)
      rw [Bool.not_true, if_neg Bool.false_ne_true, Option.getD_none]
      have hwhole := hwindow
      rw [← List.append_nil queue] at hwhole
      refine hwhole.cut ?_
      intro t ht
      obtain ⟨init, last, hlast⟩ := (List.eq_nil_or_concat queue).resolve_left (List.ne_nil_of_mem ht)
      rw [List.concat_eq_append] at hlast
      subst hlast
      have hold : seconds l.expirationDuration < now - last := by simpa [isExpired] using hexpired
      have hle := hwindow.le_last t ht
      omega

/-- A request that is allowed forgets times that are too old, if any, and is the last of the queue.
-/
theorem request_cases (l : Limiter) (now : Int) (key : String) (n : Nat) (d : Int) :
    ((l.request now key n d).1 = l ∧ (l.request now key n d).2 ≠ .allowed) ∨
      ∃ store first rest, l.store = some store ∧ l.request now key n d = (l.set store key (rest ++ [now]), .allowed) ∧
        l.queue key = first ++ rest ∧ (1 ≤ n → (l.queue key).length ≤ n → rest.length < n) ∧
          ∀ t ∈ first, t + d ≤ now := by
  cases hstore : l.store with
  | none =>
    left
    simp [Limiter.request, hstore]
  | some store =>
    have hqueue : l.queue key = (store key).getD [] := by rw [Limiter.queue, hstore]; rfl
    rw [hqueue]
    cases hkey : store key with
    | none =>
      right
      exact ⟨store, [], [], rfl, by simp [Limiter.request, hstore, hkey], rfl, fun hpos _ => hpos, nofun⟩
    | some queue =>
      by_cases hroom : queue.length < n
      · right
        exact ⟨store, [], queue, rfl, by simp [Limiter.request, hstore, hkey, hroom], rfl, fun _ _ => hroom, nofun⟩
      cases queue with
      | nil =>
        left
        simp only [Limiter.request, hstore, hkey, if_neg hroom]
        exact ⟨trivial, nofun⟩
      | cons first rest =>
        by_cases hold : d ≤ now - first
        · right
          refine ⟨store, [first], rest, rfl, ?_, rfl, fun _ hlen => hlen, ?_⟩
          · simp only [Limiter.request, hstore, hkey, if_neg hroom, if_pos hold]
          · intro t ht
            rw [List.mem_singleton.1 ht]
            omega
        · left
          simp only [Limiter.request, hstore, hkey, if_neg hroom, if_neg hold]
          exact ⟨trivial, nofun⟩

theorem inv_request (h : Inv rules key now l history) :
    Inv rules key now (step rules l now (.request key'))
      (history ++ if isAllowed rules l now key (.request key') then [now] else []) := by
  obtain ⟨hsame, hanswer⟩ | ⟨store, first, rest, hstore, hrequest, hqueue, hroom, hfirst⟩ :=
    request_cases l now key' (rules key').maxRequestNum (rules key').duration
  · have hnot : isAllowed rules l now key (.request key') = false := by
      by_cases hkey : key' = key
      · subst hkey
        simp [isAllowed, hanswer]
      · simp [isAllowed, hkey]
    rw [step, hsame, hnot, if_neg Bool.false_ne_true, List.append_nil]
    exact h
  · rw [step, hrequest]
    refine ⟨?_, fun _ => h.covers (by rw [hstore]; rfl)⟩
    rw [queue_set store _ hstore]
    by_cases hkey : key = key'
    · subst hkey
      have hwindow := h.window
      have hlen := hroom (rules key).pos hwindow.queue_le
      rw [hqueue] at hwindow
      rw [if_pos rfl, if_pos (by simp [isAllowed, hrequest])]
      exact (hwindow.cut hfirst).push hlen
    · rw [if_neg hkey, if_neg (by simp [isAllowed, Ne.symm hkey]), List.append_nil]
      exact h.window

theorem store_eq_none_of_step {e : Event} (h : (step rules l now e).store = none) : l.store = none := by
  cases e with
  | init d =>
    rw [step, Limiter.init] at h
    split at h
    · assumption
    · exact h
  | request key =>
    obtain ⟨hsame, -⟩ | ⟨store, first, rest, hstore, hrequest, -⟩ :=
      request_cases l now key (rules key).maxRequestNum (rules key).duration
    · rwa [step, hsame] at h
    · rw [step, hrequest] at h
      cases h
  | cleanup =>
    rw [step, Limiter.clearExpiredItems] at h
    split at h
    · exact h
    · split_ifs at h
      exact h

/-- As long as no queue is dropped early, the windows of a key are bounded. -/
theorem run_bounded (es : List (Int × Event)) (h : Inv rules key now l history)
    (htimes : (now :: es.map Prod.fst).Pairwise (· ≤ ·))
    (hfirst : l.store = none → ∀ d, firstInit es = some d → Covers d (rules key)) (w : Int) :
    inWindow (rules key).duration w (history ++ allowed rules key l es) ≤ (rules key).maxRequestNum := by
  induction es generalizing now l history with
  | nil =>
    rw [allowed, List.append_nil]
    exact h.window.bounded w
  | cons e es ih =>
    obtain ⟨time, e⟩ := e
    obtain ⟨hnow, hsorted⟩ := List.pairwise_cons.1 htimes
    have hinv : Inv rules key time l history := ⟨h.window.later (hnow time List.mem_cons_self), h.covers⟩
    rw [allowed, ← List.append_assoc]
    cases e with
    | init d =>
      rw [if_neg (by simp [isAllowed]), List.append_nil]
      cases hstore : l.store with
      | none =>
        refine ih ⟨?_, fun _ => ?_⟩ hsorted ?_
        · have hqueue : l.queue key = [] := by rw [Limiter.queue, hstore]; rfl
          have hwindow := hinv.window
          rw [hqueue] at hwindow
          simpa [step, Limiter.init, hstore, Limiter.queue] using hwindow
        · simpa [step, Limiter.init, hstore] using hfirst hstore d rfl
        · simp [step, Limiter.init, hstore]
      | some store =>
        have hstep : step rules l time (.init d) = l := by simp [step, Limiter.init, hstore]
        rw [hstep]
        exact ih hinv hsorted (by simp [hstore])
    | request key' =>
      exact ih (inv_request hinv) hsorted fun hnone => hfirst (store_eq_none_of_step hnone)
    | cleanup =>
      rw [if_neg (by simp [isAllowed]), List.append_nil]
      exact ih (inv_clearExpiredItems hinv) hsorted fun hnone => hfirst (store_eq_none_of_step (e := .cleanup) hnone)

/-! ### A queue that is dropped early -/

variable (rules) in
theorem allowed_fill (key : String) (m k : Nat) (l : Limiter) (store : String → Option (List Int))
    (rest : List (Int × Event))
    (hstore : l.store = some store) (hkey : store key = some (List.replicate m 0))
    (hlen : m + k ≤ (rules key).maxRequestNum) :
    ∃ l' store', allowed rules key l (List.replicate k (0, .request key) ++ rest) =
        List.replicate k 0 ++ allowed rules key l' rest ∧ l'.store = some store' ∧
          store' key = some (List.replicate (m + k) 0) ∧ l'.expirationDuration = l.expirationDuration := by
  induction k generalizing m l store with
  | zero => exact ⟨l, store, rfl, hstore, hkey, rfl⟩
  | succ k ih =>
    have hroom : m < (rules key).maxRequestNum := by omega
    have hrequest : l.request 0 key (rules key).maxRequestNum (rules key).duration =
        (l.set store key (List.replicate (m + 1) 0), .allowed) := by
      rw [List.replicate_succ']
      simp [Limiter.request, hstore, hkey, hroom]
    obtain ⟨l', store', hallowed, hstore', hkey', hduration⟩ := ih (m + 1)
      (l.set store key (List.replicate (m + 1) 0)) _ rfl (Function.update_self _ _ _) (by omega)
    refine ⟨l', store', ?_, hstore', ?_, hduration⟩
    · rw [List.replicate_succ, List.cons_append, allowed, step, hrequest,
        if_pos (by simp [isAllowed, hrequest]), hallowed]
      rfl
    · rw [hkey']
      congr 2
      omega

/-- As many requests as a key may make, a pass after the expiration, and one more. -/
def overLimit (rule : Rule) (key : String) (expirationDuration : Int) : List (Int × Event) :=
  (0, .init expirationDuration) :: (0, .request key) :: (List.replicate (rule.maxRequestNum - 1) (0, .request key) ++
    [(seconds expirationDuration + 1, .cleanup), (seconds expirationDuration + 1, .request key)])

theorem allowed_overLimit {d : Int} (hd : 0 < d) :
    allowed rules key {} (overLimit (rules key) key d) = List.replicate (rules key).maxRequestNum
      0 ++ [seconds d + 1] := by
  obtain ⟨l, store, hallowed, hstore, hkey, hduration⟩ := allowed_fill rules key 1 ((rules key).maxRequestNum - 1)
    ⟨some (Function.update (fun _ => none) key (some [0])), d⟩ _
    [(seconds d + 1, .cleanup), (seconds d + 1, .request key)] rfl (Function.update_self _ _ _)
      (by have := (rules key).pos; omega)
  have hpass : (l.clearExpiredItems (seconds d + 1)).store =
      some fun key => (store key).filter fun queue => !isExpired d (seconds d + 1) queue := by
    simp only [Limiter.clearExpiredItems, hstore, hduration, if_pos hd]
  have hdropped : (store key).filter (fun queue => !isExpired d (seconds d + 1) queue) = none := by
    rw [hkey, Option.filter_some, if_neg]
    rw [Nat.add_comm, List.replicate_succ']
    simp [isExpired]
  have hlast : allowed rules key l [(seconds d + 1, .cleanup), (seconds d + 1, .request key)] = [seconds d + 1] := by
    simp [allowed, isAllowed, step, Limiter.request, hpass, hdropped]
  have hfirst : allowed rules key {} (overLimit (rules key) key d) = 0 :: allowed rules key
      ⟨some (Function.update (fun _ => none) key (some [0])), d⟩
        (List.replicate ((rules key).maxRequestNum - 1) (0, .request key) ++
        [(seconds d + 1, .cleanup), (seconds d + 1, .request key)]) := by
    simp [overLimit, allowed, isAllowed, step, Limiter.init, Limiter.request, Limiter.set]
  rw [hfirst, hallowed, hlast, ← List.cons_append, ← List.replicate_succ, Nat.sub_add_cancel (rules key).pos]

theorem roundHalfEven_nonneg {x : ℚ} (h : 0 ≤ x) : 0 ≤ roundHalfEven x := by
  have := Int.floor_nonneg.2 h
  unfold roundHalfEven
  split_ifs <;> omega

theorem roundDouble_nonneg {x : ℚ} (h : 0 ≤ x) : 0 ≤ roundDouble x := by
  unfold roundDouble
  split_ifs
  · exact le_rfl
  · have hround : 0 ≤ roundHalfEven (x / 2 ^ (Int.log 2 |x| - 52)) := roundHalfEven_nonneg (by positivity)
    exact mul_nonneg (by exact_mod_cast hround) (by positivity)

theorem seconds_nonneg {d : Int} (h : 0 ≤ d) : 0 ≤ seconds d := by
  have hparts : (0 : ℚ) ≤ d.tdiv 1000000000 + roundDouble (d.tmod 1000000000 / 1000000000) := by
    refine add_nonneg ?_ (roundDouble_nonneg (div_nonneg ?_ (by norm_num)))
    · exact_mod_cast Int.tdiv_nonneg h (by norm_num)
    · exact_mod_cast Int.tmod_nonneg _ h
  rw [seconds, if_pos (roundDouble_nonneg hparts)]
  exact Int.floor_nonneg.2 (roundDouble_nonneg hparts)

variable (rules)

/-- **Every limit is enforced in every run exactly if the first expiration is not positive or no
window is longer than it, by more than the second that a pass waits in any case.** -/
theorem enforced_iff (expirationDuration : Int) :
    (∀ es, (es.map Prod.fst).Pairwise (· ≤ ·) → firstInit es = some expirationDuration → Enforced rules es) ↔
      ∀ key, Covers expirationDuration (rules key) := by
  constructor
  · intro henforced key
    by_contra hcovers
    obtain ⟨hpositive, hlong⟩ := not_or.1 hcovers
    rw [not_le] at hpositive hlong
    have hseconds := seconds_nonneg hpositive.le
    have hover := henforced (overLimit (rules key) key expirationDuration) ?_ rfl key 0
    · rw [allowed_overLimit hpositive, inWindow, List.countP_append, List.countP_replicate,
        List.countP_cons_of_pos (by simp; omega), if_pos (by simp; omega)] at hover
      simp at hover
    · have htimes : (overLimit (rules key) key expirationDuration).map Prod.fst =
          List.replicate ((rules key).maxRequestNum - 1 + 2) 0 ++ List.replicate 2
            (seconds expirationDuration + 1) := by
        simp [overLimit, List.replicate_succ]
      rw [htimes]
      refine List.pairwise_append.2
        ⟨List.pairwise_replicate.2 (.inr le_rfl), List.pairwise_replicate.2 (.inr le_rfl), ?_⟩
      intro a ha b hb
      rw [List.eq_of_mem_replicate ha, List.eq_of_mem_replicate hb]
      omega
  · intro hcovers es htimes hfirst key w
    cases es with
    | nil => cases hfirst
    | cons e es =>
      have hinv : Inv rules key e.1 {} [] := ⟨window_nil _ _ _, fun hstore => by cases hstore⟩
      refine run_bounded (e :: es) hinv (List.pairwise_cons.2 ⟨?_, htimes⟩) (fun _ d hd => ?_) w
      · intro time htime
        rcases List.mem_cons.1 htime with rfl | htime
        · exact le_rfl
        · exact (List.pairwise_cons.1 htimes).1 time htime
      · rw [hfirst] at hd
        cases hd
        exact hcovers key

/-- One request in an hour, and the expiration of twenty minutes: the second request is allowed
after 1201 seconds. -/
theorem allowed_twice_in_an_hour :
    let rules : String → Rule := fun _ => ⟨1, le_rfl, 3600⟩
    let es := [(0, Event.init 1200000000000), (0, .request "k"), (1201, .cleanup), (1201, .request "k")]
    allowed rules "k" {} es = [0, 1201] ∧ ¬ Enforced rules es := by
  intro rules es
  have hallowed : allowed rules "k" {} es = [0, 1201] := by decide +kernel
  refine ⟨hallowed, fun h => ?_⟩
  have hbound := h "k" 0
  rw [hallowed] at hbound
  exact absurd hbound (by decide)

end TokenEra.RateLimit
