import TokenEra.GeminiToChat.Stream

/-!
# The finish reason of a Gemini stream

`finishEmitted` keeps a `STOP` and the end of the stream from sending a finish reason twice, but a
chunk that has a finish reason itself (`Candidate.ownFinish`) sends it in any case. So there is
exactly one finish reason if at most one chunk has its own and no `STOP` comes before it. An empty
reason beside a call counts as none in `convertChunk`, and a later reason is then sent where the
calls should decide.
-/

namespace TokenEra.GeminiToChat

open Lib TokenUsage ChatToClaude Responses

variable {A : Type*}

/-! ### What is sent -/

def finishes (chunks : List (Chunk Usage)) : List String := (choicesOf chunks).filterMap (·.finish)

theorem finishes_append (l l' : List (Chunk Usage)) : finishes (l ++ l') = finishes l ++ finishes l' := by
  rw [finishes, choicesOf_append, List.filterMap_append, finishes, finishes]

section Sent

variable (marshal : A → Option String)

theorem streamChunks_cons (s : State) (x : Candidate A × Env) (stream : List (Candidate A × Env)) (model : String) :
    streamChunks marshal s (x :: stream) model =
      (convertChunk marshal s ([x.1], x.2)).2 ++ streamChunks marshal
        (convertChunk marshal s ([x.1], x.2)).1 stream model := by
  simp only [streamChunks, andThen, List.map_cons, feed_cons, List.append_assoc]

theorem stopReason_ne_empty (s : State) : s.stopReason ≠ "" := by
  rw [State.stopReason]
  split_ifs <;> decide

theorem finish_stopReason (d : Delta) (s : State) : (⟨d, some s.stopReason⟩ : Choice).finish = some s.stopReason := by
  rw [Choice.finish, Option.filter_some_pos]
  simpa using stopReason_ne_empty s

theorem finishes_convertChunk (s : State) (x : Candidate A × Env) :
    finishes (convertChunk marshal s ([x.1], x.2)).2 =
      (x.1.ownFinish marshal).toList ++
        if x.1.finishReason = some "STOP" ∧ (s.next marshal x).finishEmitted = false then
          [(s.next marshal x).stopReason]
        else [] := by
  rw [finishes, choices_convertChunk]
  have hown := finish_sentChoice marshal x
  split_ifs <;> cases hcase : x.1.ownFinish marshal <;> simp [hown, hcase, finish_stopReason]

theorem finishes_finalize (model : String) (s : State) :
    finishes (finalize model s).2 = if s.finishEmitted then [] else [s.stopReason] := by
  rw [finalize]
  split_ifs
  · rfl
  · show List.filterMap _ [_] = _
    rw [List.filterMap_cons_some (finish_stopReason _ s), List.filterMap_nil]

/-- After the finish reason only those that chunks have themselves are sent. -/
theorem finishes_emitted (s : State) (h : s.finishEmitted = true) (stream : List (Candidate A × Env)) (model : String) :
    finishes (streamChunks marshal s stream model) = stream.filterMap fun x => x.1.ownFinish marshal := by
  induction stream generalizing s with
  | nil =>
    show finishes (finalize model s).2 = []
    rw [finishes_finalize, if_pos h]
  | cons x stream ih =>
    have hnext : (s.next marshal x).finishEmitted = true := by simp [State.next, h]
    rw [streamChunks_cons, finishes_append, finishes_convertChunk, if_neg (by simp [hnext]), List.append_nil,
      convertChunk_single, if_neg (by simp [hnext]), ih _ hnext]
    cases hcase : x.1.ownFinish marshal <;> simp [hcase]

end Sent

/-! ### What should be sent -/

/-- The finish reasons that are right for a stream, where `saw` says that a call came before: that
of the first reason if it is not `STOP` and comes without a call, otherwise `tool_calls` if there
was a call up to it, and `stop` if not. -/
def Right (saw : Bool) : List (Candidate A × Env) → String → Prop
  | [], r => r = if saw then "tool_calls" else "stop"
  | x :: stream, r =>
    match x.1.finishReason with
    | none => Right (saw || decide (x.1.calls ≠ [])) stream r
    | some reason =>
      if reason ≠ "STOP" ∧ x.1.calls = [] then r = "length" ∨ r = "content_filter"
      else r = if saw || decide (x.1.calls ≠ []) then "tool_calls" else "stop"

def Candidate.EndsItself (marshal : A → Option String) (c : Candidate A) : Prop :=
  if c.calls = [] then ∃ reason, c.finishReason = some reason ∧ reason ≠ "STOP"
  else (∀ call ∈ c.calls, marshal call.arguments = none) ∨
    ∃ reason, c.finishReason = some reason ∧ reason ≠ "" ∧ reason ≠ "STOP"

/-- Before a chunk that ends the stream itself there is none such, no `STOP`, and no empty reason
unless the chunk has calls. -/
def EndsOnce (marshal : A → Option String) (stream : List (Candidate A × Env)) : Prop :=
  stream.Pairwise fun x y => y.1.EndsItself marshal →
    ¬ x.1.EndsItself marshal ∧ x.1.finishReason ≠ some "STOP" ∧ (y.1.calls = [] → x.1.finishReason ≠ some "")

section Right

variable {marshal : A → Option String}

variable {c : Candidate A} {r : String} {stream : List (Candidate A × Env)}

theorem written_eq_nil_iff : c.written marshal = [] ↔ ∀ call ∈ c.calls, marshal call.arguments = none := by
  rw [Candidate.written, List.filterMap_eq_nil_iff]
  simp

theorem hasNonStopFinish_iff :
    c.hasNonStopFinish = true ↔ ∃ reason, c.finishReason = some reason ∧ reason ≠ "" ∧ reason ≠ "STOP" := by
  rw [Candidate.hasNonStopFinish]
  cases c.finishReason <;> simp [Option.filter]

theorem ownFinish_isSome : (c.ownFinish marshal).isSome ↔ c.EndsItself marshal := by
  rw [Candidate.ownFinish, Candidate.EndsItself]
  by_cases hcalls : c.calls = []
  · rw [if_neg (not_not.2 hcalls), if_pos hcalls, Option.isSome_map]
    cases c.finishReason <;> simp [Option.filter]
  · rw [if_pos hcalls, if_neg hcalls, ← written_eq_nil_iff, ← hasNonStopFinish_iff]
    by_cases hwritten : c.written marshal = [] <;> cases hasNonStop : c.hasNonStopFinish <;> simp [hwritten]

theorem ownFinish_eq_none : c.ownFinish marshal = none ↔ ¬ c.EndsItself marshal := by
  rw [← ownFinish_isSome, Option.not_isSome_iff_eq_none]

theorem ownFinish_of_calls (hcalls : c.calls ≠ []) (h : c.ownFinish marshal = some r) :
    r = "tool_calls" := by
  rw [Candidate.ownFinish, if_pos hcalls] at h
  split_ifs at h
  exact (Option.some.inj h).symm

theorem ownFinish_of_no_calls (hcalls : c.calls = []) (h : c.ownFinish marshal = some r) :
    r = "length" ∨ r = "content_filter" := by
  rw [Candidate.ownFinish, if_neg (not_not.2 hcalls), Option.map_eq_some_iff] at h
  obtain ⟨reason, hreason, rfl⟩ := h
  obtain ⟨-, hstop⟩ := Option.filter_eq_some_iff.1 hreason
  rw [finishReasonOfGemini, if_neg (by simpa using hstop)]
  split_ifs <;> simp

theorem written_iff_of_not_ends (h : ¬ c.EndsItself marshal) :
    decide (c.written marshal ≠ []) = decide (c.calls ≠ []) := by
  rw [decide_eq_decide]
  constructor
  · intro hwritten hcalls
    exact hwritten (written_eq_nil marshal hcalls)
  · intro hcalls hwritten
    rw [Candidate.EndsItself, if_neg hcalls] at h
    exact h (.inl (written_eq_nil_iff.1 hwritten))

/-- With a call before, and every end by a chunk itself beside calls, the calls decide. -/
theorem right_true_iff (h : ∀ x ∈ stream, x.1.EndsItself marshal → x.1.calls ≠ []) :
    Right true stream r ↔ r = "tool_calls" := by
  induction stream with
  | nil => simp [Right]
  | cons x stream ih =>
    obtain ⟨hx, hstream⟩ := List.forall_mem_cons.1 h
    rw [Right]
    cases hreason : x.1.finishReason with
    | none => simpa using ih hstream
    | some reason =>
      have hneg : ¬ (reason ≠ "STOP" ∧ x.1.calls = []) := by
        rintro ⟨hstop, hcalls⟩
        refine hx ?_ hcalls
        rw [Candidate.EndsItself, if_pos hcalls]
        exact ⟨reason, hreason, hstop⟩
      simp [hneg]

theorem endsOnce_of_none (h : ∀ x ∈ stream, ¬ x.1.EndsItself marshal) :
    EndsOnce marshal stream :=
  List.pairwise_of_forall_mem_list fun _ _ y hy hends => absurd hends (h y hy)

theorem filterMap_ownFinish_eq_nil :
    (stream.filterMap fun x => x.1.ownFinish marshal) = [] ↔ ∀ x ∈ stream, ¬ x.1.EndsItself marshal := by
  rw [List.filterMap_eq_nil_iff]
  exact forall₂_congr fun x _ => ownFinish_eq_none

theorem ownFinish_mem_finishes (s : State) (model : String) {x : Candidate A × Env}
    (hx : x ∈ stream) (hr : x.1.ownFinish marshal = some r) :
    r ∈ finishes (streamChunks marshal s stream model) := by
  induction stream generalizing s with
  | nil => exact absurd hx List.not_mem_nil
  | cons y stream ih =>
    rw [streamChunks_cons, finishes_append, List.mem_append, finishes_convertChunk, List.mem_append]
    rcases List.mem_cons.1 hx with rfl | hx
    · exact .inl (.inl (by rw [hr]; exact List.mem_singleton_self r))
    · exact .inr (ih _ hx)

/-! ### Exactly one -/

def FinishesRight (saw : Bool) (stream : List (Candidate A × Env)) (chunks : List (Chunk Usage)) : Prop :=
  ∃ r, finishes chunks = [r] ∧ Right saw stream r

section Step

variable {s : State} {x : Candidate A × Env} {stream : List (Candidate A × Env)} {model : String}

/-- A chunk after which the finish reason has been sent: the rest must not send one. -/
theorem finishesRight_of_emitted {r : String} (hsent : finishes (convertChunk marshal s ([x.1], x.2)).2 = [r])
    (hemitted : (convertChunk marshal s ([x.1], x.2)).1.finishEmitted = true)
    (hright : (∀ y ∈ stream, ¬ y.1.EndsItself marshal) → Right s.sawToolCall (x :: stream) r)
    (hx : x.1.EndsItself marshal ∨ x.1.finishReason = some "STOP") :
    FinishesRight s.sawToolCall (x :: stream) (streamChunks marshal s (x :: stream) model) ↔
      EndsOnce marshal (x :: stream) := by
  rw [FinishesRight, streamChunks_cons, finishes_append, hsent, finishes_emitted marshal _ hemitted]
  constructor
  · rintro ⟨r', hr', -⟩
    have hnil : (stream.filterMap fun x => x.1.ownFinish marshal) = [] := by
      have hlength := congrArg List.length hr'
      simp only [List.length_append, List.length_singleton] at hlength
      exact List.length_eq_zero_iff.1 (by omega)
    rw [filterMap_ownFinish_eq_nil] at hnil
    exact List.pairwise_cons.2 ⟨fun y hy hends => absurd hends (hnil y hy), endsOnce_of_none hnil⟩
  · intro honce
    have hnone : ∀ y ∈ stream, ¬ y.1.EndsItself marshal := by
      intro y hy hends
      obtain ⟨hnot, hstop, -⟩ := (List.pairwise_cons.1 honce).1 y hy hends
      rcases hx with hx | hx
      · exact hnot hx
      · exact hstop hx
    rw [filterMap_ownFinish_eq_nil.2 hnone, List.append_nil]
    exact ⟨r, rfl, hright hnone⟩

theorem finishesRight_of_ends (hends : x.1.EndsItself marshal) :
    FinishesRight s.sawToolCall (x :: stream) (streamChunks marshal s (x :: stream) model) ↔
      EndsOnce marshal (x :: stream) := by
  obtain ⟨r, hr⟩ := Option.isSome_iff_exists.1 (ownFinish_isSome.2 hends)
  have hnext : (s.next marshal x).finishEmitted = true := by simp [State.next, hr]
  refine finishesRight_of_emitted (r := r) ?_ ?_ ?_ (.inl hends)
  · rw [finishes_convertChunk, hr, if_neg (by simp [hnext])]
    rfl
  · rw [convertChunk_single, if_neg (by simp [hnext])]
    exact hnext
  · intro hnone
    rw [Right]
    by_cases hcalls : x.1.calls = []
    · rw [Candidate.EndsItself, if_pos hcalls] at hends
      obtain ⟨reason, hreason, hstop⟩ := hends
      simp only [hreason, if_pos (And.intro hstop hcalls)]
      exact ownFinish_of_no_calls hcalls hr
    · have hcall := ownFinish_of_calls hcalls hr
      cases hreason : x.1.finishReason with
      | none =>
        simp only [hcalls, ne_eq, not_false_eq_true, decide_true, Bool.or_true]
        exact (right_true_iff fun y hy hy' => absurd hy' (hnone y hy)).2 hcall
      | some reason => simp [hcalls, hcall]

theorem finishesRight_of_stop (hs : s.finishEmitted = false) (hends : ¬ x.1.EndsItself marshal)
    (hstop : x.1.finishReason = some "STOP") :
    FinishesRight s.sawToolCall (x :: stream) (streamChunks marshal s (x :: stream) model) ↔
      EndsOnce marshal (x :: stream) := by
  have hown : x.1.ownFinish marshal = none := ownFinish_eq_none.2 hends
  have hnext : (s.next marshal x).finishEmitted = false := by simp [State.next, hs, hown]
  refine finishesRight_of_emitted (r := (s.next marshal x).stopReason) ?_ ?_ ?_ (.inr hstop)
  · rw [finishes_convertChunk, hown, if_pos ⟨hstop, hnext⟩]
    rfl
  · rw [convertChunk_single, if_pos ⟨hstop, hnext⟩]
    rfl
  · intro _
    rw [Right]
    simp only [hstop, ne_eq, not_true_eq_false, false_and, if_false]
    rw [State.stopReason, ← written_iff_of_not_ends hends]
    rfl

theorem finishes_of_open (hends : ¬ x.1.EndsItself marshal) (hstop : x.1.finishReason ≠ some "STOP") :
    finishes (streamChunks marshal s (x :: stream) model) =
      finishes (streamChunks marshal (s.next marshal x) stream model) := by
  have hown : x.1.ownFinish marshal = none := ownFinish_eq_none.2 hends
  rw [streamChunks_cons, finishes_append, finishes_convertChunk, hown, convertChunk_single, if_neg (by simp [hstop]),
    if_neg (by simp [hstop])]
  rfl

end Step

/-- From a state in which no finish reason has been sent, the right one is sent exactly once iff the
stream ends once. -/
theorem finishesRight_iff (s : State) (hs : s.finishEmitted = false)
    (stream : List (Candidate A × Env)) (model : String) :
    FinishesRight s.sawToolCall stream (streamChunks marshal s stream model) ↔ EndsOnce marshal stream := by
  induction stream generalizing s with
  | nil =>
    refine ⟨fun _ => List.Pairwise.nil, fun _ => ⟨s.stopReason, ?_, ?_⟩⟩
    · show finishes (finalize model s).2 = _
      rw [finishes_finalize, if_neg (by simp [hs])]
    · rw [Right, State.stopReason]
  | cons x stream ih =>
    by_cases hends : x.1.EndsItself marshal
    · exact finishesRight_of_ends hends
    by_cases hstop : x.1.finishReason = some "STOP"
    · exact finishesRight_of_stop hs hends hstop
    have hown : x.1.ownFinish marshal = none := ownFinish_eq_none.2 hends
    have hnext : (s.next marshal x).finishEmitted = false := by simp [State.next, hs, hown]
    have hsaw : (s.next marshal x).sawToolCall = (s.sawToolCall || decide (x.1.calls ≠ [])) := by
      rw [← written_iff_of_not_ends hends]
      rfl
    have hrest := ih (s.next marshal x) hnext
    rw [FinishesRight, hsaw] at hrest
    rw [FinishesRight, finishes_of_open hends hstop, EndsOnce, List.pairwise_cons, ← EndsOnce, ← hrest]
    cases hreason : x.1.finishReason with
    | none =>
      simp only [Right, hreason]
      constructor
      · intro hright
        exact ⟨fun y _ _ => ⟨hends, nofun, fun _ => nofun⟩, hright⟩
      · exact fun h => h.2
    | some reason =>
      -- only an empty reason beside calls is left: the calls decide
      have hcalls : x.1.calls ≠ [] := by
        intro hcalls
        rw [Candidate.EndsItself, if_pos hcalls] at hends
        exact hends ⟨reason, hreason, fun h => hstop (h ▸ hreason)⟩
      have hempty : reason = "" := by
        by_contra hne
        rw [Candidate.EndsItself, if_neg hcalls] at hends
        exact hends (.inr ⟨reason, hreason, hne, fun h => hstop (h ▸ hreason)⟩)
      subst hempty
      have htrue : (s.sawToolCall || decide (x.1.calls ≠ [])) = true := by simp [hcalls]
      simp only [Right, hreason, hcalls, and_false, if_false, htrue, if_true]
      constructor
      · rintro ⟨r, hr, rfl⟩
        have hown' : ∀ y ∈ stream, y.1.EndsItself marshal → y.1.calls ≠ [] := by
          intro y hy hy' hnone
          obtain ⟨r, hr'⟩ := Option.isSome_iff_exists.1 (ownFinish_isSome.2 hy')
          have hmem := ownFinish_mem_finishes (s.next marshal x) model hy hr'
          rw [hr, List.mem_singleton] at hmem
          rcases ownFinish_of_no_calls hnone hr' with h | h <;> simp [h] at hmem
        refine ⟨fun y hy hy' => ⟨hends, by simp, fun hnone => absurd hnone (hown' y hy hy')⟩, "tool_calls", hr, ?_⟩
        exact (right_true_iff hown').2 rfl
      · rintro ⟨hbefore, r, hr, hright⟩
        have hown' : ∀ y ∈ stream, y.1.EndsItself marshal → y.1.calls ≠ [] := by
          intro y hy hy' hnone
          exact (hbefore y hy hy').2.2 hnone rfl
        exact ⟨r, hr, (right_true_iff hown').1 hright⟩

end Right

/-- **A Gemini stream gets exactly one finish reason, the right one, exactly if it ends once.** -/
theorem one_finish_iff (marshal : A → Option String) (id uuid model : String) (stream : List (Candidate A × Env)) :
    FinishesRight false stream (streamChunks marshal (newStreamState id uuid) stream model) ↔ EndsOnce marshal stream :=
  finishesRight_iff (newStreamState id uuid) rfl stream model

theorem one_finish_length :
    let env : Env := ⟨"m", none, fun _ k => toString k⟩
    let stream : List (Candidate Unit × Env) :=
      [(⟨[{ text := "a" }], none⟩, env), (⟨[], some "MAX_TOKENS"⟩, env), (⟨[], some "STOP"⟩, env)]
    FinishesRight false stream (streamChunks (fun _ => some "\x7b\x7d") (newStreamState "" "u") stream "m") := by
  intro env stream
  apply (one_finish_iff (fun _ => some "\x7b\x7d") "" "u" "m" stream).2
  simp [stream, EndsOnce, Candidate.EndsItself, Candidate.calls, Part.call?]

/-- A reason that comes twice is sent twice. -/
theorem finish_twice :
    let env : Env := ⟨"m", none, fun _ k => toString k⟩
    let stream : List (Candidate Unit × Env) :=
      [(⟨[{ text := "a" }], some "MAX_TOKENS"⟩, env), (⟨[], some "MAX_TOKENS"⟩, env)]
    let chunks := streamChunks (fun _ => some "\x7b\x7d") (newStreamState "" "u") stream "m"
    finishes chunks = ["length", "length"] ∧ ¬ FinishesRight false stream chunks := by
  intro env stream chunks
  have hfinishes : finishes chunks = ["length", "length"] := by decide +kernel
  refine ⟨hfinishes, ?_⟩
  rintro ⟨r, hr, -⟩
  rw [hfinishes] at hr
  simp at hr

end TokenEra.GeminiToChat
