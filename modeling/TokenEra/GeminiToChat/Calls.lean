import TokenEra.GeminiToChat.Stream

/-!
# The calls of a Gemini stream

The calls of a chunk are numbered from zero in every chunk, so the calls of a stream keep apart
exactly if one chunk at most has calls.
-/

namespace TokenEra.GeminiToChat

open Lib TokenUsage ChatToClaude Responses

variable {A : Type*}

section Calls

variable (marshal : A → Option String)

/-- The indexes that a reader sees, and the calls that it collects by them. -/
structure CallsApart (stream : List (Candidate A × Env)) (chunks : List (Chunk Usage)) : Prop where
  indexes : (callsOf (choicesOf chunks)).map (·.index) =
    (List.range (stream.flatMap fun x => x.1.calls).length).map fun k : Nat => some (k : Int)
  collected : (collect (callsOf (choicesOf chunks))).map (fun t => (t.name, some t.arguments)) =
    stream.flatMap fun x => x.1.calls.map fun call => (call.functionName, marshal call.arguments)

variable {x : Candidate A × Env}

theorem calls_convertChunk (s : State) :
    callsOf (choicesOf (convertChunk marshal s ([x.1], x.2)).2) = callDeltas marshal x := by
  rw [choices_convertChunk, callsOf, List.flatMap_cons]
  have hsent : (sentChoice marshal x).delta.toolCalls = callDeltas marshal x := calls_convertCandidate marshal x
  split_ifs <;> simp [hsent]

theorem calls_finalize (model : String) (s : State) : callsOf (choicesOf (finalize model s).2) = [] := by
  rw [finalize]
  split_ifs <;> rfl

theorem calls_stream (s : State) (stream : List (Candidate A × Env)) (model : String) :
    callsOf (choicesOf (streamChunks marshal s stream model)) = stream.flatMap (callDeltas marshal) := by
  have hfeed : ∀ s : State,
      callsOf (choicesOf (feed (convertChunk marshal) s (stream.map fun x => ([x.1], x.2))).2) =
        stream.flatMap (callDeltas marshal) := by
    induction stream with
    | nil => exact fun _ => rfl
    | cons x stream ih =>
      intro s
      rw [List.map_cons, feed_cons, choicesOf_append, callsOf_append, calls_convertChunk, ih, List.flatMap_cons]
  rw [streamChunks, andThen, choicesOf_append, callsOf_append, hfeed, calls_finalize, List.append_nil]

structure OneCaller (stream : List (Candidate A × Env)) : Prop where
  one : stream.Pairwise fun x y => x.1.calls = [] ∨ y.1.calls = []
  marshals : ∀ x ∈ stream, ∀ call ∈ x.1.calls, (marshal call.arguments).isSome

variable {marshal}

theorem written_of_marshals {c : Candidate A} (h : ∀ call ∈ c.calls, (marshal call.arguments).isSome) :
    (c.written marshal).map (fun call => (call.1, some call.2)) =
      c.calls.map fun call => (call.functionName, marshal call.arguments) := by
  rw [Candidate.written]
  generalize c.calls = calls at h ⊢
  induction calls with
  | nil => rfl
  | cons call calls ih =>
    obtain ⟨hcall, hcalls⟩ := List.forall_mem_cons.1 h
    obtain ⟨args, hargs⟩ := Option.isSome_iff_exists.1 hcall
    rw [List.filterMap_cons_some (by rw [hargs, Option.map_some]), List.map_cons, ih hcalls, List.map_cons, hargs]

theorem index_callDeltas (x : Candidate A × Env) :
    (callDeltas marshal x).map (·.index) = (List.range (x.1.written marshal).length).map
      fun k : Nat => some (k : Int) := by
  apply List.ext_getElem
  · simp [callDeltas]
  · intro k _ _
    simp only [callDeltas, List.getElem_map, List.getElem_mapIdx, List.getElem_range]

theorem map_callIndex (calls : List ToolCallResponse) :
    calls.map callIndex = (calls.map (·.index)).map fun i => i.getD 0 := by
  rw [List.map_map]
  rfl

/-- The deltas of the calls have different indexes exactly if one chunk at most has calls. -/
theorem nodup_callDeltas_iff {stream : List (Candidate A × Env)} :
    ((stream.flatMap (callDeltas marshal)).map callIndex).Nodup ↔
      stream.Pairwise fun x y => x.1.written marshal = [] ∨ y.1.written marshal = [] := by
  have hindex (x : Candidate A × Env) :
      (callDeltas marshal x).map callIndex = (List.range (x.1.written marshal).length).map
        fun k : Nat => (k : Int) := by
    rw [map_callIndex, index_callDeltas, List.map_map]
    rfl
  have hinj : Function.Injective fun k : Nat => (k : Int) := fun _ _ h => Int.ofNat.inj h
  rw [List.map_flatMap, List.nodup_flatMap]
  simp only [hindex]
  refine ⟨fun h => h.2.imp ?_, fun h => ⟨fun x _ => List.nodup_range.map hinj, h.imp ?_⟩⟩
  · -- two chunks with calls would both have the index 0
    intro x y hdisjoint
    by_contra hboth
    push Not at hboth
    have hzero {z : Candidate A × Env} (hz : z.1.written marshal ≠ []) :
        (0 : Int) ∈ (List.range (z.1.written marshal).length).map fun k : Nat => (k : Int) :=
      List.mem_map.2 ⟨0, List.mem_range.2 (List.length_pos_iff.2 hz), rfl⟩
    exact hdisjoint (hzero hboth.1) (hzero hboth.2)
  · rintro x y (hx | hy)
    · rw [Function.onFun, hx]
      exact List.disjoint_nil_left _
    · rw [Function.onFun, hy]
      exact List.disjoint_nil_right _

theorem call_callDeltas :
    (callDeltas marshal x).map (fun c => (c.name, some c.arguments)) =
      (x.1.written marshal).map fun call => (call.1, some call.2) := by
  apply List.ext_getElem <;> simp [callDeltas]

theorem flatMap_one {B : Type*} {stream : List (Candidate A × Env)} (f : Candidate A × Env → List B)
    (hf : ∀ x, x.1.calls = [] → f x = []) (h : stream.Pairwise fun x y => x.1.calls = [] ∨ y.1.calls = []) :
    (∀ x ∈ stream, x.1.calls = []) ∨ ∃ x ∈ stream, stream.flatMap f = f x ∧
      stream.flatMap (fun y => y.1.calls) = x.1.calls := by
  induction stream with
  | nil => exact .inl (by simp)
  | cons x stream ih =>
    obtain ⟨hx, hrest⟩ := List.pairwise_cons.1 h
    by_cases hcalls : x.1.calls = []
    · rcases ih hrest with hnone | ⟨y, hy, hf', hcalls'⟩
      · exact .inl (List.forall_mem_cons.2 ⟨hcalls, hnone⟩)
      · refine .inr ⟨y, List.mem_cons_of_mem _ hy, ?_, ?_⟩
        · rw [List.flatMap_cons, hf x hcalls, List.nil_append, hf']
        · rw [List.flatMap_cons, hcalls, List.nil_append, hcalls']
    · have hnone : ∀ y ∈ stream, y.1.calls = [] := fun y hy => (hx y hy).resolve_left hcalls
      refine .inr ⟨x, List.mem_cons_self, ?_, ?_⟩
      · rw [List.flatMap_cons, List.flatMap_eq_nil_iff.2 fun y hy => hf y (hnone y hy), List.append_nil]
      · rw [List.flatMap_cons, List.flatMap_eq_nil_iff.2 hnone, List.append_nil]

theorem length_written {c : Candidate A} (h : ∀ call ∈ c.calls, (marshal call.arguments).isSome) :
    (c.written marshal).length = c.calls.length := by
  have hlength := congrArg List.length (written_of_marshals h)
  simpa using hlength

/-- The calls of a stream keep apart exactly if one chunk at most has calls, all with arguments that
have a text. -/
theorem callsApart_iff (marshal : A → Option String) (id uuid model : String) (stream : List (Candidate A × Env)) :
    CallsApart marshal stream (streamChunks marshal (newStreamState id uuid) stream model) ↔
      OneCaller marshal stream := by
  have hcalls := calls_stream marshal (newStreamState id uuid) stream model
  have hdeltas : ∀ x : Candidate A × Env, x.1.calls = [] → callDeltas marshal x = [] := by
    intro x hx
    rw [callDeltas_eq_nil, written_eq_nil marshal hx]
  constructor
  · rintro ⟨hindexes, hcollected⟩
    have hmarshals : ∀ x ∈ stream, ∀ call ∈ x.1.calls, (marshal call.arguments).isSome := by
      intro x hx call hcall
      have hin : (call.functionName, marshal call.arguments) ∈
          stream.flatMap fun x => x.1.calls.map fun call => (call.functionName, marshal call.arguments) :=
        List.mem_flatMap.2 ⟨x, hx, List.mem_map.2 ⟨call, hcall, rfl⟩⟩
      rw [← hcollected] at hin
      obtain ⟨t, -, ht⟩ := List.mem_map.1 hin
      rw [← (Prod.mk.inj ht).2]
      rfl
    refine ⟨?_, hmarshals⟩
    have hnone : ∀ x ∈ stream, x.1.written marshal = [] → x.1.calls = [] := by
      intro x hx hwritten
      rw [← List.length_eq_zero_iff, ← length_written (hmarshals x hx), hwritten, List.length_nil]
    have hnodup : ((stream.flatMap (callDeltas marshal)).map callIndex).Nodup := by
      rw [map_callIndex, ← hcalls, hindexes, List.map_map]
      exact List.nodup_range.map fun a b hab => by simpa using hab
    exact (nodup_callDeltas_iff.1 hnodup).imp_of_mem fun hx hy => Or.imp (hnone _ hx) (hnone _ hy)
  · rintro ⟨hone, hmarshals⟩
    have hindexes : (stream.flatMap (callDeltas marshal)).map (·.index) =
        (List.range (stream.flatMap fun x => x.1.calls).length).map fun k : Nat => some (k : Int) := by
      rcases flatMap_one (callDeltas marshal) hdeltas hone with hnone | ⟨x, hx, hf, hcalls'⟩
      · rw [List.flatMap_eq_nil_iff.2 fun x hx => hdeltas x (hnone x hx), List.flatMap_eq_nil_iff.2 hnone]
        rfl
      · rw [hf, hcalls', index_callDeltas, length_written (hmarshals x hx)]
    have hnodup : ((stream.flatMap (callDeltas marshal)).map callIndex).Nodup :=
      nodup_callDeltas_iff.2 (hone.imp (Or.imp (written_eq_nil marshal) (written_eq_nil marshal)))
    refine ⟨by rw [hcalls, hindexes], ?_⟩
    rw [hcalls, collect_of_nodup hnodup, List.map_map]
    have hdeltas' : (stream.flatMap (callDeltas marshal)).map (fun c => (c.name, some c.arguments)) =
        stream.flatMap fun x => x.1.calls.map fun call => (call.functionName, marshal call.arguments) := by
      rw [List.map_flatMap]
      apply List.flatMap_congr
      intro x hx
      rw [call_callDeltas, written_of_marshals (hmarshals x hx)]
    exact hdeltas'

end Calls

theorem callsApart_two :
    let call (name : String) : Part Unit := { functionCall := some ⟨name, ()⟩ }
    let env : Env := ⟨"m", none, fun _ k => toString k⟩
    let stream : List (Candidate Unit × Env) :=
      [(⟨[{ text := "Now:" }], none⟩, env), (⟨[call "get_time", call "get_date"], some "STOP"⟩, env)]
    CallsApart (fun _ => some "\x7b\x7d") stream
      (streamChunks (fun _ => some "\x7b\x7d") (newStreamState "" "u") stream "m") := by
  intro call env stream
  apply (callsApart_iff (fun _ => some "\x7b\x7d") "" "u" "m" stream).2
  refine ⟨?_, fun _ _ _ _ => rfl⟩
  simp [stream, Candidate.calls, Part.call?]

/-- Two chunks with a call each: a reader takes the second call as more of the first. -/
theorem calls_merged :
    let call (name : String) : Part Unit := { functionCall := some ⟨name, ()⟩ }
    let env : Env := ⟨"m", none, fun _ k => toString k⟩
    let stream : List (Candidate Unit × Env) :=
      [(⟨[call "get_time"], none⟩, env), (⟨[call "get_date"], some "STOP"⟩, env)]
    let chunks := streamChunks (fun _ => some "\x7b\x7d") (newStreamState "" "u") stream "m"
    (collect (callsOf (choicesOf chunks))).map (fun t => (t.name, t.arguments)) = [("get_date", "\x7b\x7d\x7b\x7d")] ∧
      ¬ CallsApart (fun _ => some "\x7b\x7d") stream chunks := by
  intro call env stream chunks
  have hcollected : (collect (callsOf (choicesOf chunks))).map (fun t => (t.name, t.arguments)) =
      [("get_date", "\x7b\x7d\x7b\x7d")] := by
    decide +kernel
  refine ⟨hcollected, ?_⟩
  intro happart
  have hlength := congrArg List.length hcollected
  have hlength' := congrArg List.length happart.collected
  simp [stream, Candidate.calls, Part.call?, call] at hlength hlength'
  omega

end TokenEra.GeminiToChat
