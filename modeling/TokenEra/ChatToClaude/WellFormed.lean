import TokenEra.ChatToClaude.Layout

/-!
# When the converted stream is well formed

A Claude stream opens with one message start and ends with a message delta and a message stop;
between them, the events of each block index are a start, deltas of its kind and a stop.

The groups of a layout take disjoint ranges of indexes, and each stops every index of its range. So
the stream is well formed if each group is by itself (`blocks_layout`). Text and reasoning always
are. In a run of tool calls every index up to the largest has to be started in this run, before its
other deltas. The source relies on the upstream for that, but a tool whose deltas are interrupted by
text, or whose first delta is not converted, goes on in a run that does not start it.
-/

namespace TokenEra.ChatToClaude

variable {U V : Type*}

/-! ### Claude streams -/

def Event.index? : Event V → Option Int
  | .blockStart i _ | .blockDelta i _ | .blockStop i => some i
  | .messageStart .. | .messageDelta .. | .messageStop => none

def BlockDelta.Matches : BlockDelta → ContentBlock → Prop
  | .text _, .text | .thinking _, .thinking | .inputJson _, .toolUse _ _ => True
  | _, _ => False

def blockEvents (i : Int) (es : List (Event V)) : List (Event V) := es.filter fun e => e.index? = some i

/-- A block is not used, or it is started, gets deltas of its kind, and is stopped. -/
def BlockOk (i : Int) (es : List (Event V)) : Prop :=
  es = [] ∨ ∃ (block : ContentBlock) (deltas : List BlockDelta),
    es = .blockStart i block :: (deltas.map (.blockDelta i) ++ [.blockStop i]) ∧ ∀ d ∈ deltas, d.Matches block

def WellFormed (es : List (Event V)) : Prop :=
  ∃ id model tokens body usage reason,
    es = .messageStart id model tokens :: (body ++ [.messageDelta usage reason, .messageStop]) ∧
    (∀ e ∈ body, e.index? ≠ none) ∧ ∀ i, BlockOk i (blockEvents i body)

theorem blockEvents_append (i : Int) (es es' : List (Event V)) :
    blockEvents i (es ++ es') = blockEvents i es ++ blockEvents i es' :=
  List.filter_append ..

variable {i : Int} {base : Nat} {c : Placed}

theorem BlockOk.stop_mem {es : List (Event V)} (h : BlockOk i es) (hes : es ≠ []) : .blockStop i ∈ es := by
  obtain rfl | ⟨block, deltas, rfl, -⟩ := h
  · exact absurd rfl hes
  · simp

theorem BlockOk.of_stop {es es' : List (Event V)} (h : BlockOk i (es ++ .blockStop i :: es')) :
    BlockOk i (es ++ [.blockStop i]) ∧ es' = [] := by
  suffices hnil : es' = [] by
    subst hnil
    exact ⟨h, rfl⟩
  obtain h | ⟨block, deltas, h, -⟩ := h
  · simp at h
  · rcases List.eq_nil_or_concat es' with hnil | ⟨init, last, rfl⟩
    · exact hnil
    · have hsplit : (es ++ .blockStop i :: init) ++ [last] =
          (.blockStart i block :: deltas.map (.blockDelta i)) ++ [.blockStop i] := by simpa using h
      have hinit := (List.append_inj' hsplit rfl).1
      have hmem : Event.blockStop i ∈ Event.blockStart (V := V) i block :: deltas.map (.blockDelta i) := by
        simp [← hinit]
      simp at hmem

/-! ### Runs of tool calls -/

/-- In a run of tool calls every index from 0 to the largest is started once, before its other
deltas. -/
def RunOk (calls : List Placed) : Prop :=
  (∀ c ∈ calls, c.loud → 0 ≤ c.offset) ∧
    ∀ offset ≤ maxOffset calls, HeadStarts (calls.filter fun c => c.offset = offset ∧ c.loud)

def Group.Ok : Group → Prop
  | .text _ | .thinking _ => True
  | .tools calls => RunOk calls

theorem callEvents_eq_nil : callEvents (V := V) base c = [] ↔ c.loud = false := by
  cases hstarts : c.starts <;> by_cases hargs : c.arguments = "" <;> simp [callEvents, Placed.loud, hstarts, hargs]

theorem callEvents_delta (hloud : c.loud) (hstarts : c.starts = false) :
    callEvents (V := V) base c = [.blockDelta (base + c.offset) (.inputJson c.arguments)] := by
  have hargs : c.arguments ≠ "" := by simpa [Placed.loud, hstarts] using hloud
  simp [callEvents, hstarts, hargs]

theorem callEvents_start (base : Nat) (hstarts : c.starts = true) :
    ∃ deltas : List BlockDelta, callEvents (V := V) base c =
        .blockStart (base + c.offset) (.toolUse c.id c.name) :: deltas.map (.blockDelta (base + c.offset)) ∧
      ∀ d ∈ deltas, ∃ s, d = .inputJson s := by
  by_cases hargs : c.arguments = ""
  · exact ⟨[], by simp [callEvents, hstarts, hargs]⟩
  · exact ⟨[.inputJson c.arguments], by simp [callEvents, hstarts, hargs]⟩

theorem flatMap_deltas {l : List Placed} (hl : ∀ c ∈ l, c.loud ∧ base + c.offset = i)
    (hstarts : ∀ c ∈ l, c.starts = false) :
    l.flatMap (callEvents (V := V) base) = (l.map fun c => BlockDelta.inputJson c.arguments).map (.blockDelta i) := by
  induction l with
  | nil => rfl
  | cons c l ih =>
    obtain ⟨hc, hl⟩ := List.forall_mem_cons.1 hl
    obtain ⟨hc', hstarts⟩ := List.forall_mem_cons.1 hstarts
    rw [List.flatMap_cons, callEvents_delta hc.1 hc', ih hl hstarts, hc.2]
    rfl

theorem blockOk_calls (base : Nat) {l : List Placed} (hl : ∀ c ∈ l, c.loud ∧ base + c.offset = i) :
    BlockOk i (l.flatMap (callEvents (V := V) base) ++ [.blockStop i]) ↔ HeadStarts l := by
  constructor
  · rintro (h | ⟨block, deltas, h, -⟩)
    · simp at h
    rw [← List.cons_append] at h
    replace h := (List.append_inj' h rfl).1
    obtain _ | ⟨c, rest⟩ := l
    · simp at h
    have hc : c.starts = true := by
      by_contra hc
      rw [List.flatMap_cons, callEvents_delta (hl c (by simp)).1 (by simpa using hc)] at h
      simp at h
    refine ⟨c, rest, rfl, hc, fun x hx => ?_⟩
    by_contra hx'
    obtain ⟨ds, hds, -⟩ := callEvents_start (V := V) base hc
    obtain ⟨ds', hds', -⟩ := callEvents_start (V := V) base (by simpa using hx' : x.starts = true)
    rw [List.flatMap_cons, hds, List.cons_append] at h
    have hmem : .blockStart (base + x.offset) (.toolUse x.id x.name) ∈ deltas.map (Event.blockDelta (V := V) i) := by
      rw [← (List.cons.inj h).2]
      exact List.mem_append_right _ (List.mem_flatMap.2 ⟨x, hx, by simp [hds']⟩)
    simp at hmem
  · rintro ⟨c, rest, rfl, hc, hrest⟩
    obtain ⟨hc', hl⟩ := List.forall_mem_cons.1 hl
    obtain ⟨ds, hds, hkind⟩ := callEvents_start (V := V) base hc
    refine .inr ⟨.toolUse c.id c.name, ds ++ rest.map fun c => .inputJson c.arguments, ?_, ?_⟩
    · rw [List.flatMap_cons, hds, flatMap_deltas hl hrest, hc'.2]
      simp
    · intro d hd
      rcases List.mem_append.1 hd with hd | hd
      · obtain ⟨s, rfl⟩ := hkind d hd
        trivial
      · obtain ⟨x, -, rfl⟩ := List.mem_map.1 hd
        trivial

theorem mem_callEvents {e : Event V} (he : e ∈ callEvents base c) :
    e = .blockStart (base + c.offset) (.toolUse c.id c.name) ∨
      e = .blockDelta (base + c.offset) (.inputJson c.arguments) := by
  rcases List.mem_append.1 he with he | he <;> split_ifs at he
  · exact .inl (List.mem_singleton.1 he)
  · exact absurd he List.not_mem_nil
  · exact .inr (List.mem_singleton.1 he)
  · exact absurd he List.not_mem_nil

theorem index_callEvents {e : Event V} (he : e ∈ callEvents base c) :
    e.index? = some (base + c.offset) := by
  rcases mem_callEvents he with rfl | rfl <;> rfl

theorem blockEvents_calls (base : Nat) (i : Int) (calls : List Placed) :
    blockEvents i (calls.flatMap (callEvents (V := V) base)) =
      (calls.filter fun c => base + c.offset = i ∧ c.loud).flatMap (callEvents base) := by
  induction calls with
  | nil => rfl
  | cons c calls ih =>
    rw [List.flatMap_cons, blockEvents_append, ih]
    by_cases hi : base + c.offset = i
    · have hall : blockEvents i (callEvents (V := V) base c) = callEvents base c :=
        List.filter_eq_self.2 fun e he => by simp [index_callEvents he, hi]
      cases hloud : c.loud with
      | true => simp [hall, hi, hloud]
      | false =>
        rw [hall, callEvents_eq_nil.2 hloud]
        simp [hloud]
    · have hnone : blockEvents i (callEvents (V := V) base c) = [] :=
        List.filter_eq_nil_iff.2 fun e he => by simp [index_callEvents he, hi]
      simp [hnone, hi]

/-! ### Groups -/

theorem blockEvents_stops (g : Group) :
    blockEvents (V := V) i (g.stops base) = if base ≤ i ∧ i < base + g.width then [.blockStop i] else [] := by
  have hrange (n : Nat) : blockEvents (V := V) i ((List.range n).map fun offset => .blockStop (base + offset : Nat)) =
      if base ≤ i ∧ i < base + n then [.blockStop i] else [] := by
    induction n with
    | zero =>
      rw [if_neg (by omega)]
      rfl
    | succ n ih =>
      rw [List.range_succ, List.map_append, blockEvents_append, ih]
      by_cases hi : i = (base + n : Nat)
      · rw [if_neg (by omega), if_pos (by omega)]
        simp [blockEvents, Event.index?, hi]
      · have hnone : blockEvents (V := V) i [.blockStop (base + n : Nat)] = [] := by
          simpa [blockEvents, Event.index?] using fun h => hi (by omega)
        simp only [List.map_singleton, hnone, List.append_nil]
        split_ifs <;> first | rfl | omega
  cases g with
  | text l | thinking l => exact hrange 1
  | tools calls => exact hrange (maxOffset calls + 1)

theorem offset_le_maxOffset {calls : List Placed} (hc : c ∈ calls) : c.offset ≤ maxOffset calls := by
  induction calls with
  | nil => cases hc
  | cons x calls ih =>
    simp only [maxOffset, List.foldr_cons] at ih ⊢
    rcases List.mem_cons.1 hc with rfl | hc
    · omega
    · have := ih hc
      omega

theorem stop_not_mem_openEvents (g : Group) :
    Event.blockStop (V := V) i ∉ g.openEvents base := by
  intro h
  cases g with
  | text l | thinking l => simp [Group.openEvents] at h
  | tools calls =>
    obtain ⟨c, -, hc⟩ := List.mem_flatMap.1 h
    rcases mem_callEvents hc with hc | hc <;> cases hc

variable {l : List String}

theorem blockOk_pieces {base : Int} {block : ContentBlock} {delta : String → BlockDelta}
    (h : ∀ s, (delta s).Matches block) :
    BlockOk (V := V) base (blockEvents base (.blockStart base block :: l.map fun s => .blockDelta base (delta s)) ++
      [.blockStop base]) := by
  refine .inr ⟨block, l.map delta, ?_, ?_⟩
  · rw [← List.cons_append, List.map_map, blockEvents, List.filter_eq_self.2]
    · rfl
    · simp [Event.index?]
  · intro d hd
    obtain ⟨s, -, rfl⟩ := List.mem_map.1 hd
    exact h s

theorem blockEvents_pieces {base : Int} (hi : i ≠ base) (block : ContentBlock) (delta : String → BlockDelta) :
    blockEvents (V := V) i (.blockStart base block :: l.map fun s => .blockDelta base (delta s)) = [] := by
  simp [blockEvents, Event.index?, hi.symm]

theorem openEvents_beyond {g : Group} (hi : base + g.width ≤ i) :
    blockEvents (V := V) i (g.openEvents base) = [] := by
  cases g with
  | text l | thinking l =>
    simp only [Group.width] at hi
    exact blockEvents_pieces (by omega) _ _
  | tools calls =>
    rw [Group.openEvents, blockEvents_calls, List.filter_eq_nil_iff.2, List.flatMap_nil]
    intro c hc
    have := offset_le_maxOffset hc
    simp only [Group.width] at hi
    simp only [decide_eq_true_eq, not_and]
    omega

theorem group_ok_iff (base : Nat) (g : Group) :
    g.Ok ↔ (∀ i : Int, base ≤ i → i < base + g.width →
        BlockOk i (blockEvents (V := V) i (g.openEvents base) ++ [.blockStop i])) ∧
      ∀ i : Int, i < base → blockEvents (V := V) i (g.openEvents base) = [] := by
  cases g with
  | text l | thinking l =>
    refine ⟨fun _ => ⟨fun i hle hlt => ?_, fun i hi => ?_⟩, fun _ => trivial⟩
    · simp only [Group.width] at hlt
      obtain rfl : i = base := by omega
      exact blockOk_pieces (by intro s; trivial)
    · exact blockEvents_pieces (by omega) _ _
  | tools calls =>
    have hat (i : Int) := blockEvents_calls (V := V) base i calls
    have hfilter (offset : Int) : (calls.filter fun c => base + c.offset = base + offset ∧ c.loud) =
        calls.filter fun c => c.offset = offset ∧ c.loud := by simp
    have hblock (offset : Nat) := blockOk_calls (V := V) base (i := base + offset)
      (l := calls.filter fun c => c.offset = offset ∧ c.loud) (by
        intro c hc
        obtain ⟨-, hc⟩ := List.mem_filter.1 hc
        simp only [decide_eq_true_eq] at hc
        exact ⟨hc.2, by rw [hc.1]⟩)
    constructor
    · rintro ⟨hneg, hrun⟩
      refine ⟨fun i hle hlt => ?_, fun i hi => ?_⟩
      · obtain ⟨offset, rfl⟩ : ∃ offset : Nat, i = base + offset := ⟨(i - base).toNat, by omega⟩
        rw [Group.openEvents, hat, hfilter, hblock]
        exact hrun offset (by simp only [Group.width] at hlt; omega)
      · rw [Group.openEvents, hat, List.filter_eq_nil_iff.2, List.flatMap_nil]
        intro c hc hboth
        simp only [decide_eq_true_eq] at hboth
        have := hneg c hc hboth.2
        omega
    · rintro ⟨hrange, hbelow⟩
      refine ⟨fun c hc hloud => ?_, fun offset hle => ?_⟩
      · by_contra hneg
        have hnone := hbelow (base + c.offset) (by omega)
        rw [Group.openEvents, hat, List.flatMap_eq_nil_iff] at hnone
        have := hnone c (List.mem_filter.2 ⟨hc, by simp [hloud]⟩)
        rw [callEvents_eq_nil, hloud] at this
        cases this
      · have := hrange (base + offset) (by omega) (by simp only [Group.width]; omega)
        rwa [Group.openEvents, hat, hfilter, hblock] at this

/-! ### Layouts -/

theorem stop_below (hi : i < base) (l : List Group) :
    Event.blockStop (V := V) i ∉ blockEvents i (layout base l) := by
  induction l generalizing base with
  | nil => exact List.not_mem_nil
  | cons g l ih =>
    rw [layout, blockEvents_append, blockEvents_append, blockEvents_stops, if_neg (by omega), List.append_nil,
      List.mem_append]
    rintro (h | h)
    · exact stop_not_mem_openEvents g (List.mem_of_mem_filter h)
    · exact ih (by omega) h

theorem layout_below (hi : i < base) {l : List Group} (hl : ∀ g ∈ l, g.Ok) :
    blockEvents (V := V) i (layout base l) = [] := by
  induction l generalizing base with
  | nil => rfl
  | cons g l ih =>
    obtain ⟨hg, hl⟩ := List.forall_mem_cons.1 hl
    rw [layout, blockEvents_append, blockEvents_append, blockEvents_stops, if_neg (by omega),
      ((group_ok_iff base g).1 hg).2 i hi, ih (by omega) hl]
    rfl

/-- The blocks of a layout are well formed if each group is. -/
theorem blocks_layout (base : Nat) (l : List Group) :
    (∀ i, BlockOk (V := V) i (blockEvents i (layout base l))) ↔ ∀ g ∈ l, g.Ok := by
  induction l generalizing base with
  | nil => exact ⟨fun _ => nofun, fun _ _ => .inl rfl⟩
  | cons g l ih =>
    have hevents (i : Int) : blockEvents (V := V) i (layout base (g :: l)) =
        blockEvents i (g.openEvents base) ++ ((if base ≤ i ∧ i < base + g.width then [.blockStop i] else []) ++
          blockEvents i (layout (base + g.width) l)) := by
      rw [layout, blockEvents_append, blockEvents_append, blockEvents_stops, List.append_assoc]
    simp only [List.forall_mem_cons, ← ih (base + g.width)]
    constructor
    · intro h
      have hin (i : Int) (hle : base ≤ i) (hlt : i < base + g.width) := (by
        have hi := h i
        rw [hevents, if_pos ⟨hle, hlt⟩] at hi
        exact hi.of_stop :
          BlockOk i (blockEvents i (g.openEvents base) ++ [.blockStop i]) ∧
            blockEvents (V := V) i (layout (base + g.width) l) = [])
      have hbelow (i : Int) (hi : i < base) : blockEvents (V := V) i (layout base (g :: l)) = [] := by
        by_contra hne
        exact stop_below hi _ ((h i).stop_mem hne)
      have hparts (i : Int) (hi : i < base) := List.append_eq_nil_iff.1 ((hevents i).symm.trans (hbelow i hi))
      refine ⟨(group_ok_iff base g).2 ⟨fun i hle hlt => (hin i hle hlt).1, fun i hi => (hparts i hi).1⟩, fun i => ?_⟩
      rcases lt_or_ge i base with hi | hle
      · exact .inl (List.append_eq_nil_iff.1 (hparts i hi).2).2
      rcases lt_or_ge i (base + g.width) with hlt | hge
      · exact .inl (hin i hle hlt).2
      · have hi := h i
        rwa [hevents, if_neg (by omega), openEvents_beyond hge] at hi
    · rintro ⟨hg, hl⟩ i
      have hok := (ih (base + g.width)).1 hl
      obtain ⟨hin, hbelow⟩ := (group_ok_iff (V := V) base g).1 hg
      rw [hevents]
      rcases lt_or_ge i base with hi | hle
      · rw [if_neg (by omega), hbelow i hi, layout_below (by push_cast; omega) hok]
        exact .inl rfl
      rcases lt_or_ge i (base + g.width) with hlt | hge
      · rw [if_pos ⟨hle, hlt⟩, layout_below (by push_cast; omega) hok]
        exact hin i hle hlt
      · rw [if_neg (by omega), openEvents_beyond hge]
        exact hl i

theorem layout_index (base : Nat) (l : List Group) : ∀ e ∈ layout (V := V) base l, e.index? ≠ none := by
  induction l generalizing base with
  | nil => exact nofun
  | cons g l ih =>
    intro e he
    rw [layout, List.mem_append, List.mem_append] at he
    rcases he with (he | he) | he
    · cases g with
      | text l | thinking l =>
        rcases List.mem_cons.1 he with rfl | he
        · simp [Event.index?]
        · obtain ⟨s, -, rfl⟩ := List.mem_map.1 he
          simp [Event.index?]
      | tools calls =>
        obtain ⟨c, -, hc⟩ := List.mem_flatMap.1 he
        simp [index_callEvents hc]
    · cases g with
      | text l | thinking l =>
        rw [List.mem_singleton.1 he]
        simp [Event.index?]
      | tools calls =>
        obtain ⟨offset, -, rfl⟩ := List.mem_map.1 he
        simp [Event.index?]
    · exact ih _ e he

/-! ### Streams -/

def Chunk.finishes (r : Chunk U) : Bool := r.choices.any fun c => c.finish.isSome

/-- Tool calls of one index: the first one carries its name and id, the later ones only arguments.
-/
def Introduced : List Placed → Prop
  | [] => True
  | c :: rest => c.name ≠ "" ∧ c.id ≠ "" ∧ ∀ x ∈ rest, x.name = "" ∧ x.id = ""

/-- The chunks of one choice: every tool is introduced by its first delta, at most one chunk has a
finish reason, and usage comes with that chunk or in a later one without choices. -/
structure SingleChoice (chunks : List (Chunk U)) : Prop where
  single : ∀ r ∈ chunks, r.choices.length ≤ 1
  introduced : ∀ t, Introduced ((calls chunks).filter fun c => c.tool = t)
  finish : (chunks.filter Chunk.finishes).length ≤ 1
  usage : ∀ i : Fin chunks.length, (chunks.get i).usage ≠ none →
    (chunks.get i).finishes ∨ (chunks.get i).choices = [] ∧ (chunks.take i).any Chunk.finishes

/-- The converted stream is well formed exactly if there is a chunk, and in every run of tool calls
that are converted one after the other each index up to the largest is started once, before its
other deltas. -/
theorem convert_wellFormed_iff (toClaude : U → V) (tokens : Int) (usage : Option U) (chunks : List (Chunk U)) :
    WellFormed (convert toClaude tokens usage chunks) ↔
      chunks ≠ [] ∧ ∀ calls, .tools calls ∈ groups (items usage chunks) → RunOk calls := by
  have hgroups : (∀ calls, .tools calls ∈ groups (items usage chunks) → RunOk calls) ↔
      ∀ g ∈ groups (items usage chunks), g.Ok := by
    refine ⟨fun h g hg => ?_, fun h calls hg => h _ hg⟩
    cases g with
    | text l | thinking l => trivial
    | tools calls => exact h calls hg
  cases chunks with
  | nil =>
    refine iff_of_false ?_ fun h => h.1 rfl
    rintro ⟨id, model, t, body, u, reason, h, -⟩
    cases h
  | cons r rest =>
    obtain ⟨es, ⟨u, reason, rfl⟩, heq⟩ := convert_layout toClaude tokens usage r rest
    rw [hgroups, ← blocks_layout (V := V) 0, heq]
    constructor
    · rintro ⟨id, model, t, body, u', reason', h, -, hok⟩
      have hbody := (List.append_inj' (List.cons.inj h).2 rfl).1
      exact ⟨List.cons_ne_nil r rest, hbody ▸ hok⟩
    · rintro ⟨-, hok⟩
      exact ⟨_, _, _, _, u, reason, rfl, layout_index 0 _, hok⟩

def deltaChunk (d : Delta) : Chunk Unit := ⟨"chatcmpl-1", "gpt", [⟨d, none⟩], none⟩

def interruptedTool : List (Chunk Unit) :=
  [deltaChunk ⟨some "", none, none, []⟩, deltaChunk ⟨none, none, none, [⟨some 0, "call_1", "f", ""⟩]⟩,
    deltaChunk ⟨some "x", none, none, []⟩, deltaChunk ⟨none, none, none, [⟨some 0, "", "", "1"⟩]⟩,
    ⟨"chatcmpl-1", "gpt", [⟨⟨none, none, none, []⟩, some "tool_calls"⟩], some ()⟩]

/-- The tool goes on in a second run, whose block is never started. -/
theorem interrupted_tool_not_wellFormed :
    SingleChoice interruptedTool ∧ ¬ WellFormed (convert (fun u : Unit => u) 0 none interruptedTool) := by
  refine ⟨⟨by decide +kernel, fun t => ?_, by decide +kernel, by decide +kernel⟩, ?_⟩
  · by_cases ht : 0 = t
    · subst ht
      simp [calls, deltas, interruptedTool, deltaChunk, placeAll, Introduced]
    · simp [calls, deltas, interruptedTool, deltaChunk, placeAll, Introduced, ht]
  · have hevents : convert (fun u : Unit => u) 0 none interruptedTool = .messageStart "chatcmpl-1" "gpt" 0 ::
        ([.blockStart 0 (.toolUse "call_1" "f"), .blockStop 0, .blockStart 1 .text, .blockDelta 1 (.text "x"),
          .blockStop 1, .blockDelta 2 (.inputJson "1"), .blockStop 2] ++
        [.messageDelta (some ()) "tool_use", .messageStop]) := by decide +kernel
    rw [hevents]
    rintro ⟨id, model, t, body, u, reason, h, -, hok⟩
    obtain rfl := (List.append_inj' (List.cons.inj h).2 rfl).1
    obtain h2 | ⟨block, deltas, h2, -⟩ := hok 2 <;> simp [blockEvents, Event.index?] at h2

end TokenEra.ChatToClaude
