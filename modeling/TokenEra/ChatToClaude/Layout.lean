import TokenEra.ChatToClaude.Stream

/-!
# The layout of the converted stream

What the converter makes of the chunks, without its state. A chunk contributes items: a piece of
text, a piece of reasoning, or tool calls with their offsets (`items`); some of its content may not
contribute, which is where the converter loses it. Consecutive items of a kind form a group, and the
groups are laid out one after the other, each over its own range of block indexes: one block for a
group of text or reasoning, and for a group of tool calls one block for each offset up to the
largest.

`convert_layout` says that the events of a stream are a message start, the layout of its groups and
the two events that end it. The rest of the development is about `items`, `groups` and `layout`
only.
-/

namespace TokenEra.ChatToClaude

variable {U V : Type*}

/-! ### What the chunks contribute -/

/-- A tool call as the converter places it: the index of the tool, the offset of its block from the
base index, and whether it starts the block there. -/
structure Placed where
  tool : Int
  offset : Int
  starts : Bool
  id : String
  name : String
  arguments : String
  deriving DecidableEq, Repr

def placeAll : (i : Nat) → List ToolCallResponse → List Placed
  | _, [] => []
  | i, c :: rest => ⟨c.index.getD i, c.index.getD i, c.name ≠ "", c.id, c.name, c.arguments⟩ :: placeAll (i + 1) rest

def deltas (chunks : List (Chunk U)) : List Delta := chunks.flatMap fun r => r.choices.head?.toList.map Choice.delta

def calls (chunks : List (Chunk U)) : List Placed := (deltas chunks).flatMap fun d => placeAll 0 d.toolCalls

def Placed.loud (c : Placed) : Bool := c.starts || c.arguments ≠ ""

/-- The first of these tool calls starts a block, and no later one does. -/
def HeadStarts (l : List Placed) : Prop :=
  ∃ c rest, l = c :: rest ∧ c.starts = true ∧ ∀ x ∈ rest, x.starts = false

inductive Item
  | text (s : String)
  | thinking (s : String)
  | tools (calls : List Placed)
  deriving DecidableEq, Repr

def pieceItems (d : Delta) : List Item :=
  if d.getReasoningContent ≠ "" then [.thinking d.getReasoningContent]
  else if d.getContentString ≠ "" then [.text d.getContentString]
  else []

def firstItems (d : Delta) : List Item :=
  (match d.toolCalls with
    | [] => []
    | c :: _ => [.tools [⟨c.index.getD 0, 0, true, c.id, c.name, c.arguments⟩]]) ++ pieceItems d

def nextItems (d : Delta) : List Item :=
  if d.toolCalls ≠ [] then [.tools (placeAll 0 d.toolCalls)] else pieceItems d

def firstContribution (usage : Option U) (r : Chunk U) : List Item × Bool :=
  match r.choices with
  | [] => ([], false)
  | c :: _ => (firstItems c.delta, c.finish.isSome && (r.usage.or usage).isSome)

/-- The same for a later chunk: with a finish reason but no usage it contributes nothing. -/
def nextContribution (usage : Option U) (r : Chunk U) : List Item × Bool :=
  match r.choices with
  | [] => ([], (r.usage.or usage).isSome)
  | c :: _ =>
    match c.finish, r.usage with
    | none, _ => (nextItems c.delta, false)
    | some _, none => ([], false)
    | some _, some _ => (nextItems c.delta, true)

def laterItems (usage : Option U) : List (Chunk U) → List Item
  | [] => []
  | r :: rest =>
    (nextContribution usage r).1 ++ if (nextContribution usage r).2 then [] else laterItems usage rest

def items (usage : Option U) : List (Chunk U) → List Item
  | [] => []
  | r :: rest =>
    (firstContribution usage r).1 ++ if (firstContribution usage r).2 then [] else laterItems usage rest

/-! ### Groups -/

inductive Group
  | text (pieces : List String)
  | thinking (pieces : List String)
  | tools (calls : List Placed)
  deriving DecidableEq, Repr

def maxOffset (calls : List Placed) : Nat := calls.foldr (fun c m => max c.offset.toNat m) 0

def Group.width : Group → Nat
  | .text _ | .thinking _ => 1
  | .tools calls => maxOffset calls + 1

structure Grouping where
  closed : List Group
  cur : Option Group

def Item.group : Item → Group
  | .text s => .text [s]
  | .thinking s => .thinking [s]
  | .tools calls => .tools calls

def Group.extend : Group → Item → Option Group
  | .text l, .text s => some (.text (l ++ [s]))
  | .thinking l, .thinking s => some (.thinking (l ++ [s]))
  | .tools l, .tools calls => some (.tools (l ++ calls))
  | _, _ => none

def Grouping.add (g : Grouping) (item : Item) : Grouping :=
  match g.cur.bind fun cur => cur.extend item with
  | some cur => ⟨g.closed, some cur⟩
  | none => ⟨g.closed ++ g.cur.toList, some item.group⟩

def Grouping.all (g : Grouping) : List Group := g.closed ++ g.cur.toList

def groups (l : List Item) : List Group := (l.foldl Grouping.add ⟨[], none⟩).all

/-! ### Their events -/

def callEvents (base : Nat) (c : Placed) : List (Event V) :=
  (if c.starts then [.blockStart (base + c.offset) (.toolUse c.id c.name)] else []) ++
    (if c.arguments ≠ "" then [.blockDelta (base + c.offset) (.inputJson c.arguments)] else [])

def Group.openEvents (base : Nat) : Group → List (Event V)
  | .text l => .blockStart base .text :: l.map fun s => .blockDelta base (.text s)
  | .thinking l => .blockStart base .thinking :: l.map fun s => .blockDelta base (.thinking s)
  | .tools calls => calls.flatMap (callEvents base)

def Group.stops (base : Nat) : Group → List (Event V)
  | .text _ | .thinking _ => [.blockStop base]
  | .tools calls => (List.range (maxOffset calls + 1)).map fun offset => .blockStop (base + offset : Nat)

def layout (base : Nat) : List Group → List (Event V)
  | [] => []
  | g :: rest => g.openEvents base ++ g.stops base ++ layout (base + g.width) rest

def totalWidth (l : List Group) : Nat := (l.map Group.width).sum

variable {l : List Group}

theorem layout_append (base : Nat) (l' : List Group) :
    layout (V := V) base (l ++ l') = layout base l ++ layout (base + totalWidth l) l' := by
  induction l generalizing base with
  | nil => rfl
  | cons g l ih => simp [layout, ih, totalWidth, Nat.add_assoc]

theorem maxOffset_append (l l' : List Placed) : maxOffset (l ++ l') = max (maxOffset l) (maxOffset l') := by
  induction l with
  | nil => simp [maxOffset]
  | cons c l ih =>
    simp only [maxOffset, List.cons_append, List.foldr_cons] at ih ⊢
    rw [ih, Nat.max_assoc]

/-! ### The state follows the groups -/

def Tracks (usage : Option U) (g : Grouping) (s : ClaudeConvertInfo U) : Prop :=
  s.usage = usage ∧ s.done = false ∧
    match g.cur with
    | none => s.lastMessagesType = .none ∧ s.index = totalWidth g.closed
    | some (.text _) => s.lastMessagesType = .text ∧ s.index = totalWidth g.closed
    | some (.thinking _) => s.lastMessagesType = .thinking ∧ s.index = totalWidth g.closed
    | some (.tools calls) => s.lastMessagesType = .tools ∧ s.toolCallBaseIndex = totalWidth g.closed ∧
        s.toolCallMaxIndexOffset = maxOffset calls

def Grouping.events (g : Grouping) : List (Event V) :=
  layout 0 g.closed ++ g.cur.toList.flatMap (Group.openEvents (totalWidth g.closed))

variable {g : Grouping} {s : ClaudeConvertInfo U} {usage : Option U} {item : Item}

theorem events_stops (h : Tracks usage g s) :
    g.events ++ stopOpenBlocks s = layout (V := V) 0 g.all := by
  obtain ⟨closed, cur⟩ := g
  obtain ⟨-, -, h⟩ := h
  rw [Grouping.all, layout_append, Grouping.events, Nat.zero_add, List.append_assoc]
  congr 1
  cases cur with
  | none =>
    obtain ⟨hlast, -⟩ := h
    simp [stopOpenBlocks, hlast, layout]
  | some group =>
    cases group with
    | text l | thinking l =>
      obtain ⟨hlast, hindex⟩ := h
      simp [stopOpenBlocks, hlast, hindex, layout, Group.stops]
    | tools calls =>
      obtain ⟨hlast, hbase, hmax⟩ := h
      simp [stopOpenBlocks, hlast, hbase, hmax, layout, Group.stops]

theorem advance_spec (h : Tracks usage g s) :
    Tracks usage ⟨g.all, none⟩ (stopOpenBlocksAndAdvance (V := V) s).1 ∧
    (g.events ++ (stopOpenBlocksAndAdvance s).2 : List (Event V)) = layout 0 g.all := by
  have hstops := events_stops (V := V) h
  obtain ⟨closed, cur⟩ := g
  obtain ⟨husage, hdone, h⟩ := h
  cases cur with
  | none =>
    obtain ⟨hlast, hindex⟩ := h
    simp only [stopOpenBlocksAndAdvance, hlast]
    refine ⟨⟨husage, hdone, hlast, ?_⟩, ?_⟩
    · simpa [Grouping.all] using hindex
    · simpa [stopOpenBlocks, hlast] using hstops
  | some group =>
    cases group with
    | text l | thinking l =>
      obtain ⟨hlast, hindex⟩ := h
      simp only [stopOpenBlocksAndAdvance, hlast]
      refine ⟨⟨husage, hdone, rfl, ?_⟩, hstops⟩
      simp [Grouping.all, totalWidth, Group.width, hindex]
    | tools calls =>
      obtain ⟨hlast, hbase, hmax⟩ := h
      simp only [stopOpenBlocksAndAdvance, hlast]
      refine ⟨⟨husage, hdone, rfl, ?_⟩, hstops⟩
      simp [Grouping.all, totalWidth, Group.width, hbase, hmax, Nat.add_assoc]

/-! ### Items -/

theorem add_new (h : (g.cur.bind fun cur => cur.extend item) = none) :
    g.add item = ⟨g.all, some item.group⟩ := by
  simp [Grouping.add, h, Grouping.all]

theorem add_extend {cur : Group} (h : (g.cur.bind fun cur => cur.extend item) = some cur) :
    g.add item = ⟨g.closed, some cur⟩ := by
  simp [Grouping.add, h]

theorem events_open (g : Group) :
    (⟨l, some g⟩ : Grouping).events = layout (V := V) 0 l ++ g.openEvents (totalWidth l) := by
  simp [Grouping.events]

/-- The two kinds of pieces: what the converter is called with for an item. -/
inductive IsPiece (t : String) : Item → LastMessageType → ContentBlock → BlockDelta → Prop
  | text : IsPiece t (.text t) .text .text (.text t)
  | thinking : IsPiece t (.thinking t) .thinking .thinking (.thinking t)

theorem nextPiece_spec {t : String}
    {kind : LastMessageType} {block : ContentBlock} {delta : BlockDelta} (hp : IsPiece t item kind block delta)
    (h : Tracks usage g s) :
    Tracks usage (g.add item) (nextPiece (V := V) kind block delta s).1 ∧
    (g.events ++ (nextPiece kind block delta s).2 : List (Event V)) = (g.add item).events := by
  by_cases hkind : s.lastMessagesType = kind
  · -- The open group is of this kind.
    obtain ⟨closed, cur⟩ := g
    obtain ⟨husage, hdone, h⟩ := h
    cases hp <;> rcases cur with _ | (l | l | l) <;> simp only [hkind, reduceCtorEq, false_and] at h
    all_goals
      rw [add_extend rfl, events_open, events_open]
      simp only [nextPiece, hkind, ne_eq, not_true_eq_false, if_false]
      refine ⟨⟨husage, hdone, rfl, h.2⟩, ?_⟩
      simp [Group.openEvents, h.2]
  · have hnew : (g.cur.bind fun cur => cur.extend item) = none := by
      obtain ⟨closed, cur⟩ := g
      obtain ⟨-, -, h⟩ := h
      cases hp <;> rcases cur with _ | (l | l | l) <;> first | rfl | exact absurd h.1 hkind
    obtain ⟨hs, hevents⟩ := advance_spec (V := V) h
    rw [add_new hnew, events_open, ← hevents]
    obtain ⟨husage, hdone, hlast, hindex⟩ := hs
    simp only [nextPiece, ne_eq, hkind, not_false_eq_true, if_true]
    cases hp
    all_goals
      refine ⟨⟨husage, hdone, rfl, hindex⟩, ?_⟩
      simp [Item.group, Group.openEvents, hindex]

theorem firstPiece_eq {kind : LastMessageType} (h : s.lastMessagesType ≠ kind)
    (block : ContentBlock) (delta : BlockDelta) :
    firstPiece (V := V) kind block delta s = nextPiece kind block delta s := by
  simp [firstPiece, nextPiece, switchTo, h]

variable {calls : List ToolCallResponse}

theorem toolLoop_eq (base i m : Nat) :
    toolLoop (V := V) base i m calls =
      (max m (maxOffset (placeAll i calls)), (placeAll i calls).flatMap (callEvents base)) := by
  induction calls generalizing i m with
  | nil => simp [toolLoop, placeAll, maxOffset]
  | cons c calls ih =>
    have hmax : (if c.index.getD i > m then (c.index.getD i).toNat else m) = max m (c.index.getD i).toNat := by
      split_ifs <;> omega
    simp [toolLoop, placeAll, ih, hmax, maxOffset, callEvents, Nat.max_assoc]

def placeTools (calls : List Placed) (state : ClaudeConvertInfo U) : ClaudeConvertInfo U × List (Event V) :=
  let (state, stops) :=
    if state.lastMessagesType ≠ .tools then
      let (state, stops) := stopOpenBlocksAndAdvance state
      ({ state with toolCallBaseIndex := state.index, toolCallMaxIndexOffset := 0 }, stops)
    else (state, [])
  let offset := max state.toolCallMaxIndexOffset (maxOffset calls)
  ({ state with
      lastMessagesType := .tools
      toolCallMaxIndexOffset := offset
      index := state.toolCallBaseIndex + offset }, stops ++ calls.flatMap (callEvents state.toolCallBaseIndex))

theorem nextTools_eq :
    nextTools (V := V) calls s = placeTools (placeAll 0 calls) s := by
  simp only [nextTools, placeTools, toolLoop_eq]

theorem placeTools_spec (calls : List Placed) (h : Tracks usage g s) :
    Tracks usage (g.add (.tools calls)) (placeTools (V := V) calls s).1 ∧
    (g.events ++ (placeTools calls s).2 : List (Event V)) = (g.add (.tools calls)).events := by
  by_cases hkind : s.lastMessagesType = .tools
  · obtain ⟨closed, cur⟩ := g
    obtain ⟨husage, hdone, h⟩ := h
    rcases cur with _ | (l | l | l) <;> simp only [hkind, reduceCtorEq, false_and] at h
    rw [add_extend rfl, events_open, events_open]
    simp only [placeTools, hkind, ne_eq, not_true_eq_false, if_false]
    refine ⟨⟨husage, hdone, rfl, h.2.1, ?_⟩, ?_⟩
    · rw [maxOffset_append, h.2.2]
    · simp [Group.openEvents, h.2.1]
  · have hnew : (g.cur.bind fun cur => cur.extend (.tools calls)) = none := by
      obtain ⟨closed, cur⟩ := g
      obtain ⟨-, -, h⟩ := h
      rcases cur with _ | (l | l | l) <;> first | rfl | exact absurd h.1 hkind
    obtain ⟨hs, hevents⟩ := advance_spec (V := V) h
    rw [add_new hnew, events_open, ← hevents]
    obtain ⟨husage, hdone, hlast, hindex⟩ := hs
    simp only [placeTools, ne_eq, hkind, not_false_eq_true, if_true]
    refine ⟨⟨husage, hdone, rfl, hindex, by simp⟩, ?_⟩
    simp [Item.group, Group.openEvents, hindex]

/-! ### Chunks -/

def Grouping.addAll (g : Grouping) (l : List Item) : Grouping := l.foldl Grouping.add g

theorem addAll_append (l l' : List Item) : g.addAll (l ++ l') = (g.addAll l).addAll l' :=
  List.foldl_append

/-- A call takes the converter from groups to groups: its state and the events so far follow. -/
def Follows (usage : Option U) (g g' : Grouping) (r : ClaudeConvertInfo U × List (Event V)) : Prop :=
  Tracks usage g' r.1 ∧ g.events ++ r.2 = g'.events

theorem follows_self (h : Tracks usage g s) :
    Follows (V := V) usage g g (s, []) :=
  ⟨h, List.append_nil _⟩

variable {d : Delta}

theorem nextContent_spec
    (h : Tracks usage g s) : Follows (V := V) usage g (g.addAll (nextItems d)) (nextContent d s) := by
  unfold nextContent nextItems pieceItems
  split_ifs
  · rw [nextTools_eq]
    exact placeTools_spec _ h
  · exact nextPiece_spec .thinking h
  · exact nextPiece_spec .text h
  · exact follows_self h

variable {tokens : Int} {chunks : List (Chunk U)}

theorem feed_done (toClaude : U → V) (count : Nat) (hs : s.done = true) :
    (feed toClaude tokens count s chunks).2 ++
      (finalizeStreamResponseOpenAI2Claude toClaude (feed toClaude tokens count s chunks).1).2 = [] := by
  have hfeed : feed toClaude tokens count s chunks = (s, []) := by
    induction chunks generalizing count with
    | nil => rfl
    | cons r rest ih => simp [feed, streamResponseOpenAI2Claude, hs, ih]
  simp [hfeed, finalizeStreamResponseOpenAI2Claude, hs]

def Ending (es : List (Event V)) : Prop := ∃ usage reason, es = [.messageDelta usage reason, .messageStop]

/-- A call that contributes items, and possibly ends the stream. -/
def Responds (usage : Option U) (g : Grouping) (c : List Item × Bool) (r : ClaudeConvertInfo U × List (Event V)) :
    Prop :=
  if c.2 then r.1.done = true ∧ ∃ es, Ending es ∧ g.events ++ r.2 = layout 0 (g.addAll c.1).all ++ es
  else Follows usage g (g.addAll c.1) r

theorem ending_terminal (toClaude : U → V) (usage : Option U) (reason : String) :
    Ending (terminal toClaude usage reason) := ⟨_, _, rfl⟩

theorem responds_end {s' : ClaudeConvertInfo U} {events es : List (Event V)}
    (l : List Item) (h : Follows usage g (g.addAll l) (s, events)) (hdone : s'.done = true) (hes : Ending es) :
    Responds usage g (l, true) (s', events ++ stopOpenBlocks s ++ es) := by
  refine ⟨hdone, es, hes, ?_⟩
  rw [← List.append_assoc, ← List.append_assoc, h.2, events_stops h.1]

theorem nextResponse_spec (toClaude : U → V) (r : Chunk U) (h : Tracks usage g s) :
    Responds usage g (nextContribution usage r) (nextResponse toClaude s r) := by
  unfold nextResponse nextContribution
  cases r.choices with
  | nil =>
    dsimp only
    rw [h.1]
    cases r.usage.or usage with
    | none => exact follows_self h
    | some u => exact responds_end [] (follows_self h) rfl (ending_terminal ..)
  | cons c cs =>
    dsimp only
    cases c.finish with
    | none => exact nextContent_spec h
    | some reason =>
      have h' : Tracks usage g { s with finishReason := reason } := h
      cases r.usage with
      | none => exact follows_self h'
      | some u => exact responds_end _ (nextContent_spec h') rfl (ending_terminal ..)

/-- The chunks after the first one, and the finalizer. -/
theorem feed_later (toClaude : U → V) {count : Nat} (hcount : 1 < count) (h : Tracks usage g s) :
    ∃ es, Ending es ∧ g.events ++ ((feed toClaude tokens count s chunks).2 ++
      (finalizeStreamResponseOpenAI2Claude toClaude (feed toClaude tokens count s chunks).1).2) =
        layout 0 (g.addAll (laterItems usage chunks)).all ++ es := by
  induction chunks generalizing count g s with
  | nil =>
    refine ⟨_, ending_terminal toClaude s.usage (orEndTurn (stopReasonOpenAI2Claude s.finishReason)), ?_⟩
    simp only [feed, List.nil_append, finalizeStreamResponseOpenAI2Claude, h.2.1, Bool.false_eq_true, if_false]
    rw [← List.append_assoc, events_stops h]
    rfl
  | cons r rest ih =>
    have hcall : streamResponseOpenAI2Claude toClaude count tokens s r = nextResponse toClaude s r := by
      simp [streamResponseOpenAI2Claude, h.2.1, hcount.ne']
    have hspec := nextResponse_spec toClaude r h
    simp only [feed, hcall, laterItems]
    by_cases hends : (nextContribution usage r).2 = true
    · rw [Responds, if_pos hends] at hspec
      obtain ⟨hdone, es, hes, heq⟩ := hspec
      refine ⟨es, hes, ?_⟩
      rw [if_pos hends, List.append_assoc, feed_done toClaude (count + 1) hdone, List.append_nil,
        List.append_nil, heq]
    · rw [Responds, if_neg hends] at hspec
      obtain ⟨es, hes, heq⟩ := ih (Nat.lt_succ_of_lt hcount) hspec.1
      refine ⟨es, hes, ?_⟩
      rw [if_neg hends, addAll_append, ← heq, ← hspec.2]
      simp only [List.append_assoc]

/-! ### Streams -/

theorem tracks_new (usage : Option U) : Tracks usage ⟨[], none⟩ (ClaudeConvertInfo.new usage) :=
  ⟨rfl, rfl, rfl, rfl⟩

theorem firstTool_spec (usage : Option U) (d : Delta) :
    Follows (V := V) usage ⟨[], none⟩
      (Grouping.addAll ⟨[], none⟩ (match d.toolCalls with
        | [] => []
        | c :: _ => [.tools [⟨c.index.getD 0, 0, true, c.id, c.name, c.arguments⟩]]))
      (firstTool d (ClaudeConvertInfo.new usage)) ∧
    (firstTool (V := V) d (ClaudeConvertInfo.new usage)).1.lastMessagesType ≠ .thinking ∧
    (firstTool (V := V) d (ClaudeConvertInfo.new usage)).1.lastMessagesType ≠ .text := by
  unfold firstTool
  cases d.toolCalls with
  | nil => exact ⟨follows_self (tracks_new usage), by simp [ClaudeConvertInfo.new], by simp [ClaudeConvertInfo.new]⟩
  | cons c rest =>
    refine ⟨?_, by simp, by simp⟩
    have hplace : placeTools (V := V) [⟨c.index.getD 0, 0, true, c.id, c.name, c.arguments⟩] (.new usage) =
        ({ ClaudeConvertInfo.new usage with
            lastMessagesType := .tools, toolCallBaseIndex := 0, toolCallMaxIndexOffset := 0 },
          .blockStart 0 (.toolUse c.id c.name) ::
            (if c.arguments ≠ "" then [.blockDelta 0 (.inputJson c.arguments)] else [])) := by
      simp [placeTools, ClaudeConvertInfo.new, stopOpenBlocksAndAdvance, maxOffset, callEvents]
    have hspec := placeTools_spec (V := V) [⟨c.index.getD 0, 0, true, c.id, c.name, c.arguments⟩] (tracks_new usage)
    rwa [hplace] at hspec

theorem firstContent_spec (d : Delta)
    (h : Tracks usage g s) (hthinking : s.lastMessagesType ≠ .thinking) (htext : s.lastMessagesType ≠ .text) :
    Follows (V := V) usage g (g.addAll (pieceItems d)) (firstContent d s) := by
  unfold firstContent pieceItems
  split_ifs
  · rw [firstPiece_eq hthinking]
    exact nextPiece_spec .thinking h
  · rw [firstPiece_eq htext]
    exact nextPiece_spec .text h
  · exact follows_self h

/-- The first chunk: a message start, and then as a later one. -/
theorem firstResponse_spec (toClaude : U → V) (tokens : Int) (usage : Option U) (r : Chunk U) :
    ∃ events, (firstResponse toClaude tokens (ClaudeConvertInfo.new usage) r).2 =
        .messageStart r.id r.model tokens :: events ∧
      Responds usage ⟨[], none⟩ (firstContribution usage r)
        ((firstResponse toClaude tokens (ClaudeConvertInfo.new usage) r).1, events) := by
  unfold firstResponse firstContribution
  cases r.choices with
  | nil => exact ⟨[], rfl, follows_self (tracks_new usage)⟩
  | cons c cs =>
    obtain ⟨⟨htracks, htool⟩, hthinking, htext⟩ := firstTool_spec (V := V) usage c.delta
    obtain ⟨htracks', hcontent⟩ := firstContent_spec (V := V) c.delta htracks hthinking htext
    rw [← addAll_append, ← firstItems] at htracks' hcontent
    rw [← htool, List.append_assoc] at hcontent
    dsimp only
    cases c.finish with
    | none => exact ⟨_, rfl, htracks', hcontent⟩
    | some reason =>
      have husage : r.usage.or (firstContent (V := V) c.delta (firstTool (V := V) c.delta (.new usage)).1).1.usage =
          r.usage.or usage := by rw [htracks'.1]
      cases hor : r.usage.or usage with simp only [husage, hor]
      | none =>
        exact ⟨_, rfl, htracks', hcontent⟩
      | some u =>
        refine ⟨_, rfl, responds_end _ ?_ rfl (ending_terminal ..)⟩
        exact ⟨htracks', hcontent⟩

theorem convert_layout (toClaude : U → V) (tokens : Int) (usage : Option U) (r : Chunk U) (rest : List (Chunk U)) :
    ∃ es, Ending es ∧ convert toClaude tokens usage (r :: rest) =
      .messageStart r.id r.model tokens :: (layout 0 (groups (items usage (r :: rest))) ++ es) := by
  obtain ⟨events, hfirst, hspec⟩ := firstResponse_spec toClaude tokens usage r
  have hcall : streamResponseOpenAI2Claude toClaude 1 tokens (ClaudeConvertInfo.new usage) r =
      firstResponse toClaude tokens (ClaudeConvertInfo.new usage) r := rfl
  simp only [convert, feed, hcall, items, groups, hfirst, List.cons_append]
  by_cases hends : (firstContribution usage r).2 = true
  · rw [Responds, if_pos hends] at hspec
    obtain ⟨hdone, es, hes, heq⟩ := hspec
    refine ⟨es, hes, ?_⟩
    rw [if_pos hends, List.append_assoc, feed_done toClaude 2 hdone, List.append_nil, List.append_nil]
    exact congrArg _ heq
  · rw [Responds, if_neg hends] at hspec
    obtain ⟨es, hes, heq⟩ := feed_later toClaude (by decide : 1 < 2) hspec.1
    refine ⟨es, hes, ?_⟩
    rw [if_neg hends, List.foldl_append, List.append_assoc]
    rw [← hspec.2, List.append_assoc] at heq
    exact congrArg _ heq

end TokenEra.ChatToClaude
