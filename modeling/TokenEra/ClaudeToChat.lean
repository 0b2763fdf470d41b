import TokenEra.Responses.Buffered
import TokenEra.Responses.ChatContent

/-!
# Claude messages to chat completions

`responseClaude2OpenAI` turns a whole message into a chat completion: a loop over the content blocks
that keeps one text, one reasoning and a list of tool calls. `streamResponseClaude2OpenAI` turns one
event of a Claude stream into a chat chunk, and keeps no state.

The two agree on a message and its own stream exactly if at most one text block counts and at most
one thinking block: the loop overwrites what the stream concatenates. Tool calls always agree.

The JSON text of a tool's input is given by a function `marshal`; it is that of `kitutil.Marshal`.
-/

namespace TokenEra.ClaudeToChat

open Lib TokenUsage ChatToClaude Responses

/-! ### Messages and events -/

inductive MediaType
  | text | thinking | toolUse
  | textDelta | thinkingDelta | inputJsonDelta | signatureDelta
  | other (name : String)
  deriving DecidableEq, Repr

variable {I : Type*}

/-- `ClaudeMediaMessage`: a content block, a delta of one, or a message. -/
structure MediaMessage (I : Type*) where
  type : MediaType
  text : Option String := none
  thinking : Option String := none
  partialJson : Option String := none
  stopReason : Option String := none
  model : String := ""
  id : String := ""
  name : String := ""
  input : Option I := none

def MediaMessage.getText (m : MediaMessage I) : String := m.text.getD ""

inductive EventType
  | messageStart | contentBlockStart | contentBlockDelta | contentBlockStop | messageDelta | messageStop
  | other (name : String)
  deriving DecidableEq, Repr

/-- `ClaudeResponse`: a whole message, or an event of a stream. -/
structure ClaudeResponse (I : Type*) where
  type : EventType
  id : String := ""
  content : List (MediaMessage I) := []
  stopReason : String := ""
  model : String := ""
  index : Option Int := none
  contentBlock : Option (MediaMessage I) := none
  delta : Option (MediaMessage I) := none
  message : Option (MediaMessage I) := none

/-- `ClaudeStopReasonToOpenAIFinishReason`. -/
def stopReasonClaudeToOpenAI (reason : String) : String :=
  let lower := toLower reason
  if lower = "stop_sequence" ∨ lower = "end_turn" then "stop"
  else if lower = "max_tokens" then "length"
  else if lower = "tool_use" then "tool_calls"
  else if lower = "refusal" then "content_filter"
  else reason

/-! ### Events to chunks -/

/-- The pointer that an `input_json_delta` without `partial_json` follows. -/
inductive Panic
  | nilDereference
  deriving DecidableEq, Repr

def textDelta (content : Option String) : Delta := ⟨content, none, none, []⟩

def reasoningDelta (content reasoning : Option String) : Delta := ⟨content, reasoning, none, []⟩

def toolDelta (index : Int) (id name arguments : String) :
    Delta := ⟨none, none, none, [⟨some index, id, name, arguments⟩]⟩

def streamResponseClaude2OpenAI (e : ClaudeResponse I) : Except Panic (Option (Chunk Usage)) :=
  let fcIdx := e.index.getD 0
  let chunk (delta : Delta) : Option (Chunk Usage) := some ⟨"", e.model, [⟨delta, none⟩], none⟩
  match e.type with
  | .messageStart =>
    match e.message with
    | some m => .ok (some ⟨m.id, m.model, [⟨textDelta (some ""), none⟩], none⟩)
    | none => .ok (chunk (textDelta (some "")))
  | .contentBlockStart =>
    match e.contentBlock with
    | none => .ok none
    | some block =>
      match block.type with
      | .text => .ok (chunk (textDelta block.text))
      | .toolUse => .ok (chunk (toolDelta fcIdx block.id block.name ""))
      | _ => .ok (chunk (textDelta none))
  | .contentBlockDelta =>
    match e.delta with
    | none => .ok (chunk (textDelta none))
    | some delta =>
      match delta.type with
      | .inputJsonDelta =>
        match delta.partialJson with
        | none => .error .nilDereference
        | some json => .ok (chunk (toolDelta fcIdx "" "" json))
      | .signatureDelta => .ok (chunk (reasoningDelta delta.text (some "\n")))
      | .thinkingDelta => .ok (chunk (reasoningDelta delta.text delta.thinking))
      | _ => .ok (chunk (textDelta delta.text))
  | .messageDelta =>
    let finish := (e.delta.bind (·.stopReason)).map stopReasonClaudeToOpenAI
    .ok (some ⟨"", e.model, [⟨textDelta none, finish.filter (· ≠ "null")⟩], none⟩)
  | .contentBlockStop | .messageStop | .other _ => .ok none

def streamChunks : List (ClaudeResponse I) → Except Panic (List (Chunk Usage))
  | [] => .ok []
  | e :: events =>
    match streamResponseClaude2OpenAI e with
    | .error p => .error p
    | .ok chunk =>
      match streamChunks events with
      | .error p => .error p
      | .ok chunks => .ok (chunk.toList ++ chunks)

theorem streamChunks_cons {e : ClaudeResponse I} {events : List (ClaudeResponse I)} {chunk : Option (Chunk Usage)}
    {chunks : List (Chunk Usage)} (he : streamResponseClaude2OpenAI e = .ok chunk)
    (hevents : streamChunks events = .ok chunks) : streamChunks (e :: events) = .ok (chunk.toList ++ chunks) := by
  rw [streamChunks, he, hevents]

theorem streamChunks_append {events events' : List (ClaudeResponse I)} {chunks chunks' : List (Chunk Usage)}
    (h : streamChunks events = .ok chunks) (h' : streamChunks events' = .ok chunks') :
    streamChunks (events ++ events') = .ok (chunks ++ chunks') := by
  induction events generalizing chunks with
  | nil =>
    obtain rfl : [] = chunks := Except.ok.inj h
    exact h'
  | cons e events ih =>
    rw [streamChunks] at h
    cases he : streamResponseClaude2OpenAI e with
    | error p => simp [he] at h
    | ok chunk =>
      cases hrest : streamChunks events with
      | error p => simp [he, hrest] at h
      | ok rest =>
        simp only [he, hrest] at h
        obtain rfl : chunk.toList ++ rest = chunks := Except.ok.inj h
        rw [List.cons_append, streamChunks_cons he (ih hrest), List.append_assoc]

/-! ### Whole messages -/

structure Folded where
  responseText : String
  thinkingContent : String
  tools : List ToolCallRequest

section Whole

variable (marshal : Option I → String)

def foldBlock (f : Folded) (m : MediaMessage I) : Folded :=
  match m.type with
  | .toolUse => { f with tools := f.tools ++ [⟨m.id, "function", m.name, marshal m.input, .absent⟩] }
  | .thinking =>
    match m.thinking with
    | some thinking => { f with thinkingContent := thinking }
    | none => f
  | .text => { f with responseText := m.getText }
  | _ => f

def responseClaude2OpenAI (r : ClaudeResponse I) : TextResponse :=
  -- the first block's fields are read whatever its type is
  let firstText := (r.content.head?.map (·.getText)).getD ""
  let responseThinking := (r.content.head?.bind (·.thinking)).getD ""
  let folded := r.content.foldl (foldBlock marshal) ⟨firstText, "", []⟩
  let reasoning :=
    if folded.thinkingContent ≠ "" then some folded.thinkingContent
    else if responseThinking ≠ "" then some responseThinking
    else none
  { id := r.id
    model := r.model
    choices := [⟨{ content := .text folded.responseText, reasoningContent := reasoning, toolCalls := folded.tools },
      stopReasonClaudeToOpenAI r.stopReason⟩]
    usage := {} }

def texts (content : List (MediaMessage I)) : List String := (content.filter (·.type = .text)).map (·.getText)

def MediaMessage.thinking? (m : MediaMessage I) : Option String := if m.type = .thinking then m.thinking else none

def thinkings (content : List (MediaMessage I)) : List String := content.filterMap (·.thinking?)

def calls (content : List (MediaMessage I)) : List ToolCallRequest :=
  (content.filter (·.type = .toolUse)).map fun m => ⟨m.id, "function", m.name, marshal m.input, .absent⟩

variable {marshal} (f : Folded) (content : List (MediaMessage I))

theorem responseText_fold :
    (content.foldl (foldBlock marshal) f).responseText = (texts content).getLast?.getD f.responseText := by
  induction content using List.reverseRecOn with
  | nil => rfl
  | append_singleton content m ih =>
    rw [List.foldl_append, texts, List.filter_append, List.map_append, ← texts]
    cases htype : m.type <;> simp [foldBlock, htype, ih]
    cases m.thinking <;> simp [ih]

theorem thinkingContent_fold :
    (content.foldl (foldBlock marshal) f).thinkingContent = (thinkings content).getLast?.getD f.thinkingContent := by
  induction content using List.reverseRecOn with
  | nil => rfl
  | append_singleton content m ih =>
    rw [List.foldl_append, thinkings, List.filterMap_append, ← thinkings]
    cases htype : m.type <;> simp [foldBlock, htype, ih, MediaMessage.thinking?]
    cases m.thinking <;> simp [ih]

theorem tools_fold : (content.foldl (foldBlock marshal) f).tools = f.tools ++ calls marshal content := by
  induction content using List.reverseRecOn with
  | nil => simp [calls]
  | append_singleton content m ih =>
    rw [List.foldl_append, calls, List.filter_append, List.map_append, ← calls]
    cases htype : m.type <;> simp [foldBlock, htype, ih]
    cases m.thinking <;> simp [ih]

end Whole

/-! ### Streams of a message -/

def MediaMessage.Proper (m : MediaMessage I) : Prop :=
  (m.type = .text ∧ m.thinking = none) ∨ (m.type = .thinking ∧ m.text = none) ∨
    (m.type = .toolUse ∧ m.text = none ∧ m.thinking = none)

/-- The content of a block, as its deltas have it. -/
def MediaMessage.said (marshal : Option I → String) (m : MediaMessage I) : String :=
  match m.type with
  | .thinking => m.thinking.getD ""
  | .toolUse => marshal m.input
  | _ => m.getText

/-- A block in a stream: its content in pieces, perhaps followed by a signature. -/
structure Part (I : Type*) where
  block : MediaMessage I
  pieces : List String
  signed : Bool

def blockDelta (m : MediaMessage I) (piece : String) : MediaMessage I :=
  match m.type with
  | .thinking => { type := .thinkingDelta, thinking := some piece }
  | .toolUse => { type := .inputJsonDelta, partialJson := some piece }
  | _ => { type := .textDelta, text := some piece }

def emptyBlock (m : MediaMessage I) : MediaMessage I :=
  { type := m.type, text := m.text.map fun _ => "", thinking := m.thinking.map fun _ => "", id := m.id, name := m.name }

def deltaEvent (i : Int) (d : MediaMessage I) : ClaudeResponse I :=
  { type := .contentBlockDelta, index := some i, delta := some d }

def blockEvents (i : Int) (p : Part I) : List (ClaudeResponse I) :=
  { type := .contentBlockStart, index := some i, contentBlock := some (emptyBlock p.block) } ::
    (p.pieces.map fun piece => deltaEvent i (blockDelta p.block piece)) ++
    (if p.signed then [deltaEvent i { type := .signatureDelta }] else []) ++
    [{ type := .contentBlockStop, index := some i }]

def partEvents : Int → List (Part I) → List (ClaudeResponse I)
  | _, [] => []
  | i, p :: parts => blockEvents i p ++ partEvents (i + 1) parts

def startEvent (message : ClaudeResponse I) : ClaudeResponse I :=
  { type := .messageStart, message := some { type := .other "message", id := message.id, model := message.model } }

def endEvents (message : ClaudeResponse I) : List (ClaudeResponse I) :=
  [{ type := .messageDelta, delta := some { type := .other "", stopReason := some message.stopReason } },
    { type := .messageStop }]

def eventStream (message : ClaudeResponse I) (parts : List (Part I)) : List (ClaudeResponse I) :=
  startEvent message :: partEvents 0 parts ++ endEvents message

def ClaudeResponse.isSignature (e : ClaudeResponse I) : Bool :=
  e.type = .contentBlockDelta ∧ e.delta.map (·.type) = some .signatureDelta

def unsigned (events : List (ClaudeResponse I)) : List (ClaudeResponse I) := events.filter fun e => !e.isSignature

structure Fits (marshal : Option I → String) (content : List (MediaMessage I)) (parts : List (Part I)) : Prop where
  content_eq : content = parts.map (·.block)
  proper : ∀ p ∈ parts, p.block.Proper
  said : ∀ p ∈ parts, String.join p.pieces = p.block.said marshal

section Stream

variable {marshal : Option I → String} {content : List (MediaMessage I)} {p : Part I} {parts : List (Part I)}

@[simp] theorem unsigned_append (l l' : List (ClaudeResponse I)) : unsigned (l ++ l') = unsigned l ++ unsigned l' :=
  List.filter_append ..

variable {i : Int} {m : MediaMessage I}

theorem blockDelta_not_signature (piece : String) :
    (deltaEvent i (blockDelta m piece)).isSignature = false := by
  cases htype : m.type <;> simp [ClaudeResponse.isSignature, deltaEvent, blockDelta, htype]

theorem unsigned_blockEvents :
    unsigned (blockEvents i p) =
      { type := .contentBlockStart, index := some i, contentBlock := some (emptyBlock p.block) } ::
        (p.pieces.map fun piece => deltaEvent i (blockDelta p.block piece)) ++
        [{ type := .contentBlockStop, index := some i }] := by
  have hpieces : unsigned (p.pieces.map fun piece => deltaEvent i (blockDelta p.block piece)) =
      p.pieces.map fun piece => deltaEvent i (blockDelta p.block piece) := by
    apply List.filter_eq_self.2
    intro e he
    obtain ⟨piece, -, rfl⟩ := List.mem_map.1 he
    rw [blockDelta_not_signature]
    rfl
  have hsigned : unsigned (if p.signed then [deltaEvent i { type := .signatureDelta }] else []) =
      ([] : List (ClaudeResponse I)) := by
    cases p.signed <;> rfl
  rw [blockEvents, unsigned_append, unsigned_append, hsigned, List.append_nil,
    ← List.singleton_append, unsigned_append, hpieces]
  rfl

def pieceDelta (i : Int) (m : MediaMessage I) (piece : String) : Delta :=
  match m.type with
  | .thinking => reasoningDelta none (some piece)
  | .toolUse => toolDelta i "" "" piece
  | _ => textDelta (some piece)

def startDelta (i : Int) (m : MediaMessage I) : Delta :=
  match m.type with
  | .toolUse => toolDelta i m.id m.name ""
  | .text => textDelta (m.text.map fun _ => "")
  | _ => textDelta none

def chunkOf (d : Delta) : Chunk Usage := ⟨"", "", [⟨d, none⟩], none⟩

def partDeltas (i : Int) (p : Part I) : List Delta := startDelta i p.block :: p.pieces.map (pieceDelta i p.block)

variable {pieces : List String}

theorem streamChunks_pieces :
    streamChunks (pieces.map fun piece => deltaEvent i (blockDelta m piece)) =
      .ok (pieces.map fun piece => chunkOf (pieceDelta i m piece)) := by
  induction pieces with
  | nil => rfl
  | cons piece pieces ih =>
    have hpiece : streamResponseClaude2OpenAI (deltaEvent i (blockDelta m piece)) =
        .ok (some (chunkOf (pieceDelta i m piece))) := by
      cases htype : m.type <;>
        simp [streamResponseClaude2OpenAI, deltaEvent, blockDelta, pieceDelta, htype, chunkOf]
    exact streamChunks_cons hpiece ih

theorem streamChunks_block :
    streamChunks (unsigned (blockEvents i p)) = .ok ((partDeltas i p).map chunkOf) := by
  have hstart : streamResponseClaude2OpenAI
      ({ type := .contentBlockStart, index := some i, contentBlock := some (emptyBlock p.block) } : ClaudeResponse I) =
      .ok (some (chunkOf (startDelta i p.block))) := by
    cases htype : p.block.type <;>
      simp [streamResponseClaude2OpenAI, emptyBlock, startDelta, htype, chunkOf]
  have hstop : streamChunks [({ type := .contentBlockStop, index := some i } : ClaudeResponse I)] = .ok [] := rfl
  rw [unsigned_blockEvents, streamChunks_append (streamChunks_cons hstart streamChunks_pieces) hstop]
  simp [partDeltas]

def partsDeltas : Int → List (Part I) → List Delta
  | _, [] => []
  | i, p :: parts => partDeltas i p ++ partsDeltas (i + 1) parts

theorem streamChunks_parts (i : Int) (parts : List (Part I)) :
    streamChunks (unsigned (partEvents i parts)) = .ok ((partsDeltas i parts).map chunkOf) := by
  induction parts generalizing i with
  | nil => rfl
  | cons p parts ih =>
    rw [partEvents, unsigned_append, streamChunks_append streamChunks_block (ih (i + 1)), partsDeltas, List.map_append]

def deltasText (ds : List Delta) : String := String.join (ds.map Delta.getContentString)

def deltasReasoning (ds : List Delta) : String := String.join (ds.map Delta.getReasoningContent)

def deltasCalls (ds : List Delta) : List ToolCallResponse := ds.flatMap Delta.toolCalls

theorem choicesOf_deltas (ds : List Delta) : choicesOf (ds.map chunkOf) = ds.map fun d => ⟨d, none⟩ := by
  rw [choicesOf, List.flatMap_map, List.map_eq_flatMap]
  rfl

theorem textOf_deltas (ds : List Delta) : textOf (choicesOf (ds.map chunkOf)) = deltasText ds := by
  rw [choicesOf_deltas, textOf, List.map_map]
  rfl

theorem reasoningOf_deltas (ds : List Delta) : reasoningOf (choicesOf (ds.map chunkOf)) = deltasReasoning ds := by
  rw [choicesOf_deltas, reasoningOf, List.map_map]
  rfl

theorem callsOf_deltas (ds : List Delta) : callsOf (choicesOf (ds.map chunkOf)) = deltasCalls ds := by
  rw [choicesOf_deltas, callsOf, List.flatMap_map]
  rfl

theorem text_part (i : Int) (hp : p.block.Proper) :
    deltasText (partDeltas i p) = if p.block.type = .text then String.join p.pieces else "" := by
  rcases hp with ⟨htype, -⟩ | ⟨htype, -⟩ | ⟨htype, -⟩
  · have hpieces : p.pieces.map (Delta.getContentString ∘ pieceDelta i p.block) = p.pieces := by
      simp [Function.comp_def, pieceDelta, htype, textDelta, Delta.getContentString]
    have hstart : (startDelta i p.block).getContentString = "" := by
      cases htext : p.block.text <;> simp [startDelta, htype, textDelta, Delta.getContentString, htext]
    rw [deltasText, partDeltas, List.map_cons, List.map_map, hpieces, String.join_cons, hstart, String.empty_append,
      if_pos htype]
  · rw [deltasText, join_eq_empty.2, if_neg (by simp [htype])]
    simp [partDeltas, startDelta, pieceDelta, htype, textDelta, reasoningDelta, Delta.getContentString]
  · rw [deltasText, join_eq_empty.2, if_neg (by simp [htype])]
    simp [partDeltas, startDelta, pieceDelta, htype, toolDelta, Delta.getContentString]

theorem reasoning_part (i : Int) (hp : p.block.Proper) :
    deltasReasoning (partDeltas i p) = if p.block.type = .thinking then String.join p.pieces else "" := by
  rcases hp with ⟨htype, -⟩ | ⟨htype, -⟩ | ⟨htype, -⟩
  · rw [deltasReasoning, join_eq_empty.2, if_neg (by simp [htype])]
    simp [partDeltas, startDelta, pieceDelta, htype, textDelta, Delta.getReasoningContent]
  · have hpieces : p.pieces.map (Delta.getReasoningContent ∘ pieceDelta i p.block) = p.pieces := by
      simp [Function.comp_def, pieceDelta, htype, reasoningDelta, Delta.getReasoningContent]
    have hstart : (startDelta i p.block).getReasoningContent = "" := by
      simp [startDelta, htype, textDelta, Delta.getReasoningContent]
    rw [deltasReasoning, partDeltas, List.map_cons, List.map_map, hpieces, String.join_cons, hstart,
      String.empty_append,
      if_pos htype]
  · rw [deltasReasoning, join_eq_empty.2, if_neg (by simp [htype])]
    simp [partDeltas, startDelta, pieceDelta, htype, toolDelta, Delta.getReasoningContent]

theorem calls_part (i : Int) (hp : p.block.Proper) :
    deltasCalls (partDeltas i p) =
      if p.block.type = .toolUse then
        ⟨some i, p.block.id, p.block.name, ""⟩ :: p.pieces.map fun piece => ⟨some i, "", "", piece⟩
      else [] := by
  rcases hp with ⟨htype, -⟩ | ⟨htype, -⟩ | ⟨htype, -⟩
  · simp [deltasCalls, partDeltas, startDelta, pieceDelta, htype, textDelta, List.flatMap_map]
  · simp [deltasCalls, partDeltas, startDelta, pieceDelta, htype, textDelta, reasoningDelta, List.flatMap_map]
  · rw [deltasCalls, partDeltas, List.flatMap_cons, List.flatMap_map, if_pos htype, List.map_eq_flatMap]
    simp [startDelta, pieceDelta, htype, toolDelta]

theorem Fits.tail (h : Fits marshal content (p :: parts)) : Fits marshal (parts.map (·.block)) parts :=
  ⟨rfl, fun q hq => h.proper q (List.mem_cons_of_mem _ hq), fun q hq => h.said q (List.mem_cons_of_mem _ hq)⟩

theorem text_parts (i : Int) (h : Fits marshal content parts) :
    deltasText (partsDeltas i parts) = String.join (texts content) := by
  induction parts generalizing i content with
  | nil =>
    rw [h.content_eq]
    rfl
  | cons p parts ih =>
    have hp := text_part i (h.proper p List.mem_cons_self)
    have hsaid := h.said p List.mem_cons_self
    have htail := ih (i + 1) h.tail
    rw [partsDeltas, deltasText, List.map_append, String.join_append, ← deltasText, ← deltasText,
      hp, htail, h.content_eq,
      hsaid]
    by_cases htype : p.block.type = .text <;> simp [texts, htype, MediaMessage.said]

theorem reasoning_parts (i : Int) (h : Fits marshal content parts) :
    deltasReasoning (partsDeltas i parts) = String.join (thinkings content) := by
  induction parts generalizing i content with
  | nil =>
    rw [h.content_eq]
    rfl
  | cons p parts ih =>
    have hp := reasoning_part i (h.proper p List.mem_cons_self)
    have hsaid := h.said p List.mem_cons_self
    have htail := ih (i + 1) h.tail
    rw [partsDeltas, deltasReasoning, List.map_append, String.join_append, ← deltasReasoning,
      ← deltasReasoning, hp, htail,
      h.content_eq, hsaid]
    by_cases htype : p.block.type = .thinking
    · cases hthinking : p.block.thinking <;>
        simp [thinkings, htype, MediaMessage.said, MediaMessage.thinking?, hthinking]
    · simp [thinkings, htype, MediaMessage.thinking?]

theorem foldl_addCall_pieces {l : List ToolCall} {t : ToolCall} (hl : ∀ x ∈ l, x.index ≠ t.index)
    (pieces : List String) :
    (pieces.map fun piece => (⟨some t.index, "", "", piece⟩ : ToolCallResponse)).foldl addCall (l ++ [t]) =
      l ++ [{ t with arguments := t.arguments ++ String.join pieces }] := by
  induction pieces generalizing t with
  | nil => simp
  | cons piece pieces ih =>
    have hextend : t.extend ⟨some t.index, "", "", piece⟩ = { t with arguments := t.arguments ++ piece } := by
      simp [ToolCall.extend]
    rw [List.map_cons, List.foldl_cons, addCall_last hl rfl, hextend]
    have hrest := ih (t := { t with arguments := t.arguments ++ piece }) hl
    simpa [String.append_assoc] using hrest

theorem calls_parts (i : Int) (h : Fits marshal content parts) {l : List ToolCall} (hl : ∀ t ∈ l, t.index < i) :
    ((deltasCalls (partsDeltas i parts)).foldl addCall l).map (fun t => (t.id, t.name, t.arguments)) =
      l.map (fun t => (t.id, t.name, t.arguments)) ++
        (calls marshal content).map fun c => (c.id, c.name, c.arguments) := by
  induction parts generalizing i content l with
  | nil =>
    rw [h.content_eq]
    simp [partsDeltas, deltasCalls, calls]
  | cons p parts ih =>
    have hp := calls_part i (h.proper p List.mem_cons_self)
    have hsaid := h.said p List.mem_cons_self
    have hsplit : deltasCalls (partsDeltas i (p :: parts)) =
        deltasCalls (partDeltas i p) ++ deltasCalls (partsDeltas (i + 1) parts) := by
      rw [partsDeltas, deltasCalls, List.flatMap_append]
      rfl
    rw [hsplit, List.foldl_append, hp, h.content_eq]
    by_cases htype : p.block.type = .toolUse
    · -- the call of this block is the last one
      have hne : ∀ t ∈ l, t.index ≠ i := fun t ht => (hl t ht).ne
      have hnew : addCall l ⟨some i, p.block.id, p.block.name, ""⟩ = l ++ [⟨i, p.block.id, p.block.name, ""⟩] :=
        addCall_new hne
      have hpieces := foldl_addCall_pieces (t := ⟨i, p.block.id, p.block.name, ""⟩) hne p.pieces
      have hrest := ih (i + 1) h.tail (l := l ++ [⟨i, p.block.id, p.block.name, marshal p.block.input⟩]) (by
        intro t ht
        rcases List.mem_append.1 ht with ht | ht
        · have := hl t ht
          omega
        · rw [List.mem_singleton.1 ht]
          show i < i + 1
          omega)
      simp only [hsaid, MediaMessage.said, htype, String.empty_append] at hpieces
      rw [if_pos htype, List.foldl_cons, hnew, hpieces, hrest]
      simp [calls, htype]
    · have hrest := ih (i + 1) h.tail (l := l) fun t ht => (hl t ht).trans (by omega)
      rw [if_neg htype, List.foldl_nil, hrest]
      simp [calls, htype]

end Stream

/-! ### Agreement -/

def Agrees (whole : TextResponse) (chunks : List (Chunk Usage)) : Prop :=
  ∃ choice, whole.choices = [choice] ∧ textOf (choicesOf chunks) = choice.message.stringContent ∧
    reasoningOf (choicesOf chunks) = choice.message.getReasoningContent ∧
    toolCallsOf chunks = choice.message.toolCalls.map fun c => (c.id, c.name, c.arguments)

def firstThinking (content : List (MediaMessage I)) : Option String := content.head?.bind (·.thinking)

/-- Content of which the loop overwrites nothing: no text before the last text block, and one
thinking block at most that is not empty, the last one or the first block of all. -/
structure Plain (content : List (MediaMessage I)) : Prop where
  text : ∀ s ∈ (texts content).dropLast, s = ""
  one_thinking : (thinkings content).Pairwise fun a b => a = "" ∨ b = ""
  place : ∀ s ∈ thinkings content, s ≠ "" → (thinkings content).getLast? = some s ∨ firstThinking content = some s

section Agree

variable {marshal : Option I → String} {content : List (MediaMessage I)} {parts : List (Part I)}

theorem proper_of_fits (h : Fits marshal content parts) : ∀ m ∈ content, m.Proper := by
  intro m hm
  rw [h.content_eq] at hm
  obtain ⟨p, hp, rfl⟩ := List.mem_map.1 hm
  exact h.proper p hp

theorem text_whole (h : ∀ m ∈ content, m.Proper) :
    (texts content).getLast?.getD ((content.head?.map (·.getText)).getD "") = (texts content).getLast?.getD "" := by
  cases hlast : (texts content).getLast? with
  | some s => rfl
  | none =>
    -- there is no text block, so the first block has no text
    cases content with
    | nil => rfl
    | cons m content =>
      have hnil : texts (m :: content) = [] := List.getLast?_eq_none_iff.1 hlast
      rcases h m List.mem_cons_self with ⟨htype, -⟩ | ⟨-, htext⟩ | ⟨-, htext, -⟩
      · simp [texts, htype] at hnil
      · simp [MediaMessage.getText, htext]
      · simp [MediaMessage.getText, htext]

theorem firstThinking_head (h : ∀ m ∈ content, m.Proper) {s : String} (hs : firstThinking content = some s) :
    ∃ rest, thinkings content = s :: rest := by
  cases content with
  | nil => simp [firstThinking] at hs
  | cons m content =>
    have hm : m.thinking = some s := hs
    rcases h m List.mem_cons_self with ⟨-, hnone⟩ | ⟨htype, -⟩ | ⟨-, -, hnone⟩
    · simp [hnone] at hm
    · exact ⟨thinkings content, by simp [thinkings, MediaMessage.thinking?, htype, hm]⟩
    · simp [hnone] at hm

/-- The reasoning of a whole message is all thinking exactly if one block at most has some, in a
place that counts. -/
theorem reasoning_agrees_iff (h : ∀ m ∈ content, m.Proper) :
    String.join (thinkings content) =
        (if (thinkings content).getLast?.getD "" ≠ "" then (thinkings content).getLast?.getD ""
          else (firstThinking content).getD "") ↔
      ((thinkings content).Pairwise fun a b => a = "" ∨ b = "") ∧
        ∀ s ∈ thinkings content, s ≠ "" → (thinkings content).getLast? = some s ∨ firstThinking content = some s := by
  have hempty : (∀ s ∈ thinkings content, s = "") → (thinkings content).Pairwise fun a b => a = "" ∨ b = "" :=
    fun hall => List.pairwise_of_forall_mem_list fun a ha _ _ => .inl (hall a ha)
  by_cases hlast : (thinkings content).getLast?.getD "" = ""
  · rw [if_neg (not_not.2 hlast)]
    constructor
    · intro hjoin
      cases hfirst : firstThinking content with
      | none =>
        rw [hfirst, Option.getD_none, join_eq_empty] at hjoin
        exact ⟨hempty hjoin, fun s hs hne => absurd (hjoin s hs) hne⟩
      | some t =>
        -- all thinking is that of the first block
        obtain ⟨rest, hrest⟩ := firstThinking_head h hfirst
        rw [hfirst, Option.getD_some, hrest, String.join_cons, String.append_eq_left_iff, join_eq_empty] at hjoin
        rw [hrest, List.pairwise_cons]
        refine ⟨⟨fun b hb => .inr (hjoin b hb), List.pairwise_of_forall_mem_list fun a ha _ _ => .inl (hjoin a ha)⟩, ?_⟩
        intro s hs hne
        rcases List.mem_cons.1 hs with rfl | hs
        · exact .inr rfl
        · exact absurd (hjoin s hs) hne
    · rintro ⟨hone, hplace⟩
      by_cases hall : ∀ s ∈ thinkings content, s = ""
      · rw [join_eq_empty.2 hall]
        cases hfirst : firstThinking content with
        | none => rfl
        | some t =>
          obtain ⟨rest, hrest⟩ := firstThinking_head h hfirst
          exact (hall t (hrest ▸ List.mem_cons_self)).symm
      · push Not at hall
        obtain ⟨s, hs, hne⟩ := hall
        rcases hplace s hs hne with hlast' | hfirst
        · rw [hlast'] at hlast
          exact absurd hlast hne
        · rw [hfirst, Option.getD_some, join_eq_of_mem hone hs hne]
  · rw [if_pos hlast]
    obtain ⟨last, hsome⟩ : ∃ last, (thinkings content).getLast? = some last := by
      cases hnone : (thinkings content).getLast? with
      | none => simp [hnone] at hlast
      | some last => exact ⟨last, rfl⟩
    have hmem : last ∈ thinkings content := List.mem_of_getLast? hsome
    constructor
    · intro hjoin
      have hbefore := join_eq_last_iff.1 hjoin
      have hsplit : thinkings content = (thinkings content).dropLast ++ [last] :=
        (List.dropLast_append_getLast? _ hsome).symm
      constructor
      · rw [hsplit, List.pairwise_append]
        refine ⟨List.pairwise_of_forall_mem_list fun a ha _ _ => .inl (hbefore a ha), List.pairwise_singleton .., ?_⟩
        intro a ha _ _
        exact .inl (hbefore a ha)
      · intro s hs hne
        rw [hsplit] at hs
        rcases List.mem_append.1 hs with hs | hs
        · exact absurd (hbefore s hs) hne
        · rw [List.mem_singleton.1 hs]
          exact .inl hsome
    · rintro ⟨hone, -⟩
      rw [hsome, Option.getD_some] at hlast ⊢
      exact join_eq_of_mem hone hmem hlast

variable {message : ClaudeResponse I}

theorem choice_whole (marshal : Option I → String) (message : ClaudeResponse I) (h : ∀ m ∈ message.content, m.Proper) :
    ∃ choice, (responseClaude2OpenAI marshal message).choices = [choice] ∧
      choice.message.stringContent = (texts message.content).getLast?.getD "" ∧
      choice.message.getReasoningContent =
        (if (thinkings message.content).getLast?.getD "" ≠ "" then (thinkings message.content).getLast?.getD ""
          else (firstThinking message.content).getD "") ∧
      choice.message.toolCalls = calls marshal message.content := by
  refine ⟨_, rfl, ?_, ?_, ?_⟩
  · show Folded.responseText (message.content.foldl _ _) = _
    rw [responseText_fold, text_whole h]
  · simp only [Message.getReasoningContent, thinkingContent_fold, firstThinking]
    split_ifs with hlast hfirst
    · rfl
    · rfl
    · simpa using hfirst
  · show Folded.tools (message.content.foldl _ _) = _
    rw [tools_fold, List.nil_append]

theorem stream_says (h : Fits marshal message.content parts) :
    ∃ chunks, streamChunks (unsigned (eventStream message parts)) = .ok chunks ∧
      textOf (choicesOf chunks) = String.join (texts message.content) ∧
      reasoningOf (choicesOf chunks) = String.join (thinkings message.content) ∧
      toolCallsOf chunks = (calls marshal message.content).map fun c => (c.id, c.name, c.arguments) := by
  have hstart : streamChunks (unsigned [startEvent message]) =
      .ok [⟨message.id, message.model, [⟨textDelta (some ""), none⟩], none⟩] := rfl
  have hend : streamChunks (unsigned (endEvents message)) =
      .ok
        [⟨"", "",
        [⟨textDelta none, (some (stopReasonClaudeToOpenAI message.stopReason)).filter
        (· ≠ "null")⟩], none⟩] := rfl
  have hstream := streamChunks_append (streamChunks_append hstart (streamChunks_parts 0 parts)) hend
  rw [← unsigned_append, ← unsigned_append] at hstream
  refine ⟨_, hstream, ?_, ?_, ?_⟩
  · rw [choicesOf_append, choicesOf_append, textOf_append, textOf_append, textOf_deltas, text_parts 0 h]
    simp [textOf, choicesOf, textDelta, Delta.getContentString]
  · rw [choicesOf_append, choicesOf_append, reasoningOf_append, reasoningOf_append,
      reasoningOf_deltas, reasoning_parts 0 h]
    simp [reasoningOf, choicesOf, textDelta, Delta.getReasoningContent]
  · have hcalls := calls_parts 0 h (l := []) (by simp)
    rw [List.map_nil, List.nil_append] at hcalls
    rw [← hcalls, toolCallsOf, choicesOf_append, choicesOf_append, callsOf_append, callsOf_append, callsOf_deltas]
    simp [callsOf, choicesOf, textDelta, collect]

/-- A message and its stream agree exactly on plain content. -/
theorem stream_agrees_iff (marshal : Option I → String) (message : ClaudeResponse I) (parts : List (Part I))
    (h : Fits marshal message.content parts) :
    ∃ chunks, streamChunks (unsigned (eventStream message parts)) = .ok chunks ∧
      (Agrees (responseClaude2OpenAI marshal message) chunks ↔ Plain message.content) := by
  obtain ⟨chunks, hstream, htext, hreasoning, hcalls⟩ := stream_says h
  obtain ⟨choice, hchoice, htext', hreasoning', hcalls'⟩ := choice_whole marshal message (proper_of_fits h)
  refine ⟨chunks, hstream, ?_⟩
  constructor
  · rintro ⟨choice', hchoice', htext'', hreasoning'', -⟩
    obtain rfl : choice = choice' := List.singleton_inj.1 (hchoice.symm.trans hchoice')
    rw [htext, htext', join_eq_last_iff] at htext''
    rw [hreasoning, hreasoning', reasoning_agrees_iff (proper_of_fits h)] at hreasoning''
    exact ⟨htext'', hreasoning''.1, hreasoning''.2⟩
  · intro hplain
    refine ⟨choice, hchoice, ?_, ?_, ?_⟩
    · rw [htext, htext', join_eq_last_iff]
      exact hplain.text
    · rw [hreasoning, hreasoning', reasoning_agrees_iff (proper_of_fits h)]
      exact ⟨hplain.one_thinking, hplain.place⟩
    · rw [hcalls, hcalls']

end Agree

theorem stream_agrees_call :
    let thinking : MediaMessage Unit := { type := .thinking, thinking := some "Hm." }
    let text : MediaMessage Unit := { type := .text, text := some "Now:" }
    let call : MediaMessage Unit := { type := .toolUse, id := "toolu_1", name := "get_time", input := some () }
    let message : ClaudeResponse Unit :=
      { type := .other "message", content := [thinking, text, call], stopReason := "tool_use" }
    ∃ chunks, streamChunks (unsigned (eventStream message
        [⟨thinking, ["H", "m."], true⟩, ⟨text, ["Now:"], false⟩, ⟨call, ["\x7b", "\x7d"], false⟩])) = .ok chunks ∧
      Agrees (responseClaude2OpenAI (fun _ => "\x7b\x7d") message) chunks := by
  intro thinking text call message
  obtain ⟨chunks, hstream, hiff⟩ := stream_agrees_iff (fun _ => "\x7b\x7d") message
    [⟨thinking, ["H", "m."], true⟩, ⟨text, ["Now:"], false⟩, ⟨call, ["\x7b", "\x7d"], false⟩]
    ⟨rfl, by simp [MediaMessage.Proper, thinking, text, call], by
      simp [MediaMessage.said, MediaMessage.getText, thinking, text, call]⟩
  have htexts : texts message.content = ["Now:"] := rfl
  have hthinkings : thinkings message.content = ["Hm."] := rfl
  refine ⟨chunks, hstream, hiff.2 ⟨?_, ?_, ?_⟩⟩
  · simp [htexts]
  · rw [hthinkings]
    exact List.pairwise_singleton ..
  · simp [hthinkings]

/-- Of two text blocks the whole message has the last one only. -/
theorem first_text_overwritten :
    let text (s : String) : MediaMessage Unit := { type := .text, text := some s }
    let message : ClaudeResponse Unit :=
      { type := .other "message", content := [text "a", text "b"], stopReason := "end_turn" }
    let parts : List (Part Unit) := [⟨text "a", ["a"], false⟩, ⟨text "b", ["b"], false⟩]
    Fits (fun _ => "\x7b\x7d") message.content parts ∧
      ∃ chunks, streamChunks (unsigned (eventStream message parts)) = .ok chunks ∧
        textOf (choicesOf chunks) = "ab" ∧
        (responseClaude2OpenAI (fun _ => "\x7b\x7d") message).choices.map (·.message.stringContent) = ["b"] ∧
        ¬ Agrees (responseClaude2OpenAI (fun _ => "\x7b\x7d") message) chunks := by
  intro text message parts
  have hfits : Fits (fun _ => "\x7b\x7d") message.content parts :=
    ⟨rfl, by simp [MediaMessage.Proper, parts, text], by simp [MediaMessage.said, MediaMessage.getText, parts, text]⟩
  have hwhole : (responseClaude2OpenAI (fun _ => "\x7b\x7d") message).choices.map
      (·.message.stringContent) = ["b"] := rfl
  obtain ⟨chunks, hstream, htext, -⟩ := stream_says hfits
  refine ⟨hfits, chunks, hstream, htext, hwhole, ?_⟩
  rintro ⟨choice, hchoice, hsame, -⟩
  rw [hchoice, List.map_singleton, List.singleton_inj, ← hsame, htext] at hwhole
  exact absurd hwhole (by decide)

end TokenEra.ClaudeToChat
