import TokenEra.Lib.Text

/-!
# Chat-completion chunks to a Claude stream

`StreamResponseOpenAI2Claude` is called with the chunks of an OpenAI chat-completion stream one
after the other, and `FinalizeStreamResponseOpenAI2Claude` at the end; each call gives events of a
Claude message stream. The state between the calls says which kind of content block is open and at
which index; for tool calls several blocks may be open, at a base index plus the index of the tool
call.

The first chunk has a path of its own. A chunk with a finish reason ends the stream if its usage is
known; otherwise the end waits for a chunk that has only usage, or for the finalizer.

The usage of a chunk is of any type `U`; `toClaude` stands for `buildClaudeUsageFromOpenAIUsage`.
-/

namespace TokenEra.ChatToClaude

open Lib

/-! ### Chunks and events -/

structure ToolCallResponse where
  index : Option Int
  id : String
  name : String
  arguments : String
  deriving DecidableEq, Repr

structure Delta where
  content : Option String
  reasoningContent : Option String
  reasoning : Option String
  toolCalls : List ToolCallResponse
  deriving DecidableEq, Repr

def Delta.getContentString (d : Delta) : String := d.content.getD ""

def Delta.getReasoningContent (d : Delta) : String :=
  match d.reasoningContent with
  | some r => r
  | none => d.reasoning.getD ""

structure Choice where
  delta : Delta
  finishReason : Option String
  deriving DecidableEq, Repr

def Choice.finish (c : Choice) : Option String := c.finishReason.filter fun r => r ≠ ""

structure Chunk (U : Type*) where
  id : String
  model : String
  choices : List Choice
  usage : Option U
  deriving DecidableEq, Repr

inductive ContentBlock
  | text
  | thinking
  | toolUse (id name : String)
  deriving DecidableEq, Repr

inductive BlockDelta
  | text (s : String)
  | thinking (s : String)
  | inputJson (s : String)
  deriving DecidableEq, Repr

/-- `ClaudeResponse`. -/
inductive Event (V : Type*)
  | messageStart (id model : String) (inputTokens : Int)
  | blockStart (index : Int) (block : ContentBlock)
  | blockDelta (index : Int) (delta : BlockDelta)
  | blockStop (index : Int)
  | messageDelta (usage : Option V) (stopReason : String)
  | messageStop
  deriving DecidableEq, Repr

inductive LastMessageType
  | none | text | tools | thinking
  deriving DecidableEq, Repr

structure ClaudeConvertInfo (U : Type*) where
  lastMessagesType : LastMessageType
  index : Nat
  usage : Option U
  finishReason : String
  done : Bool
  toolCallBaseIndex : Nat
  toolCallMaxIndexOffset : Nat
  deriving DecidableEq, Repr

def ClaudeConvertInfo.new {U : Type*} (usage : Option U) : ClaudeConvertInfo U := ⟨.none, 0, usage, "", false, 0, 0⟩

/-- `OpenAIFinishReasonToClaudeStopReason`. -/
def stopReasonOpenAI2Claude (reason : String) : String :=
  let lower := toLower reason
  if lower = "stop" then "end_turn"
  else if lower = "stop_sequence" then "stop_sequence"
  else if lower = "length" ∨ lower = "max_tokens" then "max_tokens"
  else if lower = "content_filter" then "refusal"
  else if lower = "tool_calls" then "tool_use"
  else reason

variable {U V : Type*}

/-! ### Blocks -/

def stopOpenBlocks (state : ClaudeConvertInfo U) : List (Event V) :=
  match state.lastMessagesType with
  | .text | .thinking => [.blockStop state.index]
  | .tools =>
    (List.range (state.toolCallMaxIndexOffset + 1)).map fun offset =>
      .blockStop (state.toolCallBaseIndex + offset : Nat)
  | .none => []

def stopOpenBlocksAndAdvance (state : ClaudeConvertInfo U) : ClaudeConvertInfo U × List (Event V) :=
  match state.lastMessagesType with
  | .none => (state, [])
  | .tools =>
    ({ state with
        index := state.toolCallBaseIndex + state.toolCallMaxIndexOffset + 1
        toolCallBaseIndex := 0
        toolCallMaxIndexOffset := 0
        lastMessagesType := .none }, stopOpenBlocks state)
  | .text | .thinking => ({ state with index := state.index + 1, lastMessagesType := .none }, stopOpenBlocks state)

/-- Stop and advance unless a block of this kind is open. -/
def switchTo (kind : LastMessageType) (state : ClaudeConvertInfo U) : ClaudeConvertInfo U × List (Event V) :=
  if state.lastMessagesType ≠ kind then stopOpenBlocksAndAdvance state else (state, [])

/-- A block of text or reasoning in the first chunk: the start is always sent. -/
def firstPiece (kind : LastMessageType) (block : ContentBlock) (delta : BlockDelta) (state : ClaudeConvertInfo U) :
    ClaudeConvertInfo U × List (Event V) :=
  let (state, stops) := switchTo kind state
  ({ state with lastMessagesType := kind }, stops ++ [.blockStart state.index block, .blockDelta state.index delta])

/-- A piece of text or reasoning in a later chunk: the start is sent if the kind changes. -/
def nextPiece (kind : LastMessageType) (block : ContentBlock) (delta : BlockDelta) (state : ClaudeConvertInfo U) :
    ClaudeConvertInfo U × List (Event V) :=
  if state.lastMessagesType ≠ kind then
    let (state, stops) := stopOpenBlocksAndAdvance state
    ({ state with lastMessagesType := kind }, stops ++ [.blockStart state.index block, .blockDelta state.index delta])
  else ({ state with lastMessagesType := kind }, [.blockDelta state.index delta])

def toolLoop (base : Nat) : (i maxOffset : Nat) → List ToolCallResponse → Nat × List (Event V)
  | _, maxOffset, [] => (maxOffset, [])
  | i, maxOffset, toolCall :: rest =>
    let offset := toolCall.index.getD i
    let (maxOffset, events) := toolLoop base (i + 1) (if offset > maxOffset then offset.toNat else maxOffset) rest
    let start := if toolCall.name ≠ "" then [.blockStart (base + offset) (.toolUse toolCall.id toolCall.name)] else []
    let input := if toolCall.arguments ≠ "" then [.blockDelta (base + offset) (.inputJson toolCall.arguments)] else []
    (maxOffset, start ++ input ++ events)

def nextTools (toolCalls : List ToolCallResponse) (state : ClaudeConvertInfo U) :
    ClaudeConvertInfo U × List (Event V) :=
  let (state, stops) :=
    if state.lastMessagesType ≠ .tools then
      let (state, stops) := stopOpenBlocksAndAdvance state
      ({ state with toolCallBaseIndex := state.index, toolCallMaxIndexOffset := 0 }, stops)
    else (state, [])
  let (maxOffset, events) := toolLoop state.toolCallBaseIndex 0 state.toolCallMaxIndexOffset toolCalls
  ({ state with
      lastMessagesType := .tools
      toolCallMaxIndexOffset := maxOffset
      index := state.toolCallBaseIndex + maxOffset }, stops ++ events)

/-! ### The calls -/

def terminal (toClaude : U → V) (usage : Option U) (stopReason : String) : List (Event V) :=
  [.messageDelta (usage.map toClaude) stopReason, .messageStop]

def firstTool (delta : Delta) (state : ClaudeConvertInfo U) : ClaudeConvertInfo U × List (Event V) :=
  match delta.toolCalls with
  | [] => (state, [])
  | toolCall :: _ =>
    ({ state with lastMessagesType := .tools, toolCallBaseIndex := 0, toolCallMaxIndexOffset := 0 },
      .blockStart 0 (.toolUse toolCall.id toolCall.name) ::
        (if toolCall.arguments ≠ "" then [.blockDelta 0 (.inputJson toolCall.arguments)] else []))

def firstContent (delta : Delta) (state : ClaudeConvertInfo U) : ClaudeConvertInfo U × List (Event V) :=
  if delta.getReasoningContent ≠ "" then
    firstPiece .thinking .thinking (.thinking delta.getReasoningContent) state
  else if delta.getContentString ≠ "" then firstPiece .text .text (.text delta.getContentString) state
  else (state, [])

def firstResponse (toClaude : U → V) (estimatePromptTokens : Int) (state : ClaudeConvertInfo U) (r : Chunk U) :
    ClaudeConvertInfo U × List (Event V) :=
  let start := .messageStart r.id r.model estimatePromptTokens
  match r.choices with
  | [] => (state, [start])
  | choice :: _ =>
    let (state, tool) := firstTool choice.delta state
    let (state, content) := firstContent choice.delta state
    let events := start :: (tool ++ content)
    match choice.finish with
    | none => (state, events)
    | some reason =>
      let state := { state with finishReason := reason }
      match r.usage.or state.usage with
      | none => (state, events)
      | some usage =>
        ({ state with done := true },
          events ++ stopOpenBlocks state ++ terminal toClaude (some usage) (stopReasonOpenAI2Claude reason))

def nextContent (delta : Delta) (state : ClaudeConvertInfo U) : ClaudeConvertInfo U × List (Event V) :=
  if delta.toolCalls ≠ [] then nextTools delta.toolCalls state
  else if delta.getReasoningContent ≠ "" then
    nextPiece .thinking .thinking (.thinking delta.getReasoningContent) state
  else if delta.getContentString ≠ "" then nextPiece .text .text (.text delta.getContentString) state
  else (state, [])

def orEndTurn (stopReason : String) : String := if stopReason = "" then "end_turn" else stopReason

def nextResponse (toClaude : U → V) (state : ClaudeConvertInfo U) (r : Chunk U) :
    ClaudeConvertInfo U × List (Event V) :=
  match r.choices with
  | [] =>
    match r.usage.or state.usage with
    | none => (state, [])
    | some usage =>
      ({ state with done := true }, stopOpenBlocks state ++
        terminal toClaude (some usage) (orEndTurn (stopReasonOpenAI2Claude state.finishReason)))
  | choice :: _ =>
    match choice.finish with
    | none => nextContent choice.delta state
    | some reason =>
      let state := { state with finishReason := reason }
      match r.usage with
      | none => (state, [])
      | some usage =>
        let (state, events) := nextContent choice.delta state
        ({ state with done := true },
          events ++ stopOpenBlocks state ++ terminal toClaude (some usage) (stopReasonOpenAI2Claude state.finishReason))

def streamResponseOpenAI2Claude (toClaude : U → V) (sendResponseCount : Nat) (estimatePromptTokens : Int)
    (state : ClaudeConvertInfo U) (r : Chunk U) : ClaudeConvertInfo U × List (Event V) :=
  if state.done then (state, [])
  else if sendResponseCount = 1 then firstResponse toClaude estimatePromptTokens state r
  else nextResponse toClaude state r

def finalizeStreamResponseOpenAI2Claude (toClaude : U → V) (state : ClaudeConvertInfo U) :
    ClaudeConvertInfo U × List (Event V) :=
  if state.done then (state, [])
  else ({ state with done := true }, stopOpenBlocks state ++
    terminal toClaude state.usage (orEndTurn (stopReasonOpenAI2Claude state.finishReason)))

def feed (toClaude : U → V) (estimatePromptTokens : Int) : (sendResponseCount : Nat) → ClaudeConvertInfo U →
    List (Chunk U) → ClaudeConvertInfo U × List (Event V)
  | _, state, [] => (state, [])
  | count, state, r :: rest =>
    let (state, events) := streamResponseOpenAI2Claude toClaude count estimatePromptTokens state r
    let (state, more) := feed toClaude estimatePromptTokens (count + 1) state rest
    (state, events ++ more)

/-- All events of a stream: those of the chunks, with send counts from 1 on, and of the finalizer.
-/
def convert (toClaude : U → V) (estimatePromptTokens : Int) (usage : Option U) (chunks : List (Chunk U)) :
    List (Event V) :=
  let (state, events) := feed toClaude estimatePromptTokens 1 (ClaudeConvertInfo.new usage) chunks
  events ++ (finalizeStreamResponseOpenAI2Claude toClaude state).2

end TokenEra.ChatToClaude
