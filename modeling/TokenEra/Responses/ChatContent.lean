import TokenEra.Lib.Table
import TokenEra.Responses.Model

/-!
# What a chat stream says

A reader of a chat-completion stream concatenates the text and the reasoning of its deltas and
collects the tool calls by their index (`collect`): the deltas of one index are one call, whose
arguments are concatenated; the calls are in the order of their first deltas.
-/

namespace TokenEra.Responses

open Lib TokenUsage ChatToClaude

def choicesOf (chunks : List (Chunk Usage)) : List Choice := chunks.flatMap (·.choices)

def callsOf (choices : List Choice) : List ToolCallResponse := choices.flatMap fun c => c.delta.toolCalls

def textOf (choices : List Choice) : String := String.join (choices.map fun c => c.delta.getContentString)

def reasoningOf (choices : List Choice) : String := String.join (choices.map fun c => c.delta.getReasoningContent)

/-- The index of a tool call; one without an index is that of index 0. -/
def callIndex (toolCall : ToolCallResponse) : Int := toolCall.index.getD 0

/-! ### Tool calls -/

structure ToolCall where
  index : Int
  id : String
  name : String
  arguments : String
  deriving DecidableEq, Repr

/-- A call after another delta of it; an empty id or name says nothing. -/
def ToolCall.extend (t : ToolCall) (c : ToolCallResponse) : ToolCall :=
  { t with
    id := if c.id ≠ "" then c.id else t.id
    name := if c.name ≠ "" then c.name else t.name
    arguments := t.arguments ++ c.arguments }

def addCall (l : List ToolCall) (c : ToolCallResponse) : List ToolCall :=
  match findRow ToolCall.index (callIndex c) l with
  | none => l ++ [⟨callIndex c, c.id, c.name, c.arguments⟩]
  | some t => saveRow ToolCall.index (t.extend c) l

def collect (calls : List ToolCallResponse) : List ToolCall := calls.foldl addCall []

theorem collect_append_one (calls : List ToolCallResponse) (c : ToolCallResponse) :
    collect (calls ++ [c]) = addCall (collect calls) c := by
  rw [collect, List.foldl_append]
  rfl

theorem index_addCall (l : List ToolCall) (c : ToolCallResponse) :
    (addCall l c).map ToolCall.index =
      if callIndex c ∈ l.map ToolCall.index then l.map ToolCall.index else l.map ToolCall.index ++ [callIndex c] := by
  rw [addCall]
  cases hrow : findRow ToolCall.index (callIndex c) l with
  | none =>
    have hnew : callIndex c ∉ l.map ToolCall.index := by
      intro hmem
      obtain ⟨t, ht, hidx⟩ := List.mem_map.1 hmem
      exact findRow_eq_none hrow t ht hidx
    rw [if_neg hnew, List.map_append]
    rfl
  | some t =>
    rw [if_pos (List.mem_map.2 ⟨t, findRow_eq_some hrow⟩)]
    exact map_key_saveRow ..

theorem length_addCall (l : List ToolCall) (c : ToolCallResponse) :
    (addCall l c).length = if callIndex c ∈ l.map ToolCall.index then l.length else l.length + 1 := by
  have hindex := congrArg List.length (index_addCall l c)
  rw [List.length_map] at hindex
  rw [hindex]
  split_ifs <;> simp

/-- Deltas make as many calls only if they are of different indexes. -/
theorem collect_length (deltas : List ToolCallResponse) :
    (collect deltas).length ≤ deltas.length ∧
      ((collect deltas).length = deltas.length → (deltas.map callIndex).Nodup ∧
        (collect deltas).map ToolCall.index = deltas.map callIndex) := by
  induction deltas using List.reverseRecOn with
  | nil => exact ⟨Nat.le_refl 0, fun _ => ⟨List.nodup_nil, rfl⟩⟩
  | append_singleton deltas c ih =>
    obtain ⟨hle, hnodup⟩ := ih
    have hindex := index_addCall (collect deltas) c
    rw [collect_append_one, length_addCall, List.length_append, List.length_singleton]
    split_ifs at hindex ⊢ with hold
    · exact ⟨by omega, fun h => absurd h (by omega)⟩
    · refine ⟨by omega, fun h => ?_⟩
      obtain ⟨hd, heq⟩ := hnodup (by omega)
      rw [heq] at hindex hold
      rw [hindex, List.map_append, List.map_singleton]
      exact ⟨List.nodup_append_comm.1 (by simpa using ⟨by simpa using hold, hd⟩), rfl⟩

theorem addCall_new {l : List ToolCall} {c : ToolCallResponse} (h : ∀ t ∈ l, t.index ≠ callIndex c) :
    addCall l c = l ++ [⟨callIndex c, c.id, c.name, c.arguments⟩] := by
  have hnone : findRow ToolCall.index (callIndex c) l = none := by
    rw [findRow, List.find?_eq_none]
    intro t ht
    simpa using h t ht
  rw [addCall, hnone]

theorem addCall_last {l : List ToolCall} {t : ToolCall} {c : ToolCallResponse} (h : ∀ x ∈ l, x.index ≠ t.index)
    (hc : callIndex c = t.index) : addCall (l ++ [t]) c = l ++ [t.extend c] := by
  have hnone : findRow ToolCall.index t.index l = none := by
    rw [findRow, List.find?_eq_none]
    intro x hx
    simpa using h x hx
  rw [addCall, hc, findRow_append_one hnone]
  exact saveRow_append_one h rfl

theorem collect_of_nodup {calls : List ToolCallResponse} (h : (calls.map callIndex).Nodup) :
    collect calls = calls.map fun c => ⟨callIndex c, c.id, c.name, c.arguments⟩ := by
  induction calls using List.reverseRecOn with
  | nil => rfl
  | append_singleton calls c ih =>
    rw [List.map_append, List.nodup_append] at h
    rw [collect_append_one, ih h.1, List.map_append]
    apply addCall_new
    intro t ht
    obtain ⟨c', hc', rfl⟩ := List.mem_map.1 ht
    exact h.2.2 _ (List.mem_map_of_mem hc') _ (by simp)

def toolCallsOf (chunks : List (Chunk Usage)) : List (String × String × String) :=
  (collect (callsOf (choicesOf chunks))).map fun t => (t.id, t.name, t.arguments)

section Append

variable (l l' : List (Chunk Usage)) (k k' : List Choice)

@[simp] theorem choicesOf_append : choicesOf (l ++ l') = choicesOf l ++ choicesOf l' := List.flatMap_append ..

@[simp] theorem callsOf_append : callsOf (k ++ k') = callsOf k ++ callsOf k' := List.flatMap_append ..

@[simp] theorem textOf_append : textOf (k ++ k') = textOf k ++ textOf k' := by simp [textOf]

@[simp] theorem reasoningOf_append : reasoningOf (k ++ k') = reasoningOf k ++ reasoningOf k' := by simp [reasoningOf]

end Append

end TokenEra.Responses
