import TokenEra.Responses.Model

/-!
# Whole responses: chat to Responses and back

`chatCompletionsResponseToResponsesResponse` turns the first choice of a chat completion into
outputs of a Responses response: a message if there is text, a reasoning output if there is
reasoning, and one output for each tool call. `responsesResponseToChatCompletionsResponse` collects
them again.

The text of a response is that of its assistant messages; if there is none, it is all text of all
outputs, that of the reasoning included.
-/

namespace TokenEra.Responses

open Lib TokenUsage

/-! ### Chat completions -/

/-- A tool call of a message; a call of a custom type has its input in `custom`. -/
structure ToolCallRequest where
  id : String
  type : String
  name : String
  arguments : String
  custom : RawJson := .absent
  deriving DecidableEq, Repr

/-- The content of a message: nothing, a string, or parts of which some are text. -/
inductive MessageContent
  | null
  | text (s : String)
  | parts (l : List (Option String))
  deriving DecidableEq, Repr

structure Message where
  content : MessageContent
  reasoningContent : Option String := none
  reasoning : Option String := none
  toolCalls : List ToolCallRequest := []
  deriving DecidableEq, Repr

def Message.stringContent (m : Message) : String :=
  match m.content with
  | .null => ""
  | .text s => s
  | .parts l => String.join (l.filterMap id)

def Message.getReasoningContent (m : Message) : String :=
  match m.reasoningContent with
  | some r => r
  | none => m.reasoning.getD ""

structure TextResponseChoice where
  message : Message
  finishReason : String
  deriving DecidableEq, Repr

/-- `OpenAITextResponse`. -/
structure TextResponse where
  id : String
  model : String
  choices : List TextResponseChoice
  usage : Usage
  deriving DecidableEq, Repr

/-! ### Chat to Responses -/

def responsesStatusFromChatFinishReason (finishReason : String) : String × Option String :=
  if trimSpace finishReason = "length" then ("incomplete", some "max_output_tokens")
  else if trimSpace finishReason = "content_filter" then ("incomplete", some "content_filter")
  else ("completed", none)

def responseOutputStatus (r : Response) : String :=
  if r.statusString ≠ "incomplete" then "completed" else "incomplete"

def OutputType.ofString (s : String) : OutputType :=
  if s = "message" then .message
  else if s = "reasoning" then .reasoning
  else if s = "function_call" then .functionCall
  else if s = "custom_tool_call" then .customToolCall
  else .other s

def chatToolCallToResponsesOutput (toolCall : ToolCallRequest) (responseID : String) (index : Nat)
    (status : String) : Output :=
  let callID :=
    if trimSpace toolCall.id = "" then responseID ++ "_call_" ++ toString index else trimSpace toolCall.id
  if toolCall.type = "" ∨ toolCall.type = "function" then
    { type := .functionCall, id := callID, status := status, callId := callID, name := toolCall.name,
      arguments := .str toolCall.arguments }
  else
    { type := OutputType.ofString toolCall.type, id := callID, status := status, callId := callID,
      arguments := toolCall.custom }

def messageOutput (id status text : String) : Output :=
  { type := .message, id := id ++ "_msg_0", status := status, role := "assistant", content := [⟨.outputText, text⟩] }

def reasoningOutput (id status reasoning : String) : Output :=
  { type := .reasoning, id := id ++ "_reasoning_0", status := status, content := [⟨.summaryText, reasoning⟩] }

def chatCompletionsResponseToResponsesResponse (resp : TextResponse) (id : String) : Response × Usage :=
  let usage := usageFromChatUsage resp.usage
  match resp.choices with
  | [] => ({ id := id, status := .str "completed", model := resp.model, usage := some usage }, usage)
  | choice :: _ =>
    let (status, details) := responsesStatusFromChatFinishReason choice.finishReason
    let out : Response :=
      { id := id, status := .str status, incompleteDetails := details, model := resp.model, usage := some usage }
    let text := choice.message.stringContent
    let reasoning := choice.message.getReasoningContent
    let messages := if text ≠ "" then [messageOutput id (responseOutputStatus out) text] else []
    let reasonings := if reasoning ≠ "" then [reasoningOutput id (responseOutputStatus out) reasoning] else []
    let tools := choice.message.toolCalls.mapIdx fun i toolCall =>
      chatToolCallToResponsesOutput toolCall id i (responseOutputStatus out)
    ({ out with output := messages ++ reasonings ++ tools }, usage)

/-! ### Responses to chat -/

def responsesFinishReasonFromStatus (r : Response) : Option String :=
  if r.statusString ≠ "incomplete" then none
  else if trimSpace (r.incompleteDetails.getD "") = "content_filter" then some "content_filter"
  else some "length"

def joinTexts (contents : List OutputContent) : String := String.join (contents.map (·.text))

def Output.outputText (o : Output) : String := joinTexts (o.content.filter fun c => c.type = .outputText)

def Output.allText (o : Output) : String := joinTexts o.content

def Output.fromAssistant (o : Output) : Bool := o.type = .message ∧ (o.role = "" ∨ o.role = "assistant")

def extractOutputTextFromResponses (r : Response) : String :=
  let text := String.join ((r.output.filter (·.fromAssistant)).map (·.outputText))
  if text ≠ "" then text else String.join (r.output.map (·.allText))

def extractReasoningTextFromResponses (r : Response) : String :=
  String.join ((r.output.filter fun o => o.type = .reasoning).map (·.allText))

def Output.toolCall? (o : Output) : Option ToolCallRequest :=
  if o.type.isTool ∧ trimSpace o.name ≠ "" then
    let callId := if trimSpace o.callId = "" then trimSpace o.id else trimSpace o.callId
    some ⟨callId, "function", trimSpace o.name, o.arguments.toText, .absent⟩
  else none

def responsesResponseToChatCompletionsResponse (resp : Response) (id : String) : TextResponse × Usage :=
  let text := extractOutputTextFromResponses resp
  let reasoning := extractReasoningTextFromResponses resp
  let usage := usageFromResponsesUsage resp.usage
  let toolCalls := resp.output.filterMap (·.toolCall?)
  let finishReason :=
    match responsesFinishReasonFromStatus resp with
    | some reason => reason
    | none => if toolCalls ≠ [] then "tool_calls" else "stop"
  let msg : Message :=
    { content := .text text
      reasoningContent := if reasoning ≠ "" then some reasoning else none
      toolCalls := toolCalls }
  ({ id := id, model := resp.model, choices := [⟨msg, finishReason⟩], usage := usage }, usage)

/-! ### There and back -/

structure ToolCallRequest.IsFunctionCall (c : ToolCallRequest) : Prop where
  type : c.type = "" ∨ c.type = "function"
  id_ne : c.id ≠ ""
  id_trimmed : trimSpace c.id = c.id
  name_ne : c.name ≠ ""
  name_trimmed : trimSpace c.name = c.name

/-- The finish reasons that fit some tool calls: `stop` without a call, `tool_calls` with one,
`length` and `content_filter` in any case. -/
def FinishFits (reason : String) (toolCalls : List ToolCallRequest) : Prop :=
  (reason = "stop" ∧ toolCalls = []) ∨ (reason = "tool_calls" ∧ toolCalls ≠ []) ∨ reason = "length" ∨
    reason = "content_filter"

def messageOutputs (msg : Message) (id status : String) : List Output :=
  (if msg.stringContent ≠ "" then [messageOutput id status msg.stringContent] else []) ++
    (if msg.getReasoningContent ≠ "" then [reasoningOutput id status msg.getReasoningContent] else []) ++
    msg.toolCalls.mapIdx fun i toolCall => chatToolCallToResponsesOutput toolCall id i status

variable {resp : TextResponse} {id : String}

theorem output_of_choice (resp : TextResponse) (id : String) {choice : TextResponseChoice}
    (h : resp.choices = [choice]) :
    ∃ status, (chatCompletionsResponseToResponsesResponse resp id).1.output =
      messageOutputs choice.message id status := by
  rw [chatCompletionsResponseToResponsesResponse, h]
  exact ⟨_, rfl⟩

section FunctionCalls

variable {msg : Message} {id status : String} {r : Response}

def functionCallOutput (status : String) (c : ToolCallRequest) : Output :=
  { type := .functionCall, id := c.id, status := status, callId := c.id, name := c.name,
    arguments := .str c.arguments }

theorem toolCall_functionCallOutput {c : ToolCallRequest} (h : c.IsFunctionCall) :
    (functionCallOutput status c).toolCall? = some { c with type := "function", custom := .absent } := by
  simp [functionCallOutput, Output.toolCall?, OutputType.isTool, h.id_trimmed, h.id_ne, h.name_trimmed, h.name_ne,
    RawJson.toText]

theorem chatToolCall_functionCall {l : List ToolCallRequest} (h : ∀ c ∈ l, c.IsFunctionCall) :
    (l.mapIdx fun i c => chatToolCallToResponsesOutput c id i status) = l.map (functionCallOutput status) := by
  apply List.ext_getElem
  · simp
  · intro i hi hi'
    have hc := h _ (List.getElem_mem (by simpa using hi))
    simp only [List.getElem_mapIdx, List.getElem_map, chatToolCallToResponsesOutput, hc.id_trimmed, if_neg hc.id_ne,
      if_pos hc.type, functionCallOutput]

variable (hcalls : ∀ c ∈ msg.toolCalls, c.IsFunctionCall) (hr : r.output = messageOutputs msg id status)
include hcalls hr

theorem assistantText_messageOutputs :
    String.join ((r.output.filter (·.fromAssistant)).map (·.outputText)) = msg.stringContent := by
  have htools : (msg.toolCalls.map (functionCallOutput status)).filter (·.fromAssistant) = [] := by
    simp [Output.fromAssistant, functionCallOutput]
  rw [hr, messageOutputs, chatToolCall_functionCall hcalls, List.filter_append, htools]
  by_cases ht : msg.stringContent = "" <;> by_cases hg : msg.getReasoningContent = "" <;>
    simp [ht, hg, messageOutput, reasoningOutput, Output.fromAssistant, Output.outputText, joinTexts]

theorem allText_messageOutputs :
    String.join (r.output.map (·.allText)) = msg.stringContent ++ msg.getReasoningContent := by
  have htools : String.join ((msg.toolCalls.map (functionCallOutput status)).map (·.allText)) = "" := by
    simp [join_eq_empty, functionCallOutput, Output.allText, joinTexts]
  rw [hr, messageOutputs, chatToolCall_functionCall hcalls, List.map_append, String.join_append, htools]
  by_cases ht : msg.stringContent = "" <;> by_cases hg : msg.getReasoningContent = "" <;>
    simp [ht, hg, messageOutput, reasoningOutput, Output.allText, joinTexts]

/-- Where there is no text the reasoning is read as text. -/
theorem extractOutputText_messageOutputs :
    extractOutputTextFromResponses r =
      if msg.stringContent ≠ "" then msg.stringContent else msg.getReasoningContent := by
  simp only [extractOutputTextFromResponses, assistantText_messageOutputs hcalls hr, allText_messageOutputs hcalls hr]
  split_ifs with ht
  · rfl
  · simp [not_not.1 ht]

theorem extractReasoningText_messageOutputs : extractReasoningTextFromResponses r = msg.getReasoningContent := by
  have htools : (msg.toolCalls.map (functionCallOutput status)).filter (fun o => o.type = .reasoning) = [] := by
    simp [functionCallOutput]
  rw [extractReasoningTextFromResponses, hr, messageOutputs, chatToolCall_functionCall hcalls, List.filter_append,
    htools]
  by_cases ht : msg.stringContent = "" <;> by_cases hg : msg.getReasoningContent = "" <;>
    simp [ht, hg, messageOutput, reasoningOutput, Output.allText, joinTexts]

theorem toolCalls_messageOutputs :
    r.output.filterMap (·.toolCall?) = msg.toolCalls.map fun c => { c with type := "function", custom := .absent } := by
  have htools : (msg.toolCalls.map (functionCallOutput status)).filterMap (·.toolCall?) =
      msg.toolCalls.map fun c => { c with type := "function", custom := .absent } := by
    rw [List.filterMap_map, ← List.filterMap_eq_map]
    apply List.filterMap_congr
    intro c hc
    rw [Function.comp_apply, toolCall_functionCallOutput (hcalls c hc), Function.comp_apply]
  rw [hr, messageOutputs, chatToolCall_functionCall hcalls, List.filterMap_append, htools]
  by_cases ht : msg.stringContent = "" <;> by_cases hg : msg.getReasoningContent = "" <;>
    simp [ht, hg, messageOutput, reasoningOutput, Output.toolCall?, OutputType.isTool]

end FunctionCalls

/-- The status keeps `length` and `content_filter`; the other reasons follow from the tool calls. -/
theorem finishReason_of_choice (resp : TextResponse) (id : String) {choice : TextResponseChoice}
    (h : resp.choices = [choice]) (hfits : FinishFits choice.finishReason choice.message.toolCalls) :
    responsesFinishReasonFromStatus (chatCompletionsResponseToResponsesResponse resp id).1 =
      if choice.finishReason = "length" ∨ choice.finishReason = "content_filter" then some choice.finishReason
      else none := by
  rw [chatCompletionsResponseToResponsesResponse, h]
  rcases hfits with ⟨hf, -⟩ | ⟨hf, -⟩ | hf | hf <;>
    simp only [hf, responsesStatusFromChatFinishReason, responsesFinishReasonFromStatus,
      Response.statusString] <;> decide

theorem usage_round_trip (u : Usage) :
    let back := usageFromResponsesUsage (some (usageFromChatUsage u))
    back.promptTokens = u.promptTokens ∧ back.completionTokens = u.completionTokens ∧
      back.promptTokensDetails = u.promptTokensDetails ∧ back.completionTokenDetails = u.completionTokenDetails ∧
      back.totalTokens = if u.totalTokens ≠ 0 then u.totalTokens else u.promptTokens + u.completionTokens := by
  refine ⟨rfl, rfl, ?_, rfl, ?_⟩
  · simp only [usageFromResponsesUsage, usageFromChatUsage]
    split_ifs with hd
    · rfl
    · exact (not_not.1 hd).symm
  · simp only [usageFromResponsesUsage, usageFromChatUsage]
    split_ifs <;> simp_all

theorem usage_back (id' : String) :
    (responsesResponseToChatCompletionsResponse (chatCompletionsResponseToResponsesResponse resp id).1 id').1.usage =
      usageFromResponsesUsage (some (usageFromChatUsage resp.usage)) := by
  have h : (chatCompletionsResponseToResponsesResponse resp id).1.usage = some (usageFromChatUsage resp.usage) := by
    rw [chatCompletionsResponseToResponsesResponse]
    cases resp.choices <;> rfl
  exact congrArg usageFromResponsesUsage h

end TokenEra.Responses
