import TokenEra.Request.Item

/-!
# From Responses to chat

The input items of `ResponsesRequestToChatCompletionsRequest`, one after the other: calls join the
assistant message before them, outputs of functions become tool messages, and every other item
becomes a message with its role, the user's if it has none. The output of a custom tool is one of
the others.
-/

namespace TokenEra.Request.ResponsesToChat

open Lib

/-- `dto.ToolCallRequest`; `custom` is the item of a custom call. -/
structure ChatCall where
  type : String
  id : String
  name : String
  arguments : String
  custom : Option Item

/-- `dto.Message` with any content; `null` is `nil`. -/
structure ChatMessage where
  role : String
  content : Json
  toolCalls : List ChatCall
  toolCallId : String

/-! ### Contents -/

def pick (part : Item) (keys : List String) : Item :=
  keys.foldl (fun l key => (member? part key).elim l fun v => Json.insertMember key v l) []

/-- `responsesImagePartToChatImageURL` and `responsesFilePartToChatFile`: the member, else the
members it may be made of, else the part. -/
def payloadOf (part : Item) (key : String) (keys : List String) : Json :=
  match member? part key with
  | some v => v
  | none => .obj (if pick part keys = [] then part else pick part keys)

/-- `responsesPartPayload`. -/
def partPayload (part : Item) (key : String) : Json :=
  (member? part key).getD (.obj (part.filter fun m => m.1 ≠ "type"))

/-- `responsesVideoPartToChatVideoURL`. -/
def videoURL (part : Item) : Json :=
  match member? part "video_url" with
  | some (.obj l) => if interface2String (member l "url") ≠ "" then .str (interface2String (member l "url")) else .obj l
  | some v => v
  | none =>
    if interface2String (member part "url") ≠ "" then .str (interface2String (member part "url"))
    else partPayload part "video_url"

def chatPart : Json → Json × Option String
  | .obj part =>
    let type := field part "type"
    if type = "input_text" ∨ type = "output_text" ∨ type = "text" then
      let text := interface2String (member part "text")
      (.obj [("text", .str text), ("type", .str "text")], some text)
    else if type = "input_image" then
      (.obj [("image_url", payloadOf part "image_url" ["url", "file_id", "detail"]), ("type", .str "image_url")], none)
    else if type = "input_file" then
      (.obj [("file", payloadOf part "file" ["file_id", "file_data", "filename", "file_url"]),
        ("type", .str "file")], none)
    else if type = "input_audio" then
      (.obj [("input_audio", partPayload part "input_audio"), ("type", .str "input_audio")], none)
    else if type = "input_video" then (.obj [("type", .str "video_url"), ("video_url", videoURL part)], none)
    else (.obj part, none)
  | v => (v, none)

/-- `responsesInputContentToChatContent`: parts that are all texts make one string. -/
def chatContent : Json → Json
  | .null => .str ""
  | .str s => .str s
  | .arr parts =>
    if parts.all fun part => (chatPart part).2.isSome then
      .str (String.join (parts.filterMap fun part => (chatPart part).2))
    else .arr (parts.map fun part => (chatPart part).1)
  | v => v

/-! ### Items -/

/-- `responsesFunctionCallItemToChatToolCall`. -/
def functionCall (item : Item) : Except String ChatCall :=
  if field item "name" = "" then .error "function_call item is missing name"
  else .ok ⟨"function", callID item, field item "name", textValue (member item "arguments"), none⟩

/-- `responsesCustomToolCallItemToChatToolCall`. -/
def customToolCall (item : Item) : ChatCall :=
  ⟨"custom", callID item, field item "name", textValue (member item "input"), some item⟩

def appendToolCallToLastAssistant (messages : List ChatMessage) (call : ChatCall) : List ChatMessage :=
  match messages.getLast? with
  | some last =>
    if last.role = "assistant" then messages.dropLast ++ [{ last with toolCalls := last.toolCalls ++ [call] }]
    else messages ++ [⟨"assistant", .null, [call], ""⟩]
  | none => messages ++ [⟨"assistant", .null, [call], ""⟩]

def roleOf (item : Item) : String := if field item "role" = "" then "user" else field item "role"

/-- `responsesInputItemToChatMessages`. -/
def addItem (messages : List ChatMessage) (item : Item) : Except String (List ChatMessage) :=
  if itemType item = "function_call" then (functionCall item).map (appendToolCallToLastAssistant messages)
  else if itemType item = "custom_tool_call" then .ok (appendToolCallToLastAssistant messages (customToolCall item))
  else if itemType item = "function_call_output" then
    .ok (messages ++ [⟨"tool", .str (textValue (member item "output")), [], field item "call_id"⟩])
  else .ok (messages ++ [⟨roleOf item, chatContent (member item "content"), [], ""⟩])

def addItems (messages : List ChatMessage) (items : List Item) : Except String (List ChatMessage) :=
  items.foldlM addItem messages

def systemMessage (instructions : String) : List ChatMessage :=
  if trimSpace instructions ≠ "" then [⟨"system", .str instructions, [], ""⟩] else []

/-! ### The request -/

/-- The fields of a Responses request that the messages, the tool choice and the response format are
made of. Raw JSON is given by its text, empty if it is absent; the text configuration by what
reading it gives, which is nothing if it has a number that is out of range. -/
structure ResponsesRequest where
  model : String
  input : String
  instructions : String
  toolChoice : String
  text : Option (Option Json)

/-- The character that tells the type of a JSON text (`GetJsonType`). -/
def jsonStart (raw : String) : Option Char := (raw.toList.dropWhile isSpace).head?

/-- `rawJSONPresent`. -/
def present (raw : String) : Bool := raw ≠ "" ∧ jsonStart raw ≠ some 'n'

theorem jsonStart_encode_str (s : String) : jsonStart (Json.encode (.str s)) = some '"' := by
  simp [jsonStart, Json.encode, Json.write, Json.writeString, isSpace]

theorem jsonStart_encode_arr (l : List Json) : jsonStart (Json.encode (.arr l)) = some '[' := by
  rw [jsonStart, Json.encode, String.toList_ofList]
  cases l <;> simp [Json.write, isSpace]

theorem present_of_jsonStart {raw : String} {c : Char} (h : jsonStart raw = some c) (hc : c ≠ 'n') :
    present raw = true := by
  have hne : raw ≠ "" := by
    rintro rfl
    cases h
  simp [present, hne, h, hc]

variable (floats : Json.Floats)

/-- `responsesJSONString`. -/
def jsonString (raw : String) : Option String :=
  if jsonStart raw ≠ some '"' then some raw
  else
    match Json.decode floats true raw with
    | some (.str s) => some s
    | _ => none

/-- The elements of an array as maps; `null` is a map without members. -/
def maps : List Json → Option (List Item)
  | [] => some []
  | .obj item :: l => (maps l).map (item :: ·)
  | .null :: l => (maps l).map ([] :: ·)
  | _ => none

def instructionsMessages (raw : String) : Except String (List ChatMessage) :=
  if present raw = true then
    match jsonString floats raw with
    | some instructions => .ok (systemMessage instructions)
    | none => .error "invalid instructions"
  else .ok []

def inputMessages (messages : List ChatMessage) (raw : String) : Except String (List ChatMessage) :=
  if present raw = false then .ok messages
  else if jsonStart raw = some '"' then
    match jsonString floats raw with
    | some input => .ok (messages ++ [⟨"user", .str input, [], ""⟩])
    | none => .error "invalid input string"
  else if jsonStart raw = some '[' then
    match Json.decode floats true raw with
    | some (.arr l) =>
      match maps l with
      | some items => addItems messages items
      | none => .error "invalid input array"
    | _ => .error "invalid input array"
  else .error "unsupported responses input type"

/-- `responsesRequestMessagesToChat`. -/
def requestMessages (req : ResponsesRequest) : Except String (List ChatMessage) := do
  inputMessages floats (← instructionsMessages floats req.instructions) req.input

/-- `responsesRequestToolChoiceToChat`; `null` is no choice. -/
def toolChoiceToChat (raw : String) : Except String Json :=
  if present raw = false then .ok .null
  else
    match Json.decode floats true raw with
    | some (.str choice) => .ok (.str choice)
    | some (.obj choice) =>
      if interface2String (member choice "type") = "function" ∧ field choice "name" ≠ "" then
        .ok (.obj [("function", .obj [("name", .str (field choice "name"))]), ("type", .str "function")])
      else .ok (.obj choice)
    | some .null => .ok .null
    | _ => .error "invalid tool_choice"

/-- `responsesRequestTextToChatResponseFormat`: the type, and the schema if it is one. -/
def textToResponseFormat : Option (Option Json) → Except String (Option (String × Option Json))
  | none => .ok none
  | some (some (.obj config)) =>
    match member config "format" with
    | .obj format =>
      if field format "type" = "" then .ok none
      else .ok (some (field format "type", if field format "type" = "json_schema" then some (.obj format) else none))
    | _ => .ok none
  | some (some .null) => .ok none
  | some _ => .error "invalid text config"

structure ChatRequest where
  model : String
  messages : List ChatMessage
  toolChoice : Json
  responseFormat : Option (String × Option Json)

/-- `ResponsesRequestToChatCompletionsRequest`. -/
def responsesRequestToChat (req : ResponsesRequest) : Except String ChatRequest := do
  if req.model = "" then .error "model is required"
  else
    let messages ← requestMessages floats req
    let toolChoice ← toolChoiceToChat floats req.toolChoice
    let responseFormat ← textToResponseFormat req.text
    .ok ⟨req.model, messages, toolChoice, responseFormat⟩

/-! ### What the messages say -/

inductive Event
  | message (role : String) (content : Json)
  | call (role : String) (call : ChatCall)
  | output (callId : String) (content : Json)

def events (m : ChatMessage) : List Event :=
  (if m.role = "tool" then [.output m.toolCallId m.content]
    else
      match m.content with
      | .null => []
      | content => [.message m.role content]) ++ m.toolCalls.map (.call m.role)

def callOf (item : Item) : ChatCall :=
  ⟨"function", callID item, field item "name", textValue (member item "arguments"), none⟩

def counterpart (item : Item) : List Event :=
  if itemType item = "message" then [.message (roleOf item) (chatContent (member item "content"))]
  else if itemType item = "function_call" then [.call "assistant" (callOf item)]
  else if itemType item = "custom_tool_call" then [.call "assistant" (customToolCall item)]
  else if itemType item = "function_call_output" ∨ itemType item = "custom_tool_call_output" then
    [.output (field item "call_id") (.str (textValue (member item "output")))]
  else []

/-- The items reach chat: their counterparts stand behind what was there, and messages are of the
three roles. -/
structure Reaches (messages : List ChatMessage) (items : List Item) (out : List ChatMessage) : Prop where
  events : out.flatMap events = messages.flatMap ResponsesToChat.events ++ items.flatMap counterpart
  roles : ∀ role content, .message role content ∈ out.flatMap ResponsesToChat.events →
    role = "user" ∨ role = "assistant" ∨ role = "system"

/-- An item that reaches chat. The last case is an item that is written as the message it should
become. -/
def Reachable (item : Item) : Prop :=
  (itemType item = "message" ∧ (roleOf item = "user" ∨ roleOf item = "assistant" ∨ roleOf item = "system")) ∨
    (itemType item = "function_call" ∧ field item "name" ≠ "") ∨
    itemType item = "custom_tool_call" ∨ itemType item = "function_call_output" ∨
    (itemType item = "custom_tool_call_output" ∧ field item "role" = "tool" ∧ field item "call_id" = "" ∧
      chatContent (member item "content") = .str (textValue (member item "output")))

/-! ### One item -/

def shown (item : Item) : Event :=
  if itemType item = "function_call" then .call "assistant" (callOf item)
  else if itemType item = "custom_tool_call" then .call "assistant" (customToolCall item)
  else if itemType item = "function_call_output" then
    .output (field item "call_id") (.str (textValue (member item "output")))
  else if roleOf item = "tool" then .output "" (chatContent (member item "content"))
  else .message (roleOf item) (chatContent (member item "content"))

theorem chatContent_ne_null (v : Json) : chatContent v ≠ .null := by
  cases v with
  | arr parts =>
    rw [chatContent]
    split_ifs <;> simp
  | _ => simp [chatContent]

theorem events_append {messages : List ChatMessage} (call : ChatCall) :
    (appendToolCallToLastAssistant messages call).flatMap events = messages.flatMap events ++
      [.call "assistant" call] := by
  have hnew : (messages ++ [(⟨"assistant", .null, [call], ""⟩ : ChatMessage)]).flatMap events =
      messages.flatMap events ++ [.call "assistant" call] := by
    rw [List.flatMap_append]
    rfl
  unfold appendToolCallToLastAssistant
  split
  · rename_i last hlast
    split_ifs with hrole
    · -- the call comes last in the message it joins
      obtain ⟨before, rfl⟩ := List.getLast?_eq_some_iff.1 hlast
      simp [events, hrole]
    · exact hnew
  · exact hnew

theorem events_content (role : String) (v : Json) :
    events ⟨role, chatContent v, [], ""⟩ =
      [if role = "tool" then .output "" (chatContent v) else .message role (chatContent v)] := by
  unfold events
  split_ifs with hrole
  · rfl
  · have hne := chatContent_ne_null v
    cases hv : chatContent v <;> simp_all

/-- An item adds one event, unless it is a call without a name. -/
theorem addItem_ok {item : Item} (h : itemType item = "function_call" → field item "name" ≠ "")
    (messages : List ChatMessage) :
    ∃ out, addItem messages item = .ok out ∧ out.flatMap events = messages.flatMap events ++ [shown item] := by
  unfold addItem shown
  by_cases hfunction : itemType item = "function_call"
  · rw [if_pos hfunction, if_pos hfunction, functionCall, if_neg (h hfunction)]
    exact ⟨_, rfl, events_append _⟩
  rw [if_neg hfunction, if_neg hfunction]
  by_cases hcustom : itemType item = "custom_tool_call"
  · rw [if_pos hcustom, if_pos hcustom]
    exact ⟨_, rfl, events_append _⟩
  rw [if_neg hcustom, if_neg hcustom]
  by_cases houtput : itemType item = "function_call_output"
  · rw [if_pos houtput, if_pos houtput]
    exact ⟨_, rfl, by rw [List.flatMap_append]; rfl⟩
  rw [if_neg houtput, if_neg houtput]
  exact ⟨_, rfl, by rw [List.flatMap_append, List.flatMap_singleton, events_content]⟩

/-! ### All items -/

def Named (item : Item) : Prop := itemType item = "function_call" → field item "name" ≠ ""

theorem addItems_ok {items : List Item} (h : ∀ item ∈ items, Named item) (messages : List ChatMessage) :
    ∃ out, addItems messages items = .ok out ∧ out.flatMap events = messages.flatMap events ++ items.map shown := by
  induction items generalizing messages with
  | nil => exact ⟨messages, rfl, by simp⟩
  | cons item items ih =>
    rw [List.forall_mem_cons] at h
    obtain ⟨next, hnext, hevents⟩ := addItem_ok h.1 messages
    obtain ⟨out, hout, hall⟩ := ih h.2 next
    refine ⟨out, ?_, by rw [hall, hevents]; simp⟩
    rw [addItems, List.foldlM_cons, hnext]
    exact hout

theorem named_of_ok {items : List Item} {messages out : List ChatMessage} (h : addItems messages items = .ok out) :
    ∀ item ∈ items, Named item := by
  induction items generalizing messages with
  | nil => nofun
  | cons item items ih =>
    rw [List.forall_mem_cons]
    rw [addItems, List.foldlM_cons] at h
    by_cases hnamed : Named item
    · obtain ⟨next, hnext, -⟩ := addItem_ok hnamed messages
      rw [hnext] at h
      exact ⟨hnamed, ih h⟩
    · obtain ⟨htype, hname⟩ := Classical.not_imp.1 hnamed
      rw [addItem, if_pos htype, functionCall, if_pos (not_not.1 hname)] at h
      cases h

theorem length_counterpart (item : Item) : (counterpart item).length ≤ 1 := by
  unfold counterpart
  split_ifs <;> simp

/-- One event for each item is right only if each item has one event. -/
theorem map_shown_eq_iff (items : List Item) :
    items.map shown = items.flatMap counterpart ↔ ∀ item ∈ items, counterpart item = [shown item] := by
  have hlength (l : List Item) : (l.flatMap counterpart).length ≤ l.length := by
    induction l with
    | nil => exact Nat.le_refl 0
    | cons item l ih =>
      have := length_counterpart item
      rw [List.flatMap_cons, List.length_append, List.length_cons]
      omega
  constructor
  · intro h
    induction items with
    | nil => nofun
    | cons item items ih =>
      rw [List.map_cons, List.flatMap_cons] at h
      match hitem : counterpart item, length_counterpart item with
      | [], _ =>
        have hshort := hlength items
        rw [hitem, List.nil_append] at h
        rw [← h] at hshort
        simp at hshort
      | [event], _ =>
        rw [hitem] at h
        obtain ⟨hhead, htail⟩ := List.cons.inj h
        exact List.forall_mem_cons.2 ⟨by rw [hitem, hhead], ih htail⟩
  · intro h
    rw [List.flatMap_congr h, List.map_eq_flatMap]

theorem roleOf_eq_tool {item : Item} : roleOf item = "tool" ↔ field item "role" = "tool" := by
  unfold roleOf
  by_cases hrole : field item "role" = "" <;> simp [hrole]

/-- By its type, an item reaches chat exactly if what it becomes is its counterpart. -/
theorem reachable_iff {item : Item}
    (htype : itemType item ∈ ["message", "function_call", "custom_tool_call", "function_call_output",
      "custom_tool_call_output", "reasoning", "item_reference"]) :
    Reachable item ↔ Named item ∧ counterpart item = [shown item] ∧
      ∀ role content, shown item = .message role content → role = "user" ∨ role = "assistant" ∨ role = "system" := by
  simp only [List.mem_cons, List.not_mem_nil, or_false] at htype
  unfold Reachable Named counterpart shown
  rcases htype with h | h | h | h | h | h | h
  · by_cases htool : roleOf item = "tool"
    · simp [h, htool]
    · simp [h, htool]
  · simp [h]
  · simp [h]
  · simp [h]
  · have hflip : Json.str (textValue (member item "output")) = chatContent (member item "content") ↔
        chatContent (member item "content") = .str (textValue (member item "output")) := eq_comm
    rw [← roleOf_eq_tool]
    by_cases htool : roleOf item = "tool"
    · simp [h, htool, hflip]
    · simp [h, htool]
  · simp [h]
  · simp [h]

/-- The conversion brings the items to chat exactly if each of them can be brought. -/
theorem reaches_iff (instructions : String) (items : List Item)
    (htypes : ∀ item ∈ items, itemType item ∈ ["message", "function_call", "custom_tool_call", "function_call_output",
      "custom_tool_call_output", "reasoning", "item_reference"]) :
    (∃ out, addItems (systemMessage instructions) items = .ok out ∧ Reaches (systemMessage instructions) items out) ↔
      ∀ item ∈ items, Reachable item := by
  have hsystem : ∀ role content, Event.message role content ∈ (systemMessage instructions).flatMap
      events → role = "system" := by
    intro role content hmem
    unfold systemMessage at hmem
    split_ifs at hmem
    · obtain ⟨rfl, -⟩ : role = "system" ∧ _ := by simpa [events] using hmem
      rfl
    · cases hmem
  constructor
  · rintro ⟨out, hout, hevents, hroles⟩ item hitem
    obtain ⟨out', hout', hall⟩ := addItems_ok (named_of_ok hout) (systemMessage instructions)
    rw [hout] at hout'
    cases hout'
    rw [hall, List.append_right_inj, map_shown_eq_iff] at hevents
    refine (reachable_iff (htypes item hitem)).2
      ⟨named_of_ok hout item hitem, hevents item hitem, fun role content hshown => ?_⟩
    refine hroles role content ?_
    rw [hall, ← hshown]
    exact List.mem_append_right _ (List.mem_map_of_mem hitem)
  · intro h
    have hitems := fun item hitem => (reachable_iff (htypes item hitem)).1 (h item hitem)
    obtain ⟨out, hout, hall⟩ := addItems_ok (fun item hitem => (hitems item hitem).1) (systemMessage instructions)
    refine ⟨out, hout, ?_, fun role content hmem => ?_⟩
    · rw [hall, (map_shown_eq_iff items).2 fun item hitem => (hitems item hitem).2.1]
    · rw [hall, List.mem_append] at hmem
      obtain hmem | hmem := hmem
      · exact .inr (.inr (hsystem role content hmem))
      · obtain ⟨item, hitem, hshown⟩ := List.mem_map.1 hmem
        exact (hitems item hitem).2.2 role content hshown

def callItems : List Item :=
  [[("content", .str "Weather?"), ("role", .str "user"), ("type", .str "message")],
    [("arguments", .str "\x7b\x7d"), ("call_id", .str "call_1"), ("name", .str "weather"),
      ("type", .str "function_call")],
    [("call_id", .str "call_2"), ("input", .str "ls"), ("name", .str "shell"), ("type", .str "custom_tool_call")],
    [("call_id", .str "call_1"), ("output", .str "sunny"), ("type", .str "function_call_output")]]

theorem callItems_reach : ∃ out, addItems (systemMessage "Be brief.") callItems = .ok out ∧
    Reaches (systemMessage "Be brief.") callItems out := by
  refine (reaches_iff "Be brief." callItems (by decide +kernel)).2 fun item hitem => ?_
  have hkinds : ∀ item ∈ callItems, (itemType item = "message" ∧ roleOf item = "user") ∨
      (itemType item = "function_call" ∧ field item "name" ≠ "") ∨ itemType item = "custom_tool_call" ∨
      itemType item = "function_call_output" := by decide +kernel
  obtain ⟨htype, hrole⟩ | h | h | h := hkinds item hitem
  · exact .inl ⟨htype, .inl hrole⟩
  · exact .inr (.inl h)
  · exact .inr (.inr (.inl h))
  · exact .inr (.inr (.inr (.inl h)))

def customOutput : Item :=
  [("call_id", .str "call_1"), ("output", .str "a.txt"), ("type", .str "custom_tool_call_output")]

def customItems : List Item :=
  [[("call_id", .str "call_1"), ("input", .str "ls"), ("name", .str "shell"),
    ("type", .str "custom_tool_call")], customOutput]

theorem tool_of_output {out : List ChatMessage} {callId : String} {content : Json}
    (h : .output callId content ∈ out.flatMap events) : ∃ m ∈ out, m.role = "tool" := by
  obtain ⟨m, hm, hmem⟩ := List.mem_flatMap.1 h
  refine ⟨m, hm, ?_⟩
  by_contra hrole
  unfold events at hmem
  rw [if_neg hrole] at hmem
  cases hcontent : m.content <;> simp [hcontent] at hmem

/-- The output becomes a message of the user. -/
theorem customItems_lost :
    ∃ out, addItems [] customItems = .ok out ∧ out.map ChatMessage.role = ["assistant", "user"] ∧
      ¬Reaches [] customItems out := by
  have hnamed : ∀ item ∈ customItems, itemType item = "function_call" → field item "name" ≠ "" := by decide +kernel
  obtain ⟨out, hout, -⟩ := addItems_ok hnamed []
  have hroles : (addItems [] customItems).toOption.map (fun out => out.map ChatMessage.role) =
      some ["assistant", "user"] := by
    decide +kernel
  rw [hout] at hroles
  replace hroles : out.map ChatMessage.role = ["assistant", "user"] := Option.some.inj hroles
  refine ⟨out, hout, hroles, fun h => ?_⟩
  have hcounterpart : counterpart customOutput = [.output (field customOutput "call_id") (.str "a.txt")] := by
    have htype : itemType customOutput = "custom_tool_call_output" := by decide +kernel
    simp only [counterpart, htype]
    rfl
  have hmem : .output (field customOutput "call_id") (.str "a.txt") ∈ out.flatMap events := by
    rw [h.events, List.flatMap_nil, List.nil_append]
    exact List.mem_flatMap.2 ⟨customOutput, by simp [customItems], by rw [hcounterpart]; exact List.mem_singleton.2 rfl⟩
  obtain ⟨m, hm, htool⟩ := tool_of_output hmem
  have hrole := List.mem_map_of_mem (f := ChatMessage.role) hm
  rw [hroles, htool] at hrole
  simp at hrole

end TokenEra.Request.ResponsesToChat
