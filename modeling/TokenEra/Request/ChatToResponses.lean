import TokenEra.Request.ResponsesToChat

/-!
# From chat to Responses and back

`ChatCompletionsRequestToResponsesRequest` on messages: system texts become the instructions, an
assistant message becomes a message item and one item for each of its calls. The way back joins the
calls to the last assistant message, which is the one they came from (`addItems_calls`).
-/

namespace TokenEra.Request.ChatToResponses

open Lib ResponsesToChat

/-- The fields of a chat request that matter here. The schema of a response format is given by what
reading it gives, which is nothing if it has a number that is out of range. -/
structure ChatRequest where
  model : String
  n : Option Int
  messages : List Message
  toolChoice : Json
  responseFormat : Option (String × Option (Option Json))

/-! ### Messages -/

/-- The content of a tool message that is no string, as JSON. Typed parts have the members in the
order of the struct. -/
def partsJson : Content → Json
  | .parts l => .arr (l.map fun s => .obj [("text", .str s), ("type", .str "text")])
  | .media l => .arr (l.map fun s => .obj (("type", .str "text") :: if s = "" then [] else [("text", .str s)]))
  | _ => .null

def toolOutput : Content → String
  | .absent => ""
  | .text s => s
  | content => Json.encode (partsJson content)

def instructionsPart (content : Content) : Option String :=
  let s :=
    match content with
    | .absent => ""
    | .text s => trimSpace s
    | content => trimSpace (String.intercalate "\n" (content.texts.filter fun s => trimSpace s ≠ ""))
  if s = "" then none else some s

def callItem (call : ToolCall) : Item :=
  [("arguments", .str call.arguments), ("call_id", .str call.id), ("name", .str (trimSpace call.name)),
    ("type", .str "function_call")]

def callItems (m : Message) : List Item :=
  (m.calls.filter fun call => trimSpace call.id ≠ "" ∧ trimSpace call.name ≠ "").map callItem

def itemContent (role : String) : Content → Json
  | .absent => .str ""
  | .text s => .str s
  | content =>
    .arr (content.texts.map fun s =>
      .obj [("text", .str s), ("type", .str (if role = "assistant" then "output_text" else "input_text"))])

def messageItems (m : Message) : List Item × Option String :=
  let role := trimSpace m.role
  if role = "" then ([], none)
  else if role = "tool" ∨ role = "function" then
    (if trimSpace m.toolCallId = "" then
      [[("content", .str ("[tool_output_missing_call_id] " ++ toolOutput m.content)), ("role", .str "user")]]
    else
      [[("call_id", .str (trimSpace m.toolCallId)), ("output", .str (toolOutput m.content)),
        ("type", .str "function_call_output")]], none)
  else if role = "system" ∨ role = "developer" then ([], instructionsPart m.content)
  else
    ([("content", itemContent role m.content), ("role", .str role)] ::
      (if role = "assistant" then callItems m else []), none)

/-! ### Other fields -/

/-- The members of a schema in a format: those of `json_schema` in it come up one level. -/
def schemaFormat (schema : Item) : Item :=
  let format := (schema.filter fun m => m.1 ≠ "type").foldl (fun l m => Json.insertMember m.1 m.2 l)
    [("type", .str "json_schema")]
  match member format "json_schema" with
  | .obj nested =>
    (nested.foldl (fun l m => if (member? l m.1).isSome then l else Json.insertMember m.1 m.2 l) format).filter
      fun m => m.1 ≠ "json_schema"
  | _ => format

/-- `convertChatResponseFormatToResponsesText`. A schema that is no object is taken over as it
stands. -/
def responsesText : Option (String × Option (Option Json)) → Option (Option Json)
  | none => none
  | some (type, schema) =>
    if trimSpace type = "" then none
    else
      let config (format : Item) : Json := .obj [("format", .obj format)]
      match if type = "json_schema" then schema else none with
      | none => some (some (config [("type", .str type)]))
      | some (some (.obj schema)) => some (some (config (schemaFormat schema)))
      | some (some .null) => some (some (config [("type", .str type)]))
      | some (some v) => some (some (config [("json_schema", v), ("type", .str type)]))
      | some none => some none

def nameIn (m : Item) : Option String :=
  match member m "name" with
  | .str name => if name = "" then none else some name
  | _ => none

/-- The name of the function that is chosen, which chat writes one level deeper. -/
def chosenFunction (m : Item) : Option String :=
  match member m "type" with
  | .str "function" =>
    (nameIn m).or
      (match member m "function" with
      | .obj function => nameIn function
      | _ => none)
  | _ => none

def responsesToolChoice : Json → String
  | .null => ""
  | .obj m =>
    match chosenFunction m with
    | some name => Json.encode (.obj [("name", .str name), ("type", .str "function")])
    | none => Json.encode (.obj m)
  | v => Json.encode v

def instructions (messages : List Message) : List String := messages.filterMap fun m => (messageItems m).2

/-- `ChatCompletionsRequestToResponsesRequest`. -/
def chatRequestToResponses (req : ChatRequest) : Except String ResponsesRequest :=
  if req.model = "" then .error "model is required"
  else if 1 < req.n.getD 1 then .error "n>1 is not supported in responses compatibility mode"
  else
    .ok {
      model := req.model
      input := Json.encode (.arr ((req.messages.flatMap fun m => (messageItems m).1).map .obj))
      instructions :=
        if instructions req.messages = [] then ""
        else Json.encode (.str (String.intercalate "\n\n" (instructions req.messages)))
      toolChoice := responsesToolChoice req.toolChoice
      text := responsesText req.responseFormat }

/-! ### What comes back -/

def isSystem (m : Message) : Bool := m.role = "system" ∨ m.role = "developer"

def said : Content → String
  | .text s => s
  | _ => ""

def chatCall (call : ToolCall) : ChatCall := ⟨"function", call.id, call.name, call.arguments, none⟩

def restored (m : Message) : ChatMessage := ⟨m.role, .str (said m.content), m.calls.map chatCall, m.toolCallId⟩

def systemTexts (messages : List Message) : List String :=
  ((messages.filter isSystem).map fun m => trimSpace (said m.content)).filter (· ≠ "")

def systemRestored (messages : List Message) : List ChatMessage :=
  if systemTexts messages = [] then []
  else [⟨"system", .str (String.intercalate "\n\n" (systemTexts messages)), [], ""⟩]

def allRestored (messages : List Message) : List ChatMessage :=
  systemRestored messages ++ (messages.filter fun m => !isSystem m).map restored

def Trimmed (s : String) : Prop := trimSpace s = s ∧ s ≠ ""

/-- Messages of the five roles with a string or no content. Assistant messages may have calls, and
tool messages have an id. -/
structure Plain (m : Message) : Prop where
  role : m.role ∈ ["system", "developer", "user", "assistant", "tool"]
  content : m.content = .absent ∨ ∃ s, m.content = .text s
  calls : ∀ call ∈ m.calls, m.role = "assistant" ∧ Trimmed call.id ∧ Trimmed call.name
  toolCallId : if m.role = "tool" then Trimmed m.toolCallId else m.toolCallId = ""

/-! ### The items of plain messages -/

structure Strings (item : Item) : Prop where
  values : ∀ m ∈ item, ∃ s, m.2 = .str s
  keys : (item.map Prod.fst).Pairwise (· < ·)

variable {floats : Json.Floats} {m : Message} {call : ToolCall}

theorem Strings.valid {item : Item} (h : Strings item) :
    Json.Valid floats (.obj item) ∧ Json.depth (.obj item) = 1 := by
  have hmembers : ∀ l : Item, (∀ m ∈ l, ∃ s, m.2 = .str s) → Json.ValidMembers floats l ∧ Json.depthMembers l = 0 := by
    intro l hl
    induction l with
    | nil => exact ⟨trivial, rfl⟩
    | cons m l ih =>
      obtain ⟨⟨s, hs⟩, hrest⟩ := List.forall_mem_cons.1 hl
      obtain ⟨hvalid, hdepth⟩ := ih hrest
      rw [Json.ValidMembers, Json.depthMembers, hs, hdepth]
      exact ⟨⟨trivial, hvalid⟩, rfl⟩
  obtain ⟨hvalid, hdepth⟩ := hmembers item h.values
  exact ⟨⟨hvalid, h.keys⟩, by rw [Json.depth, hdepth]⟩

theorem valid_items {items : List Item} (h : ∀ item ∈ items, Strings item) :
    Json.Valid floats (.arr (items.map .obj)) ∧ Json.depth (.arr (items.map .obj)) ≤ 2 := by
  have helements : Json.ValidElements floats (items.map .obj) ∧ Json.depthElements (items.map .obj) ≤ 1 := by
    induction items with
    | nil => exact ⟨trivial, Nat.zero_le 1⟩
    | cons item items ih =>
      obtain ⟨hitem, hitems⟩ := List.forall_mem_cons.1 h
      obtain ⟨hvalid, hdepth⟩ := @Strings.valid floats item hitem
      obtain ⟨hvalid', hdepth'⟩ := ih hitems
      exact ⟨⟨hvalid, hvalid'⟩, by rw [List.map_cons, Json.depthElements, hdepth]; omega⟩
  exact ⟨helements.1, by rw [Json.depth]; have := helements.2; omega⟩

theorem maps_obj (items : List Item) : maps (items.map .obj) = some items := by
  induction items with
  | nil => rfl
  | cons item items ih => rw [List.map_cons, maps, ih]; rfl

theorem Plain.trimmed_role (h : Plain m) : Trimmed m.role := by
  have hroles : ∀ role ∈ ["system", "developer", "user", "assistant", "tool"], trimSpace role = role ∧ role ≠ "" := by
    decide +kernel
  exact hroles m.role h.role

theorem Plain.calls_eq_nil (h : Plain m) (hrole : m.role ≠ "assistant") : m.calls = [] :=
  List.eq_nil_iff_forall_not_mem.2 fun call hcall => hrole (h.calls call hcall).1

theorem messageItems_eq (h : Plain m) :
    messageItems m =
      if isSystem m then ([], instructionsPart m.content)
      else if m.role = "tool" then
        ([[("call_id", .str m.toolCallId), ("output", .str (said m.content)),
          ("type", .str "function_call_output")]], none)
      else ([("content", .str (said m.content)), ("role", .str m.role)] :: m.calls.map callItem, none) := by
  have hsaid : itemContent m.role m.content = .str (said m.content) ∧ toolOutput m.content = said m.content := by
    obtain hcontent | ⟨s, hcontent⟩ := h.content <;> rw [hcontent] <;> exact ⟨rfl, rfl⟩
  have hcalls : (if m.role = "assistant" then callItems m else []) = m.calls.map callItem := by
    split_ifs with hrole
    · rw [callItems, List.filter_eq_self.2]
      intro call hcall
      obtain ⟨-, hid, hname⟩ := h.calls call hcall
      rw [hid.1, hname.1]
      exact decide_eq_true ⟨hid.2, hname.2⟩
    · rw [h.calls_eq_nil hrole]
      rfl
  have hid := h.toolCallId
  simp only [messageItems, h.trimmed_role.1, hsaid, hcalls, isSystem, decide_eq_true_eq]
  have hroles := h.role
  simp only [List.mem_cons, List.not_mem_nil, or_false] at hroles
  obtain hrole | hrole | hrole | hrole | hrole := hroles
  · simp [hrole]
  · simp [hrole]
  · simp [hrole]
  · simp [hrole]
  · rw [if_pos hrole] at hid
    simp [hrole, hid.1, hid.2]

theorem messageItems_strings (h : Plain m) : ∀ item ∈ (messageItems m).1, Strings item := by
  rw [messageItems_eq h]
  split_ifs
  · nofun
  · rw [List.forall_mem_singleton]
    have hkeys : ["call_id", "output", "type"].Pairwise (· < ·) := by decide +kernel
    exact ⟨by simp, hkeys⟩
  · have hkeys : ["content", "role"].Pairwise (· < ·) := by decide +kernel
    have hcallKeys : ["arguments", "call_id", "name", "type"].Pairwise (· < ·) := by decide +kernel
    rw [List.forall_mem_cons, List.forall_mem_map]
    exact ⟨⟨by simp, hkeys⟩, fun call _ => ⟨by simp [callItem], hcallKeys⟩⟩

/-! ### One message -/

variable {before : List ChatMessage} {content : Json}

theorem addItem_callItem (hid : Trimmed call.id) (hname : Trimmed call.name)
    (calls : List ChatCall) :
    addItem (before ++ [⟨"assistant", content, calls, ""⟩]) (callItem call) =
      .ok (before ++ [⟨"assistant", content, calls ++ [chatCall call], ""⟩]) := by
  have htype : itemType (callItem call) = "function_call" := by
    have htrim : trimSpace "function_call" = "function_call" := by decide +kernel
    rw [itemType, field_of_str, htrim]
    rfl
  have hcallId : field (callItem call) "call_id" = call.id := by
    rw [field_of_str, hid.1]
    rfl
  have hfield : field (callItem call) "name" = call.name := by
    rw [field_of_str rfl, hname.1, hname.1]
  rw [addItem, if_pos htype, functionCall, hfield, if_neg hname.2, callID, hcallId, if_pos hid.2]
  simp only [appendToolCallToLastAssistant, List.getLast?_append, List.getLast?_singleton, Option.some_or, if_pos,
    List.dropLast_concat, Except.map]
  rfl

theorem addItems_callItems {calls : List ToolCall}
    (h : ∀ call ∈ calls, Trimmed call.id ∧ Trimmed call.name) (done : List ChatCall) :
    addItems (before ++ [⟨"assistant", content, done, ""⟩]) (calls.map callItem) =
      .ok (before ++ [⟨"assistant", content, done ++ calls.map chatCall, ""⟩]) := by
  induction calls generalizing done with
  | nil =>
    rw [List.map_nil, List.map_nil, List.append_nil]
    rfl
  | cons call calls ih =>
    obtain ⟨hcall, hcalls⟩ := List.forall_mem_cons.1 h
    rw [List.map_cons, addItems, List.foldlM_cons, addItem_callItem hcall.1 hcall.2]
    refine (ih hcalls _).trans ?_
    rw [List.map_cons, List.append_assoc]
    rfl

theorem addItem_output {id output : String} (hid : Trimmed id) :
    addItem before [("call_id", .str id), ("output", .str output), ("type", .str "function_call_output")] =
      .ok (before ++ [⟨"tool", .str output, [], id⟩]) := by
  have htype : itemType [("call_id", .str id), ("output", .str output), ("type", .str "function_call_output")] =
      "function_call_output" := by
    have htrim : trimSpace "function_call_output" = "function_call_output" := by decide +kernel
    rw [itemType, field_of_str, htrim]
    rfl
  have hcallId : field [("call_id", .str id), ("output", .str output),
      ("type", .str "function_call_output")] "call_id" = id := by
    rw [field_of_str, hid.1]
    rfl
  rw [addItem, htype, if_neg (by decide), if_neg (by decide), if_pos rfl, hcallId]
  rfl

theorem addItem_said {role content : String} (hrole : Trimmed role) :
    addItem before [("content", .str content), ("role", .str role)] =
      .ok (before ++ [⟨role, .str content, [], ""⟩]) := by
  have htype : itemType [("content", .str content), ("role", .str role)] = "" := rfl
  have hfield : field [("content", .str content), ("role", .str role)] "role" = role := by
    rw [field_of_str, hrole.1]
    rfl
  rw [addItem, htype, if_neg (by decide), if_neg (by decide), if_neg (by decide), roleOf, hfield, if_neg hrole.2]
  rfl

/-- The calls come back to the message that they left, which is the last one when they are read. -/
theorem addItems_message (h : Plain m) (hsystem : isSystem m = false) (before : List ChatMessage) :
    addItems before (messageItems m).1 = .ok (before ++ [restored m]) := by
  have hid := h.toolCallId
  rw [messageItems_eq h, if_neg (by rw [hsystem]; exact Bool.false_ne_true), restored]
  by_cases htool : m.role = "tool"
  · rw [if_pos htool] at hid
    rw [if_pos htool, addItems, List.foldlM_cons, addItem_output hid, h.calls_eq_nil (by rw [htool]; decide), htool]
    rfl
  rw [if_neg htool] at hid
  rw [if_neg htool, addItems, List.foldlM_cons, addItem_said h.trimmed_role, hid]
  by_cases hassistant : m.role = "assistant"
  · rw [hassistant]
    exact addItems_callItems (fun call hcall => (h.calls call hcall).2) []
  · rw [h.calls_eq_nil hassistant]
    rfl

/-! ### All messages -/

theorem addItems_messages {messages : List Message} (h : ∀ m ∈ messages, Plain m) (before : List ChatMessage) :
    addItems before (messages.flatMap fun m => (messageItems m).1) =
      .ok (before ++ (messages.filter fun m => !isSystem m).map restored) := by
  induction messages generalizing before with
  | nil =>
    rw [List.filter_nil, List.map_nil, List.append_nil]
    rfl
  | cons m messages ih =>
    obtain ⟨hm, hmessages⟩ := List.forall_mem_cons.1 h
    rw [List.flatMap_cons, addItems, List.foldlM_append]
    cases hsystem : isSystem m with
    | true =>
      rw [messageItems_eq hm, if_pos hsystem]
      refine (ih hmessages before).trans ?_
      simp [hsystem]
    | false =>
      have hone := addItems_message hm hsystem before
      rw [addItems] at hone
      rw [hone]
      refine (ih hmessages _).trans ?_
      simp [hsystem]

theorem instructions_eq {messages : List Message} (h : ∀ m ∈ messages, Plain m) :
    instructions messages = systemTexts messages := by
  induction messages with
  | nil => rfl
  | cons m messages ih =>
    obtain ⟨hm, hmessages⟩ := List.forall_mem_cons.1 h
    replace ih := ih hmessages
    rw [instructions, systemTexts] at ih ⊢
    rw [List.filterMap_cons, messageItems_eq hm, ih]
    cases hsystem : isSystem m with
    | true =>
      have hpart : instructionsPart m.content = if trimSpace (said m.content) = "" then none
          else some (trimSpace (said m.content)) := by
        obtain hcontent | ⟨s, hcontent⟩ := hm.content <;> rw [hcontent]
        · decide +kernel
        · rfl
      by_cases hblank : trimSpace (said m.content) = "" <;> simp [hsystem, hpart, hblank]
    | false =>
      rw [if_neg Bool.false_ne_true]
      split_ifs <;> simp [hsystem]

theorem systemMessage_join {l : List String} (h : ∀ s ∈ l, trimSpace s ≠ "") (hne : l ≠ []) (sep : String) :
    systemMessage (String.intercalate sep l) = [⟨"system", .str (String.intercalate sep l), [], ""⟩] := by
  have hjoin : trimSpace (String.intercalate sep l) ≠ "" := by
    match l with
    | [s] =>
      rw [String.intercalate_singleton]
      exact h s List.mem_cons_self
    | s :: t :: l =>
      rw [String.intercalate_cons_cons, String.append_assoc]
      exact trimSpace_append_ne_empty (h s List.mem_cons_self) _
  rw [systemMessage, if_pos hjoin]

def ChoiceReadable (floats : Json.Floats) (choice : Json) : Prop :=
  choice = .null ∨ (∃ s, choice = .str s) ∨ ∃ l, choice = .obj l ∧ Json.Decoded floats choice

theorem decode_str (s : String) : Json.decode floats true (Json.encode (.str s)) = some (.str s) :=
  Json.decode_encode_of_valid (by simp [Json.Valid]) (Nat.zero_le _) true

theorem jsonString_encode (s : String) : jsonString floats (Json.encode (.str s)) = some s := by
  rw [jsonString, jsonStart_encode_str, if_neg (by simp), decode_str]

theorem systemRestored_eq {messages : List Message} (h : systemTexts messages ≠ []) :
    systemMessage (String.intercalate "\n\n" (systemTexts messages)) = systemRestored messages := by
  rw [systemRestored, if_neg h]
  refine systemMessage_join (fun s hs => ?_) h _
  rw [systemTexts, List.mem_filter, List.mem_map] at hs
  obtain ⟨⟨m, -, rfl⟩, hne⟩ := hs
  rw [trimSpace_trimSpace]
  exact of_decide_eq_true hne

theorem instructionsMessages_ok (messages : List Message) :
    instructionsMessages floats
        (if systemTexts messages = [] then ""
        else Json.encode (.str (String.intercalate "\n\n" (systemTexts messages)))) =
      .ok (systemRestored messages) := by
  by_cases hnone : systemTexts messages = []
  · rw [if_pos hnone, systemRestored, if_pos hnone]
    rfl
  · rw [if_neg hnone, instructionsMessages,
      if_pos (present_of_jsonStart (jsonStart_encode_str _) (by decide)), jsonString_encode]
    exact congrArg _ (systemRestored_eq hnone)

theorem inputMessages_ok {messages : List Message} (h : ∀ m ∈ messages, Plain m) :
    inputMessages floats before (Json.encode (.arr ((messages.flatMap fun m => (messageItems m).1).map .obj))) =
      .ok (before ++ (messages.filter fun m => !isSystem m).map restored) := by
  set items := messages.flatMap fun m => (messageItems m).1 with hitems
  have hstart := jsonStart_encode_arr (items.map .obj)
  have hstrings : ∀ item ∈ items, Strings item := by
    intro item hitem
    obtain ⟨m, hm, hmem⟩ := List.mem_flatMap.1 hitem
    exact messageItems_strings (h m hm) item hmem
  obtain ⟨hvalid, hdepth⟩ := @valid_items floats items hstrings
  rw [inputMessages, present_of_jsonStart hstart (by decide), if_neg (by decide), hstart,
    if_neg (by decide), if_pos rfl,
    Json.decode_encode_of_valid hvalid (hdepth.trans (by decide))]
  dsimp only
  rw [maps_obj]
  exact addItems_messages h before

theorem toolChoiceToChat_ok {choice : Json} (h : ChoiceReadable floats choice) :
    ∃ out, toolChoiceToChat floats (responsesToolChoice choice) = .ok out := by
  have hobj {l : Item} (hl : Json.Decoded floats (.obj l)) : ∃ out,
      toolChoiceToChat floats (Json.encode (.obj l)) = .ok out := by
    rw [toolChoiceToChat, Json.decode_encode hl]
    split_ifs
    · exact ⟨_, rfl⟩
    · dsimp only
      split_ifs <;> exact ⟨_, rfl⟩
  obtain rfl | ⟨s, rfl⟩ | ⟨l, rfl, hl⟩ := h
  · exact ⟨.null, rfl⟩
  · refine ⟨.str s, ?_⟩
    rw [responsesToolChoice, toolChoiceToChat, decode_str, present_of_jsonStart (jsonStart_encode_str s) (by decide)]
    · rfl
    · simp
    · simp
  · rw [responsesToolChoice]
    split
    · rename_i name _
      refine hobj ?_
      have hkeys : ["name", "type"].Pairwise (· < ·) := by decide +kernel
      have hstrings : Strings [("name", .str name), ("type", .str "function")] := ⟨by simp, hkeys⟩
      obtain ⟨hvalid, hdepth⟩ := @Strings.valid floats _ hstrings
      exact Json.Decoded.of_valid hvalid (hdepth.le.trans (by decide))
    · exact hobj hl

theorem textToResponseFormat_ok {format : Option (String × Option (Option Json))}
    (h : format ≠ some ("json_schema", some none)) :
    ∃ out, textToResponseFormat (responsesText format) = .ok out := by
  have hconfig (v : Item) : ∃ out, textToResponseFormat (some (some (.obj [("format", .obj v)]))) = .ok out := by
    simp only [textToResponseFormat, member_cons_self]
    split_ifs <;> exact ⟨_, rfl⟩
  match format with
  | none => exact ⟨none, rfl⟩
  | some (type, schema) =>
    rw [responsesText]
    split_ifs with hblank htype
    · exact ⟨none, rfl⟩
    · subst htype
      match schema with
      | none => exact hconfig _
      | some none => exact absurd rfl h
      | some (some v) => cases v <;> exact hconfig _
    · exact hconfig _

/-- Plain messages survive both ways, if the tool choice and the response format can be read on the
way back. -/
theorem messages_restored (floats : Json.Floats) (req : ChatRequest) (hmodel : req.model ≠ "") (hn : req.n.getD 1 ≤ 1)
    (hmessages : ∀ m ∈ req.messages, Plain m) (hchoice : ChoiceReadable floats req.toolChoice)
    (hformat : req.responseFormat ≠ some ("json_schema", some none)) :
    ∃ mid out, chatRequestToResponses req = .ok mid ∧ responsesRequestToChat floats mid = .ok out ∧
      out.messages = allRestored req.messages := by
  obtain ⟨choice, hchoice⟩ := toolChoiceToChat_ok hchoice
  obtain ⟨format, hformat⟩ := textToResponseFormat_ok hformat
  rw [chatRequestToResponses, if_neg hmodel, if_neg (Int.not_lt.2 hn)]
  refine ⟨_, ⟨req.model, allRestored req.messages, choice, format⟩, rfl, ?_, rfl⟩
  rw [responsesRequestToChat, if_neg hmodel, requestMessages, instructions_eq hmessages, instructionsMessages_ok]
  simp only [bind, Except.bind, inputMessages_ok hmessages, hchoice, hformat]
  rfl

def assistantRun : ChatRequest where
  model := "gpt"
  n := none
  messages := [⟨"system", .text " Be brief. ", none, ""⟩, ⟨"user", .text "Weather?", none, ""⟩,
    ⟨"assistant", .absent, some [⟨"call_1", "weather", "\x7b\x7d"⟩], ""⟩,
    ⟨"assistant", .text "Once more.", some [⟨"call_2", "weather", ""⟩, ⟨"call_3", "time", "now"⟩], ""⟩,
    ⟨"tool", .text "sunny", none, "call_1"⟩, ⟨"assistant", .text "Sunny.", none, ""⟩]
  toolChoice := .str "auto"
  responseFormat := some ("json_object", none)

theorem assistantRun_restored : ∃ mid out, chatRequestToResponses assistantRun = .ok mid ∧
    responsesRequestToChat Json.Floats.literal mid = .ok out ∧ out.messages = allRestored assistantRun.messages := by
  refine messages_restored Json.Floats.literal assistantRun (by decide) (by decide) (fun m hm => ?_)
    (.inr (.inl ⟨"auto", rfl⟩)) (by simp [assistantRun])
  have hroles : ∀ m ∈ assistantRun.messages, m.role ∈ ["system", "developer", "user", "assistant", "tool"] := by
    decide +kernel
  have hcontents : ∀ m ∈ assistantRun.messages, m.content = .absent ∨ m.content = .text (said m.content) := by
    decide +kernel
  have hcalls : ∀ m ∈ assistantRun.messages, ∀ call ∈ m.calls, m.role = "assistant" ∧
      (trimSpace call.id = call.id ∧ call.id ≠ "") ∧ trimSpace call.name = call.name ∧ call.name ≠ "" := by
    decide +kernel
  have hids : ∀ m ∈ assistantRun.messages,
      if m.role = "tool" then trimSpace m.toolCallId = m.toolCallId ∧ m.toolCallId ≠ "" else m.toolCallId = "" := by
    decide +kernel
  exact ⟨hroles m hm, (hcontents m hm).imp_right fun h => ⟨_, h⟩, hcalls m hm, hids m hm⟩

def flagChoice : ChatRequest where
  model := "gpt"
  n := none
  messages := [⟨"user", .text "Weather?", none, ""⟩]
  toolChoice := .bool true
  responseFormat := none

/-- The choice goes one way and is refused on the way back. -/
theorem flagChoice_refused : ∃ mid, chatRequestToResponses flagChoice = .ok mid ∧
    responsesRequestToChat Json.Floats.literal mid = .error "invalid tool_choice" := by
  have hplain : ∀ m ∈ flagChoice.messages, Plain m := by
    rw [flagChoice, List.forall_mem_singleton]
    exact ⟨by decide, .inr ⟨_, rfl⟩, nofun, rfl⟩
  have hchoice : toolChoiceToChat Json.Floats.literal (Json.encode (.bool true)) = .error "invalid tool_choice" := by
    rw [toolChoiceToChat, Json.decode_encode_of_valid (by simp [Json.Valid]) (Nat.zero_le _),
      if_neg (by decide +kernel)]
  rw [chatRequestToResponses, if_neg (by decide), if_neg (by decide)]
  refine ⟨_, rfl, ?_⟩
  rw [responsesRequestToChat, if_neg (by decide), requestMessages, instructions_eq hplain, instructionsMessages_ok]
  simp only [bind, Except.bind, inputMessages_ok hplain]
  rw [flagChoice, responsesToolChoice, hchoice]
  · simp
  · simp

end TokenEra.Request.ChatToResponses
