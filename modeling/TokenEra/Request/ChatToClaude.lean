import TokenEra.Request.Message

/-!
# From chat to Claude

The two passes of `OpenAIChatRequestToClaudeMessages` over the messages. The first
(`formatMessages`) merges neighbours of one role whose contents are strings and puts a placeholder
for empty contents; the second (`claudeMessages`) builds the blocks, puts a user message in front if
there is none, and adds tool results to the user message before them.

What a conversation looks like after the second pass is the sum over the formatted messages
(`observe_claudeMessages`), for the tool uses, the tool results and the text alike.
-/

namespace TokenEra.Request.ChatToClaude

open Lib ClaudeMessage

def placeholder : String := "..."

/-! ### First pass -/

/-- `strings.Trim` with a quote as its only character to cut. -/
def trimQuotes (s : String) : String :=
  String.ofList (((s.toList.dropWhile (· = '"')).reverse.dropWhile (· = '"')).reverse)

/-- The text of two messages in one, if they are merged. -/
def merged (last m : Message) : Option String :=
  if last.role = m.role ∧ last.role ≠ "tool" then
    match last.content, m.content with
    | .text a, .text b => some (trimQuotes (a ++ " " ++ b))
    | _, _ => none
  else none

def fill : Content → Content
  | .absent => .text placeholder
  | .text s => if s = "" then .text placeholder else .text s
  | c => c

/-- `fmtMessage`, with its content. The role is the loop variable's, which is a copy: an empty role
stays empty. -/
def format (m : Message) (content : Content) : Message where
  role := m.role
  content := fill content
  toolCalls := if m.role = "assistant" then m.toolCalls else none
  toolCallId := if m.role = "tool" then m.toolCallId else ""

/-- One round of the loop. `lastMessage` is the last that was formatted; the first one is a message
of role `tool`. -/
def formatStep (formatted : List Message) (m : Message) : List Message :=
  match formatted.getLast? with
  | none => [format m m.content]
  | some last =>
    match merged last m with
    | some text => formatted.dropLast ++ [format m (.text text)]
    | none => formatted ++ [format m m.content]

def formatMessages (messages : List Message) : List Message := messages.foldl formatStep []

/-! ### Second pass -/

variable (floats : Json.Floats)

/-- The input of a tool use; arguments that are no object are logged. -/
def inputOf (arguments : String) : Json :=
  if arguments = "" then .obj []
  else
    match Json.decode floats false arguments with
    | some (.obj l) => .obj l
    | some .null => .null
    | _ => .obj []

def toolUse (call : ToolCall) : Block Content := .toolUse call.id call.name (inputOf floats call.arguments)

def front : ClaudeMessage Content := ⟨"user", .blocks [.text placeholder]⟩

def claudeMessage (m : Message) : ClaudeMessage Content where
  role := m.role
  content :=
    match m.content, m.toolCalls with
    | .text s, none => .text (if s = "" then placeholder else s)
    | content, calls =>
      .blocks (((content.parse.filter (· ≠ "")).map Block.text) ++ (calls.getD []).map (toolUse floats))

def addMessage (out : List (ClaudeMessage Content)) (m : Message) : List (ClaudeMessage Content) :=
  if m.role = "tool" then
    match out.getLast? with
    | some last =>
      if last.role = "user" then
        out.dropLast ++ [⟨last.role, .blocks (last.content.toBlocks ++ [.toolResult m.toolCallId m.content])⟩]
      else out ++ [⟨"user", .blocks [.toolResult m.toolCallId m.content]⟩]
    | none => out ++ [⟨"user", .blocks [.toolResult m.toolCallId m.content]⟩]
  else out ++ [claudeMessage floats m]

def claudeStep (s : Bool × List (ClaudeMessage Content)) (m : Message) : Bool × List (ClaudeMessage Content) :=
  if m.role = "system" then s
  else (false, addMessage floats (if s.1 = true ∧ m.role ≠ "user" then s.2 ++ [front] else s.2) m)

def claudeMessages (messages : List Message) : List (ClaudeMessage Content) :=
  ((formatMessages messages).foldl (claudeStep floats) (true, [])).2

/-! ### What the second pass shows -/

variable {floats} {B : Type}

def shown (floats : Json.Floats) (m : Message) : List (String × Block Content) :=
  if m.role = "system" then []
  else if m.role = "tool" then [("user", .toolResult m.toolCallId m.content)]
  else (claudeMessage floats m).content.toBlocks.map (m.role, ·)

variable {m : Message} {role : String} {out : List (ClaudeMessage Content)}

theorem observe_addMessage (g : String → Block Content → List B) (hm : m.role ≠ "system") :
    observe g (addMessage floats out m) = observe g out ++ (shown floats m).flatMap fun b => g b.1 b.2 := by
  unfold addMessage shown
  rw [if_neg hm]
  by_cases htool : m.role = "tool"
  · rw [if_pos htool, if_pos htool]
    cases hlast : out.getLast? with
    | none => simp [observe_append, observe_singleton, ClaudeContent.toBlocks]
    | some last =>
      dsimp only
      split_ifs with huser
      · -- the result joins the last message
        obtain ⟨before, rfl⟩ := List.getLast?_eq_some_iff.1 hlast
        simp [observe_append, observe_singleton, ClaudeContent.toBlocks, huser]
      · simp [observe_append, observe_singleton, ClaudeContent.toBlocks]
  · rw [if_neg htool, if_neg htool, observe_append, observe_singleton, List.flatMap_map]
    rfl

/-- Whether a message is put in front, by the roles: if the first that is not `system` is not
`user`. -/
def needsFront (roles : List String) : Bool :=
  match roles.find? fun role => role ≠ "system" with
  | some role => role ≠ "user"
  | none => false

def shows (floats : Json.Floats) (g : String → Block Content → List B) (formatted : List Message) : List B :=
  formatted.flatMap fun m => (shown floats m).flatMap fun b => g b.1 b.2

theorem shows_of_system (g : String → Block Content → List B) (hm : m.role = "system") (l : List Message) :
    shows floats g (m :: l) = shows floats g l := by
  simp [shows, shown, hm]

theorem observe_fold (g : String → Block Content → List B) (formatted : List Message) :
    observe g (formatted.foldl (claudeStep floats) (false, out)).2 = observe g out ++ shows floats g formatted := by
  induction formatted generalizing out with
  | nil => simp [shows]
  | cons m formatted ih =>
    rw [List.foldl_cons, claudeStep]
    by_cases hm : m.role = "system"
    · rw [if_pos hm, ih, shows_of_system g hm]
    · rw [if_neg hm, if_neg (by simp), ih, observe_addMessage g hm, List.append_assoc, shows, shows, List.flatMap_cons]

theorem needsFront_of_system {roles : List String} : needsFront ("system" :: roles) = needsFront roles := by
  rw [needsFront, needsFront, List.find?_cons_of_neg (by simp)]

theorem needsFront_cons {roles : List String} (h : role ≠ "system") :
    needsFront (role :: roles) = decide (role ≠ "user") := by
  rw [needsFront, List.find?_cons_of_pos (by simp [h])]

/-- The second pass shows what its messages show, after the message in front. -/
theorem observe_claudeMessages (g : String → Block Content → List B) (messages : List Message) :
    observe g (claudeMessages floats messages) =
      (if needsFront ((formatMessages messages).map Message.role) = true then observe g [front] else []) ++
        shows floats g (formatMessages messages) := by
  unfold claudeMessages
  induction formatMessages messages with
  | nil => rfl
  | cons m formatted ih =>
    rw [List.foldl_cons, claudeStep, List.map_cons]
    by_cases hm : m.role = "system"
    · rw [if_pos hm, ih, shows_of_system g hm, hm, needsFront_of_system]
    · rw [if_neg hm, observe_fold, observe_addMessage g hm, needsFront_cons hm, shows, shows, List.flatMap_cons,
        ← List.append_assoc]
      by_cases huser : m.role = "user"
      · simp [huser, observe]
      · simp [huser]

/-! ### Roles after the second pass -/

def roleOf (m : Message) : String := if m.role = "tool" then "user" else m.role

theorem roles_addMessage (floats : Json.Floats) :
    ((addMessage floats out m).map ClaudeMessage.role = out.map ClaudeMessage.role ∧
      roleOf m ∈ out.map ClaudeMessage.role) ∨
      (addMessage floats out m).map ClaudeMessage.role = out.map ClaudeMessage.role ++ [roleOf m] := by
  unfold addMessage roleOf
  by_cases htool : m.role = "tool"
  · rw [if_pos htool, if_pos htool]
    cases hlast : out.getLast? with
    | none => exact .inr (by simp)
    | some last =>
      dsimp only
      split_ifs with huser
      · obtain ⟨before, rfl⟩ := List.getLast?_eq_some_iff.1 hlast
        exact .inl ⟨by simp, by simp [huser]⟩
      · exact .inr (by simp)
  · exact .inr (by simp [htool, claudeMessage])

theorem mem_roles_addMessage :
    role ∈ (addMessage floats out m).map ClaudeMessage.role ↔ role ∈ out.map ClaudeMessage.role ∨ role = roleOf m := by
  obtain ⟨hroles, hmem⟩ | hroles := roles_addMessage floats
  · rw [hroles]
    constructor
    · exact .inl
    · rintro (h | rfl)
      · exact h
      · exact hmem
  · rw [hroles, List.mem_append, List.mem_singleton]

theorem head_addMessage (h : (out.map ClaudeMessage.role).head? = some "user") :
    ((addMessage floats out m).map ClaudeMessage.role).head? = some "user" := by
  obtain ⟨hroles, -⟩ | hroles := roles_addMessage floats
  · rw [hroles, h]
  · rw [hroles, List.head?_append, h]
    rfl

theorem mem_roles_fold {formatted : List Message} :
    role ∈ (formatted.foldl (claudeStep floats) (false, out)).2.map ClaudeMessage.role ↔
      role ∈ out.map ClaudeMessage.role ∨ ∃ m ∈ formatted, m.role ≠ "system" ∧ role = roleOf m := by
  induction formatted generalizing out with
  | nil => simp
  | cons m formatted ih =>
    rw [List.foldl_cons, claudeStep]
    by_cases hm : m.role = "system"
    · rw [if_pos hm, ih]
      simp [hm]
    · rw [if_neg hm, if_neg (by simp), ih, mem_roles_addMessage]
      simp [hm, or_assoc]

theorem head_fold {formatted : List Message}
    (h : (out.map ClaudeMessage.role).head? = some "user") :
    ((formatted.foldl (claudeStep floats) (false, out)).2.map ClaudeMessage.role).head? = some "user" := by
  induction formatted generalizing out with
  | nil => exact h
  | cons m formatted ih =>
    rw [List.foldl_cons, claudeStep]
    split_ifs with hm hfirst
    · exact ih h
    · simp at hfirst
    · exact ih (head_addMessage h)

/-- The first message is one of the user, and the roles are those of the formatted messages. -/
theorem roles_claudeMessages (messages : List Message) :
    (∀ role ∈ ((claudeMessages floats messages).map ClaudeMessage.role).head?, role = "user") ∧
      ∀ role, role ∈ (claudeMessages floats messages).map ClaudeMessage.role ↔
        (needsFront ((formatMessages messages).map Message.role) = true ∧ role = "user") ∨
          ∃ m ∈ formatMessages messages, m.role ≠ "system" ∧ role = roleOf m := by
  unfold claudeMessages
  induction formatMessages messages with
  | nil => exact ⟨nofun, by simp [needsFront]⟩
  | cons m formatted ih =>
    rw [List.foldl_cons, claudeStep, List.map_cons]
    by_cases hm : m.role = "system"
    · rw [if_pos hm, hm, needsFront_of_system]
      refine ⟨ih.1, fun role => (ih.2 role).trans ?_⟩
      simp [hm]
    · rw [if_neg hm, needsFront_cons hm]
      by_cases huser : m.role = "user"
      · have hrole : roleOf m = "user" := by simp [roleOf, huser]
        rw [if_neg (by simp [huser])]
        refine ⟨?_, fun role => mem_roles_fold.trans ?_⟩
        · have hhead : ((addMessage floats [] m).map ClaudeMessage.role).head? = some "user" := by
            simp [addMessage, huser, claudeMessage]
          rw [head_fold hhead]
          simp
        · rw [mem_roles_addMessage]
          simp [huser]
      · rw [if_pos ⟨rfl, huser⟩]
        refine ⟨?_, fun role => mem_roles_fold.trans ?_⟩
        · have hhead : (([] ++ [front]).map ClaudeMessage.role).head? = some "user" := rfl
          rw [head_fold (head_addMessage hhead)]
          simp
        · rw [mem_roles_addMessage]
          simp [hm, huser, front, or_assoc]

end TokenEra.Request.ChatToClaude
