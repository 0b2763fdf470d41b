import TokenEra.Lib.Json

/-!
# Messages

Chat messages (`dto.Message`) and Claude messages (`dto.ClaudeMessage`), with text, tool calls and
tool results.
-/

namespace TokenEra.Request

open Lib

/-! ### Chat -/

structure ToolCall where
  id : String
  name : String
  arguments : String
deriving DecidableEq, Repr

/-- `Content` of a chat message, an `any`: `nil`, a string, text parts as decoded (`[]any`) or as
set by `SetMediaContent` (`[]MediaContent`). -/
inductive Content
  | absent
  | text (s : String)
  | parts (l : List String)
  | media (l : List String)
deriving DecidableEq, Repr

namespace Content

def texts : Content → List String
  | .absent => []
  | .text s => [s]
  | .parts l => l
  | .media l => l

def isString : Content → Bool
  | .text _ => true
  | _ => false

/-- `ParseContent` of a message that was given the content and no parsed parts: a list that is
already typed is not recognised. -/
def parse : Content → List String
  | .absent => []
  | .text s => [s]
  | .parts l => l
  | .media _ => []

end Content

/-- A chat message. `toolCalls` is raw JSON in the source, which may be absent. -/
structure Message where
  role : String
  content : Content
  toolCalls : Option (List ToolCall)
  toolCallId : String
deriving DecidableEq, Repr

/-- `ParseToolCalls`. -/
def Message.calls (m : Message) : List ToolCall := m.toolCalls.getD []

/-! ### Claude -/

/-- A content block; `R` is what a tool result holds. -/
inductive Block (R : Type)
  | text (s : String)
  | toolUse (id name : String) (input : Json)
  | toolResult (toolUseId : String) (content : R)

inductive ClaudeContent (R : Type)
  | text (s : String)
  | blocks (l : List (Block R))

/-- A string is one text block. -/
def ClaudeContent.toBlocks {R : Type} : ClaudeContent R → List (Block R)
  | .text s => [.text s]
  | .blocks l => l

structure ClaudeMessage (R : Type) where
  role : String
  content : ClaudeContent R

namespace ClaudeMessage

variable {R B : Type}

def observe (g : String → Block R → List B) (l : List (ClaudeMessage R)) : List B :=
  l.flatMap fun m => m.content.toBlocks.flatMap (g m.role)

def seeUse : String → Block R → List (String × String × Json)
  | _, .toolUse id name input => [(id, name, input)]
  | _, _ => []

def seeResult : String → Block R → List (String × R)
  | _, .toolResult id content => [(id, content)]
  | _, _ => []

/-- Characters with the role that says them. -/
def seeText : String → Block R → List (String × Char)
  | role, .text s => s.toList.map (role, ·)
  | _, _ => []

/-- Tool uses and tool results together, with the role of their message and what `f` makes of the
contents. -/
def seeTool {C : Type} (f : R → C) : String → Block R → List (String × Block C)
  | role, .toolUse id name input => [(role, .toolUse id name input)]
  | role, .toolResult id content => [(role, .toolResult id (f content))]
  | _, .text _ => []

def toolUses (l : List (ClaudeMessage R)) : List (String × String × Json) := observe seeUse l

def toolResults (l : List (ClaudeMessage R)) : List (String × R) := observe seeResult l

def spoken (l : List (ClaudeMessage R)) : List (String × Char) := observe seeText l

theorem observe_append (g : String → Block R → List B) (l l' : List (ClaudeMessage R)) :
    observe g (l ++ l') = observe g l ++ observe g l' :=
  List.flatMap_append

theorem observe_singleton (g : String → Block R → List B) (m : ClaudeMessage R) :
    observe g [m] = m.content.toBlocks.flatMap (g m.role) := by
  simp [observe]

end ClaudeMessage

end TokenEra.Request
