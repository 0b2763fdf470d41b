import TokenEra.ChatToClaude.Stream
import TokenEra.Usage.Counts

/-!
# The values of the Responses API

A response is a list of outputs: messages, reasoning and tool calls. A stream is a sequence of
events about the outputs, each named by its `output_index`, and a last event with the whole
response.

Chat-completion chunks are those of `TokenEra.ChatToClaude.Stream`. Times, and fields that no
converter reads or writes, are left out.
-/

namespace TokenEra.Responses

open Lib TokenUsage

/-- A raw JSON value as far as `JsonRawMessageToString` tells: absent, `null`, a string, or the
trimmed text of another value. -/
inductive RawJson
  | absent
  | null
  | str (s : String)
  | other (text : String)
  deriving DecidableEq, Repr

/-- `JsonRawMessageToString`. -/
def RawJson.toText : RawJson → String
  | .absent | .null => ""
  | .str s => s
  | .other text => text

inductive OutputType
  | message | reasoning | functionCall | customToolCall
  | other (name : String)
  deriving DecidableEq, Repr

/-- `isResponsesToolOutputType`. -/
def OutputType.isTool : OutputType → Bool
  | .functionCall | .customToolCall => true
  | .message | .reasoning | .other _ => false

inductive ContentType
  | outputText | summaryText | other
  deriving DecidableEq, Repr

structure OutputContent where
  type : ContentType
  text : String
  deriving DecidableEq, Repr

structure Output where
  type : OutputType
  id : String := ""
  status : String := ""
  role : String := ""
  content : List OutputContent := []
  callId : String := ""
  name : String := ""
  arguments : RawJson := .absent
  deriving DecidableEq, Repr

/-- `OpenAIResponsesResponse`. The details of an incomplete response are its reason. -/
structure Response where
  id : String := ""
  status : RawJson := .absent
  incompleteDetails : Option String := none
  model : String := ""
  output : List Output := []
  usage : Option Usage := none
  deriving DecidableEq, Repr

/-- `responseStatusString`. -/
def Response.statusString (r : Response) : String :=
  match r.status with
  | .str s => trimSpace s
  | .absent | .null | .other _ => ""

end TokenEra.Responses
