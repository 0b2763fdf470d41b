import TokenEra.Lib.Json
import TokenEra.Lib.Text
import TokenEra.Request.Message

/-!
# Input items of a Responses request

The items are decoded into `map[string]any`, and their members are read as strings whatever they are
(`interface2String`).
-/

namespace TokenEra.Request

open Lib

/-- A `map[string]any`: the members of an object. -/
abbrev Item := List (String × Json)

/-- `item[key]`, with the flag that says whether it is there. -/
def member? (item : Item) (key : String) : Option Json := (item.find? fun m => m.1 = key).map Prod.snd

/-- `item[key]`; what is missing is `nil`, as `null` is. -/
def member (item : Item) (key : String) : Json := (member? item key).getD .null

/-! ### Values as text -/

def decimal (text : List Char) : List Char × Int :=
  let mantissa := text.takeWhile (· ≠ 'e')
  let whole := mantissa.takeWhile (· ≠ '.')
  let exponent := (text.dropWhile (· ≠ 'e')).drop 1
  (whole ++ (mantissa.dropWhile (· ≠ '.')).drop 1,
    whole.length + ((String.ofList (exponent.dropWhile (· = '+'))).toInt?.getD 0))

/-- `FormatFloat` without an exponent, of a number that is not negative. -/
def fixed (text : List Char) : List Char :=
  let (digits, point) := decimal text
  if point ≤ 0 then '0' :: '.' :: (List.replicate (-point).toNat '0' ++ digits)
  else if digits.length ≤ point then digits ++ List.replicate (point.toNat - digits.length) '0'
  else digits.take point.toNat ++ '.' :: digits.drop point.toNat

/-- The `%v` of a number that is not negative: the exponent has two digits at least, and numbers
below `0.0001` have one. -/
def general (text : List Char) : List Char :=
  let (digits, point) := decimal text
  let zeros := (digits.takeWhile (· = '0')).length
  let exponent := point - 1 - zeros
  let padded (n : Nat) : List Char := if n < 10 then '0' :: (toString n).toList else (toString n).toList
  if text.contains 'e' ∨ (exponent < -4 ∧ zeros < digits.length) then
    (match digits.drop zeros with
      | [] => ['0']
      | [d] => [d]
      | d :: l => d :: '.' :: l) ++
      'e' :: (if exponent < 0 then '-' else '+') :: padded exponent.natAbs
  else text

def signed (f : List Char → List Char) : List Char → List Char
  | '-' :: l => '-' :: f l
  | l => f l

mutual

/-- `fmt.Sprintf("%v")`. -/
def sprint : Json → List Char
  | .null => ['<', 'n', 'i', 'l', '>']
  | .bool true => ['t', 'r', 'u', 'e']
  | .bool false => ['f', 'a', 'l', 's', 'e']
  | .num text => signed general text
  | .str s => s.toList
  | .arr [] => ['[', ']']
  | .arr (v :: l) => '[' :: (sprint v ++ sprintElements l)
  | .obj [] => ['m', 'a', 'p', '[', ']']
  | .obj ((k, v) :: l) => ['m', 'a', 'p', '['] ++ k.toList ++ ':' :: (sprint v ++ sprintMembers l)

def sprintElements : List Json → List Char
  | [] => [']']
  | v :: l => ' ' :: (sprint v ++ sprintElements l)

def sprintMembers : List (String × Json) → List Char
  | [] => [']']
  | (k, v) :: l => ' ' :: (k.toList ++ ':' :: (sprint v ++ sprintMembers l))

end

def interface2String : Json → String
  | .str s => s
  | .num text => String.ofList (signed fixed text)
  | .bool true => "true"
  | .bool false => "false"
  | .null => ""
  | v => String.ofList (sprint v)

/-- A member as text, without the white space around it. -/
def field (item : Item) (key : String) : String := trimSpace (interface2String (member item key))

/-! ### Members of items -/

def itemType (item : Item) : String := field item "type"

/-- `responsesCallID`. -/
def callID (item : Item) : String := if field item "call_id" ≠ "" then field item "call_id" else field item "id"

/-- `responsesArgumentsString` and `responseToolOutputToChatContent`: a string as it is, other
values as JSON. -/
def textValue : Json → String
  | .null => ""
  | .str s => s
  | v => Json.encode v

/-- `responsesObjectValue`. -/
def objectValue (floats : Json.Floats) (value : Json) (fallbackKey : String) : Json :=
  match value with
  | .null => .obj []
  | .obj l => .obj l
  | .str s =>
    match Json.decode floats true s with
    | some (.obj l) => .obj l
    | some .null => .null
    | some (.arr l) => .obj [(fallbackKey, .arr l)]
    | _ => .obj [(fallbackKey, .str s)]
  | v => .obj [(fallbackKey, v)]

theorem member_cons_self (key : String) (v : Json) (item : Item) : member ((key, v) :: item) key = v := by
  simp [member, member?]

theorem field_of_str {item : Item} {key s : String} (h : member item key = .str s) : field item key = trimSpace s := by
  rw [field, h, interface2String]

end TokenEra.Request
