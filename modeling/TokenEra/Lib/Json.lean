import Mathlib.Tactic

/-!
# JSON

Values, their text and the reading of texts, as in Go's `encoding/json`: an `any` is read as `nil`,
a `bool`, a `float64`, a `string`, a slice or a map, maps are written with sorted keys, and texts
may be nested up to a bound.

A number is known by its shortest text; what `strconv` makes of a literal is a parameter (`Floats`).
Members are kept in the order of their keys, so that equal maps are equal values. `decode_encode`:
what was read, and is written, is read again.
-/

namespace TokenEra.Lib

inductive Json
  | null
  | bool (b : Bool)
  | num (text : List Char)
  | str (s : String)
  | arr (l : List Json)
  | obj (l : List (String × Json))

namespace Json

/-! ### Literals -/

def isNumberChar (c : Char) : Bool := c.isDigit || ['+', '-', '.', 'e', 'E'].contains c

def isExponent : List Char → Bool
  | [] => true
  | c :: l =>
    let digits := match l with
      | '+' :: l | '-' :: l => l
      | l => l
    (c = 'e' || c = 'E') && digits ≠ [] && digits.all Char.isDigit

def isFraction : List Char → Bool
  | '.' :: l => (l.takeWhile Char.isDigit) ≠ [] && isExponent (l.dropWhile Char.isDigit)
  | l => isExponent l

def isNumber (l : List Char) : Bool :=
  let l := match l with
    | '-' :: l => l
    | l => l
  let digits := l.takeWhile Char.isDigit
  digits ≠ [] && (digits = ['0'] || digits.head? ≠ some '0') && isFraction (l.dropWhile Char.isDigit)

/-- `ParseFloat` followed by `FormatFloat`: the shortest text of the number that a literal names, if
it is in range. -/
structure Floats where
  shortest : List Char → Option (List Char)
  shortest_number : ∀ l t, shortest l = some t → isNumber t = true ∧ t.all isNumberChar = true
  /-- `ParseFloat` of the shortest text gives the number back. -/
  shortest_shortest : ∀ l t, shortest l = some t → shortest t = some t

/-- Numbers that are their literals. -/
def Floats.literal : Floats where
  shortest l := if isNumber l = true ∧ l.all isNumberChar = true then some l else none
  shortest_number := by
    intro l t h
    split_ifs at h with hl
    cases h
    exact hl
  shortest_shortest := by
    intro l t h
    split_ifs at h with hl
    cases h
    rw [if_pos hl]

/-! ### Writing -/

def hexDigit (n : Nat) : Char := if n < 10 then Char.ofNat (48 + n) else Char.ofNat (87 + n)

def unicodeEscape (n : Nat) : List Char :=
  ['\\', 'u', hexDigit (n / 4096 % 16), hexDigit (n / 256 % 16), hexDigit (n / 16 % 16), hexDigit (n % 16)]

/-- Characters that are escaped besides the control characters: for HTML, and for JavaScript. -/
def escaped (c : Char) : Bool := [0x3c, 0x3e, 0x26, 0x2028, 0x2029].contains c.toNat

def writeChar (c : Char) : List Char :=
  if c = '"' then ['\\', '"']
  else if c = '\\' then ['\\', '\\']
  else if c.toNat = 8 then ['\\', 'b']
  else if c.toNat = 12 then ['\\', 'f']
  else if c = '\n' then ['\\', 'n']
  else if c = '\r' then ['\\', 'r']
  else if c = '\t' then ['\\', 't']
  else if c.toNat < 0x20 ∨ escaped c = true then unicodeEscape c.toNat
  else [c]

def writeString (s : String) : List Char := '"' :: (s.toList.flatMap writeChar ++ ['"'])

mutual

def write : Json → List Char
  | .null => ['n', 'u', 'l', 'l']
  | .bool true => ['t', 'r', 'u', 'e']
  | .bool false => ['f', 'a', 'l', 's', 'e']
  | .num text => text
  | .str s => writeString s
  | .arr [] => ['[', ']']
  | .arr (v :: l) => '[' :: (write v ++ writeElements l)
  | .obj [] => ['{', '}']
  | .obj ((k, v) :: l) => '{' :: (writeString k ++ ':' :: (write v ++ writeMembers l))

def writeElements : List Json → List Char
  | [] => [']']
  | v :: l => ',' :: (write v ++ writeElements l)

def writeMembers : List (String × Json) → List Char
  | [] => ['}']
  | (k, v) :: l => ',' :: (writeString k ++ ':' :: (write v ++ writeMembers l))

end

/-- `Marshal`. -/
def encode (v : Json) : String := String.ofList (write v)

/-! ### Reading -/

def isWhite (c : Char) : Bool := c = ' ' || c = '\t' || c = '\r' || c = '\n'

def hexValue (c : Char) : Option Nat :=
  if '0' ≤ c ∧ c ≤ '9' then some (c.toNat - 48)
  else if 'a' ≤ c ∧ c ≤ 'f' then some (c.toNat - 87)
  else if 'A' ≤ c ∧ c ≤ 'F' then some (c.toNat - 55)
  else none

def codeUnit (a b c d : Char) : Option Nat :=
  match hexValue a, hexValue b, hexValue c, hexValue d with
  | some a, some b, some c, some d => some (a * 4096 + b * 256 + c * 16 + d)
  | _, _, _, _ => none

def escapeValue (c : Char) : Option Char :=
  if c = '"' ∨ c = '\\' ∨ c = '/' then some c
  else if c = 'b' then some (Char.ofNat 8)
  else if c = 'f' then some (Char.ofNat 12)
  else if c = 'n' then some '\n'
  else if c = 'r' then some '\r'
  else if c = 't' then some '\t'
  else none

def replacement : Char := Char.ofNat 0xfffd

/-- The characters up to the closing quote. A surrogate without its partner is replaced. -/
def readString : List Char → Option (List Char × List Char)
  | '"' :: l => some ([], l)
  | '\\' :: 'u' :: a :: b :: c :: d :: l =>
    match codeUnit a b c d with
    | none => none
    | some n =>
      if 0xd800 ≤ n ∧ n < 0xe000 then
        match l with
        | '\\' :: 'u' :: a' :: b' :: c' :: d' :: l' =>
          match codeUnit a' b' c' d' with
          | none => none
          | some m =>
            if n < 0xdc00 ∧ 0xdc00 ≤ m ∧ m < 0xe000 then
              (readString l').map fun r => (Char.ofNat (0x10000 + (n - 0xd800) * 0x400 + (m - 0xdc00)) :: r.1, r.2)
            else (readString ('\\' :: 'u' :: a' :: b' :: c' :: d' :: l')).map fun r => (replacement :: r.1, r.2)
        | l => (readString l).map fun r => (replacement :: r.1, r.2)
      else (readString l).map fun r => (Char.ofNat n :: r.1, r.2)
  | '\\' :: c :: l => (escapeValue c).bind fun c => (readString l).map fun r => (c :: r.1, r.2)
  | c :: l => if c.toNat < 0x20 ∨ c = '\\' then none else (readString l).map fun r => (c :: r.1, r.2)
  | [] => none

/-- A member is written into the map: in the place of its key, over one with the same key. -/
def insertMember (k : String) (v : Json) : List (String × Json) → List (String × Json)
  | [] => [(k, v)]
  | (k', v') :: l =>
    if k < k' then (k, v) :: (k', v') :: l else if k = k' then (k, v) :: l else (k', v') :: insertMember k v l

def readWord (word : List Char) (v : Json) (l : List Char) : Option (Json × List Char) :=
  if word.isPrefixOf l then some (v, l.drop word.length) else none

/-- A number out of range is an error, and `null` stands in its place for those who go on after
errors. -/
def readNumber (floats : Floats) (strict : Bool) (l : List Char) : Option (Json × List Char) :=
  let literal := l.takeWhile isNumberChar
  if isNumber literal then
    match floats.shortest literal with
    | some text => some (.num text, l.dropWhile isNumberChar)
    | none => if strict then none else some (.null, l.dropWhile isNumberChar)
  else none

mutual

/-- A value; `depth` is how far it may be nested. -/
def read (floats : Floats) (strict : Bool) : Nat → Nat → List Char → Option (Json × List Char)
  | 0, _, _ => none
  | fuel + 1, depth, l =>
    match l.dropWhile isWhite with
    | [] => none
    | c :: l =>
      if c = '{' then
        match depth with
        | 0 => none
        | depth + 1 =>
          match l.dropWhile isWhite with
          | '}' :: l => some (.obj [], l)
          | l => (readMembers floats strict fuel depth [] l).map fun r => (.obj r.1, r.2)
      else if c = '[' then
        match depth with
        | 0 => none
        | depth + 1 =>
          match l.dropWhile isWhite with
          | ']' :: l => some (.arr [], l)
          | l => (readElements floats strict fuel depth l).map fun r => (.arr r.1, r.2)
      else if c = '"' then (readString l).map fun r => (.str (String.ofList r.1), r.2)
      else if c = 't' then readWord ['r', 'u', 'e'] (.bool true) l
      else if c = 'f' then readWord ['a', 'l', 's', 'e'] (.bool false) l
      else if c = 'n' then readWord ['u', 'l', 'l'] .null l
      else readNumber floats strict (c :: l)

def readElements (floats : Floats) (strict : Bool) : Nat → Nat → List Char → Option (List Json × List Char)
  | 0, _, _ => none
  | fuel + 1, depth, l =>
    match read floats strict fuel depth l with
    | none => none
    | some (v, l) =>
      match l.dropWhile isWhite with
      | ',' :: l => (readElements floats strict fuel depth l).map fun r => (v :: r.1, r.2)
      | ']' :: l => some ([v], l)
      | _ => none

/-- Members up to the closing brace, at least one, into the map. -/
def readMembers (floats : Floats) (strict : Bool) :
    Nat → Nat → List (String × Json) → List Char → Option (List (String × Json) × List Char)
  | 0, _, _, _ => none
  | fuel + 1, depth, members, l =>
    match l.dropWhile isWhite with
    | '"' :: l =>
      match readString l with
      | none => none
      | some (k, l) =>
        match l.dropWhile isWhite with
        | ':' :: l =>
          match read floats strict fuel depth l with
          | none => none
          | some (v, l) =>
            match l.dropWhile isWhite with
            | ',' :: l => readMembers floats strict fuel depth (insertMember (String.ofList k) v members) l
            | '}' :: l => some (insertMember (String.ofList k) v members, l)
            | _ => none
        | _ => none
    | _ => none

end

def maxNestingDepth : Nat := 10000

/-- `Unmarshal` into an `any`. Every value takes a character, so the length is fuel enough. -/
def decode (floats : Floats) (strict : Bool) (s : String) : Option Json :=
  match read floats strict (s.toList.length + 1) maxNestingDepth s.toList with
  | some (v, l) => if l.all isWhite then some v else none
  | none => none

/-! ### Values that were read -/

mutual

/-- Numbers have their shortest text, and members the order of their keys. -/
def Valid (floats : Floats) : Json → Prop
  | .num text => floats.shortest text = some text
  | .arr l => ValidElements floats l
  | .obj l => ValidMembers floats l ∧ (l.map Prod.fst).Pairwise (· < ·)
  | _ => True

def ValidElements (floats : Floats) : List Json → Prop
  | [] => True
  | v :: l => Valid floats v ∧ ValidElements floats l

def ValidMembers (floats : Floats) : List (String × Json) → Prop
  | [] => True
  | (_, v) :: l => Valid floats v ∧ ValidMembers floats l

end

mutual

def depth : Json → Nat
  | .arr l => depthElements l + 1
  | .obj l => depthMembers l + 1
  | _ => 0

def depthElements : List Json → Nat
  | [] => 0
  | v :: l => max (depth v) (depthElements l)

def depthMembers : List (String × Json) → Nat
  | [] => 0
  | (_, v) :: l => max (depth v) (depthMembers l)

end

mutual

def size : Json → Nat
  | .arr l => sizeElements l + 1
  | .obj l => sizeMembers l + 1
  | _ => 1

def sizeElements : List Json → Nat
  | [] => 0
  | v :: l => max (size v) (sizeElements l) + 1

def sizeMembers : List (String × Json) → Nat
  | [] => 0
  | (_, v) :: l => max (size v) (sizeMembers l) + 1

end

/-! ### Strings -/

variable {c : Char} {v : Json} {d fuel : Nat} {k : String} {members : List (String × Json)} {r l : List Char}

theorem readString_escape {e : Char} (hc : c ≠ 'u') (he : escapeValue c = some e) :
    readString ('\\' :: c :: l) = (readString l).map fun r => (e :: r.1, r.2) := by
  rw [readString]
  · simp [he]
  · simp [hc]

theorem readString_plain (hquote : c ≠ '"') (hslash : c ≠ '\\') (hcontrol : ¬c.toNat < 0x20) :
    readString (c :: l) = (readString l).map fun r => (c :: r.1, r.2) := by
  rw [readString]
  · simp [hslash, hcontrol]
  · simp [hquote]
  · simp [hslash]
  · simp [hslash]

theorem hexValue_hexDigit : ∀ n < 16, hexValue (hexDigit n) = some n := by decide

theorem readString_unicodeEscape {n : Nat} (hn : n < 0xd800) :
    readString (unicodeEscape n ++ l) = (readString l).map fun r => (Char.ofNat n :: r.1, r.2) := by
  have hunit : codeUnit (hexDigit (n / 4096 % 16)) (hexDigit (n / 256 % 16))
    (hexDigit (n / 16 % 16)) (hexDigit (n % 16)) =
      some n := by
    rw [codeUnit, hexValue_hexDigit _ (Nat.mod_lt _ (by omega)), hexValue_hexDigit _ (Nat.mod_lt _ (by omega)),
      hexValue_hexDigit _ (Nat.mod_lt _ (by omega)), hexValue_hexDigit _ (Nat.mod_lt _ (by omega))]
    simp only [Option.some.injEq]
    omega
  simp only [unicodeEscape, List.cons_append, List.nil_append]
  rw [readString]
  simp only [hunit]
  rw [if_neg (by omega)]

theorem readString_writeChar :
    readString (writeChar c ++ l) = (readString l).map fun r => (c :: r.1, r.2) := by
  unfold writeChar
  split_ifs with hquote hslash hb hf hn hr ht hescape
  · subst hquote
    exact readString_escape (by decide) (by decide)
  · subst hslash
    exact readString_escape (by decide) (by decide)
  · rw [← Char.ofNat_toNat c, hb]
    exact readString_escape (by decide) (by decide)
  · rw [← Char.ofNat_toNat c, hf]
    exact readString_escape (by decide) (by decide)
  · subst hn
    exact readString_escape (by decide) (by decide)
  · subst hr
    exact readString_escape (by decide) (by decide)
  · subst ht
    exact readString_escape (by decide) (by decide)
  · have hlow : c.toNat < 0xd800 := by
      obtain h | h := hescape
      · omega
      · simp only [escaped, List.contains_eq_mem, List.mem_cons, List.not_mem_nil, or_false, decide_eq_true_eq] at h
        omega
    rw [readString_unicodeEscape hlow, Char.ofNat_toNat]
  · push Not at hescape
    exact readString_plain hquote hslash (by omega)

theorem readString_writeString (s : String) :
    readString (s.toList.flatMap writeChar ++ '"' :: l) = some (s.toList, l) := by
  induction s.toList with
  | nil => rfl
  | cons c cs ih => rw [List.flatMap_cons, List.append_assoc, readString_writeChar, ih, Option.map_some]

/-! ### Round trip -/

variable {floats : Floats} {strict : Bool}

/-- What may come after a value: nothing that a number could go on with. -/
def Follows (l : List Char) : Prop := ∀ c ∈ l.head?, isNumberChar c = false

theorem follows_writeElements (l : List Json) (r : List Char) : Follows (writeElements l ++ r) := by
  cases l <;> simp [writeElements, Follows,
    show isNumberChar ',' = false by decide, show isNumberChar ']' = false by decide]

theorem follows_writeMembers (l : List (String × Json)) (r : List Char) : Follows (writeMembers l ++ r) := by
  cases l <;> simp [writeMembers, Follows,
    show isNumberChar ',' = false by decide, show isNumberChar '}' = false by decide]

def starts (c : Char) : Bool := isNumberChar c || ['n', 't', 'f', '"', '[', '{'].contains c

theorem ne_of_starts {c' : Char} (h : starts c = true) (h' : starts c' = false) : c ≠ c' := by
  rintro rfl
  rw [h] at h'
  cases h'

theorem exists_num {text : List Char} (h : floats.shortest text = some text) :
    ∃ c l, text = c :: l ∧ isNumberChar c = true := by
  obtain ⟨hnumber, hchars⟩ := floats.shortest_number _ _ h
  cases text with
  | nil => cases hnumber
  | cons c l => exact ⟨c, l, rfl, List.all_eq_true.1 hchars c List.mem_cons_self⟩

theorem exists_write (hv : Valid floats v) : ∃ c l, write v = c :: l ∧ starts c = true := by
  match v, hv with
  | .null, _ => exact ⟨'n', _, rfl, by decide⟩
  | .bool true, _ => exact ⟨'t', _, rfl, by decide⟩
  | .bool false, _ => exact ⟨'f', _, rfl, by decide⟩
  | .num text, hv =>
    obtain ⟨c, l, rfl, hc⟩ := exists_num (by simpa only [Valid] using hv)
    exact ⟨c, l, by rw [write], by simp [starts, hc]⟩
  | .str s, _ => exact ⟨'"', _, by rw [write]; rfl, by decide⟩
  | .arr [], _ => exact ⟨'[', _, rfl, by decide⟩
  | .arr (v :: l), _ => exact ⟨'[', _, by rw [write], by decide⟩
  | .obj [], _ => exact ⟨'{', _, rfl, by decide⟩
  | .obj (m :: l), _ => exact ⟨'{', _, by rw [write], by decide⟩

/-- A value is not preceded by white space, nor mistaken for a closing bracket. -/
theorem dropWhile_write (hv : Valid floats v) (r : List Char) :
    ∃ c l, write v ++ r = c :: l ∧ (write v ++ r).dropWhile isWhite = c :: l ∧ c ≠ ']' ∧ c ≠ '}' := by
  obtain ⟨c, l, hwrite, hc⟩ := exists_write hv
  have hwhite : isWhite c = false := by
    by_contra hne
    have hmem : c = ' ' ∨ c = '\t' ∨ c = '\r' ∨ c = '\n' := by
      simp only [isWhite, Bool.not_eq_false, Bool.or_eq_true, decide_eq_true_eq, or_assoc] at hne
      exact hne
    rcases hmem with rfl | rfl | rfl | rfl <;> exact absurd hc (by decide)
  refine ⟨c, l ++ r, by simp [hwrite], ?_, ne_of_starts hc (by decide), ne_of_starts hc (by decide)⟩
  rw [hwrite, List.cons_append, List.dropWhile_cons_of_neg (by simp [hwhite])]

def ReadBack (floats : Floats) (v : Json) : Prop :=
  ∀ strict fuel d r, size v ≤ fuel → depth v ≤ d → Follows r → read floats strict fuel d (write v ++ r) = some (v, r)

theorem readBack_num {text : List Char} (h : floats.shortest text = some text) : ReadBack floats (.num text) := by
  intro strict fuel d r hfuel _ hr
  obtain ⟨hnumber, hchars⟩ := floats.shortest_number _ _ h
  obtain ⟨c, l, rfl, hc⟩ := exists_num h
  obtain ⟨fuel, rfl⟩ : ∃ n, fuel = n + 1 := ⟨fuel - 1, by simp only [size] at hfuel; omega⟩
  have hne (c' : Char) (hc' : isNumberChar c' = false) : c ≠ c' := by
    rintro rfl
    simp [hc] at hc'
  have hwhite : isWhite c = false := by
    simp [isWhite, hne ' ' (by decide), hne '\t' (by decide), hne '\r' (by decide), hne '\n' (by decide)]
  have hrest : r.takeWhile isNumberChar = [] ∧ r.dropWhile isNumberChar = r := by
    cases r with
    | nil => exact ⟨rfl, rfl⟩
    | cons c' r =>
      have hc' : isNumberChar c' = false := hr c' rfl
      simp [hc']
  have hall : ∀ c' ∈ c :: l, isNumberChar c' = true := List.all_eq_true.1 hchars
  have htake : (c :: (l ++ r)).takeWhile isNumberChar = c :: l := by
    rw [← List.cons_append, List.takeWhile_append_of_pos hall, hrest.1, List.append_nil]
  have hdrop : (c :: (l ++ r)).dropWhile isNumberChar = r := by
    rw [← List.cons_append, List.dropWhile_append_of_pos hall, hrest.2]
  rw [write, List.cons_append, read, List.dropWhile_cons_of_neg (by simp [hwhite])]
  simp only [hne '{' (by decide), hne '[' (by decide), hne '"' (by decide), hne 't' (by decide), hne 'f' (by decide),
    hne 'n' (by decide), if_false, readNumber, htake, hdrop, hnumber, h, if_true]

theorem readElements_write {l : List Json} (hvalid : ValidElements floats (v :: l))
    (hback : ∀ v' ∈ v :: l, ReadBack floats v') (strict : Bool) (r : List Char)
    (hfuel : sizeElements (v :: l) ≤ fuel) (hdepth : depthElements (v :: l) ≤ d) :
    readElements floats strict fuel d (write v ++ (writeElements l ++ r)) = some (v :: l, r) := by
  induction l generalizing v fuel with simp only [sizeElements, depthElements] at hfuel hdepth
  | nil =>
    obtain _ | fuel := fuel
    · omega
    rw [readElements, hback v List.mem_cons_self strict fuel d _ (by omega) (by omega) (follows_writeElements [] r)]
    rfl
  | cons v' l ih =>
    obtain _ | fuel := fuel
    · omega
    have hfuel' : sizeElements (v' :: l) ≤ fuel := by
      simp only [sizeElements]
      omega
    have hdepth' : depthElements (v' :: l) ≤ d := by
      simp only [depthElements]
      omega
    have hrest := ih hvalid.2 (fun w hw => hback w (List.mem_cons_of_mem _ hw)) hfuel' hdepth'
    rw [readElements, hback v List.mem_cons_self strict fuel d _ (by omega) (by omega)
      (follows_writeElements (v' :: l) r),
      writeElements, List.cons_append, List.append_assoc]
    simp only [List.dropWhile_cons_of_neg (show ¬isWhite ',' = true by decide), hrest, Option.map_some]

/-- A member whose key is greater than those before comes last. -/
theorem insertMember_last (h : ∀ m ∈ members, m.1 < k) :
    insertMember k v members = members ++ [(k, v)] := by
  induction members with
  | nil => rfl
  | cons m members ih =>
    have hm := h m List.mem_cons_self
    rw [insertMember, if_neg (String.lt_asymm hm), if_neg (String.ne_of_lt hm).symm,
      ih fun m hm => h m (List.mem_cons_of_mem _ hm)]
    rfl

/-- The first member is read and put last. -/
theorem readMembers_member (hback : ReadBack floats v)
    (hlast : ∀ m ∈ members, m.1 < k) (hfuel : size v ≤ fuel) (hdepth : depth v ≤ d)
    (hr : Follows r) :
    readMembers floats strict (fuel + 1) d members (writeString k ++ ':' :: (write v ++ r)) =
      match r.dropWhile isWhite with
      | ',' :: l => readMembers floats strict fuel d (members ++ [(k, v)]) l
      | '}' :: l => some (members ++ [(k, v)], l)
      | _ => none := by
  rw [readMembers, writeString, List.cons_append, List.dropWhile_cons_of_neg (by decide)]
  simp only [List.append_assoc, List.cons_append, List.nil_append, readString_writeString,
    List.dropWhile_cons_of_neg (show ¬isWhite ':' = true by decide), String.ofList_toList]
  rw [hback strict fuel d r hfuel hdepth hr]
  simp only [insertMember_last hlast]

theorem lt_of_sorted {l : List (String × Json)} (h : ((members ++ (k, v) :: l).map Prod.fst).Pairwise (· < ·)) :
    ∀ m ∈ members, m.1 < k := by
  intro m hm
  rw [List.map_append, List.pairwise_append] at h
  exact h.2.2 m.1 (List.mem_map_of_mem hm) k (by simp)

theorem readMembers_write {l : List (String × Json)} (hback : ∀ m ∈ (k, v) :: l, ReadBack floats m.2)
    (hsorted : ((members ++ (k, v) :: l).map Prod.fst).Pairwise (· < ·)) (strict : Bool)
    (r : List Char) (hfuel : sizeMembers ((k, v) :: l) ≤ fuel) (hdepth : depthMembers ((k, v) :: l) ≤ d) :
    readMembers floats strict fuel d members (writeString k ++ ':' :: (write v ++ (writeMembers l ++ r))) =
      some (members ++ (k, v) :: l, r) := by
  induction l generalizing k v fuel members with
  | nil =>
    simp only [sizeMembers, depthMembers] at hfuel hdepth
    obtain _ | fuel := fuel
    · omega
    have hlast := lt_of_sorted hsorted
    have hv : ReadBack floats v := hback (k, v) List.mem_cons_self
    rw [readMembers_member hv hlast (by omega) (by omega) (follows_writeMembers [] r)]
    rfl
  | cons m l ih =>
    obtain ⟨k', v'⟩ := m
    simp only [sizeMembers, depthMembers] at hfuel hdepth
    obtain _ | fuel := fuel
    · omega
    have hlast := lt_of_sorted hsorted
    have hsorted' : ((members ++ [(k, v)] ++ (k', v') :: l).map Prod.fst).Pairwise (· < ·) := by simpa using hsorted
    have hfuel' : sizeMembers ((k', v') :: l) ≤ fuel := by
      simp only [sizeMembers]
      omega
    have hdepth' : depthMembers ((k', v') :: l) ≤ d := by
      simp only [depthMembers]
      omega
    have hrest := ih (fun m hm => hback m (List.mem_cons_of_mem _ hm)) hsorted' hfuel' hdepth'
    have hv : ReadBack floats v := hback (k, v) List.mem_cons_self
    rw [readMembers_member hv hlast (by omega) (by omega) (follows_writeMembers _ r), writeMembers, List.cons_append,
      List.append_assoc, List.cons_append, List.append_assoc, List.dropWhile_cons_of_neg (by decide)]
    exact hrest.trans (by simp)

mutual

theorem readBack : ∀ v, Valid floats v → ReadBack floats v
  | .null, _ => by
    intro strict fuel d r hfuel _ _
    obtain ⟨fuel, rfl⟩ : ∃ n, fuel = n + 1 := ⟨fuel - 1, by simp only [size] at hfuel; omega⟩
    rfl
  | .bool true, _ => by
    intro strict fuel d r hfuel _ _
    obtain ⟨fuel, rfl⟩ : ∃ n, fuel = n + 1 := ⟨fuel - 1, by simp only [size] at hfuel; omega⟩
    rfl
  | .bool false, _ => by
    intro strict fuel d r hfuel _ _
    obtain ⟨fuel, rfl⟩ : ∃ n, fuel = n + 1 := ⟨fuel - 1, by simp only [size] at hfuel; omega⟩
    rfl
  | .num text, hv => readBack_num (by simpa only [Valid] using hv)
  | .str s, _ => by
    intro strict fuel d r hfuel _ _
    obtain ⟨fuel, rfl⟩ : ∃ n, fuel = n + 1 := ⟨fuel - 1, by simp only [size] at hfuel; omega⟩
    rw [write, writeString, List.cons_append, List.append_assoc, List.singleton_append, read,
      List.dropWhile_cons_of_neg (by decide)]
    simp [readString_writeString]
  | .arr [], _ => by
    intro strict fuel d r hfuel hdepth _
    simp only [size, depth, sizeElements, depthElements] at hfuel hdepth
    obtain _ | fuel := fuel
    · omega
    obtain _ | d := d
    · omega
    rfl
  | .arr (v :: l), hv => by
    intro strict fuel d r hfuel hdepth _
    simp only [Valid] at hv
    simp only [size, depth] at hfuel hdepth
    obtain _ | fuel := fuel
    · omega
    obtain _ | d := d
    · omega
    have hread := readElements_write hv (readBackElements (v :: l) hv) strict r (by omega : _ ≤ fuel) (by omega : _ ≤ d)
    simp only [ValidElements] at hv
    obtain ⟨c, l', hcons, hdrop, hbracket, -⟩ := dropWhile_write hv.1 (writeElements l ++ r)
    rw [write, List.cons_append, List.append_assoc, read, List.dropWhile_cons_of_neg (by decide)]
    simp only [show ¬ '[' = '{' by decide, if_false, if_true, hdrop]
    split
    · rename_i heq
      exact absurd (List.cons.inj heq).1 hbracket
    · rw [← hcons, hread]
      rfl
  | .obj [], _ => by
    intro strict fuel d r hfuel hdepth _
    simp only [size, depth, sizeMembers, depthMembers] at hfuel hdepth
    obtain _ | fuel := fuel
    · omega
    obtain _ | d := d
    · omega
    rfl
  | .obj ((k, v) :: l), hv => by
    intro strict fuel d r hfuel hdepth _
    simp only [Valid] at hv
    simp only [size, depth] at hfuel hdepth
    obtain _ | fuel := fuel
    · omega
    obtain _ | d := d
    · omega
    have hsorted : (([] ++ (k, v) :: l).map Prod.fst).Pairwise (· < ·) := hv.2
    have hread := readMembers_write (readBackMembers ((k, v) :: l) hv.1) hsorted strict r (by omega : _ ≤ fuel)
      (by omega : _ ≤ d)
    rw [write, List.cons_append, List.append_assoc, List.cons_append, List.append_assoc, read,
      List.dropWhile_cons_of_neg (by decide)]
    rw [writeString, List.cons_append] at hread ⊢
    simp only [if_true, List.dropWhile_cons_of_neg (show ¬isWhite '"' = true by decide)]
    split
    · rename_i heq
      exact absurd (List.cons.inj heq).1 (by decide)
    · rw [hread]
      rfl

theorem readBackElements : ∀ l, ValidElements floats l → ∀ v ∈ l, ReadBack floats v
  | [], _ => by simp
  | v :: l, h => by
    simp only [ValidElements] at h
    exact List.forall_mem_cons.2 ⟨readBack v h.1, readBackElements l h.2⟩

theorem readBackMembers : ∀ l, ValidMembers floats l → ∀ m ∈ l, ReadBack floats m.2
  | [], _ => by simp
  | (_, v) :: l, h => by
    simp only [ValidMembers] at h
    exact List.forall_mem_cons.2 ⟨readBack v h.1, readBackMembers l h.2⟩

end

mutual

theorem size_le : ∀ v, Valid floats v → size v ≤ (write v).length
  | .null, _ => by simp [size, write]
  | .bool true, _ => by simp [size, write]
  | .bool false, _ => by simp [size, write]
  | .num text, hv => by
    obtain ⟨c, l, rfl, -⟩ := exists_num (by simpa only [Valid] using hv)
    simp [size, write]
  | .str s, _ => by simp [size, write, writeString]
  | .arr [], _ => by simp [size, write, sizeElements]
  | .arr (v :: l), hv => by
    simp only [Valid, ValidElements] at hv
    have hhead := size_le v hv.1
    have htail := sizeElements_le l hv.2
    simp only [size, sizeElements, write, List.length_cons, List.length_append]
    omega
  | .obj [], _ => by simp [size, write, sizeMembers]
  | .obj ((k, v) :: l), hv => by
    simp only [Valid, ValidMembers] at hv
    have hhead := size_le v hv.1.1
    have htail := sizeMembers_le l hv.1.2
    simp only [size, sizeMembers, write, List.length_cons, List.length_append]
    omega

theorem sizeElements_le : ∀ l, ValidElements floats l → sizeElements l + 1 ≤ (writeElements l).length
  | [], _ => by simp [sizeElements, writeElements]
  | v :: l, hl => by
    simp only [ValidElements] at hl
    have hhead := size_le v hl.1
    have htail := sizeElements_le l hl.2
    simp only [sizeElements, writeElements, List.length_cons, List.length_append]
    omega

theorem sizeMembers_le : ∀ l, ValidMembers floats l → sizeMembers l + 1 ≤ (writeMembers l).length
  | [], _ => by simp [sizeMembers, writeMembers]
  | (k, v) :: l, hl => by
    simp only [ValidMembers] at hl
    have hhead := size_le v hl.1
    have htail := sizeMembers_le l hl.2
    simp only [sizeMembers, writeMembers, List.length_cons, List.length_append]
    omega

end

/-! ### What reading produces -/

structure GoodMembers (floats : Floats) (d : Nat) (members : List (String × Json)) : Prop where
  valid : ValidMembers floats members
  sorted : (members.map Prod.fst).Pairwise (· < ·)
  depth_le : depthMembers members ≤ d

theorem GoodMembers.nil : GoodMembers floats d [] := ⟨trivial, List.Pairwise.nil, Nat.zero_le _⟩

theorem mem_insertMember {k' : String}
    (h : k' ∈ (insertMember k v members).map Prod.fst) : k' = k ∨ k' ∈ members.map Prod.fst := by
  induction members with
  | nil => simpa [insertMember] using h
  | cons m members ih =>
    obtain ⟨k₀, v₀⟩ := m
    rw [insertMember] at h
    split_ifs at h with hlt heq
    · simpa using h
    · simp only [List.map_cons, List.mem_cons] at h ⊢
      tauto
    · simp only [List.map_cons, List.mem_cons] at h ⊢
      tauto

theorem GoodMembers.insertMember
    (h : GoodMembers floats d members) (hv : Valid floats v) (hdepth : depth v ≤ d) :
    GoodMembers floats d (insertMember k v members) := by
  induction members with
  | nil => exact ⟨⟨hv, trivial⟩, by simp [Json.insertMember], by simpa [Json.insertMember, depthMembers] using hdepth⟩
  | cons m members ih =>
    obtain ⟨k₀, v₀⟩ := m
    obtain ⟨hvalid, hsorted, hmax⟩ := h
    simp only [ValidMembers, depthMembers, List.map_cons, List.pairwise_cons] at hvalid hsorted hmax
    have hrest := ih ⟨hvalid.2, hsorted.2, by omega⟩
    rw [Json.insertMember]
    split_ifs with hlt heq
    · refine ⟨⟨hv, hvalid⟩, ?_, by simp only [depthMembers]; omega⟩
      simp only [List.map_cons, List.pairwise_cons, List.mem_cons, forall_eq_or_imp]
      exact ⟨⟨hlt, fun k' hk' => String.lt_trans hlt (hsorted.1 k' hk')⟩, hsorted⟩
    · refine ⟨⟨hv, hvalid.2⟩, ?_, by simp only [depthMembers]; omega⟩
      rw [heq]
      exact List.pairwise_cons.2 hsorted
    · refine ⟨⟨hvalid.1, hrest.valid⟩, ?_, by have := hrest.depth_le; simp only [depthMembers]; omega⟩
      refine List.pairwise_cons.2 ⟨fun k' hk' => ?_, hrest.sorted⟩
      obtain rfl | hk' := mem_insertMember hk'
      · by_contra hnot
        exact heq (String.le_antisymm (String.not_lt.1 hnot) (String.not_lt.1 hlt))
      · exact hsorted.1 k' hk'

/-- What a reading of any kind with the given fuel produces. -/
structure ReadsGood (floats : Floats) (strict : Bool) (fuel : Nat) : Prop where
  value : ∀ {d l v r}, read floats strict fuel d l = some (v, r) → Valid floats v ∧ depth v ≤ d
  elements : ∀ {d l vs r}, readElements floats strict fuel d l = some (vs, r) →
    ValidElements floats vs ∧ depthElements vs ≤ d
  members : ∀ {d ms l ms' r}, GoodMembers floats d ms → readMembers floats strict fuel d ms l = some (ms', r) →
    GoodMembers floats d ms'

theorem readWord_eq_some {word : List Char} {v' : Json} (h : readWord word v l = some (v', r)) : v' = v := by
  unfold readWord at h
  split_ifs at h
  cases h
  rfl

theorem readNumber_eq_some (h : readNumber floats strict l = some (v, r)) :
    Valid floats v ∧ depth v = 0 := by
  unfold readNumber at h
  dsimp only at h
  split at h
  · split at h
    · rename_i text htext
      cases h
      exact ⟨by simpa only [Valid] using floats.shortest_shortest _ _ htext, by simp [depth]⟩
    · split at h <;> cases h
      · exact ⟨by simp [Valid], by simp [depth]⟩
  · cases h

theorem read_good (ih : ReadsGood floats strict fuel)
    (h : read floats strict (fuel + 1) d l = some (v, r)) : Valid floats v ∧ depth v ≤ d := by
  rw [read] at h
  split at h
  · cases h
  split at h
  · split at h
    · cases h
    · split at h
      · cases h
        exact ⟨by simp [Valid, ValidMembers], by simp [depth, depthMembers]⟩
      · obtain ⟨⟨ms, r'⟩, hms, heq⟩ := Option.map_eq_some_iff.1 h
        cases heq
        have hgood := ih.members (GoodMembers.nil) hms
        have hdepth := hgood.depth_le
        exact ⟨by simpa only [Valid] using ⟨hgood.valid, hgood.sorted⟩, by simp only [depth]; omega⟩
  split at h
  · split at h
    · cases h
    · split at h
      · cases h
        exact ⟨by simp [Valid, ValidElements], by simp [depth, depthElements]⟩
      · obtain ⟨⟨vs, r'⟩, hvs, heq⟩ := Option.map_eq_some_iff.1 h
        cases heq
        obtain ⟨hvalid, hdepth⟩ := ih.elements hvs
        exact ⟨by simpa only [Valid] using hvalid, by simp only [depth]; omega⟩
  split at h
  · obtain ⟨r', -, heq⟩ := Option.map_eq_some_iff.1 h
    cases heq
    exact ⟨by simp [Valid], by simp [depth]⟩
  split at h
  · rw [readWord_eq_some h]
    exact ⟨by simp [Valid], by simp [depth]⟩
  split at h
  · rw [readWord_eq_some h]
    exact ⟨by simp [Valid], by simp [depth]⟩
  split at h
  · rw [readWord_eq_some h]
    exact ⟨by simp [Valid], by simp [depth]⟩
  · obtain ⟨hvalid, hdepth⟩ := readNumber_eq_some h
    exact ⟨hvalid, by omega⟩

theorem readElements_good (ih : ReadsGood floats strict fuel) {vs : List Json}
    (h : readElements floats strict (fuel + 1) d l = some (vs, r)) : ValidElements floats vs ∧
      depthElements vs ≤ d := by
  rw [readElements] at h
  split at h
  · cases h
  rename_i v l' hv
  obtain ⟨hvalid, hdepth⟩ := ih.value hv
  split at h
  · obtain ⟨⟨vs', r'⟩, hvs, heq⟩ := Option.map_eq_some_iff.1 h
    cases heq
    obtain ⟨hvalids, hdepths⟩ := ih.elements hvs
    exact ⟨⟨hvalid, hvalids⟩, by simp only [depthElements]; omega⟩
  · cases h
    exact ⟨⟨hvalid, trivial⟩, by simp only [depthElements]; omega⟩
  · cases h

theorem readMembers_good (ih : ReadsGood floats strict fuel) {ms ms' : List (String × Json)}
    (hms : GoodMembers floats d ms)
    (h : readMembers floats strict (fuel + 1) d ms l = some (ms', r)) : GoodMembers floats
    d ms' := by
  rw [readMembers] at h
  split at h
  · split at h
    · cases h
    split at h
    · split at h
      · cases h
      rename_i v l' hv
      obtain ⟨hvalid, hdepth⟩ := ih.value hv
      split at h
      · exact ih.members (hms.insertMember hvalid hdepth) h
      · cases h
        exact hms.insertMember hvalid hdepth
      · cases h
    · cases h
  · cases h

theorem readsGood : ReadsGood floats strict fuel := by
  induction fuel with
  | zero =>
    refine ⟨fun h => ?_, fun h => ?_, fun _ h => ?_⟩
    · rw [read] at h
      cases h
    · rw [readElements] at h
      cases h
    · rw [readMembers] at h
      cases h
  | succ fuel ih => exact ⟨read_good ih, readElements_good ih, readMembers_good ih⟩

def Decoded (floats : Floats) (v : Json) : Prop := ∃ strict s, decode floats strict s = some v

theorem Decoded.valid (h : Decoded floats v) : Valid floats v ∧ depth v ≤ maxNestingDepth := by
  obtain ⟨strict, s, hs⟩ := h
  unfold decode at hs
  split at hs
  · rename_i v' l hread
    split_ifs at hs
    cases hs
    exact readsGood.value hread
  · cases hs

theorem decode_encode_of_valid (hvalid : Valid floats v) (hdepth : depth v ≤ maxNestingDepth) (strict : Bool) :
    decode floats strict (encode v) = some v := by
  have hsize := size_le v hvalid
  have hread := readBack v hvalid strict ((write v).length + 1) maxNestingDepth [] (by omega) hdepth nofun
  rw [List.append_nil] at hread
  rw [decode, encode, String.toList_ofList, hread]
  rfl

theorem Decoded.of_valid (hvalid : Valid floats v) (hdepth : depth v ≤ maxNestingDepth) : Decoded floats v :=
  ⟨true, encode v, decode_encode_of_valid hvalid hdepth true⟩

/-- What was read once is written and read again without a change. -/
theorem decode_encode (h : Decoded floats v) (strict : Bool) : decode floats strict (encode v) = some v :=
  decode_encode_of_valid h.valid.1 h.valid.2 strict

end Json

end TokenEra.Lib
