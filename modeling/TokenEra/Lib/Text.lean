import Mathlib.Data.List.DropRight
import Mathlib.Tactic

/-!
# Go's string helpers

`trimSpace` and `contains` are `strings.TrimSpace` and `strings.Contains` on valid UTF-8. `toLower`
is `strings.ToLower` and `toUpper` is `strings.ToUpper` as far as a comparison with an ASCII text
can tell. `sliceFrom` is `s[n:]`, in bytes, and `cutText` is `strings.Cut`. `join_eq_of_mem` and
`join_eq_last_iff` are about concatenations.
-/

namespace TokenEra.Lib

/-- `unicode.IsSpace`. -/
def isSpace (c : Char) : Bool :=
  c.toNat ∈ [0x09, 0x0a, 0x0b, 0x0c, 0x0d, 0x20, 0x85, 0xa0, 0x1680, 0x2028, 0x2029, 0x202f, 0x205f,
    0x3000] || (0x2000 ≤ c.toNat && c.toNat ≤ 0x200a)

def trimSpace (s : String) : String :=
  String.ofList ((s.toList.dropWhile isSpace).reverse.dropWhile isSpace).reverse

def contains (s sub : String) : Bool := decide (sub.toList <:+: s.toList)

/-- The letters whose lower case is ASCII: besides `A` to `Z`, the Kelvin sign and the dotted
capital I. -/
def lowerChar (c : Char) : Char :=
  if c.toNat = 0x212a then 'k' else if c.toNat = 0x130 then 'i' else c.toLower

def toLower (s : String) : String := String.ofList (s.toList.map lowerChar)

/-- The letters whose upper case is ASCII: besides `a` to `z`, the long s and the dotless i. -/
def upperChar (c : Char) : Char :=
  if c.toNat = 0x17f then 'S' else if c.toNat = 0x131 then 'I' else c.toUpper

def toUpper (s : String) : String := String.ofList (s.toList.map upperChar)

def hasStart (start s : String) : Bool := decide (start.toList <+: s.toList)

/-- `strings.TrimPrefix`. -/
def cutStart (start s : String) : String :=
  if hasStart start s then String.ofList (s.toList.drop start.length) else s

def hasTail (tail s : String) : Bool := decide (tail.toList <:+ s.toList)

/-- `strings.TrimSuffix`. -/
def cutTail (tail s : String) : String :=
  if hasTail tail s then String.ofList (s.toList.take (s.length - tail.length)) else s

/-- What is before and after the first place where `sep` stands. -/
def cutChars (sep : List Char) : List Char → Option (List Char × List Char)
  | [] => if sep = [] then some ([], []) else none
  | c :: l =>
    if sep <+: c :: l then some ([], (c :: l).drop sep.length)
    else (cutChars sep l).map fun cut => (c :: cut.1, cut.2)

/-- `strings.Cut`. -/
def cutText (sep s : String) : Option (String × String) :=
  (cutChars sep.toList s.toList).map fun cut => (String.ofList cut.1, String.ofList cut.2)

variable {after before l sep : List Char} {s : String}

theorem cutChars_eq_some (h : cutChars sep l = some (before, after)) :
    l = before ++ sep ++ after := by
  induction l generalizing before with rw [cutChars] at h
  | nil =>
    split_ifs at h with hsep
    cases h
    simp [hsep]
  | cons c l ih =>
    split_ifs at h with hsep
    · cases h
      obtain ⟨rest, hrest⟩ := hsep
      simp [← hrest]
    · obtain ⟨⟨x, y⟩, hcut, hxy⟩ := Option.map_eq_some_iff.1 h
      cases hxy
      rw [ih hcut]
      simp

theorem length_le_of_cutChars {a b : List Char} (h : cutChars sep l = some (before, after))
    (hab : l = a ++ sep ++ b) : before.length ≤ a.length := by
  induction l generalizing before a with rw [cutChars] at h
  | nil =>
    split_ifs at h with hsep
    cases h
    exact Nat.zero_le _
  | cons c l ih =>
    split_ifs at h with hsep
    · cases h
      exact Nat.zero_le _
    · obtain ⟨⟨x, y⟩, hcut, hxy⟩ := Option.map_eq_some_iff.1 h
      cases hxy
      cases a with
      | nil => exact absurd ⟨b, by simpa using hab.symm⟩ hsep
      | cons d a =>
        obtain ⟨-, hl⟩ := List.cons.inj hab
        exact Nat.succ_le_succ (ih hcut hl)

theorem suffix_of_cutChars {a b : List Char} (h : cutChars sep l = some (before, after))
    (hab : l = a ++ sep ++ b) : b <:+ after := by
  have hfirst := length_le_of_cutChars h hab
  have hl := cutChars_eq_some h
  refine List.suffix_of_suffix_length_le ⟨a ++ sep, hab.symm⟩ ⟨before ++ sep, hl.symm⟩ ?_
  have hlength := congrArg List.length (hab.symm.trans hl)
  simp only [List.length_append] at hlength
  omega

theorem not_infix_of_cutChars (hsep : sep ≠ []) (h : cutChars sep l = some (before, after)) :
    ¬sep <:+: before := by
  rintro ⟨a, b, rfl⟩
  have hfirst := length_le_of_cutChars h (a := a) (b := b ++ sep ++ after) (by simp [cutChars_eq_some h])
  have hpos := List.length_pos_of_ne_nil hsep
  simp only [List.length_append] at hfirst
  omega

theorem cutChars_eq_none (h : cutChars sep l = none) : ¬sep <:+: l := by
  induction l with rw [cutChars] at h
  | nil =>
    split_ifs at h with hsep
    simpa using hsep
  | cons c l ih =>
    split_ifs at h with hsep
    rw [List.infix_cons_iff, not_or]
    exact ⟨hsep, ih (Option.map_eq_none_iff.1 h)⟩

/-- A text is cut where the separator stands, if its first two characters do not stand in this order
before. -/
theorem cutChars_append {x y : Char} (sep : List Char) (hxy : y ≠ x) (h : ¬[x, y] <:+: before)
    (after : List Char) :
    cutChars (x :: y :: sep) (before ++ (x :: y :: sep) ++ after) = some (before, after) := by
  induction before with
  | nil =>
    have hstart : x :: y :: sep <+: x :: y :: (sep ++ after) := ⟨after, by simp⟩
    simp only [List.nil_append, List.cons_append, cutChars]
    rw [if_pos hstart]
    simp
  | cons c before ih =>
    rw [List.infix_cons_iff, not_or] at h
    have hstart : ¬x :: y :: sep <+: c :: (before ++ (x :: y :: sep) ++ after) := by
      rintro ⟨rest, hrest⟩
      rw [List.cons_append] at hrest
      obtain ⟨hc, htail⟩ := List.cons.inj hrest
      cases before with
      | nil => exact hxy (List.cons.inj htail).1
      | cons d before =>
        obtain ⟨hd, -⟩ := List.cons.inj htail
        exact h.1 ⟨before, by simp [hc, hd]⟩
    simp only [List.cons_append] at hstart ⊢
    rw [cutChars, if_neg hstart]
    simp only [List.cons_append, List.append_assoc] at ih ⊢
    rw [ih h.2]
    rfl

theorem cutChars_singleton {x : Char} (h : x ∉ before) (after : List Char) :
    cutChars [x] (before ++ x :: after) = some (before, after) := by
  induction before with
  | nil => simp [cutChars]
  | cons c before ih =>
    rw [List.mem_cons, not_or] at h
    have hstart : ¬[x] <+: c :: (before ++ x :: after) := by
      rintro ⟨rest, hrest⟩
      exact h.1 (List.cons.inj hrest).1
    rw [List.cons_append, cutChars, if_neg hstart, ih h.2]
    rfl

/-- A member of a list is a separator or in one of the pieces. -/
theorem mem_splitOn {A : Type*} [DecidableEq A] {a x : A} {l : List A} (h : x ∈ l) :
    x = a ∨ ∃ piece ∈ l.splitOn a, x ∈ piece := by
  induction l with
  | nil => exact absurd h List.not_mem_nil
  | cons y l ih =>
    obtain ⟨p, ps, hsplit⟩ := List.exists_cons_of_ne_nil (List.splitOn_ne_nil a l)
    rw [List.splitOn_cons_eq_if_modifyHead, hsplit]
    rw [hsplit] at ih
    rcases List.mem_cons.1 h with rfl | hmem
    · by_cases hxa : x = a
      · exact .inl hxa
      · exact .inr ⟨x :: p, by simp [hxa], List.mem_cons_self⟩
    · rcases ih hmem with rfl | ⟨piece, hpiece, hx⟩
      · exact .inl rfl
      · right
        by_cases hya : y = a
        · exact ⟨piece, by simpa [hya] using .inr (List.mem_cons.1 hpiece), hx⟩
        · rcases List.mem_cons.1 hpiece with rfl | hrest
          · exact ⟨y :: piece, by simp [hya], List.mem_cons_of_mem y hx⟩
          · exact ⟨piece, by simp [hya, hrest], hx⟩

theorem isSpace_eq_false {c : Char} (hlow : 0x20 < c.toNat) (hhigh : c.toNat < 0x85) : isSpace c = false := by
  have hne (n : Nat) (hn : n ≤ 0x20 ∨ 0x85 ≤ n) : c.toNat ≠ n := by omega
  simp [isSpace, hne]
  omega

theorem trimSpace_eq_self (h : ∀ c ∈ s.toList, isSpace c = false) : trimSpace s = s := by
  have hdrop (l : List Char) (hl : ∀ c ∈ l, isSpace c = false) : l.dropWhile isSpace = l := by
    cases l with
    | nil => rfl
    | cons c l => simp [hl c List.mem_cons_self]
  rw [trimSpace, hdrop _ h, hdrop _ fun c hc => h c (List.mem_reverse.1 hc), List.reverse_reverse, String.ofList_toList]

theorem trimSpace_trimSpace (s : String) : trimSpace (trimSpace s) = trimSpace s := by
  have htrim : ∀ s, trimSpace s = String.ofList ((s.toList.dropWhile isSpace).rdropWhile isSpace) := fun _ => rfl
  rw [htrim, htrim, String.toList_ofList]
  set l := (s.toList.dropWhile isSpace).rdropWhile isSpace with hl
  -- no space is left at the front
  have hfront : l.dropWhile isSpace = l := by
    rw [List.dropWhile_eq_self_iff]
    intro hpos
    have hprefix : l <+: s.toList.dropWhile isSpace := List.rdropWhile_prefix ..
    have hpos' : 0 < (s.toList.dropWhile isSpace).length := hpos.trans_le hprefix.length_le
    have hhead := List.dropWhile_get_zero_not isSpace s.toList hpos'
    rwa [List.get_eq_getElem, ← hprefix.getElem hpos] at hhead
  rw [hfront, hl, List.rdropWhile_idempotent]

theorem trimSpace_eq_empty : trimSpace s = "" ↔ ∀ c ∈ s.toList, isSpace c = true := by
  have hempty (l : List Char) : String.ofList l = "" ↔ l = [] := by
    rw [← String.toList_inj, String.toList_ofList]
    rfl
  have htrim : trimSpace s = String.ofList ((s.toList.dropWhile isSpace).rdropWhile isSpace) := rfl
  rw [htrim, hempty, List.rdropWhile_eq_nil_iff]
  constructor
  · intro h
    rw [← List.dropWhile_eq_nil_iff]
    -- the first character that stays is no space
    by_contra hne
    have hhead := List.head_dropWhile_not isSpace hne
    rw [h _ (List.head_mem hne)] at hhead
    cases hhead
  · intro h c hc
    exact h c ((List.dropWhile_sublist isSpace).subset hc)

theorem trimSpace_append_ne_empty (h : trimSpace s ≠ "") (t : String) : trimSpace (s ++ t) ≠ "" := by
  rw [Ne, trimSpace_eq_empty] at h ⊢
  intro hall
  exact h fun c hc => hall c (by rw [String.toList_append]; exact List.mem_append_left _ hc)

theorem join_eq_empty {l : List String} : String.join l = "" ↔ ∀ s ∈ l, s = "" := by
  induction l with
  | nil => simp
  | cons s l ih => simp [ih]

def firstNonempty (l : List String) : String := (l.find? (· ≠ "")).getD ""

/-- Where at most one text is not empty, it is the concatenation. -/
theorem join_eq_of_mem {l : List String} (h : l.Pairwise fun a b => a = "" ∨ b = "") (hs : s ∈ l)
    (hne : s ≠ "") : String.join l = s := by
  induction l with
  | nil => exact absurd hs List.not_mem_nil
  | cons t l ih =>
    obtain ⟨ht, hl⟩ := List.pairwise_cons.1 h
    rw [String.join_cons]
    rcases List.mem_cons.1 hs with rfl | hmem
    · have hempty : ∀ b ∈ l, b = "" := fun b hb => (ht b hb).resolve_left hne
      rw [join_eq_empty.2 hempty, String.append_empty]
    · rw [(ht s hmem).resolve_right hne, String.empty_append, ih hl hmem]

/-- A concatenation is its last text exactly if the others are empty. -/
theorem join_eq_last_iff {l : List String} : String.join l = l.getLast?.getD "" ↔ ∀ s ∈ l.dropLast, s = "" := by
  induction l using List.reverseRecOn with
  | nil => simp
  | append_singleton l s => simp [← join_eq_empty]

theorem toString_nat_injective : Function.Injective (toString : Nat → String) := by
  intro m n h
  have hdigits := congrArg (fun s => Nat.ofDigitChars 10 s.toList 0) h
  simpa only [Nat.toString_eq_ofList_toDigits, String.toList_ofList, Nat.ofDigitChars_ten_toDigits]
    using hdigits

theorem toString_int_injective : Function.Injective (toString : Int → String) := by
  have hsign (m n : Nat) : toString (Int.ofNat m) ≠ toString (Int.negSucc n) := by
    intro h
    replace h : toString m = "-" ++ toString (n + 1) := h
    have hminus : '-' ∈ (toString m).toList := by simp [h]
    rw [Nat.toString_eq_ofList_toDigits, String.toList_ofList] at hminus
    exact absurd (Nat.isDigit_of_mem_toDigits (by decide) (by decide) hminus) (by decide)
  rintro (m | m) (n | n) h
  · exact congrArg Int.ofNat (toString_nat_injective h)
  · exact absurd h (hsign m n)
  · exact absurd h.symm (hsign n m)
  · have hsucc := toString_nat_injective ((String.append_right_inj "-").1 h)
    exact congrArg Int.negSucc (Nat.succ_injective hsucc)

example : trimSpace " daily\t" = "daily" ∧ trimSpace " \n" = "" := by decide

example : contains "no active subscription" "active" = true := by decide

end TokenEra.Lib
