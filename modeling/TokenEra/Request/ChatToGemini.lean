import TokenEra.Lib.Loss
import TokenEra.Lib.Text
import TokenEra.Request.Message

/-!
# From chat to Gemini

The parts that `OpenAIChatRequestToGeminiGenerateContent` makes of a user or assistant message. A
text with markdown images whose URLs are `data:` URLs is cut up: from the first `![` to the
parenthesis that closes the next `](data:` goes an inline part, what stands before becomes a text
part, and the search goes on behind. If something was cut, what is left at the end is dropped; and
whatever stands between the first `![` and the `](data:` goes with the image.
-/

namespace TokenEra.Request.ChatToGemini

open Lib

/-! ### Data URLs -/

/-- `DecodeBase64FileData`: the type and the data. `decodeImage` is `DecodeBase64ImageData`, which
looks at the image. -/
def decodeBase64FileData (decodeImage : List Char → Option (String × String)) (url : List Char) :
    Option (String × String) :=
  let image (data : List Char) := (decodeImage data).map fun r => ("image/" ++ r.1, r.2)
  match cutChars [','] url with
  | none => image url
  | some (mimeType, data) =>
    match cutChars [';'] mimeType with
    | none => image data
    | some (mimeType, _) =>
      match cutChars [':'] mimeType with
      | none => image data
      | some (_, mimeType) => some (String.ofList mimeType, String.ofList data)

/-! ### Cutting a text -/

/-- An image as it was found: the text before it, the text from its `![` to its `](`, its URL, and
the text after it. -/
structure Cut where
  before : List Char
  opened : List Char
  url : List Char
  after : List Char

def opening : List Char := ['!', '[']

def dataStart : List Char := ['d', 'a', 't', 'a', ':']

def findImage (text : List Char) : Option Cut :=
  match cutChars opening text with
  | none => none
  | some (before, rest) =>
    match cutChars (']' :: '(' :: dataStart) (opening ++ rest) with
    | none => none
    | some (opened, rest) =>
      match cutChars [')'] (dataStart ++ rest) with
      | none => none
      | some (url, after) => some ⟨before, opened, url, after⟩

/-- A part. An inline part remembers what it was cut from; that is not sent. -/
inductive Part
  | text (s : List Char)
  | inlineData (mimeType data : String) (cut : Cut)
  | functionCall (name : String) (args : Json)

variable (decodeImage : List Char → Option (String × String))

/-- The loop over a text: whether it found an image, and the parts. Each round takes at least a
character. -/
def splitText : Nat → List Char → Bool → List Part → Option (Bool × List Part)
  | 0, _, found, parts => some (found, parts)
  | n + 1, text, found, parts =>
    match findImage text with
    | none => some (found, parts)
    | some cut =>
      match decodeBase64FileData decodeImage cut.url with
      | none => none
      | some (mimeType, data) =>
        splitText n cut.after true
          (parts ++ (if cut.before ≠ [] then [.text cut.before] else []) ++ [.inlineData mimeType data cut])

def textParts (text : List Char) : Option (List Part) :=
  if text = [] then some []
  else
    match splitText decodeImage text.length text false [] with
    | none => none
    | some (found, parts) => some (if found then parts else parts ++ [.text text])

variable (floats : Json.Floats)

/-- Arguments that are no object are an error. -/
def callPart (call : ToolCall) : Option Part :=
  if call.arguments = "" then some (.functionCall call.name (.obj []))
  else
    match Json.decode floats true call.arguments with
    | some (.obj l) => some (.functionCall call.name (.obj l))
    | some .null => some (.functionCall call.name .null)
    | _ => none

def messageParts (m : Message) : Option (List Part) := do
  let calls ← m.calls.mapM (callPart floats)
  let texts ← m.content.texts.mapM fun s => textParts decodeImage s.toList
  some (calls ++ texts.flatten)

/-! ### Putting the text together again -/

/-- The alternative text of the image: what follows its last `![`. -/
def Cut.alt (cut : Cut) : List Char :=
  match cutChars opening.reverse cut.opened.reverse with
  | some (alt, _) => alt.reverse
  | none => cut.opened

def imageText (alt url : List Char) : List Char := opening ++ alt ++ [']', '('] ++ url ++ [')']

/-- The markdown image that a cut was made from. If there is another `](` before that of the URL, it
is none. -/
def Cut.image (cut : Cut) : List Char := if [']', '('] <:+: cut.alt then [] else imageText cut.alt cut.url

def Part.restore : Part → List Char
  | .text s => s
  | .inlineData _ _ cut => cut.image
  | .functionCall _ _ => []

/-! ### Texts that are kept -/

def HasDataImage (text : List Char) : Prop :=
  ∃ a b c d, text = a ++ opening ++ b ++ (']' :: '(' :: dataStart) ++ c ++ [')'] ++ d

/-- An alternative text, without another image or link in it. -/
def Plain (alt : List Char) : Prop := ¬opening <:+: alt ∧ ¬[']', '('] <:+: alt

/-- A `data:` image with text before it. Neither the text nor the alternative text have an image in
them. -/
structure DataImage (before alt url : List Char) : Prop where
  before_plain : ¬opening <:+: before
  alt_plain : Plain alt
  url_data : dataStart <+: url
  url_open : ')' ∉ url

/-- A row of `data:` images, each with text before it and none after the last. -/
inductive Images : List Char → Prop
  | one {before alt url : List Char} (h : DataImage before alt url) : Images (before ++ imageText alt url)
  | cons {before alt url rest : List Char} (h : DataImage before alt url) (hrest : Images rest) :
    Images (before ++ imageText alt url ++ rest)

/-- A text without `data:` images, or one that is a row of them. -/
def Whole (text : List Char) : Prop := ¬HasDataImage text ∨ Images text

def UrlsDecode (text : List Char) : Prop :=
  ∀ a url b, text = a ++ [']', '('] ++ url ++ [')'] ++ b → dataStart <+: url → ')' ∉ url →
    (decodeBase64FileData decodeImage url).isSome = true

/-! ### One round -/

theorem findImage_eq_some {text : List Char} {cut : Cut} (h : findImage text = some cut) :
    ∃ chunk, cut.opened = opening ++ chunk ∧ text = cut.before ++ imageText chunk cut.url ++ cut.after ∧
      ¬opening <:+: cut.before ∧ dataStart <+: cut.url ∧ ')' ∉ cut.url := by
  unfold findImage at h
  split at h
  · cases h
  rename_i before rest hbefore
  split at h
  · cases h
  rename_i opened rest' hopened
  split at h
  · cases h
  rename_i url after hurl
  cases h
  dsimp only
  have hclose : ')' ∉ url := by
    simpa [List.singleton_infix_iff] using not_infix_of_cutChars (List.cons_ne_nil _ _) hurl
  have htext := cutChars_eq_some hbefore
  have hplain := not_infix_of_cutChars (List.cons_ne_nil _ _) hbefore
  replace hopened := cutChars_eq_some hopened
  replace hurl := cutChars_eq_some hurl
  -- the bracket is not in the opening, and the parenthesis not in the start of the URL
  obtain ⟨chunk, rfl⟩ : ∃ chunk, opened = opening ++ chunk := by
    match opened with
    | [] => simp [opening] at hopened
    | [c] => simp [opening] at hopened
    | c :: d :: chunk =>
      simp only [opening, List.cons_append, List.nil_append, List.cons.injEq] at hopened
      obtain ⟨rfl, rfl, -⟩ := hopened
      exact ⟨chunk, rfl⟩
  have hdata : dataStart <+: url := by
    rw [List.append_assoc] at hurl
    obtain ⟨l, rfl, -⟩ | ⟨l, hl, hrest⟩ := List.append_eq_append_iff.1 hurl
    · exact ⟨l, rfl⟩
    · cases l with
      | nil => exact ⟨[], by simpa using hl⟩
      | cons c l =>
        obtain ⟨rfl, -⟩ := List.cons.inj hrest
        have hmem : ')' ∈ dataStart := hl ▸ List.mem_append_right _ List.mem_cons_self
        exact absurd hmem (by decide)
  refine ⟨chunk, rfl, ?_, hplain, hdata, hclose⟩
  have hrest : rest = chunk ++ (']' :: '(' :: (dataStart ++ rest')) := by simpa using hopened
  rw [htext, hrest, hurl]
  simp [imageText]

theorem findImage_dataImage {before alt url : List Char} (h : DataImage before alt url) (rest : List Char) :
    findImage (before ++ imageText alt url ++ rest) = some ⟨before, opening ++ alt, url, rest⟩ := by
  obtain ⟨hbefore, ⟨-, hbracket⟩, ⟨data, rfl⟩, hclose⟩ := h
  have hopened : ¬[']', '('] <:+: opening ++ alt := by
    simpa [opening, List.infix_cons_iff] using hbracket
  have hfirst : cutChars opening (before ++ imageText alt (dataStart ++ data) ++ rest) =
      some (before, alt ++ [']', '('] ++ (dataStart ++ data) ++ [')'] ++ rest) := by
    rw [← cutChars_append [] (by decide) hbefore (alt ++ [']', '('] ++ (dataStart ++ data) ++ [')'] ++ rest)]
    simp [imageText, opening]
  have hsecond : cutChars (']' :: '(' :: dataStart)
    (opening ++ (alt ++ [']', '('] ++ (dataStart ++ data) ++ [')'] ++ rest)) =
      some (opening ++ alt, data ++ [')'] ++ rest) := by
    rw [← cutChars_append dataStart (by decide) hopened (data ++ [')'] ++ rest)]
    simp
  have hthird : cutChars [')'] (dataStart ++ (data ++ [')'] ++ rest)) = some (dataStart ++ data, rest) := by
    rw [← cutChars_singleton hclose rest]
    simp
  rw [findImage, hfirst]
  dsimp only
  rw [hsecond]
  dsimp only
  rw [hthird]

theorem findImage_eq_none {text : List Char} : findImage text = none ↔ ¬HasDataImage text := by
  constructor
  · rintro h ⟨a, b, c, d, htext⟩
    have hab : text = a ++ opening ++ (b ++ (']' :: '(' :: dataStart) ++ (c ++ [')'] ++ d)) := by simp [htext]
    unfold findImage at h
    split at h
    · rename_i hnone
      exact cutChars_eq_none hnone ⟨a, _, hab.symm⟩
    rename_i before rest hbefore
    obtain ⟨p, hp⟩ := suffix_of_cutChars hbefore hab
    have hsearched : opening ++ rest = (opening ++ p ++ b) ++ (']' :: '(' :: dataStart) ++ (c ++ [')'] ++ d) := by
      simp [← hp]
    split at h
    · rename_i hnone
      exact cutChars_eq_none hnone ⟨_, _, hsearched.symm⟩
    rename_i opened rest' hopened
    obtain ⟨q, hq⟩ := suffix_of_cutChars hopened hsearched
    split at h
    · rename_i hnone
      exact cutChars_eq_none hnone ⟨dataStart ++ q ++ c, d, by simp [← hq]⟩
    · cases h
  · intro hnot
    cases h : findImage text with
    | none => rfl
    | some cut =>
      obtain ⟨chunk, -, htext, -, ⟨data, hdata⟩, -⟩ := findImage_eq_some h
      exact absurd ⟨cut.before, chunk, data, cut.after, by simp [htext, imageText, ← hdata]⟩ hnot

/-! ### The image of a cut -/

theorem length_imageText (alt url : List Char) : (imageText alt url).length = alt.length + url.length + 5 := by
  simp [imageText, opening]
  omega

/-- Another image in front of the alternative text is not part of it. -/
theorem length_alt_lt {cut : Cut} {chunk : List Char} (hopened : cut.opened = opening ++ chunk)
    (himage : opening <:+: chunk) :
    cut.alt.length < chunk.length := by
  obtain ⟨a, b, rfl⟩ := himage
  have hab : cut.opened.reverse = b.reverse ++ opening.reverse ++ (opening ++ a).reverse := by simp [hopened]
  unfold Cut.alt
  split
  · rename_i alt after hcut
    have hfirst := length_le_of_cutChars hcut hab
    simp only [List.length_reverse, List.length_append] at hfirst ⊢
    have hopening : opening.length = 2 := rfl
    omega
  · rename_i hnone
    exact absurd ⟨_, _, hab.symm⟩ (cutChars_eq_none hnone)

theorem reverse_infix {x y : Char} {l : List Char} : [y, x] <:+: l.reverse ↔ [x, y] <:+: l := by
  have hreverse : [x, y].reverse <:+: l.reverse ↔ [x, y] <:+: l := List.reverse_infix
  exact hreverse

/-- The image is all that was cut out, unless another image or a link is part of that. -/
theorem image_cases {cut : Cut} {chunk : List Char} (hopened : cut.opened = opening ++ chunk) :
    (Plain chunk ∧ cut.image = imageText chunk cut.url) ∨
      (¬Plain chunk ∧ cut.image.length < (imageText chunk cut.url).length) := by
  by_cases himage : opening <:+: chunk
  · -- the image begins later
    refine .inr ⟨fun h => h.1 himage, ?_⟩
    have hlt := length_alt_lt hopened himage
    rw [Cut.image]
    split_ifs
    · rw [length_imageText]
      exact Nat.succ_pos _
    · rw [length_imageText, length_imageText]
      omega
  · have halt : cut.alt = chunk := by
      have hcut := cutChars_append [] (by decide) (mt reverse_infix.1 himage) []
      rw [Cut.alt, hopened]
      simp only [opening, List.append_nil] at hcut ⊢
      simp [hcut]
    rw [Cut.image, halt]
    by_cases hlink : [']', '('] <:+: chunk
    · refine .inr ⟨fun h => h.2 hlink, ?_⟩
      rw [if_pos hlink]
      simp [imageText]
    · exact .inl ⟨⟨himage, hlink⟩, if_neg hlink⟩

/-! ### The loop -/

def cuts : Nat → List Char → List Cut × List Char
  | 0, text => ([], text)
  | n + 1, text =>
    match findImage text with
    | none => ([], text)
    | some cut => (cut :: (cuts n cut.after).1, (cuts n cut.after).2)

def pieces (cut : Cut) : List Part :=
  (if cut.before ≠ [] then [.text cut.before] else []) ++
    (decodeBase64FileData decodeImage cut.url).toList.map fun r => .inlineData r.1 r.2 cut

variable {decodeImage} {floats}

theorem UrlsDecode.cut {text : List Char} {cut : Cut} (h : UrlsDecode decodeImage text)
    (hcut : findImage text = some cut) :
    (∃ r, decodeBase64FileData decodeImage cut.url = some r) ∧ UrlsDecode decodeImage cut.after := by
  obtain ⟨chunk, -, htext, -, hdata, hclose⟩ := findImage_eq_some hcut
  constructor
  · exact Option.isSome_iff_exists.1
      (h (cut.before ++ opening ++ chunk) cut.url cut.after (by simp [htext, imageText])
      hdata hclose)
  · intro a url b hafter
    exact h (cut.before ++ imageText chunk cut.url ++ a) url b (by simp [htext, hafter])

theorem splitText_eq {n : Nat} {text : List Char} (h : UrlsDecode decodeImage text) (found : Bool) (parts : List Part) :
    splitText decodeImage n text found parts =
      some (found || !(cuts n text).1.isEmpty, parts ++ (cuts n text).1.flatMap (pieces decodeImage)) := by
  induction n generalizing text found parts with
  | zero => simp [splitText, cuts]
  | succ n ih =>
    rw [splitText, cuts]
    cases hcut : findImage text with
    | none => simp
    | some cut =>
      obtain ⟨⟨r, hr⟩, hafter⟩ := h.cut hcut
      simp [hr, ih hafter, pieces]

def restored (n : Nat) (text : List Char) : List Char := (cuts n text).1.flatMap fun cut => cut.before ++ cut.image

def AllCut (n : Nat) (text : List Char) : Prop :=
  (∀ cut ∈ (cuts n text).1, Plain (cut.opened.drop 2)) ∧ (cuts n text).2 = []

theorem restored_cases (n : Nat) (text : List Char) :
    (AllCut n text ∧ restored n text = text) ∨ (¬AllCut n text ∧ (restored n text).length < text.length) := by
  induction n generalizing text with
  | zero =>
    cases text with
    | nil => exact .inl ⟨⟨nofun, rfl⟩, rfl⟩
    | cons c text => exact .inr ⟨fun h => List.cons_ne_nil _ _ h.2, Nat.succ_pos _⟩
  | succ n ih =>
    unfold AllCut restored
    rw [cuts]
    cases hcut : findImage text with
    | none =>
      cases text with
      | nil => exact .inl ⟨⟨nofun, rfl⟩, rfl⟩
      | cons c text => exact .inr ⟨fun h => List.cons_ne_nil _ _ h.2, Nat.succ_pos _⟩
    | some cut =>
      obtain ⟨chunk, hopened, htext, -⟩ := findImage_eq_some hcut
      have hchunk : cut.opened.drop 2 = chunk := by rw [hopened]; rfl
      have hlength := congrArg List.length htext
      have ih := ih cut.after
      unfold AllCut restored at ih
      simp only [List.forall_mem_cons, List.flatMap_cons, hchunk, List.length_append] at ih hlength ⊢
      obtain ⟨hplain, himage⟩ | ⟨hplain, himage⟩ := image_cases hopened
      · obtain ⟨hall, hrest⟩ | ⟨hall, hrest⟩ := ih
        · refine .inl ⟨⟨⟨hplain, hall.1⟩, hall.2⟩, ?_⟩
          rw [himage, hrest]
          exact htext.symm
        · refine .inr ⟨fun h => hall ⟨h.1.2, h.2⟩, ?_⟩
          rw [himage]
          omega
      · refine .inr ⟨fun h => hplain h.1.1, ?_⟩
        obtain ⟨-, hrest⟩ | ⟨-, hrest⟩ := ih
        · rw [hrest]
          omega
        · omega

/-! ### Rows of images -/

theorem cuts_eq_nil {n : Nat} {text : List Char} (h : (cuts n text).1 = []) : (cuts n text).2 = text := by
  cases n with
  | zero => rfl
  | succ n =>
    rw [cuts] at h ⊢
    cases hcut : findImage text with
    | none => rfl
    | some cut => simp [hcut] at h

/-- With the images cut out, the text is a row of them if the rest is. -/
theorem allCut_cons {n : Nat} {text : List Char} {cut : Cut} (hcut : findImage text = some cut) :
    AllCut (n + 1) text ↔ Plain (cut.opened.drop 2) ∧ AllCut n cut.after := by
  simp only [AllCut, cuts, hcut, List.forall_mem_cons, and_assoc]

theorem allCut_of_images {n : Nat} {text : List Char} (h : Images text) (hn : text.length ≤ n) :
    (cuts n text).1 ≠ [] ∧ AllCut n text := by
  induction h generalizing n with
  | @one before alt url h =>
    obtain ⟨n, rfl⟩ : ∃ k, n = k + 1 := ⟨n - 1, by simp [length_imageText] at hn; omega⟩
    have hfind := findImage_dataImage h []
    rw [List.append_nil] at hfind
    rw [allCut_cons hfind, cuts, hfind]
    refine ⟨List.cons_ne_nil _ _, h.alt_plain, ?_⟩
    have hnone : findImage [] = none := rfl
    cases n with
    | zero => exact ⟨nofun, rfl⟩
    | succ n => exact ⟨by simp [cuts, hnone], by simp [cuts, hnone]⟩
  | @cons before alt url rest h hrest ih =>
    obtain ⟨n, rfl⟩ : ∃ k, n = k + 1 := ⟨n - 1, by simp [length_imageText] at hn; omega⟩
    have hfind := findImage_dataImage h rest
    rw [allCut_cons hfind, cuts, hfind]
    exact ⟨List.cons_ne_nil _ _, h.alt_plain, (ih (by simp [length_imageText] at hn; omega)).2⟩

theorem images_of_allCut {n : Nat} {text : List Char} (hne : (cuts n text).1 ≠ [])
    (h : AllCut n text) : Images text := by
  induction n generalizing text with
  | zero => exact absurd rfl hne
  | succ n ih =>
    cases hcut : findImage text with
    | none => exact absurd (by rw [cuts, hcut]) hne
    | some cut =>
      obtain ⟨chunk, hopened, htext, hbefore, hdata, hclose⟩ := findImage_eq_some hcut
      have hchunk : cut.opened.drop 2 = chunk := by rw [hopened]; rfl
      rw [allCut_cons hcut, hchunk] at h
      have himage : DataImage cut.before chunk cut.url := ⟨hbefore, h.1, hdata, hclose⟩
      rw [htext]
      by_cases hlast : (cuts n cut.after).1 = []
      · rw [(cuts_eq_nil hlast).symm.trans h.2.2, List.append_nil]
        exact .one himage
      · exact .cons himage (ih hlast h.2)

/-! ### Messages -/

theorem restore_pieces {cut : Cut} (h : ∃ r, decodeBase64FileData decodeImage cut.url = some r) :
    (pieces decodeImage cut).flatMap Part.restore = cut.before ++ cut.image := by
  obtain ⟨r, hr⟩ := h
  by_cases hbefore : cut.before = [] <;> simp [pieces, hr, hbefore, Part.restore]

theorem restore_cuts {n : Nat} {text : List Char} (h : UrlsDecode decodeImage text) :
    ((cuts n text).1.flatMap (pieces decodeImage)).flatMap Part.restore = restored n text := by
  induction n generalizing text with
  | zero => rfl
  | succ n ih =>
    unfold restored
    rw [cuts]
    cases hcut : findImage text with
    | none => rfl
    | some cut =>
      obtain ⟨hurl, hafter⟩ := h.cut hcut
      rw [List.flatMap_cons, List.flatMap_append, restore_pieces hurl, ih hafter, List.flatMap_cons, restored]

theorem textParts_cases {text : List Char} (h : UrlsDecode decodeImage text) :
    ∃ out, textParts decodeImage text = some out ∧
      ((Whole text ∧ out.flatMap Part.restore = text) ∨
        (¬Whole text ∧ (out.flatMap Part.restore).length < text.length)) := by
  by_cases hempty : text = []
  · have hnone : findImage [] = none := rfl
    have hno := findImage_eq_none.1 hnone
    exact ⟨[], by simp [textParts, hempty], .inl ⟨.inl (by simpa [hempty] using hno), by simp [hempty]⟩⟩
  · obtain ⟨n, hn⟩ : ∃ n, text.length = n + 1 := ⟨text.length - 1, by have := List.length_pos_of_ne_nil hempty; omega⟩
    rw [textParts, if_neg hempty, splitText_eq h]
    by_cases hnone : findImage text = none
    · have hcuts : (cuts text.length text).1 = [] := by rw [hn, cuts, hnone]
      exact ⟨[.text text], by simp [hcuts], .inl ⟨.inl (findImage_eq_none.1 hnone), by simp [Part.restore]⟩⟩
    · have hcuts : (cuts text.length text).1 ≠ [] := by
        obtain ⟨cut, hcut⟩ := Option.ne_none_iff_exists'.1 hnone
        rw [hn, cuts, hcut]
        exact List.cons_ne_nil _ _
      refine ⟨(cuts text.length text).1.flatMap (pieces decodeImage), by simp [hcuts], ?_⟩
      have hwhole : Whole text ↔ AllCut text.length text := by
        constructor
        · rintro (hno | himages)
          · exact absurd (findImage_eq_none.2 hno) hnone
          · exact (allCut_of_images himages le_rfl).2
        · exact fun hall => .inr (images_of_allCut hcuts hall)
      rw [restore_cuts h, hwhole]
      exact restored_cases text.length text

theorem mapM_eq_some {A B : Type} {f : A → Option B} {g : A → B} {l : List A} (h : ∀ a ∈ l, f a = some (g a)) :
    l.mapM f = some (l.map g) := by
  induction l with
  | nil => rfl
  | cons a l ih =>
    rw [List.forall_mem_cons] at h
    simp [h.1, ih h.2]

theorem restore_callPart {call : ToolCall} {part : Part} (h : callPart floats call = some part) :
    part.restore = [] := by
  unfold callPart at h
  split_ifs at h
  · cases h
    rfl
  · split at h <;> cases h <;> rfl

/-- The text of a message is kept exactly if each of its texts is without `data:` images or a row of
them. -/
theorem restored_iff (floats : Json.Floats) (decodeImage : List Char → Option (String × String)) (m : Message)
    (hcalls : ∀ call ∈ m.calls, ∃ part, callPart floats call = some part)
    (hurls : ∀ s ∈ m.content.texts, UrlsDecode decodeImage s.toList) :
    (∃ out, messageParts decodeImage floats m = some out ∧
        out.flatMap Part.restore = m.content.texts.flatMap String.toList) ↔
      ∀ s ∈ m.content.texts, Whole s.toList := by
  obtain ⟨calls, hmapM, hnone⟩ : ∃ calls, m.calls.mapM (callPart floats) = some calls ∧
      calls.flatMap Part.restore = [] := by
    refine ⟨_, mapM_eq_some (g := fun call => (callPart floats call).getD (.text [])) fun call hcall => ?_, ?_⟩
    · obtain ⟨part, hpart⟩ := hcalls call hcall
      rw [hpart]
      rfl
    · rw [List.flatMap_map]
      refine List.flatMap_eq_nil_iff.2 fun call hcall => ?_
      obtain ⟨part, hpart⟩ := hcalls call hcall
      rw [hpart]
      exact restore_callPart hpart
  have htexts : m.content.texts.mapM (fun s => textParts decodeImage s.toList) =
      some (m.content.texts.map fun s => (textParts decodeImage s.toList).getD []) := by
    refine mapM_eq_some fun s hs => ?_
    obtain ⟨out, hout, -⟩ := textParts_cases (hurls s hs)
    rw [hout]
    rfl
  have hparts : messageParts decodeImage floats m =
      some (calls ++ m.content.texts.flatMap fun s => (textParts decodeImage s.toList).getD []) := by
    simp [messageParts, hmapM, htexts, List.flatMap_def]
  have hrestore : (calls ++ m.content.texts.flatMap fun s =>
    (textParts decodeImage s.toList).getD []).flatMap Part.restore =
      m.content.texts.flatMap fun s => ((textParts decodeImage s.toList).getD []).flatMap Part.restore := by
    rw [List.flatMap_append, hnone, List.nil_append, List.flatMap_assoc]
  have hkept : (m.content.texts.flatMap fun s => ((textParts decodeImage s.toList).getD []).flatMap Part.restore) =
      m.content.texts.flatMap String.toList ↔ ∀ s ∈ m.content.texts, Whole s.toList := by
    refine flatMap_kept (fun s => Whole s.toList) _ String.toList fun s hs => ?_
    obtain ⟨out, hout, hcases⟩ := textParts_cases (hurls s hs)
    rw [hout]
    exact hcases
  rw [← hkept, ← hrestore]
  constructor
  · rintro ⟨out, hout, heq⟩
    rw [hparts] at hout
    cases hout
    exact heq
  · exact fun heq => ⟨_, hparts, heq⟩

def twoImages : Message :=
  ⟨"user", .parts ["![a](https://a.b/c.png) or", "this ![d](data:image/png;base64,AAAA)"], none, ""⟩

theorem urlsDecode_of_total {decodeImage : List Char → Option (String × String)}
    (h : ∀ data, ∃ r, decodeImage data = some r)
    (text : List Char) : UrlsDecode decodeImage text := by
  intro a url b _ _ _
  have himage (data : List Char) : ((decodeImage data).map fun r => ("image/" ++ r.1, r.2)).isSome = true := by
    obtain ⟨r, hr⟩ := h data
    rw [hr]
    rfl
  unfold decodeBase64FileData
  dsimp only
  split
  · exact himage url
  · split
    · exact himage _
    · split
      · exact himage _
      · rfl

theorem twoImages_restored :
    ∃ out, messageParts (fun data => some ("png", String.ofList data)) .literal
    twoImages = some out ∧
    out.flatMap Part.restore = "![a](https://a.b/c.png) orthis ![d](data:image/png;base64,AAAA)".toList := by
  have hplain : Whole "![a](https://a.b/c.png) or".toList :=
    .inl (findImage_eq_none.1 (Option.isNone_iff_eq_none.1 (by decide +kernel)))
  have himage : DataImage "this ".toList "d".toList "data:image/png;base64,AAAA".toList :=
    ⟨by decide +kernel, ⟨by decide +kernel, by decide +kernel⟩, by decide +kernel, by decide +kernel⟩
  refine (restored_iff .literal _ twoImages nofun fun s _ => urlsDecode_of_total (fun data => ⟨_, rfl⟩) _).2 ?_
  intro s hs
  simp only [twoImages, Content.texts, List.mem_cons, List.not_mem_nil, or_false] at hs
  obtain rfl | rfl := hs
  · exact hplain
  · exact .inr (.one himage)

/-- Text after a `data:` image is lost. -/
theorem trailing_text_lost :
    (messageParts (fun _ => none) .literal ⟨"user", .text "![a](data:image/png;base64,AAAA) What is it?", none, ""⟩).map
      (fun out => out.flatMap Part.restore) = some "![a](data:image/png;base64,AAAA)".toList := by
  decide +kernel

end TokenEra.Request.ChatToGemini
