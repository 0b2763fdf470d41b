import Mathlib.Data.List.TakeWhile
import TokenEra.Lib.Loss
import TokenEra.Request.ChatToClaude

/-!
# What reaches Claude

When the conversion of a chat to Claude keeps the conversation. Merging keeps only the tool calls of
the later message, and `trimQuotes` cuts quotes at the ends of the merged text; an empty role is
never read as `user`; a typed list of parts is not parsed; an empty tool result becomes the
placeholder; tool calls are read of assistant messages only. The conversation is kept exactly if
nothing of this happens.
-/

namespace TokenEra.Request.ChatToClaude

open Lib ClaudeMessage

/-! ### Neighbours -/

def isLine : Content → Bool
  | .absent | .text _ => true
  | _ => false

def line : Content → String
  | .text s => s
  | _ => ""

def Merges (a b : Message) : Prop := a.role = b.role ∧ a.role ≠ "tool" ∧ isLine a.content = true ∧
    b.content.isString = true

instance (a b : Message) : Decidable (Merges a b) := inferInstanceAs (Decidable (_ ∧ _ ∧ _ ∧ _))

def MergesLast (before : List Message) (m : Message) : Prop := ∃ a ∈ before.getLast?, Merges a m

instance (before : List Message) (m : Message) : Decidable (MergesLast before m) :=
  inferInstanceAs (Decidable (∃ a ∈ _, _))

variable {c : Content}

theorem isString_fill : (fill c).isString = isLine c := by
  cases c with
  | text s =>
    rw [fill]
    split_ifs <;> rfl
  | absent => rfl
  | parts l => rfl
  | media l => rfl

theorem formatMessages_append_singleton (l : List Message) (m : Message) :
    formatMessages (l ++ [m]) = formatStep (formatMessages l) m := by
  simp [formatMessages]

/-- The last formatted message is the last message's, with its content or a merged string. -/
theorem exists_format (before : List Message) (a : Message) :
    ∃ formatted c, formatMessages (before ++ [a]) = formatted ++ [format a c] ∧ isLine c = isLine a.content := by
  rw [formatMessages_append_singleton, formatStep]
  split
  · exact ⟨[], a.content, rfl, rfl⟩
  · rename_i last hlast
    split
    · rename_i text htext
      refine ⟨_, .text text, rfl, ?_⟩
      unfold merged at htext
      split_ifs at htext
      split at htext
      · rename_i ha
        rw [ha]
        rfl
      · cases htext
    · exact ⟨_, a.content, rfl, rfl⟩

/-- The last of `l` merges with `m`; these are its formatted message and text. -/
structure Merging (l : List Message) (m : Message) (formatted : List Message) (a : Message)
    (c : Content) (text : String) :
    Prop where
  merges : Merges a m
  last : l.getLast? = some a
  format_eq : formatMessages l = formatted ++ [format a c]
  fill_eq : fill c = .text text
  round_eq : formatMessages (l ++ [m]) = formatted ++ [format m (.text (trimQuotes (text ++ " " ++ line m.content)))]

theorem formatMessages_round (l : List Message) (m : Message) :
    (MergesLast l m ∧ ∃ formatted a c text, Merging l m formatted a c text) ∨
      (¬MergesLast l m ∧ formatMessages (l ++ [m]) = formatMessages l ++ [format m m.content]) := by
  rcases List.eq_nil_or_concat' l with rfl | ⟨before, a, rfl⟩
  · exact .inr ⟨by simp [MergesLast], rfl⟩
  obtain ⟨formatted, c, hformat, hline⟩ := exists_format before a
  have hlast : (formatMessages (before ++ [a])).getLast? = some (format a c) := by simp [hformat]
  by_cases hmerge : Merges a m
  · obtain ⟨hrole, htool, ha, hm⟩ := hmerge
    obtain ⟨text, htext⟩ : ∃ text, fill c = .text text := by
      have hstring : (fill c).isString = true := by rw [isString_fill, hline, ha]
      cases hc : fill c with
      | text text => exact ⟨text, rfl⟩
      | absent => simp [hc, Content.isString] at hstring
      | parts l => simp [hc, Content.isString] at hstring
      | media l => simp [hc, Content.isString] at hstring
    obtain ⟨b, hb⟩ : ∃ b, m.content = .text b := by
      cases hc : m.content with
      | text b => exact ⟨b, rfl⟩
      | absent => simp [hc, Content.isString] at hm
      | parts l => simp [hc, Content.isString] at hm
      | media l => simp [hc, Content.isString] at hm
    have hmerges : Merges a m := ⟨hrole, htool, ha, hm⟩
    refine .inl ⟨⟨a, by simp, hmerges⟩, formatted, a, c, text, hmerges, by simp, hformat, htext, ?_⟩
    rw [formatMessages_append_singleton, formatStep, hlast]
    dsimp only
    have hmerged : merged (format a c) m = some (trimQuotes (text ++ " " ++ b)) := by
      simp [merged, format, hrole, hrole ▸ htool, htext, hb]
    rw [hmerged, hformat, hb]
    simp [line]
  · refine .inr ⟨by simpa [MergesLast] using hmerge, ?_⟩
    have hmerged : merged (format a c) m = none := by
      unfold merged
      split_ifs with hcond
      · split
        · rename_i t b ht hb
          refine absurd ⟨hcond.1, hcond.2, ?_, ?_⟩ hmerge
          · rw [← hline, ← isString_fill]
            rw [show fill c = .text t from ht]
            rfl
          · rw [hb]
            rfl
        · rfl
      · rfl
    rw [formatMessages_append_singleton, formatStep, hlast]
    dsimp only
    rw [hmerged]

/-! ### Quotes -/

def startsQuote (s : String) : Bool := s.toList.head? = some '"'

def endsQuote (s : String) : Bool := s.toList.getLast? = some '"'

variable {a b : String}

theorem startsQuote_join : startsQuote (a ++ " " ++ b) = startsQuote a := by
  simp only [startsQuote, String.toList_append]
  cases a.toList with
  | nil => simp
  | cons c l => simp

theorem endsQuote_join : endsQuote (a ++ " " ++ b) = endsQuote b := by
  simp only [endsQuote, String.toList_append]
  rcases List.eq_nil_or_concat' b.toList with hb | ⟨l, c, hb⟩
  · simp [hb]
  · rw [hb, ← List.append_assoc, List.getLast?_concat, List.getLast?_concat]

theorem dropWhile_quote {l : List Char} (h : l.head? ≠ some '"') : l.dropWhile (· = '"') = l := by
  cases l with
  | nil => rfl
  | cons c l =>
    have hc : c ≠ '"' := by simpa using h
    simp [hc]

variable {s : String} {l : List Message} {m : Message}

theorem trimQuotes_eq_self (hstart : startsQuote s = false) (hend : endsQuote s = false) : trimQuotes s = s := by
  simp only [startsQuote, endsQuote, decide_eq_false_iff_not] at hstart hend
  rw [trimQuotes, dropWhile_quote hstart, dropWhile_quote (by rwa [List.head?_reverse]), List.reverse_reverse,
    String.ofList_toList]

theorem length_dropWhile_lt {l : List Char} (h : l.head? = some '"') : (l.dropWhile (· = '"')).length < l.length := by
  cases l with
  | nil => cases h
  | cons c l =>
    have hc : c = '"' := by simpa using h
    have hle := (List.dropWhile_sublist (fun c => decide (c = '"')) (l := l)).length_le
    simp only [hc, List.dropWhile_cons_of_pos, decide_true, List.length_cons]
    omega

theorem length_trimQuotes_lt (h : startsQuote s = true ∨ endsQuote s = true) :
    (trimQuotes s).toList.length < s.toList.length := by
  have hle := (List.dropWhile_sublist (fun c => decide (c = '"')) (l := s.toList)).length_le
  have hle' := (List.dropWhile_sublist (fun c => decide (c = '"'))
    (l := (s.toList.dropWhile (· = '"')).reverse)).length_le
  simp only [trimQuotes, String.toList_ofList, List.length_reverse] at hle' ⊢
  by_cases hstart : startsQuote s = true
  · have hlt := length_dropWhile_lt (of_decide_eq_true hstart)
    omega
  · have hend : s.toList.getLast? = some '"' := of_decide_eq_true (h.resolve_left hstart)
    have hdrop : s.toList.dropWhile (· = '"') = s.toList := dropWhile_quote fun hs => hstart (decide_eq_true hs)
    have hlt := length_dropWhile_lt (l := s.toList.reverse) (by rwa [List.head?_reverse])
    rw [List.length_reverse] at hlt
    rw [hdrop]
    omega

/-- A text with another character than quotes does not start with a quote when it is trimmed. -/
theorem startsQuote_trimQuotes {c : Char} (hmem : c ∈ s.toList) (hc : c ≠ '"') :
    startsQuote (trimQuotes s) = false := by
  have hne : s.toList.dropWhile (· = '"') ≠ [] := by
    intro h
    have := List.dropWhile_eq_nil_iff.1 h c hmem
    simp [hc] at this
  obtain ⟨x, l, hl⟩ := List.exists_cons_of_ne_nil hne
  have hx : x ≠ '"' := by
    have := List.head_dropWhile_not (fun c => decide (c = '"')) hne
    simpa [hl] using this
  have hdrop : ((x :: l).reverse.dropWhile (· = '"')).reverse.head? = some x := by
    rw [List.reverse_cons, List.dropWhile_append]
    split_ifs <;> simp [hx]
  rw [startsQuote, trimQuotes, String.toList_ofList, hl, hdrop]
  simpa using hx

/-- The text before a merge starts with a quote only if it was not merged itself. -/
theorem startsQuote_of_format {formatted : List Message} {a : Message} {c : Content} {text : String}
    (hformat : formatMessages (l ++ [a]) = formatted ++ [format a c]) (hfill : fill c = .text text) :
    startsQuote text = true ↔ startsQuote (line a.content) = true ∧ ¬MergesLast l a := by
  have hplaceholder : startsQuote placeholder = false := by decide
  have hempty : startsQuote "" = false := by decide
  have hlast (c' : Content) {l' : List Message}
      (h : formatMessages (l ++ [a]) = l' ++ [format a c']) : fill c' = .text text := by
    rw [hformat] at h
    have heq := congrArg Message.content (List.cons.inj (List.append_inj_right' h rfl)).1
    exact heq.symm.trans hfill
  obtain ⟨hmerge, formatted', a', c', text', h⟩ | ⟨hmerge, hround⟩ := formatMessages_round l a
  · -- what was merged has no quote in front
    have hfill' := hlast _ h.round_eq
    have hspace : ' ' ∈ (text' ++ " " ++ line a.content).toList := by simp
    have htrim := startsQuote_trimQuotes hspace (by decide)
    rw [fill] at hfill'
    split_ifs at hfill' <;> cases hfill' <;> simp [hplaceholder, htrim, hmerge]
  · have hfill' := hlast _ hround
    cases hc : a.content with
    | absent =>
      rw [hc] at hfill'
      cases hfill'
      simp [hplaceholder, line, hempty]
    | text s =>
      rw [hc, fill] at hfill'
      split_ifs at hfill' with hs
      · cases hfill'
        simp [hplaceholder, line, hempty, hs]
      · cases hfill'
        simp [line, hmerge]
    | parts l => simp [hc, fill] at hfill'
    | media l => simp [hc, fill] at hfill'

/-! ### What the first pass keeps -/

variable {B : Type} {floats : Json.Floats}

theorem shows_append (g : String → Block Content → List B) (l l' : List Message) :
    shows floats g (l ++ l') = shows floats g l ++ shows floats g l' :=
  List.flatMap_append

def tagged (role : String) (texts : List String) : List (String × Char) := texts.flatMap fun s => s.toList.map (role, ·)

theorem fill_ne : fill c ≠ .text "" := by
  cases c with
  | text s =>
    rw [fill]
    split_ifs with hs
    · decide
    · simpa using hs
  | absent => decide
  | parts l => nofun
  | media l => nofun

/-- The blocks of a message are its texts and its tool uses, whichever way they are built. -/
theorem toBlocks_claudeMessage (floats : Json.Floats) (hm : m.content ≠ .text "") :
    (claudeMessage floats m).content.toBlocks =
      (m.content.parse.filter (· ≠ "")).map Block.text ++ m.calls.map (toolUse floats) := by
  unfold claudeMessage
  dsimp only
  split
  · rename_i s hcontent hcalls
    have hs : s ≠ "" := by
      rintro rfl
      exact hm hcontent
    simp [ClaudeContent.toBlocks, hcontent, Content.parse, hs, Message.calls, hcalls]
  · rfl

theorem shows_singleton (g : String → Block Content → List B) (m : Message) (c : Content) :
    shows floats g [format m c] =
      if m.role = "system" then []
      else if m.role = "tool" then g "user" (.toolResult m.toolCallId (fill c))
      else ((fill c).parse.filter (· ≠ "")).flatMap (fun s => g m.role (.text s)) ++
        (if m.role = "assistant" then m.calls else []).flatMap fun call => g m.role (toolUse floats call) := by
  have hcalls : (format m c).calls = if m.role = "assistant" then m.calls else [] := by
    unfold Message.calls format
    dsimp only
    split_ifs <;> rfl
  have hne : (format m c).content ≠ .text "" := fill_ne
  have hblocks := toBlocks_claudeMessage floats hne
  have hshown : shown floats (format m c) =
      if m.role = "system" then []
      else if m.role = "tool" then [("user", .toolResult m.toolCallId (fill c))]
      else (claudeMessage floats (format m c)).content.toBlocks.map (m.role, ·) := by
    by_cases htool : m.role = "tool"
    · simp [shown, format, htool]
    · simp only [shown, show (format m c).role = m.role from rfl, if_neg htool]
  simp only [shows, List.flatMap_cons, List.flatMap_nil, List.append_nil, hshown]
  by_cases hsystem : m.role = "system"
  · simp [hsystem]
  · by_cases htool : m.role = "tool"
    · simp [htool]
    · rw [if_neg hsystem, if_neg hsystem, if_neg htool, if_neg htool, hblocks, hcalls]
      simp only [List.flatMap_map, List.flatMap_append, List.map_append]
      rfl

theorem shows_use :
    shows floats seeUse [format m c] =
      (if m.role = "assistant" then m.calls else []).map fun call =>
        (call.id, call.name, inputOf floats call.arguments) := by
  have htexts (l : List String) : l.flatMap (fun s => seeUse (R := Content) m.role (.text s)) = [] :=
    List.flatMap_eq_nil_iff.2 fun _ _ => rfl
  rw [shows_singleton, htexts, List.nil_append, List.map_eq_flatMap]
  by_cases hassistant : m.role = "assistant"
  · simp [hassistant, seeUse, toolUse]
  · rw [if_neg hassistant]
    split_ifs <;> rfl

theorem shows_result :
    shows floats seeResult [format m c] = if m.role = "tool" then [(m.toolCallId, fill c)] else [] := by
  have htexts (l : List String) : l.flatMap (fun s => seeResult (R := Content) m.role (.text s)) = [] :=
    List.flatMap_eq_nil_iff.2 fun _ _ => rfl
  have hcalls (l : List ToolCall) : l.flatMap (fun call => seeResult m.role (toolUse floats call)) = [] :=
    List.flatMap_eq_nil_iff.2 fun _ _ => rfl
  rw [shows_singleton, htexts, hcalls]
  by_cases hsystem : m.role = "system"
  · simp [hsystem]
  · rw [if_neg hsystem]
    rfl

variable {role : String}

theorem tagged_filter (texts : List String) :
    (texts.filter (· ≠ "")).flatMap (fun s => s.toList.map (role, ·)) = tagged role texts := by
  induction texts with
  | nil => rfl
  | cons s texts ih =>
    by_cases hs : s = ""
    · simpa [tagged, hs] using ih
    · simpa [tagged, hs] using ih

theorem shows_text :
    shows floats seeText [format m c] =
      if m.role = "system" ∨ m.role = "tool" then [] else tagged m.role (fill c).parse := by
  have hcalls (l : List ToolCall) : l.flatMap (fun call => seeText m.role (toolUse floats call)) = [] :=
    List.flatMap_eq_nil_iff.2 fun _ _ => rfl
  rw [shows_singleton, hcalls, List.append_nil]
  by_cases hsystem : m.role = "system"
  · simp [hsystem]
  · by_cases htool : m.role = "tool"
    · simp [htool, seeText]
    · rw [if_neg hsystem, if_neg htool, if_neg (by simp [hsystem, htool])]
      exact tagged_filter _

theorem shows_results :
    shows floats seeResult (formatMessages l) =
      (l.filter fun m => m.role = "tool").map fun m => (m.toolCallId, fill m.content) := by
  induction l using List.reverseRecOn with
  | nil => rfl
  | append_singleton l m ih =>
    obtain ⟨-, formatted, a, c, text, h⟩ | ⟨-, hround⟩ := formatMessages_round l m
    · have ha : a.role ≠ "tool" := h.merges.2.1
      have hm : m.role ≠ "tool" := h.merges.1 ▸ ha
      rw [h.format_eq, shows_append, shows_result, if_neg ha] at ih
      rw [h.round_eq, shows_append, shows_result, if_neg hm, ih]
      simp [hm]
    · rw [hround, shows_append, ih, shows_result]
      by_cases hm : m.role = "tool"
      · simp [hm]
      · simp [hm]

theorem roles_round :
    ((formatMessages (l ++ [m])).map Message.role = (formatMessages l).map Message.role ∧
        m.role ∈ (formatMessages l).map Message.role) ∨
      (formatMessages (l ++ [m])).map Message.role = (formatMessages l).map Message.role ++ [m.role] := by
  obtain ⟨-, formatted, a, c, text, h⟩ | ⟨-, hround⟩ := formatMessages_round l m
  · refine .inl ⟨?_, ?_⟩
    · simp [h.round_eq, h.format_eq, format, h.merges.1]
    · simp [h.format_eq, format, h.merges.1]
  · exact .inr (by simp [hround, format])

theorem mem_roles_format {role : String} :
    role ∈ (formatMessages l).map Message.role ↔ role ∈ l.map Message.role := by
  induction l using List.reverseRecOn generalizing role with
  | nil => rfl
  | append_singleton l m ih =>
    rw [List.map_append, List.mem_append, List.map_singleton, List.mem_singleton]
    obtain ⟨hroles, hmem⟩ | hroles := roles_round
    · rw [hroles, ih]
      constructor
      · exact .inl
      · rintro (h | rfl)
        · exact h
        · exact ih.1 hmem
    · rw [hroles, List.mem_append, ih, List.mem_singleton]

theorem needsFront_format :
    needsFront ((formatMessages l).map Message.role) = needsFront (l.map Message.role) := by
  have hfind : ((formatMessages l).map Message.role).find? (fun role => role ≠ "system") =
      (l.map Message.role).find? fun role => role ≠ "system" := by
    induction l using List.reverseRecOn with
    | nil => rfl
    | append_singleton l m ih =>
      rw [List.map_append, List.find?_append, ← ih]
      obtain ⟨hroles, hmem⟩ | hroles := roles_round
      · rw [hroles]
        cases hfirst : ((formatMessages l).map Message.role).find? fun role => role ≠ "system" with
        | some role => rfl
        | none =>
          have hsystem : m.role = "system" := by simpa using List.find?_eq_none.1 hfirst m.role hmem
          simp [hsystem]
      · rw [hroles, List.find?_append]
        rfl
  rw [needsFront, needsFront, hfind]

/-! ### Tool calls -/

/-- The message's calls reach Claude, and so do those of the message it is merged with. -/
def CallsKept (before : List Message) (m : Message) : Prop :=
  (m.role ≠ "assistant" → m.calls = []) ∧
    ∀ a ∈ before.getLast?, Merges a m → a.role = "assistant" → a.calls = []

instance (before : List Message) (m : Message) : Decidable (CallsKept before m) :=
  inferInstanceAs (Decidable ((_ → _) ∧ ∀ a ∈ before.getLast?, Merges a m → a.role = "assistant" → a.calls = []))

def useOf (floats : Json.Floats) (call : ToolCall) : String × String × Json :=
  (call.id, call.name, inputOf floats call.arguments)

def uses (floats : Json.Floats) (l : List Message) : List (String × String × Json) :=
  l.flatMap fun m => m.calls.map (useOf floats)

theorem uses_round (floats : Json.Floats) (l : List Message) (m : Message) :
    (CallsKept l m ∧ shows floats seeUse (formatMessages (l ++ [m])) =
        shows floats seeUse (formatMessages l) ++ m.calls.map (useOf floats)) ∨
      (¬CallsKept l m ∧ (shows floats seeUse (formatMessages (l ++ [m]))).length <
        (shows floats seeUse (formatMessages l) ++ m.calls.map (useOf floats)).length) := by
  obtain ⟨-, formatted, a, c, text, h⟩ | ⟨hmerge, hround⟩ := formatMessages_round l m
  · have hkept : CallsKept l m ↔ (m.role ≠ "assistant" → m.calls = []) ∧ (a.role = "assistant" → a.calls = []) := by
      simp [CallsKept, h.last, h.merges]
    rw [hkept, h.round_eq, h.format_eq, shows_append, shows_append, shows_use, shows_use, h.merges.1]
    by_cases hm : m.role = "assistant"
    · by_cases ha : a.calls = []
      · exact .inl ⟨by simp [hm, ha], by simp [hm, ha, useOf]⟩
      · have := List.length_pos_of_ne_nil ha
        exact .inr ⟨by simp [hm, ha], by simp [hm]; omega⟩
    · by_cases hcalls : m.calls = []
      · exact .inl ⟨by simp [hm, hcalls], by simp [hm, hcalls]⟩
      · have := List.length_pos_of_ne_nil hcalls
        exact .inr ⟨by simp [hm, hcalls], by simp [hm]; omega⟩
  · have hkept : CallsKept l m ↔ (m.role ≠ "assistant" → m.calls = []) :=
      and_iff_left fun a ha hmerges => absurd ⟨a, ha, hmerges⟩ hmerge
    rw [hkept, hround, shows_append, shows_use]
    by_cases hm : m.role = "assistant"
    · exact .inl ⟨by simp [hm], by simp [hm, useOf]⟩
    · by_cases hcalls : m.calls = []
      · exact .inl ⟨by simp [hcalls], by simp [hm, hcalls]⟩
      · have := List.length_pos_of_ne_nil hcalls
        exact .inr ⟨by simp [hm, hcalls], by simp [hm]; omega⟩

theorem uses_iff :
    shows floats seeUse (formatMessages l) = uses floats l ↔ AtEach CallsKept [] l :=
  eq_iff_kept (fun l => shows floats seeUse (formatMessages l)) (uses floats)
    (fun _ m => m.calls.map (useOf floats)) rfl
    (fun l m => by simp [uses]) (uses_round floats) l

/-! ### Text -/

/-- What a message says, after the message before it: a separating space if it is merged, the
placeholder if it says nothing. -/
def said (prev : Option Message) (m : Message) : List String :=
  if ∃ a ∈ prev, Merges a m then [" ", line m.content] else (fill m.content).texts

def utter (speaker : Message → String) (prev : Option Message) (m : Message) : List (String × Char) :=
  if m.role = "system" ∨ m.role = "tool" then [] else tagged (speaker m) (said prev m)

/-- The text of the input, with placeholders and separating spaces. -/
def conversation (speaker : Message → String) : Option Message → List Message → List (String × Char)
  | _, [] => []
  | prev, m :: l => utter speaker prev m ++ conversation speaker (some m) l

variable {prev : Option Message}

theorem conversation_append_singleton (speaker : Message → String) :
    conversation speaker prev (l ++ [m]) = conversation speaker prev l ++ utter speaker (l.getLast?.or prev) m := by
  induction l generalizing prev with
  | nil => simp [conversation]
  | cons a l ih =>
    rw [List.cons_append, conversation, conversation, ih, List.append_assoc]
    cases hlast : l.getLast? <;> simp [List.getLast?_cons, hlast]

/-- The message's text reaches Claude, and the merge it is part of cuts no quote. -/
def TextKept (before : List Message) (m : Message) : Prop :=
  m.role ≠ "system" → m.role ≠ "tool" →
    (∀ s ∈ m.content.texts, s ∈ m.content.parse ∨ s = "") ∧
      ∀ a ∈ before.getLast?, Merges a m →
        endsQuote (line m.content) = false ∧ (startsQuote (line a.content) = true → MergesLast before.dropLast a)

instance (before : List Message) (m : Message) : Decidable (TextKept before m) :=
  inferInstanceAs (Decidable (_ → _ → _ ∧ ∀ a ∈ before.getLast?, Merges a m → _ ∧ _))

theorem mem_trimQuotes {c : Char} (hmem : c ∈ s.toList) (hc : c ≠ '"') : c ∈ (trimQuotes s).toList := by
  have hdrop {l : List Char} (h : c ∈ l) : c ∈ l.dropWhile (· = '"') := by
    rw [← List.takeWhile_append_dropWhile (p := fun c => decide (c = '"')) (l := l), List.mem_append] at h
    exact h.resolve_left fun h => hc (by simpa using List.mem_takeWhile_imp h)
  rw [trimQuotes, String.toList_ofList, List.mem_reverse]
  exact hdrop (List.mem_reverse.2 (hdrop hmem))

theorem fill_trimQuotes : fill (.text (trimQuotes (a ++ " " ++ b))) = .text (trimQuotes (a ++ " " ++ b)) := by
  have hmem : ' ' ∈ (trimQuotes (a ++ " " ++ b)).toList := mem_trimQuotes (by simp) (by decide)
  have hne : trimQuotes (a ++ " " ++ b) ≠ "" := by
    intro h
    simp [h] at hmem
  rw [fill, if_neg hne]

theorem length_tagged_singleton : (tagged role [s]).length = s.toList.length := by
  simp [tagged]

theorem tagged_join : tagged role [a ++ " " ++ b] = tagged role [a] ++ tagged role [" ", b] := by
  simp [tagged]

theorem spoken_alone :
    ((∀ s ∈ m.content.texts, s ∈ m.content.parse ∨ s = "") ∧
        tagged m.role (fill m.content).parse = tagged m.role (fill m.content).texts) ∨
      ((¬∀ s ∈ m.content.texts, s ∈ m.content.parse ∨ s = "") ∧
        (tagged m.role (fill m.content).parse).length < (tagged m.role (fill m.content).texts).length) := by
  cases m.content with
  | absent => exact .inl ⟨by simp [Content.texts], rfl⟩
  | text s =>
    refine .inl ⟨by simp [Content.texts, Content.parse], ?_⟩
    rw [fill]
    split_ifs <;> rfl
  | parts l => exact .inl ⟨fun s hs => .inl hs, rfl⟩
  | media l =>
    by_cases hempty : ∀ s ∈ l, s = ""
    · refine .inl ⟨fun s hs => .inr (hempty s hs), ?_⟩
      refine (List.flatMap_eq_nil_iff.2 fun s hs => ?_).symm
      simp [hempty s hs]
    · refine .inr ⟨fun h => hempty fun s hs => (h s hs).resolve_left List.not_mem_nil, ?_⟩
      push Not at hempty
      obtain ⟨s, hs, hne⟩ := hempty
      refine List.length_pos_of_ne_nil fun hnil => hne ?_
      have := List.flatMap_eq_nil_iff.1 hnil s hs
      simpa using this

theorem textKept_of_hidden (h : m.role = "system" ∨ m.role = "tool") : TextKept l m :=
  fun hsystem htool => absurd h (by simp [hsystem, htool])

theorem textKept_alone (hshown : ¬(m.role = "system" ∨ m.role = "tool"))
    (hmerge : ¬MergesLast l m) : TextKept l m ↔ ∀ s ∈ m.content.texts, s ∈ m.content.parse ∨ s = "" := by
  rw [not_or] at hshown
  constructor
  · intro h
    exact (h hshown.1 hshown.2).1
  · exact fun h _ _ => ⟨h, fun a ha hmerges => absurd ⟨a, ha, hmerges⟩ hmerge⟩

theorem textKept_merging {formatted : List Message} {a : Message} {c : Content} {text : String}
    (hshown : ¬(m.role = "system" ∨ m.role = "tool")) (h : Merging l m formatted a c text) :
    TextKept l m ↔ startsQuote text = false ∧ endsQuote (line m.content) = false := by
  rw [not_or] at hshown
  obtain ⟨before, rfl⟩ := List.getLast?_eq_some_iff.1 h.last
  have hstart := startsQuote_of_format h.format_eq h.fill_eq
  have hparse : ∀ s ∈ m.content.texts, s ∈ m.content.parse ∨ s = "" := by
    obtain ⟨-, -, -, hstring⟩ := h.merges
    cases hc : m.content with
    | text b => simp [Content.texts, Content.parse]
    | absent => simp [hc, Content.isString] at hstring
    | parts l => simp [hc, Content.isString] at hstring
    | media l => simp [hc, Content.isString] at hstring
  constructor
  · intro hkept
    obtain ⟨hend, hstarts⟩ := (hkept hshown.1 hshown.2).2 a h.last h.merges
    rw [List.dropLast_concat] at hstarts
    refine ⟨?_, hend⟩
    by_contra hne
    obtain ⟨ha, hnot⟩ := hstart.1 (by simpa using hne)
    exact hnot (hstarts ha)
  · rintro ⟨htext, hend⟩ - -
    refine ⟨hparse, fun a' ha' _ => ⟨hend, fun hquote => ?_⟩⟩
    rw [h.last] at ha'
    cases ha'
    rw [List.dropLast_concat]
    by_contra hnot
    simp [hstart.2 ⟨hquote, hnot⟩] at htext

theorem spoken_round (floats : Json.Floats) (l : List Message) (m : Message) :
    (TextKept l m ∧ shows floats seeText (formatMessages (l ++ [m])) =
        shows floats seeText (formatMessages l) ++ utter Message.role l.getLast? m) ∨
      (¬TextKept l m ∧ (shows floats seeText (formatMessages (l ++ [m]))).length <
        (shows floats seeText (formatMessages l) ++ utter Message.role l.getLast? m).length) := by
  obtain ⟨hmerge, formatted, a, c, text, h⟩ | ⟨hmerge, hround⟩ := formatMessages_round l m
  · rw [h.round_eq, h.format_eq, shows_append, shows_append, shows_text, shows_text, utter, h.merges.1, h.fill_eq,
      fill_trimQuotes]
    by_cases hhidden : m.role = "system" ∨ m.role = "tool"
    · exact .inl ⟨textKept_of_hidden hhidden, by simp [hhidden]⟩
    · have hsaid : said l.getLast? m = [" ", line m.content] := if_pos hmerge
      rw [if_neg hhidden, if_neg hhidden, if_neg hhidden, textKept_merging hhidden h, hsaid,
        List.append_assoc, Content.parse,
        Content.parse, ← tagged_join, ← startsQuote_join, ← endsQuote_join]
      by_cases hquotes : startsQuote (text ++ " " ++ line m.content) = false ∧
        endsQuote (text ++ " " ++ line m.content) = false
      · exact .inl ⟨hquotes, by rw [trimQuotes_eq_self hquotes.1 hquotes.2]⟩
      · refine .inr ⟨hquotes, ?_⟩
        rw [not_and_or, Bool.not_eq_false, Bool.not_eq_false] at hquotes
        have hlt := length_trimQuotes_lt hquotes
        simp only [List.length_append, length_tagged_singleton]
        omega
  · rw [hround, shows_append, shows_text, utter]
    by_cases hhidden : m.role = "system" ∨ m.role = "tool"
    · exact .inl ⟨textKept_of_hidden hhidden, by simp [hhidden]⟩
    · have hsaid : said l.getLast? m = (fill m.content).texts := if_neg hmerge
      rw [if_neg hhidden, if_neg hhidden, textKept_alone hhidden hmerge, hsaid]
      obtain ⟨hparse, heq⟩ | ⟨hparse, hlt⟩ := spoken_alone
      · exact .inl ⟨hparse, by rw [heq]⟩
      · refine .inr ⟨hparse, ?_⟩
        simp only [List.length_append]
        omega

theorem spoken_iff :
    shows floats seeText (formatMessages l) = conversation Message.role none l ↔ AtEach TextKept [] l := by
  refine eq_iff_kept (fun l => shows floats seeText (formatMessages l)) (conversation Message.role none)
    (fun l m => utter Message.role l.getLast? m) rfl (fun l m => ?_) (spoken_round floats) l
  rw [conversation_append_singleton, Option.or_none]

/-! ### The conversation -/

def speaker (m : Message) : String := if m.role = "" then "user" else m.role

/-- The tool use of a call: its id, its name, and the object that its arguments are. -/
def CallMatches (floats : Json.Floats) (call : ToolCall) (use : String × String × Json) : Prop :=
  use.1 = call.id ∧ use.2.1 = call.name ∧
    if call.arguments = "" then use.2.2 = .obj [] else Json.decode floats false call.arguments = some use.2.2

/-- The messages hold the conversation. The text has the placeholder in front if the user does not
speak first. -/
structure Preserved (floats : Json.Floats) (messages : List Message) (out : List (ClaudeMessage Content)) : Prop where
  roles : ∀ m ∈ out, m.role = "user" ∨ m.role = "assistant"
  first : ∀ m ∈ out.head?, m.role = "user"
  uses : List.Forall₂ (CallMatches floats) (messages.flatMap Message.calls) (toolUses out)
  results : toolResults out = (messages.filter fun m => m.role = "tool").map fun m => (m.toolCallId, m.content)
  text : spoken out =
    (if needsFront (messages.map speaker) = true then tagged "user" [placeholder] else []) ++
      conversation speaker none messages

structure Convertible (messages : List Message) : Prop where
  roles : ∀ m ∈ messages, m.role ≠ ""
  results : ∀ m ∈ messages, m.role = "tool" → m.content ≠ .absent ∧ m.content ≠ .text ""
  calls : AtEach CallsKept [] messages
  text : AtEach TextKept [] messages

def ArgumentsRead (floats : Json.Floats) (messages : List Message) : Prop :=
  ∀ m ∈ messages, ∀ call ∈ m.calls, call.arguments = "" ∨ ∃ l, Json.decode floats false call.arguments = some (.obj l)

theorem callMatches_iff {floats : Json.Floats} {call : ToolCall}
    (h : call.arguments = "" ∨ ∃ l, Json.decode floats false call.arguments = some (.obj l))
    (use : String × String × Json) :
    CallMatches floats call use ↔ use = useOf floats call := by
  obtain ⟨id, name, input⟩ := use
  simp only [CallMatches, useOf, inputOf, Prod.mk.injEq]
  obtain h | ⟨l, h⟩ := h
  · simp [h]
  · by_cases hempty : call.arguments = ""
    · simp [hempty]
    · simp [hempty, h, eq_comm]

theorem forall₂_callMatches {floats : Json.Floats} {calls : List ToolCall} {l : List (String × String × Json)}
    (h : ∀ call ∈ calls, call.arguments = "" ∨ ∃ l, Json.decode floats false call.arguments = some (.obj l)) :
    List.Forall₂ (CallMatches floats) calls l ↔ l = calls.map (useOf floats) := by
  induction calls generalizing l with
  | nil => simp
  | cons call calls ih =>
    rw [List.forall₂_cons_left_iff, List.map_cons]
    constructor
    · rintro ⟨use, rest, huse, hrest, rfl⟩
      rw [(callMatches_iff (h call List.mem_cons_self) use).1 huse,
        (ih fun c hc => h c (List.mem_cons_of_mem _ hc)).1 hrest]
    · rintro rfl
      exact ⟨_, _, (callMatches_iff (h call List.mem_cons_self) _).2 rfl,
        (ih fun c hc => h c (List.mem_cons_of_mem _ hc)).2 rfl, rfl⟩

theorem conversation_congr {f g : Message → String} (h : ∀ m ∈ l, f m = g m) :
    conversation f prev l = conversation g prev l := by
  induction l generalizing prev with
  | nil => rfl
  | cons m l ih =>
    rw [conversation, conversation, ih fun m hm => h m (List.mem_cons_of_mem _ hm), utter, utter,
      h m List.mem_cons_self]

theorem fill_eq_self_iff : fill c = c ↔ c ≠ .absent ∧ c ≠ .text "" := by
  cases c with
  | text s =>
    by_cases hs : s = ""
    · simp [fill, hs, placeholder]
    · simp [fill, hs]
  | absent => simp [fill]
  | parts l => simp [fill]
  | media l => simp [fill]

theorem roles_iff {messages : List Message}
    (hroles : ∀ m ∈ messages, m.role ∈ ["", "system", "user", "assistant", "tool"]) :
    (∀ m ∈ claudeMessages floats messages, m.role = "user" ∨ m.role = "assistant") ↔ ∀ m ∈ messages, m.role ≠ "" := by
  have hmem := (@roles_claudeMessages floats messages).2
  constructor
  · intro hout m hm hempty
    have hformat : "" ∈ (formatMessages messages).map Message.role := by
      rw [mem_roles_format, ← hempty]
      exact List.mem_map_of_mem hm
    obtain ⟨f, hf, hrole⟩ := List.mem_map.1 hformat
    have hshown : "" ∈ (claudeMessages floats messages).map ClaudeMessage.role :=
      (hmem "").2 (.inr ⟨f, hf, by simp [hrole], by simp [roleOf, hrole]⟩)
    obtain ⟨c, hc, hrole⟩ := List.mem_map.1 hshown
    simpa [hrole] using hout c hc
  · intro hne c hc
    obtain ⟨-, huser⟩ | ⟨f, hf, hsystem, hrole⟩ := (hmem c.role).1 (List.mem_map_of_mem hc)
    · exact .inl huser
    · obtain ⟨m, hm, hmf⟩ := List.mem_map.1 (mem_roles_format.1 (List.mem_map_of_mem hf))
      have hm' := hroles m hm
      have hne' := hne m hm
      rw [hmf] at hm' hne'
      rw [hrole, roleOf]
      simp only [List.mem_cons, List.not_mem_nil, or_false] at hm'
      rcases hm' with h | h | h | h | h <;> simp_all

theorem results_iff (messages : List Message) :
    toolResults (claudeMessages floats messages) =
        ((messages.filter fun m => m.role = "tool").map fun m => (m.toolCallId, m.content)) ↔
      ∀ m ∈ messages, m.role = "tool" → m.content ≠ .absent ∧ m.content ≠ .text "" := by
  have hfront : observe seeResult [front] = [] := rfl
  rw [toolResults, observe_claudeMessages, hfront, ite_self, List.nil_append, shows_results, List.map_inj_left]
  simp [fill_eq_self_iff]

/-- The conversion keeps the conversation exactly if nothing is lost on the way. -/
theorem preserved_iff (floats : Json.Floats) (messages : List Message)
    (hroles : ∀ m ∈ messages, m.role ∈ ["", "system", "user", "assistant", "tool"])
    (harguments : ArgumentsRead floats messages) :
    Preserved floats messages (claudeMessages floats messages) ↔ Convertible messages := by
  have hcalls : List.Forall₂ (CallMatches floats) (messages.flatMap Message.calls)
      (toolUses (claudeMessages floats messages)) ↔ AtEach CallsKept [] messages := by
    have hfront : observe seeUse [front] = [] := rfl
    have hread : ∀ call ∈ messages.flatMap Message.calls,
        call.arguments = "" ∨ ∃ l, Json.decode floats false call.arguments = some (.obj l) := by
      intro call hcall
      obtain ⟨m, hm, hcall⟩ := List.mem_flatMap.1 hcall
      exact harguments m hm call hcall
    rw [forall₂_callMatches hread, toolUses, observe_claudeMessages, hfront, ite_self,
      List.nil_append, List.map_flatMap,
      ← uses_iff]
    rfl
  have htext (hne : ∀ m ∈ messages, m.role ≠ "") :
      (spoken (claudeMessages floats messages) =
        (if needsFront (messages.map speaker) = true then tagged "user" [placeholder] else []) ++
          conversation speaker none messages) ↔ AtEach TextKept [] messages := by
    have hspeaker : ∀ m ∈ messages, speaker m = m.role := fun m hm => if_neg (hne m hm)
    have hfront : observe seeText [front] = tagged "user" [placeholder] := rfl
    rw [spoken, observe_claudeMessages, hfront, needsFront_format, List.map_congr_left hspeaker,
      conversation_congr hspeaker,
      List.append_right_inj, spoken_iff]
  have hfirst : ∀ m ∈ (claudeMessages floats messages).head?, m.role = "user" := by
    intro m hm
    refine (@roles_claudeMessages floats messages).1 m.role ?_
    rw [List.head?_map, hm]
    rfl
  constructor
  · intro h
    have hne := (roles_iff hroles).1 h.roles
    exact ⟨hne, (results_iff messages).1 h.results, hcalls.1 h.uses, (htext hne).1 h.text⟩
  · intro h
    exact ⟨(roles_iff hroles).2 h.roles, hfirst, hcalls.2 h.calls, (results_iff messages).2 h.results,
      (htext h.roles).2 h.text⟩

def weatherChat : List Message :=
  [⟨"system", .text "Be brief.", none, ""⟩, ⟨"user", .text "Weather?", none, ""⟩, ⟨"user", .text "In Rome.", none, ""⟩,
    ⟨"assistant", .absent, some [⟨"call_1", "weather", "\x7b\"city\":\"Rome\"\x7d"⟩], ""⟩,
    ⟨"tool", .text "sunny", none, "call_1"⟩, ⟨"assistant", .text "It is sunny.", none, ""⟩]

theorem argumentsRead_weatherChat : ArgumentsRead .literal weatherChat := by
  have hread : (Json.decode .literal false "\x7b\"city\":\"Rome\"\x7d").any (· matches .obj _) =
      true := by decide +kernel
  obtain ⟨v, hv, hobj⟩ := (Option.any_eq_true _ _).1 hread
  cases v <;> simp_all [ArgumentsRead, weatherChat, Message.calls]

theorem preserved_weatherChat : Preserved .literal weatherChat (claudeMessages .literal weatherChat) :=
  (preserved_iff .literal weatherChat (by decide) argumentsRead_weatherChat).2
    ⟨by decide, by decide, by decide +kernel, by decide +kernel⟩

/-- An assistant message with a call, directly followed by another one: the message they are merged
to has no call. -/
def mergedCall : List Message :=
  [⟨"user", .text "Weather?", none, ""⟩, ⟨"assistant", .text "Let me look.", some [⟨"call_1", "weather", ""⟩], ""⟩,
    ⟨"assistant", .text "One moment.", none, ""⟩]

theorem mergedCall_lost : toolUses (claudeMessages .literal mergedCall) = [] ∧
    ¬Preserved .literal mergedCall (claudeMessages .literal mergedCall) := by
  have hnone : toolUses (claudeMessages .literal mergedCall) = [] := List.length_eq_zero_iff.1 (by decide +kernel)
  refine ⟨hnone, fun h => ?_⟩
  have huses := h.uses
  rw [hnone, List.forall₂_nil_right_iff] at huses
  cases huses

end TokenEra.Request.ChatToClaude
