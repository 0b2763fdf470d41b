import TokenEra.Request.ChatToClaudeKept
import TokenEra.Request.ClaudeToChat

/-!
# From Claude to chat and back

Tool uses and tool results of a conversation with alternating roles survive both conversions. The
chat messages in between are never merged on the way back (`formatMessages_chat`): two neighbours of
one role are tool messages.
-/

namespace TokenEra.Request.ClaudeRoundTrip

open Lib ClaudeMessage Request.ClaudeToChat Request.ChatToClaude

/-! ### No merges -/

def Apart (a b : Message) : Prop := a.role = b.role → a.role = "tool"

theorem formatMessages_of_apart {l : List Message} (h : l.IsChain Apart) :
    formatMessages l = l.map fun m => format m m.content := by
  induction l using List.reverseRecOn with
  | nil => rfl
  | append_singleton l m ih =>
    obtain ⟨hl, -, hlast⟩ := List.isChain_append.1 h
    obtain ⟨⟨a, ha, hmerges⟩, -⟩ | ⟨-, hround⟩ := formatMessages_round l m
    · exact absurd (hlast a ha m rfl hmerges.1) hmerges.2.1
    · rw [hround, ih hl, List.map_append]
      rfl

/-! ### Well-formed conversations -/

/-- The blocks that a role may have: text, tool uses of the assistant, tool results of the user. -/
def GoodBlock (floats : Json.Floats) (role : String) : Block Result → Prop
  | .text s => s ≠ ""
  | .toolUse _ _ input => role = "assistant" ∧ Json.Decoded floats input ∧ ∃ l, input = .obj l
  | .toolResult _ content => role = "user" ∧ ∃ s, s ≠ "" ∧ content = .text s

structure WellFormed (floats : Json.Floats) (m : ClaudeMessage Result) : Prop where
  role : m.role = "user" ∨ m.role = "assistant"
  content : m.content.toBlocks ≠ []
  blocks : ∀ b ∈ m.content.toBlocks, GoodBlock floats m.role b

variable {floats : Json.Floats} {m : ClaudeMessage Result}

theorem WellFormed.uses (h : WellFormed floats m) {use : String × String × Json} (huse : use ∈ ClaudeToChat.uses m) :
    m.role = "assistant" ∧ inputOf floats (Json.encode use.2.2) = use.2.2 := by
  obtain ⟨b, hb, hmem⟩ := List.mem_flatMap.1 huse
  have hgood := h.blocks b hb
  cases b with
  | text s => cases hmem
  | toolResult id content => cases hmem
  | toolUse id name input =>
    obtain ⟨hrole, hdecoded, l, rfl⟩ := hgood
    rw [List.mem_singleton.1 hmem]
    refine ⟨hrole, ?_⟩
    have hread := Json.decode_encode hdecoded false
    have hne : Json.encode (.obj l) ≠ "" := by
      intro hempty
      rw [hempty] at hread
      cases hread
    rw [inputOf, if_neg hne, hread]

theorem WellFormed.results (h : WellFormed floats m) {r : String × Result} (hr : r ∈ ClaudeToChat.results m) :
    m.role = "user" ∧ fill (.text r.2.message) = .text r.2.expected := by
  obtain ⟨b, hb, hmem⟩ := List.mem_flatMap.1 hr
  have hgood := h.blocks b hb
  cases b with
  | text s => cases hmem
  | toolUse id name input => cases hmem
  | toolResult id content =>
    obtain ⟨hrole, s, hs, rfl⟩ := hgood
    rw [List.mem_singleton.1 hmem]
    exact ⟨hrole, if_neg hs⟩

/-- A message of the assistant has no results, one of the user no tool uses. -/
theorem WellFormed.results_eq_nil (h : WellFormed floats m) (hrole : m.role = "assistant") :
    ClaudeToChat.results m = [] := by
  refine List.eq_nil_iff_forall_not_mem.2 fun r hr => ?_
  exact absurd (hrole.symm.trans (h.results hr).1) (by decide)

/-! ### The chat messages in between -/

theorem turn_ne_nil (h : WellFormed floats m) : turn m ≠ [] := by
  intro hnil
  obtain ⟨hresults, hanswer⟩ := List.append_eq_nil_iff.1 hnil
  obtain ⟨role, content⟩ := m
  cases content with
  | text s => cases hanswer
  | blocks l =>
    rw [answer] at hanswer
    split_ifs at hanswer with hnone
    obtain ⟨huses, htexts⟩ := hnone
    refine h.content (List.eq_nil_iff_forall_not_mem.2 fun b hb => ?_)
    cases b with
    | text s => exact absurd (List.flatMap_eq_nil_iff.1 htexts _ hb) (List.cons_ne_nil _ _)
    | toolUse id name input => exact absurd (List.flatMap_eq_nil_iff.1 huses _ hb) (List.cons_ne_nil _ _)
    | toolResult id c =>
      exact absurd (List.flatMap_eq_nil_iff.1 (List.map_eq_nil_iff.1 hresults) _ hb) (List.cons_ne_nil _ _)

theorem role_turn (h : WellFormed floats m) {o : Message} (ho : o ∈ turn m) :
    o.role = m.role ∨ (o.role = "tool" ∧ m.role = "user") := by
  obtain ho | ho := List.mem_append.1 ho
  · obtain ⟨r, hr, rfl⟩ := List.mem_map.1 ho
    exact .inr ⟨rfl, (h.results hr).1⟩
  · exact .inl (role_answer ho)

theorem isChain_of_length {R : Message → Message → Prop} {l : List Message} (h : l.length ≤ 1) : l.IsChain R := by
  match l, h with
  | [], _ => exact .nil
  | [_], _ => exact .singleton _

theorem length_answer : (answer m).length ≤ 1 := by
  unfold answer
  split
  · exact Nat.le_refl 1
  · split_ifs <;> simp

theorem length_systemMessages (openRouterClaude : Bool) (system : System) :
    (systemMessages openRouterClaude system).length ≤ 1 := by
  unfold systemMessages
  split
  · exact Nat.zero_le 1
  · split_ifs <;> simp
  · exact Nat.zero_le 1
  · exact Nat.le_refl 1

theorem apart_turn : (turn m).IsChain Apart := by
  have hresults : ((ClaudeToChat.results m).map fun r => toolMessage r.1 r.2).IsChain Apart :=
    List.Pairwise.isChain (List.pairwise_iff_forall_sublist.2 fun h _ =>
      role_toolMessages (h.subset List.mem_cons_self))
  refine List.isChain_append.2 ⟨hresults, isChain_of_length length_answer, fun a ha b _ _ => ?_⟩
  exact role_toolMessages (List.mem_of_mem_getLast? ha)

theorem apart_turns {m' : ClaudeMessage Result} (h : WellFormed floats m)
    (h' : WellFormed floats m') (hne : m.role ≠ m'.role)
    {a b : Message} (ha : a ∈ turn m) (hb : b ∈ turn m') : Apart a b := by
  intro heq
  obtain ha | ⟨ha, -⟩ := role_turn h ha
  · obtain hb | ⟨hb, -⟩ := role_turn h' hb
    · exact absurd (ha.symm.trans (heq.trans hb)) hne
    · exact heq.trans hb
  · exact ha

/-- No two neighbours are merged on the way back. -/
theorem formatMessages_chat {openRouterClaude : Bool} {system : System} {messages : List (ClaudeMessage Result)}
    (halternate : messages.IsChain fun a b => a.role ≠ b.role) (hmessages : ∀ m ∈ messages, WellFormed floats m) :
    formatMessages (chatMessages openRouterClaude system messages) =
      (chatMessages openRouterClaude system messages).map fun m => format m m.content := by
  refine formatMessages_of_apart ?_
  have hnil : [] ∉ messages.map turn := by
    intro hmem
    obtain ⟨m, hm, hnil⟩ := List.mem_map.1 hmem
    exact turn_ne_nil (hmessages m hm) hnil
  have hturns : ∀ l ∈ messages.map turn, l.IsChain Apart := by
    intro l hl
    obtain ⟨m, -, rfl⟩ := List.mem_map.1 hl
    exact apart_turn
  rw [chatMessages, foldl_addMessage, List.flatMap_def]
  refine List.isChain_append.2 ⟨isChain_of_length (length_systemMessages _ _), ?_, fun a ha b hb heq => ?_⟩
  · refine (List.isChain_flatten hnil).2 ⟨hturns, (List.isChain_map turn).2 ?_⟩
    refine (List.IsChain.iff_mem.1 halternate).imp fun m m' h x hx y hy => ?_
    exact apart_turns (hmessages m h.1) (hmessages m' h.2.1) h.2.2 (List.mem_of_mem_getLast? hx)
      (List.mem_of_mem_head? hy)
  · have hsystem := role_systemMessages (List.mem_of_mem_getLast? ha)
    obtain ⟨m, hm, hmem⟩ := List.mem_flatMap.1 (List.flatMap_def ▸ List.mem_of_mem_head? hb)
    obtain hrole | ⟨hrole, -⟩ := role_turn (hmessages m hm) hmem
    · rw [heq, hrole] at hsystem
      simpa [hsystem] using (hmessages m hm).role
    · exact absurd (hsystem.symm.trans (heq.trans hrole)) (by decide)

/-! ### The traffic -/

theorem shows_tool (m : Message) :
    shows floats (seeTool id) [format m m.content] =
      if m.role = "tool" then [("user", .toolResult m.toolCallId (fill m.content))]
      else if m.role = "assistant" then m.calls.map fun call => (m.role, toolUse floats call) else [] := by
  have htexts (l : List String) : l.flatMap (fun s => seeTool (R := Content) id m.role (.text s)) = [] :=
    List.flatMap_eq_nil_iff.2 fun _ _ => rfl
  rw [shows_singleton, htexts, List.nil_append, List.map_eq_flatMap]
  by_cases hsystem : m.role = "system"
  · simp [hsystem]
  · rw [if_neg hsystem]
    split_ifs <;> rfl

theorem shows_map (g : String → Block Content → List (String × Block Content)) (l : List Message) :
    shows floats g (l.map fun o => format o o.content) = l.flatMap fun o => shows floats g [format o o.content] := by
  simp [shows, List.flatMap_map]

/-- The traffic of the user is the results, that of the assistant the tool uses. -/
theorem seeTool_user (h : WellFormed floats m) (hrole : m.role = "user") {C : Type} (f : Result → C) :
    m.content.toBlocks.flatMap (seeTool f m.role) =
      (ClaudeToChat.results m).map fun r => ("user", .toolResult r.1 (f r.2)) := by
  rw [ClaudeToChat.results, List.map_flatMap]
  refine List.flatMap_congr fun b hb => ?_
  have hgood := h.blocks b hb
  cases b with
  | text s => rfl
  | toolResult id content => simp [seeTool, seeResult, hrole]
  | toolUse id name input => exact absurd (hrole.symm.trans hgood.1) (by decide)

theorem seeTool_assistant (h : WellFormed floats m) (hrole : m.role = "assistant") {C : Type} (f : Result → C) :
    m.content.toBlocks.flatMap (seeTool f m.role) =
      (ClaudeToChat.uses m).map fun use => ("assistant", .toolUse use.1 use.2.1 use.2.2) := by
  rw [ClaudeToChat.uses, List.map_flatMap]
  refine List.flatMap_congr fun b hb => ?_
  have hgood := h.blocks b hb
  cases b with
  | text s => rfl
  | toolUse id name input => simp [seeTool, seeUse, hrole]
  | toolResult id content => exact absurd (hrole.symm.trans hgood.1) (by decide)

theorem shows_turn (h : WellFormed floats m) :
    shows floats (seeTool id) ((turn m).map fun o => format o o.content) =
      m.content.toBlocks.flatMap (seeTool (fun r => Content.text r.expected) m.role) := by
  rw [shows_map, turn, List.flatMap_append, List.flatMap_map]
  obtain hrole | hrole := h.role
  · have hanswer : ((answer m).flatMap fun o => shows floats (seeTool id) [format o o.content]) = [] := by
      refine List.flatMap_eq_nil_iff.2 fun o ho => ?_
      rw [shows_tool, role_answer ho, hrole]
      rfl
    rw [seeTool_user h hrole, hanswer, List.append_nil, List.map_eq_flatMap]
    refine List.flatMap_congr fun r hr => ?_
    rw [shows_tool]
    simp [toolMessage, (h.results hr).2]
  · have hanswer : ∀ o ∈ answer m, shows floats (seeTool id) [format o o.content] =
        o.calls.map fun call => ("assistant", toolUse floats call) := by
      intro o ho
      rw [shows_tool, role_answer ho, hrole]
      rfl
    rw [seeTool_assistant h hrole, h.results_eq_nil hrole, List.flatMap_nil, List.nil_append,
      List.flatMap_congr hanswer,
      ← List.map_flatMap, calls_answer, List.map_map]
    refine List.map_congr_left fun use huse => ?_
    simp [toolUse, toolCall, (h.uses huse).2]

def InPlace : String × Block Content → Prop
  | (role, .toolUse _ _ _) => role = "assistant"
  | (role, .toolResult _ _) => role = "user"
  | (_, .text _) => False

theorem inPlace_seeTool (h : WellFormed floats m) {x : String × Block Content}
    (hx : x ∈ m.content.toBlocks.flatMap (seeTool (fun r => Content.text r.expected) m.role)) : InPlace x := by
  obtain ⟨b, hb, hx⟩ := List.mem_flatMap.1 hx
  have hgood := h.blocks b hb
  cases b with
  | text s => cases hx
  | toolUse id name input =>
    rw [List.mem_singleton.1 hx]
    exact hgood.1
  | toolResult id content =>
    rw [List.mem_singleton.1 hx]
    exact hgood.1

/-- Tool uses and tool results survive both conversions, in messages of their roles. -/
theorem toolTraffic_roundTrip (floats : Json.Floats) (openRouterClaude : Bool) (system : System)
    (messages : List (ClaudeMessage Result)) (halternate : messages.IsChain fun a b => a.role ≠ b.role)
    (hmessages : ∀ m ∈ messages, WellFormed floats m) :
    observe (seeTool id) (claudeMessages floats (chatMessages openRouterClaude system messages)) =
        observe (seeTool fun r => Content.text r.expected) messages ∧
      ∀ x ∈ observe (seeTool id) (claudeMessages floats
        (chatMessages openRouterClaude system messages)), InPlace x := by
  have hfront : observe (seeTool id) [front] = ([] : List (String × Block Content)) := rfl
  have hsystem : shows floats (seeTool id) ((systemMessages openRouterClaude system).map fun o =>
      format o o.content) = [] := by
    rw [shows_map]
    refine List.flatMap_eq_nil_iff.2 fun o ho => ?_
    rw [shows_tool, role_systemMessages ho]
    rfl
  have hturns : shows floats (seeTool id) ((messages.flatMap turn).map fun o => format o o.content) =
      observe (seeTool fun r => Content.text r.expected) messages := by
    rw [shows_map, List.flatMap_assoc]
    refine List.flatMap_congr fun m hm => ?_
    rw [← shows_map, shows_turn (hmessages m hm)]
  rw [observe_claudeMessages, hfront, ite_self, List.nil_append, formatMessages_chat halternate hmessages, chatMessages,
    foldl_addMessage, List.map_append, shows_append, hsystem, List.nil_append, hturns]
  refine ⟨rfl, fun x hx => ?_⟩
  obtain ⟨m, hm, hx⟩ := List.mem_flatMap.1 hx
  exact inPlace_seeTool (hmessages m hm) hx

def twoCalls : List (ClaudeMessage Result) :=
  [⟨"user", .text "Weather?"⟩,
    ⟨"assistant", .blocks [.toolUse "toolu_1" "place" (.obj []), .text "Let me look.",
      .toolUse "toolu_2" "weather" (.obj [("city", .str "Rome")])]⟩,
    ⟨"user", .blocks [.toolResult "toolu_1" (.text "Rome"), .text "Be brief.", .toolResult "toolu_2" (.text "sunny")]⟩]

theorem wellFormed_twoCalls : ∀ m ∈ twoCalls, WellFormed .literal m := by
  have hcity : Json.Decoded .literal (.obj [("city", .str "Rome")]) :=
    .of_valid (by simp [Json.Valid, Json.ValidMembers]) (by simp [Json.depth, Json.depthMembers, Json.maxNestingDepth])
  have hempty : Json.Decoded .literal (.obj []) :=
    .of_valid (by simp [Json.Valid, Json.ValidMembers]) (by simp [Json.depth, Json.depthMembers, Json.maxNestingDepth])
  intro m hm
  simp only [twoCalls, List.mem_cons, List.not_mem_nil, or_false] at hm
  rcases hm with rfl | rfl | rfl
  · exact ⟨.inl rfl, by simp [ClaudeContent.toBlocks], by simp [ClaudeContent.toBlocks, GoodBlock]⟩
  · exact ⟨.inr rfl, by simp [ClaudeContent.toBlocks], by simp [ClaudeContent.toBlocks, GoodBlock, hcity, hempty]⟩
  · exact ⟨.inl rfl, by simp [ClaudeContent.toBlocks], by simp [ClaudeContent.toBlocks, GoodBlock]⟩

theorem twoCalls_roundTrip :
    observe (seeTool id) (claudeMessages .literal (chatMessages false .absent twoCalls)) =
      [("assistant", .toolUse "toolu_1" "place" (.obj [])),
        ("assistant", .toolUse "toolu_2" "weather" (.obj [("city", .str "Rome")])),
        ("user", .toolResult "toolu_1" (.text "Rome")), ("user", .toolResult "toolu_2" (.text "sunny"))] :=
  (toolTraffic_roundTrip .literal false .absent twoCalls (by simp [twoCalls]) wellFormed_twoCalls).1

end TokenEra.Request.ClaudeRoundTrip
