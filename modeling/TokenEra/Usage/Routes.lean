import TokenEra.Usage.Counts

/-!
# Conversion routes and billing

`ConvertResponse` takes an upstream response to the format of the client, directly or through the
chat format. It returns a usage with the converted response, and settlement bills
`effectiveBillingUsage` of that usage.

Every converter keeps the upstream's record in `billingUsage`, and settlement reads nothing else if
it is there (`effectiveBillingUsage_of_record`). So what is billed does not depend on the route.

The contents of the responses, which no usage depends on, are of arbitrary types, and the converters
of the contents are parameters.
-/

namespace TokenEra.TokenUsage

open Lib

/-! ### What settlement reads -/

/-- Simple case folding, as far as a comparison with an ASCII text can tell. -/
def foldChar (c : Char) : Char :=
  if c.toNat = 0x17f then 's' else if c.toNat = 0x212a then 'k' else c.toLower

/-- `strings.EqualFold` with a lower-case ASCII text. -/
def equalFold (s ascii : String) : Bool := s.toList.map foldChar = ascii.toList

/-- `value` unless it is zero and `detail` is positive. -/
def orDetail (value detail : Int) : Int := if value = 0 ∧ 0 < detail then detail else value

def InputTokenDetails.orDetails (d : InputTokenDetails) : Option InputTokenDetails → InputTokenDetails
  | none => d
  | some i =>
    { cachedTokens := orDetail d.cachedTokens i.cachedTokens
      cachedCreationTokens := orDetail d.cachedCreationTokens i.cachedCreationTokens
      cacheWriteTokens := orDetail d.cacheWriteTokens i.cacheWriteTokens
      textTokens := orDetail d.textTokens i.textTokens
      audioTokens := orDetail d.audioTokens i.audioTokens
      imageTokens := orDetail d.imageTokens i.imageTokens }

def usageFromOpenAIBillingUsage (b : BillingUsage) (u : Counts) : Usage :=
  let promptTokens := orDetail u.promptTokens u.inputTokens
  let completionTokens := orDetail u.completionTokens u.outputTokens
  let details := u.promptTokensDetails.orDetails u.inputTokensDetails
  { u with
    promptTokens := promptTokens
    completionTokens := completionTokens
    inputTokens := orDetail u.inputTokens promptTokens
    outputTokens := orDetail u.outputTokens completionTokens
    totalTokens := if u.totalTokens = 0 then promptTokens + completionTokens else u.totalTokens
    promptTokensDetails := { details with cachedTokens := orDetail details.cachedTokens u.promptCacheHitTokens }
    usageSemantic := "openai"
    usageSource := b.source
    billingUsage := some b }

def usageFromClaudeBillingUsage (b : BillingUsage) (u : ClaudeCounts) : Usage where
  promptTokens := u.inputTokens
  completionTokens := u.outputTokens
  totalTokens := u.inputTokens + u.outputTokens
  inputTokens := u.inputTokens + u.cacheReadInputTokens + u.cacheCreationInputTokens
  outputTokens := u.outputTokens
  usageSemantic := "anthropic"
  usageSource := "claude_messages"
  billingUsage := some b
  claudeCacheCreation5mTokens :=
    if u.getCacheCreation5mTokens = 0 then u.claudeCacheCreation5mTokens else u.getCacheCreation5mTokens
  claudeCacheCreation1hTokens :=
    if u.getCacheCreation1hTokens = 0 then u.claudeCacheCreation1hTokens else u.getCacheCreation1hTokens
  promptTokensDetails :=
    { cachedTokens := u.cacheReadInputTokens, cachedCreationTokens := u.cacheCreationInputTokens }

def usageFromGeminiBillingUsage (b : BillingUsage) (m : GeminiCounts) : Usage :=
  let promptTokens := wrap64 (m.promptTokenCount + m.toolUsePromptTokenCount)
  let generated := wrap64 (m.candidatesTokenCount + m.thoughtsTokenCount)
  { promptTokens := promptTokens
    completionTokens :=
      if m.totalTokenCount ≠ 0 ∧ generated ≤ 0 then wrap64 (m.totalTokenCount - promptTokens)
      else generated
    totalTokens :=
      if m.totalTokenCount = 0 then wrap64 (promptTokens + generated) else m.totalTokenCount
    usageSemantic := "gemini"
    usageSource := "gemini_chat"
    billingUsage := some b
    promptTokensDetails := textByDefault promptTokens m.inputDetails
    completionTokenDetails := m.outputDetails }

def usageFromBillingUsage (usage : Usage) : Option Usage := do
  let b ← usage.billingUsage
  let source := trimSpace b.source
  let semantic := trimSpace b.semantic
  let openAI :=
    if equalFold source "oai_chat" || equalFold source "oai_responses" || equalFold semantic "openai" then
      b.openAIUsage.map (usageFromOpenAIBillingUsage b)
    else none
  let claude :=
    if equalFold source "claude_messages" || equalFold semantic "anthropic" then
      b.claudeUsage.map (usageFromClaudeBillingUsage b)
    else none
  let gemini :=
    if equalFold source "gemini_chat" || equalFold semantic "gemini" then
      b.geminiUsageMetadata.map (usageFromGeminiBillingUsage b)
    else none
  openAI <|> claude <|> gemini

def effectiveBillingUsage (usage : Usage) : Usage := (usageFromBillingUsage usage).getD usage

/-! ### Responses and routes -/

inductive RelayFormat
  | openAI | openAIResponses | claude | gemini
  deriving DecidableEq, Repr

variable {C R A G : Type}

structure ChatResponse (C : Type) where
  content : C
  usage : Usage

structure ResponsesResponse (R : Type) where
  content : R
  usage : Option Usage

/-- The second usage is that of the `message` field. -/
structure ClaudeResponse (A : Type) where
  content : A
  usage : Option ClaudeUsage
  messageUsage : Option ClaudeUsage

structure GeminiChatResponse (G : Type) where
  content : G
  usageMetadata : GeminiUsageMetadata
  hasUsageMetadata : Bool

inductive Response (C R A G : Type)
  | chat (r : ChatResponse C)
  | responses (r : ResponsesResponse R)
  | claude (r : ClaudeResponse A)
  | gemini (r : GeminiChatResponse G)

/-- `inferResponseRelayFormat`. -/
def Response.format : Response C R A G → RelayFormat
  | .chat _ => .openAI
  | .responses _ => .openAIResponses
  | .claude _ => .claude
  | .gemini _ => .gemini

def usageFromClaudeResponse (r : ClaudeResponse A) : Option Usage :=
  (r.usage <|> r.messageUsage).map usageFromClaudeAPIUsage

def GeminiChatResponse.getUsageMetadata (r : GeminiChatResponse G) : Option GeminiUsageMetadata :=
  if r.hasUsageMetadata ∨ r.usageMetadata.HasTokens then some r.usageMetadata else none

def canonicalUsageFromResponse : Response C R A G → Option Usage
  | .chat r => some (usageFromChatUsage r.usage)
  | .responses r => some (usageFromResponsesUsage r.usage)
  | .claude r => usageFromClaudeResponse r
  | .gemini r => usageFromGeminiMetadata r.getUsageMetadata 0

/-- The converters of the contents, and the estimate that `info` has of the prompt. -/
structure Context (C R A G : Type) where
  chatToResponses : C → R
  responsesToChat : R → C
  claudeToChat : A → C
  geminiToChat : G → C
  responseOpenAI2Claude : ChatResponse C → ClaudeResponse A
  responseOpenAI2Gemini : ChatResponse C → GeminiChatResponse G
  estimatePromptTokens : Int

inductive Converter
  | claudeToChat | chatToClaude | geminiToChat | chatToGemini | chatToResponses | responsesToChat
  deriving DecidableEq, Repr

def stepConverters : RelayFormat → RelayFormat → Option (List Converter)
  | .claude, .openAI => some [.claudeToChat]
  | .openAI, .claude => some [.chatToClaude]
  | .gemini, .openAI => some [.geminiToChat]
  | .openAI, .gemini => some [.chatToGemini]
  | .openAI, .openAIResponses => some [.chatToResponses]
  | .openAIResponses, .openAI => some [.responsesToChat]
  | .claude, .gemini => some [.claudeToChat, .chatToGemini]
  | .claude, .openAIResponses => some [.claudeToChat, .chatToResponses]
  | .gemini, .claude => some [.geminiToChat, .chatToClaude]
  | .gemini, .openAIResponses => some [.geminiToChat, .chatToResponses]
  | .openAIResponses, .claude => some [.responsesToChat, .chatToClaude]
  | .openAIResponses, .gemini => some [.responsesToChat, .chatToGemini]
  | _, _ => none

inductive RouteError
  | wrongResponse (expected got : RelayFormat)
  | notRegistered (source target : RelayFormat)
  deriving DecidableEq, Repr

def Converter.convert (ctx : Context C R A G) :
    Converter → Response C R A G → Except RouteError (Response C R A G × Option Usage)
  | .chatToResponses, .chat r =>
    let usage := usageFromChatUsage r.usage
    .ok (.responses ⟨ctx.chatToResponses r.content, some usage⟩, some usage)
  | .responsesToChat, .responses r =>
    let usage := usageFromResponsesUsage r.usage
    .ok (.chat ⟨ctx.responsesToChat r.content, usage⟩, some usage)
  | .chatToClaude, .chat r => .ok (.claude (ctx.responseOpenAI2Claude r), some (usageFromChatUsage r.usage))
  | .chatToGemini, .chat r => .ok (.gemini (ctx.responseOpenAI2Gemini r), some (usageFromChatUsage r.usage))
  | .claudeToChat, .claude r =>
    let usage := usageFromClaudeResponse r
    .ok (.chat ⟨ctx.claudeToChat r.content, usage.getD {}⟩, usage)
  | .geminiToChat, .gemini r =>
    let usage := usageFromGeminiMetadata r.getUsageMetadata ctx.estimatePromptTokens
    .ok (.chat ⟨ctx.geminiToChat r.content, usage.getD {}⟩, usage)
  | .chatToResponses, r | .chatToClaude, r | .chatToGemini, r => .error (.wrongResponse .openAI r.format)
  | .responsesToChat, r => .error (.wrongResponse .openAIResponses r.format)
  | .claudeToChat, r => .error (.wrongResponse .claude r.format)
  | .geminiToChat, r => .error (.wrongResponse .gemini r.format)

/-- The loop of `executeResponseSteps`: the usage is that of the last step. -/
def executeResponseSteps (ctx : Context C R A G) :
    List Converter → Response C R A G × Option Usage → Except RouteError (Response C R A G × Option Usage)
  | [], result => .ok result
  | c :: steps, result =>
    match c.convert ctx result.1 with
    | .error e => .error e
    | .ok next => executeResponseSteps ctx steps next

def convertResponse (ctx : Context C R A G) (target : RelayFormat) (r : Response C R A G) :
    Except RouteError (Response C R A G × Option Usage) :=
  if r.format = target then .ok (r, canonicalUsageFromResponse r)
  else
    match stepConverters r.format target with
    | none => .error (.notRegistered r.format target)
    | some steps => executeResponseSteps ctx steps (r, none)

/-! ### Every route keeps the record -/

def Counts.counts (u : Counts) : List Int :=
  let details (d : InputTokenDetails) :=
    [d.cachedTokens, d.cachedCreationTokens, d.cacheWriteTokens, d.textTokens, d.audioTokens, d.imageTokens]
  let o := u.completionTokenDetails
  [u.promptTokens, u.completionTokens, u.totalTokens, u.promptCacheHitTokens, u.inputTokens, u.outputTokens,
    u.claudeCacheCreation5mTokens, u.claudeCacheCreation1hTokens] ++ details u.promptTokensDetails ++
    (u.inputTokensDetails.map details).getD [] ++ [o.textTokens, o.audioTokens, o.imageTokens, o.reasoningTokens]

def ClaudeCounts.counts (u : ClaudeCounts) : List Int :=
  [u.inputTokens, u.cacheCreationInputTokens, u.cacheReadInputTokens, u.outputTokens,
    u.claudeCacheCreation5mTokens, u.claudeCacheCreation1hTokens] ++
    (u.cacheCreation.map fun c => [c.ephemeral5mInputTokens, c.ephemeral1hInputTokens]).getD []

def GeminiCounts.counts (m : GeminiCounts) : List Int :=
  [m.promptTokenCount, m.toolUsePromptTokenCount, m.candidatesTokenCount, m.totalTokenCount,
    m.thoughtsTokenCount, m.cachedContentTokenCount] ++
    (m.promptTokensDetails ++ m.toolUsePromptTokensDetails ++ m.candidatesTokensDetails).map (·.tokenCount)

def Response.counts : Response C R A G → List Int
  | .chat r => r.usage.counts
  | .responses r => (r.usage.map (·.counts)).getD []
  | .claude r => ((r.usage <|> r.messageUsage).map (·.counts)).getD []
  | .gemini r => r.usageMetadata.counts

def Response.billingUsage : Response C R A G → Option BillingUsage
  | .chat r => r.usage.billingUsage
  | .responses r => r.usage.bind (·.billingUsage)
  | .claude r => (r.usage <|> r.messageUsage).bind (·.billingUsage)
  | .gemini r => r.usageMetadata.billingUsage

/-- The record that the first converter makes of the response's usage. -/
def Response.record : Response C R A G → Option BillingUsage
  | .chat r => newOpenAIChatBillingUsage r.usage.toCounts
  | .responses r => r.usage.bind fun u => newOpenAIResponsesBillingUsage u.toCounts
  | .claude r => (r.usage <|> r.messageUsage).bind fun u => newClaudeMessagesBillingUsage u.toClaudeCounts
  | .gemini r => newGeminiChatBillingUsage r.usageMetadata.toGeminiCounts

variable {n : Int} {r : Response C R A G} {b : BillingUsage}

theorem Counts.hasTokens_of_counts {u : Counts} (hn : n ∈ u.counts) (hne : n ≠ 0) : u.HasTokens := by
  by_contra hnone
  simp only [Counts.HasTokens, not_or, not_not] at hnone
  obtain ⟨h1, h2, h3, h4, h5, h6, h7, h8, h9, h10, h11⟩ := hnone
  simp [Counts.counts, h1, h2, h3, h4, h5, h6, h7, h8, h9, h10, h11] at hn
  exact hne hn

theorem ClaudeCounts.hasTokens_of_counts {u : ClaudeCounts} (hn : n ∈ u.counts) (hne : n ≠ 0) :
    u.HasTokens := by
  by_contra hnone
  simp only [ClaudeCounts.HasTokens, not_or, not_not] at hnone
  obtain ⟨h1, h2, h3, h4, h5, h6, h7, h8⟩ := hnone
  cases hc : u.cacheCreation with
  | none =>
    simp [ClaudeCounts.counts, h1, h2, h3, h4, h5, h6, hc] at hn
    exact hne hn
  | some c =>
    simp only [ClaudeCounts.getCacheCreation5mTokens, ClaudeCounts.getCacheCreation1hTokens, hc, Option.map_some,
      Option.getD_some] at h7 h8
    simp [ClaudeCounts.counts, h1, h2, h3, h4, h5, h6, h7, h8, hc] at hn
    exact hne hn

theorem GeminiCounts.hasTokens_of_counts {m : GeminiCounts} (hn : n ∈ m.counts) (hne : n ≠ 0) :
    m.HasTokens := by
  by_contra hnone
  simp only [GeminiCounts.HasTokens, not_or, not_not, not_exists, not_and] at hnone
  obtain ⟨h1, h2, h3, h4, h5, h6, h7, h8, h9⟩ := hnone
  simp only [GeminiCounts.counts, h1, h2, h3, h4, h5, h6, List.mem_append, List.mem_cons, List.not_mem_nil,
    or_false, or_self, List.mem_map] at hn
  rcases hn with rfl | ⟨d, (hd | hd) | hd, rfl⟩
  · exact hne rfl
  · exact hne (h7 d hd)
  · exact hne (h8 d hd)
  · exact hne (h9 d hd)

def BillingUsage.Read (b : BillingUsage) : Prop :=
  b.source = "oai_chat" ∧ b.openAIUsage ≠ none ∨ b.source = "oai_responses" ∧ b.openAIUsage ≠ none ∨
    b.source = "claude_messages" ∧ b.claudeUsage ≠ none ∨ b.source = "gemini_chat" ∧ b.geminiUsageMetadata ≠ none

theorem newOpenAIBillingUsage_of_counts (source : String) {u : Counts} (hn : n ∈ u.counts) (hne : n ≠ 0) :
    newOpenAIBillingUsage source u = some { source := source, semantic := "openai", openAIUsage := some u } := by
  rw [newOpenAIBillingUsage, if_pos (Counts.hasTokens_of_counts hn hne)]

theorem Response.record_read (hn : n ∈ r.counts) (hne : n ≠ 0) :
    ∃ b, r.record = some b ∧ b.Read := by
  cases r with
  | chat r =>
    refine ⟨_, newOpenAIBillingUsage_of_counts _ hn hne, ?_⟩
    simp [BillingUsage.Read]
  | responses r =>
    obtain ⟨content, _ | u⟩ := r
    · simp [Response.counts] at hn
    · refine ⟨_, newOpenAIBillingUsage_of_counts _ hn hne, ?_⟩
      simp [BillingUsage.Read]
  | claude r =>
    cases hu : r.usage <|> r.messageUsage with
    | none => simp [Response.counts, hu] at hn
    | some u =>
      simp only [Response.counts, hu, Option.map_some, Option.getD_some] at hn
      refine ⟨{ source := "claude_messages", semantic := "anthropic", claudeUsage := some u.toClaudeCounts }, ?_, ?_⟩
      · show (r.usage <|> r.messageUsage).bind _ = _
        rw [hu, Option.bind_some, newClaudeMessagesBillingUsage, if_pos (ClaudeCounts.hasTokens_of_counts hn hne)]
      · simp [BillingUsage.Read]
  | gemini r =>
    refine ⟨{ source := "gemini_chat", semantic := "gemini",
              geminiUsageMetadata := some r.usageMetadata.toGeminiCounts }, ?_, ?_⟩
    · show newGeminiChatBillingUsage _ = _
      rw [newGeminiChatBillingUsage, if_pos (GeminiCounts.hasTokens_of_counts hn hne)]
    · simp [BillingUsage.Read]

theorem effectiveBillingUsage_of_record {u u' : Usage} (hread : b.Read)
    (hu : u.billingUsage = some b) (hu' : u'.billingUsage = some b) :
    effectiveBillingUsage u = effectiveBillingUsage u' := by
  have hsame : usageFromBillingUsage u = usageFromBillingUsage u' := by
    unfold usageFromBillingUsage
    rw [hu, hu']
  have hsome : (usageFromBillingUsage u).isSome := by
    unfold usageFromBillingUsage
    rw [hu]
    have h1 : equalFold (trimSpace "oai_chat") "oai_chat" = true := by decide
    have h2 : equalFold (trimSpace "oai_responses") "oai_responses" = true := by decide
    have h3 : equalFold (trimSpace "claude_messages") "claude_messages" = true := by decide
    have h4 : equalFold (trimSpace "gemini_chat") "gemini_chat" = true := by decide
    rcases hread with ⟨hs, hc⟩ | ⟨hs, hc⟩ | ⟨hs, hc⟩ | ⟨hs, hc⟩ <;>
      simp [hs, h1, h2, h3, h4, Option.isSome_iff_ne_none, hc]
  obtain ⟨v, hv⟩ := Option.isSome_iff_exists.1 hsome
  rw [effectiveBillingUsage, effectiveBillingUsage, ← hsame, hv]
  rfl

def Carries (b : BillingUsage) (usage : Option Usage) : Prop := ∃ u, usage = some u ∧ u.billingUsage = some b

theorem usageFromClaudeResponse_carries {r : ClaudeResponse A}
    (hown : (r.usage <|> r.messageUsage).bind (·.billingUsage) = none)
    (hb : ((r.usage <|> r.messageUsage).bind fun u => newClaudeMessagesBillingUsage u.toClaudeCounts) = some b) :
    Carries b (usageFromClaudeResponse r) := by
  unfold usageFromClaudeResponse
  cases hu : r.usage <|> r.messageUsage with
  | none => simp [hu] at hb
  | some u =>
    simp only [hu, Option.bind_some] at hown hb
    refine ⟨_, rfl, ?_⟩
    show (u.billingUsage <|> newClaudeMessagesBillingUsage u.toClaudeCounts) = some b
    rw [hown, hb]
    rfl

theorem usageFromGeminiMetadata_carries {r : GeminiChatResponse G} (fallback : Int)
    (hown : r.usageMetadata.billingUsage = none)
    (hb : newGeminiChatBillingUsage r.usageMetadata.toGeminiCounts = some b) :
    Carries b (usageFromGeminiMetadata r.getUsageMetadata fallback) := by
  have htokens : r.usageMetadata.HasTokens := by
    by_contra hno
    rw [newGeminiChatBillingUsage, if_neg hno] at hb
    cases hb
  rw [GeminiChatResponse.getUsageMetadata, if_pos (Or.inr htokens)]
  refine ⟨_, rfl, ?_⟩
  show (r.usageMetadata.billingUsage <|> newGeminiChatBillingUsage _) = some b
  rw [hown, hb]
  rfl

theorem usageFromResponsesUsage_carries {usage : Option Usage}
    (hown : usage.bind (·.billingUsage) = none)
    (hb : (usage.bind fun u => newOpenAIResponsesBillingUsage u.toCounts) = some b) :
    (usageFromResponsesUsage usage).billingUsage = some b := by
  cases usage with
  | none => simp at hb
  | some u =>
    simp only [Option.bind_some] at hown hb
    show (u.billingUsage <|> newOpenAIResponsesBillingUsage u.toCounts) = some b
    rw [hown, hb]
    rfl

/-- A response without a `BillingUsage` of its own gets the record from its first converter. -/
theorem canonicalUsageFromResponse_carries (hown : r.billingUsage = none)
    (hb : r.record = some b) : Carries b (canonicalUsageFromResponse r) := by
  cases r with
  | chat r =>
    refine ⟨_, rfl, ?_⟩
    show (r.usage.billingUsage <|> newOpenAIChatBillingUsage r.usage.toCounts) = some b
    rw [show r.usage.billingUsage = none from hown]
    exact hb
  | responses r => exact ⟨_, rfl, usageFromResponsesUsage_carries hown hb⟩
  | claude r => exact usageFromClaudeResponse_carries hown hb
  | gemini r => exact usageFromGeminiMetadata_carries 0 hown hb

/-- A chat response gets or keeps the record in every converter from the chat format. -/
theorem convert_chat_carries (ctx : Context C R A G) {r : ChatResponse C}
    (hb : (r.usage.billingUsage <|> newOpenAIChatBillingUsage r.usage.toCounts) = some b) {c : Converter}
    (hc : c = .chatToResponses ∨ c = .chatToClaude ∨ c = .chatToGemini) :
    ∃ v u, c.convert ctx (.chat r) = .ok (v, u) ∧ Carries b u := by
  have hcarries : Carries b (some (usageFromChatUsage r.usage)) := ⟨_, rfl, hb⟩
  rcases hc with rfl | rfl | rfl
  · exact ⟨_, _, rfl, hcarries⟩
  · exact ⟨_, _, rfl, hcarries⟩
  · exact ⟨_, _, rfl, hcarries⟩

def toChat : RelayFormat → Option Converter
  | .claude => some .claudeToChat
  | .gemini => some .geminiToChat
  | .openAIResponses => some .responsesToChat
  | .openAI => none

/-- A response of another format gets the record, and its chat response has it too. -/
theorem convert_toChat_carries (ctx : Context C R A G)
    (hown : r.billingUsage = none) (hb : r.record = some b) {c : Converter} (hc : toChat r.format = some c) :
    ∃ v u, c.convert ctx r = .ok (.chat v, u) ∧ Carries b u ∧ v.usage.billingUsage = some b := by
  cases r with
  | chat r => cases hc
  | responses r =>
    cases hc
    have hu := usageFromResponsesUsage_carries hown hb
    exact ⟨_, _, rfl, ⟨_, rfl, hu⟩, hu⟩
  | claude r =>
    cases hc
    obtain ⟨u, hu, hub⟩ := usageFromClaudeResponse_carries hown hb
    refine ⟨_, _, rfl, ⟨u, hu, hub⟩, ?_⟩
    simp only [hu, Option.getD_some]
    exact hub
  | gemini r =>
    cases hc
    obtain ⟨u, hu, hub⟩ := usageFromGeminiMetadata_carries ctx.estimatePromptTokens hown hb
    refine ⟨_, _, rfl, ⟨u, hu, hub⟩, ?_⟩
    simp only [hu, Option.getD_some]
    exact hub

/-- Every target is reached, and its usage has the record of the upstream's. -/
theorem convertResponse_carries (ctx : Context C R A G)
    (hown : r.billingUsage = none) (hb : r.record = some b) (target : RelayFormat) :
    ∃ v u, convertResponse ctx target r = .ok (v, u) ∧ Carries b u := by
  by_cases hsame : r.format = target
  · rw [convertResponse, if_pos hsame]
    exact ⟨_, _, rfl, canonicalUsageFromResponse_carries hown hb⟩
  rw [convertResponse, if_neg hsame]
  -- From the chat format there is one step, from the others a step to the chat format comes first.
  cases hc : toChat r.format with
  | none =>
    obtain ⟨r, rfl⟩ : ∃ c, r = .chat c := by
      cases r with
      | chat r => exact ⟨r, rfl⟩
      | responses | claude | gemini => cases hc
    have hchat : (r.usage.billingUsage <|> newOpenAIChatBillingUsage r.usage.toCounts) = some b := by
      rw [show r.usage.billingUsage = none from hown]
      exact hb
    have hstep : ∀ c : Converter, c = .chatToResponses ∨ c = .chatToClaude ∨ c = .chatToGemini →
        ∃ v u, executeResponseSteps ctx [c] (.chat r, none) = .ok (v, u) ∧ Carries b u := by
      intro c hc
      obtain ⟨v, u, hv, hu⟩ := convert_chat_carries ctx hchat hc
      exact ⟨v, u, by simp [executeResponseSteps, hv], hu⟩
    cases target with
    | openAI => exact absurd rfl hsame
    | openAIResponses => exact hstep _ (Or.inl rfl)
    | claude => exact hstep _ (Or.inr (Or.inl rfl))
    | gemini => exact hstep _ (Or.inr (Or.inr rfl))
  | some c =>
    obtain ⟨chat, u, hchat, hcarries, husage⟩ := convert_toChat_carries ctx hown hb hc
    have hkept : (chat.usage.billingUsage <|> newOpenAIChatBillingUsage chat.usage.toCounts) = some b := by
      rw [husage]
      rfl
    have hsteps : ∀ c' : Converter, c' = .chatToResponses ∨ c' = .chatToClaude ∨ c' = .chatToGemini →
        ∃ v u, executeResponseSteps ctx [c, c'] (r, none) = .ok (v, u) ∧ Carries b u := by
      intro c' hc'
      obtain ⟨v, u', hv, hu'⟩ := convert_chat_carries ctx hkept hc'
      exact ⟨v, u', by simp [executeResponseSteps, hchat, hv], hu'⟩
    have hone : ∃ v u, executeResponseSteps ctx [c] (r, none) = .ok (v, u) ∧ Carries b u :=
      ⟨.chat chat, u, by simp [executeResponseSteps, hchat], hcarries⟩
    cases hformat : r.format <;> cases target <;> rw [hformat] at hc hsame <;> cases hc <;>
      first
        | exact absurd rfl hsame
        | exact hone
        | exact hsteps _ (Or.inl rfl)
        | exact hsteps _ (Or.inr (Or.inl rfl))
        | exact hsteps _ (Or.inr (Or.inr rfl))

/-- What settlement bills by: the counts and the terms they are in. -/
structure Billed where
  prompt : Int
  completion : Int
  cached : Int
  cacheCreation : Int
  cacheWrite : Int
  fiveMinutes : Int
  oneHour : Int
  image : Int
  audio : Int
  imageOutput : Int
  audioOutput : Int
  semantic : String
  deriving DecidableEq, Repr

def billed (usage : Usage) : Billed :=
  let u := effectiveBillingUsage usage
  let d := u.promptTokensDetails
  ⟨u.promptTokens, u.completionTokens, d.cachedTokens, d.cachedCreationTokens, d.cacheWriteTokens,
    u.claudeCacheCreation5mTokens, u.claudeCacheCreation1hTokens, d.imageTokens, d.audioTokens,
    u.completionTokenDetails.imageTokens, u.completionTokenDetails.audioTokens, u.usageSemantic⟩

/-- **What is billed does not depend on the route.** -/
theorem billed_route_independent (ctx : Context C R A G) (r : Response C R A G) (hown : r.billingUsage = none)
    (hcount : ∃ n ∈ r.counts, n ≠ 0) (target : RelayFormat) :
    ∃ v u u₀, convertResponse ctx target r = .ok (v, some u) ∧
      convertResponse ctx r.format r = .ok (r, some u₀) ∧ billed u = billed u₀ := by
  obtain ⟨n, hn, hne⟩ := hcount
  obtain ⟨b, hb, hread⟩ := r.record_read hn hne
  obtain ⟨v, _, hv, u, rfl, hu⟩ := convertResponse_carries ctx hown hb target
  obtain ⟨u₀, hu₀, hb₀⟩ := canonicalUsageFromResponse_carries hown hb
  refine ⟨v, u, u₀, hv, ?_, ?_⟩
  · rw [convertResponse, if_pos rfl, hu₀]
  · rw [billed, billed, effectiveBillingUsage_of_record hread hu hb₀]

/-- A Claude response with cache reads and both kinds of cache writes, sent to a Gemini client. -/
theorem billed_claude_to_gemini :
    let r : Response Unit Unit Unit Unit := .claude ⟨(), some
      { inputTokens := 3, cacheReadInputTokens := 4, cacheCreationInputTokens := 7, outputTokens := 5,
        cacheCreation := some ⟨2, 5⟩ }, none⟩
    let ctx : Context Unit Unit Unit Unit :=
      ⟨id, id, id, id, fun _ => ⟨(), none, none⟩, fun _ => ⟨(), {}, false⟩, 9⟩
    ∃ v u u₀, convertResponse ctx .gemini r = .ok (v, some u) ∧ convertResponse ctx r.format r = .ok (r, some u₀) ∧
      billed u = billed u₀ :=
  billed_route_independent _ _ rfl ⟨3, by decide, by decide⟩ .gemini

end TokenEra.TokenUsage
