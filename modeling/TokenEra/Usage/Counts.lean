import TokenEra.Lib.Int64
import TokenEra.Lib.Text

/-!
# Token usage

The usage records of the four response formats and the converters between them. A converted usage
carries, besides the counts in its own terms, a `BillingUsage`: a copy of the upstream's record in
the upstream's terms, from which settlement reads the counts that are billed.

A copy (`CloneBillingUsage`) clears the `BillingUsage` of the record that it holds, and nothing
reads that one: the records without it are `Counts`, `ClaudeCounts` and `GeminiCounts`, and a copy
is the value itself. Go's `int` is `Int`. The sums of Gemini's counts wrap as Go's do, for a result
rests on their sign (`gemini_nonneg_iff`); the other sums are meant for counts whose sums fit.
-/

namespace TokenEra.TokenUsage

open Lib

/-! ### Records -/

structure InputTokenDetails where
  cachedTokens : Int := 0
  cachedCreationTokens : Int := 0
  cacheWriteTokens : Int := 0
  textTokens : Int := 0
  audioTokens : Int := 0
  imageTokens : Int := 0
  deriving DecidableEq, Repr

structure OutputTokenDetails where
  textTokens : Int := 0
  audioTokens : Int := 0
  imageTokens : Int := 0
  reasoningTokens : Int := 0
  deriving DecidableEq, Repr

/-- `dto.Usage` without its `BillingUsage`. The cost is there if it is a JSON number. -/
structure Counts where
  promptTokens : Int := 0
  completionTokens : Int := 0
  totalTokens : Int := 0
  promptCacheHitTokens : Int := 0
  usageSemantic : String := ""
  usageSource : String := ""
  promptTokensDetails : InputTokenDetails := {}
  completionTokenDetails : OutputTokenDetails := {}
  inputTokens : Int := 0
  outputTokens : Int := 0
  inputTokensDetails : Option InputTokenDetails := none
  claudeCacheCreation5mTokens : Int := 0
  claudeCacheCreation1hTokens : Int := 0
  cost : Option ℚ := none
  deriving DecidableEq, Repr

structure ClaudeCacheCreationUsage where
  ephemeral5mInputTokens : Int := 0
  ephemeral1hInputTokens : Int := 0
  deriving DecidableEq, Repr

/-- `dto.ClaudeUsage` without its `BillingUsage`. -/
structure ClaudeCounts where
  inputTokens : Int := 0
  cacheCreationInputTokens : Int := 0
  cacheReadInputTokens : Int := 0
  outputTokens : Int := 0
  cacheCreation : Option ClaudeCacheCreationUsage := none
  claudeCacheCreation5mTokens : Int := 0
  claudeCacheCreation1hTokens : Int := 0
  deriving DecidableEq, Repr

def ClaudeCounts.getCacheCreation5mTokens (u : ClaudeCounts) : Int :=
  (u.cacheCreation.map (·.ephemeral5mInputTokens)).getD 0

def ClaudeCounts.getCacheCreation1hTokens (u : ClaudeCounts) : Int :=
  (u.cacheCreation.map (·.ephemeral1hInputTokens)).getD 0

inductive Modality
  | audio | image | text | other
  deriving DecidableEq, Repr

structure GeminiPromptTokensDetails where
  modality : Modality
  tokenCount : Int
  deriving DecidableEq, Repr

/-- `dto.GeminiUsageMetadata` without its `BillingUsage`. -/
structure GeminiCounts where
  promptTokenCount : Int := 0
  toolUsePromptTokenCount : Int := 0
  candidatesTokenCount : Int := 0
  totalTokenCount : Int := 0
  thoughtsTokenCount : Int := 0
  cachedContentTokenCount : Int := 0
  promptTokensDetails : List GeminiPromptTokensDetails := []
  toolUsePromptTokensDetails : List GeminiPromptTokensDetails := []
  candidatesTokensDetails : List GeminiPromptTokensDetails := []
  deriving DecidableEq, Repr

structure BillingUsage where
  source : String := ""
  semantic : String := ""
  estimated : Bool := false
  openAIUsage : Option Counts := none
  claudeUsage : Option ClaudeCounts := none
  geminiUsageMetadata : Option GeminiCounts := none
  deriving DecidableEq, Repr

structure Usage extends Counts where
  billingUsage : Option BillingUsage := none
  deriving DecidableEq, Repr

structure ClaudeUsage extends ClaudeCounts where
  billingUsage : Option BillingUsage := none
  deriving DecidableEq, Repr

structure GeminiUsageMetadata extends GeminiCounts where
  billingUsage : Option BillingUsage := none
  deriving DecidableEq, Repr

/-! ### Whether there is anything to bill -/

/-- `HasOpenAIUsageTokens`. -/
def Counts.HasTokens (u : Counts) : Prop :=
  u.promptTokens ≠ 0 ∨ u.completionTokens ≠ 0 ∨ u.totalTokens ≠ 0 ∨ u.inputTokens ≠ 0 ∨ u.outputTokens ≠ 0 ∨
    u.promptCacheHitTokens ≠ 0 ∨ u.claudeCacheCreation5mTokens ≠ 0 ∨ u.claudeCacheCreation1hTokens ≠ 0 ∨
    u.promptTokensDetails ≠ {} ∨ u.completionTokenDetails ≠ {} ∨ u.inputTokensDetails ≠ none

instance (u : Counts) : Decidable u.HasTokens := by unfold Counts.HasTokens; infer_instance

/-- `HasClaudeUsageTokens`. -/
def ClaudeCounts.HasTokens (u : ClaudeCounts) : Prop :=
  u.inputTokens ≠ 0 ∨ u.outputTokens ≠ 0 ∨ u.cacheCreationInputTokens ≠ 0 ∨ u.cacheReadInputTokens ≠ 0 ∨
    u.claudeCacheCreation5mTokens ≠ 0 ∨ u.claudeCacheCreation1hTokens ≠ 0 ∨
    u.getCacheCreation5mTokens ≠ 0 ∨ u.getCacheCreation1hTokens ≠ 0

instance (u : ClaudeCounts) : Decidable u.HasTokens := by unfold ClaudeCounts.HasTokens; infer_instance

/-- `HasGeminiUsageMetadataTokens`. -/
def GeminiCounts.HasTokens (m : GeminiCounts) : Prop :=
  m.promptTokenCount ≠ 0 ∨ m.toolUsePromptTokenCount ≠ 0 ∨ m.candidatesTokenCount ≠ 0 ∨ m.totalTokenCount ≠ 0 ∨
    m.thoughtsTokenCount ≠ 0 ∨ m.cachedContentTokenCount ≠ 0 ∨ (∃ d ∈ m.promptTokensDetails, d.tokenCount ≠ 0) ∨
    (∃ d ∈ m.toolUsePromptTokensDetails, d.tokenCount ≠ 0) ∨ ∃ d ∈ m.candidatesTokensDetails, d.tokenCount ≠ 0

instance (m : GeminiCounts) : Decidable m.HasTokens := by unfold GeminiCounts.HasTokens; infer_instance

/-! ### The upstream's record -/

def newOpenAIBillingUsage (source : String) (u : Counts) : Option BillingUsage :=
  if u.HasTokens then some { source := source, semantic := "openai", openAIUsage := some u } else none

def newOpenAIChatBillingUsage (u : Counts) : Option BillingUsage := newOpenAIBillingUsage "oai_chat" u

def newOpenAIResponsesBillingUsage (u : Counts) : Option BillingUsage := newOpenAIBillingUsage "oai_responses" u

def newClaudeMessagesBillingUsage (u : ClaudeCounts) : Option BillingUsage :=
  if u.HasTokens then some { source := "claude_messages", semantic := "anthropic", claudeUsage := some u } else none

def newGeminiChatBillingUsage (m : GeminiCounts) : Option BillingUsage :=
  if m.HasTokens then some { source := "gemini_chat", semantic := "gemini", geminiUsageMetadata := some m } else none

/-! ### Converters

The source copies a count if it is not zero, into a record whose counts are zero. -/

def usageFromChatUsage (src : Usage) : Usage where
  usageSemantic := src.usageSemantic
  usageSource := src.usageSource
  billingUsage := src.billingUsage <|> newOpenAIChatBillingUsage src.toCounts
  cost := src.cost
  promptTokens := src.promptTokens
  inputTokens := src.promptTokens
  completionTokens := src.completionTokens
  outputTokens := src.completionTokens
  totalTokens := if src.totalTokens ≠ 0 then src.totalTokens else src.promptTokens + src.completionTokens
  inputTokensDetails := if src.promptTokensDetails ≠ {} then some src.promptTokensDetails else none
  completionTokenDetails := src.completionTokenDetails
  claudeCacheCreation5mTokens := src.claudeCacheCreation5mTokens
  claudeCacheCreation1hTokens := src.claudeCacheCreation1hTokens

def usageFromResponsesUsage : Option Usage → Usage
  | none => {}
  | some src =>
    { usageSemantic := src.usageSemantic
      usageSource := src.usageSource
      billingUsage := src.billingUsage <|> newOpenAIResponsesBillingUsage src.toCounts
      cost := src.cost
      promptTokens := src.inputTokens
      inputTokens := src.inputTokens
      completionTokens := src.outputTokens
      outputTokens := src.outputTokens
      totalTokens := if src.totalTokens ≠ 0 then src.totalTokens else src.inputTokens + src.outputTokens
      promptTokensDetails := src.inputTokensDetails.getD {}
      completionTokenDetails := src.completionTokenDetails
      claudeCacheCreation5mTokens := src.claudeCacheCreation5mTokens
      claudeCacheCreation1hTokens := src.claudeCacheCreation1hTokens }

def normalizeCacheCreationSplit (totalTokens tokens5m tokens1h : Int) : Int × Int :=
  (tokens5m + max 0 (totalTokens - tokens5m - tokens1h), tokens1h)

def cacheCreationTokensForOpenAIUsage (usage : Counts) : Int :=
  let split := usage.claudeCacheCreation5mTokens + usage.claudeCacheCreation1hTokens
  if split = 0 then usage.promptTokensDetails.cachedCreationTokens
  else max usage.promptTokensDetails.cachedCreationTokens split

def buildOpenAIStyleUsageFromClaudeUsage (usage : Usage) : Usage :=
  let split := normalizeCacheCreationSplit usage.promptTokensDetails.cachedCreationTokens
    usage.claudeCacheCreation5mTokens usage.claudeCacheCreation1hTokens
  let cacheCreationTokens := cacheCreationTokensForOpenAIUsage usage.toCounts
  let totalInputTokens := usage.promptTokens + usage.promptTokensDetails.cachedTokens + cacheCreationTokens
  { usage with
    claudeCacheCreation5mTokens := split.1
    claudeCacheCreation1hTokens := split.2
    promptTokensDetails := { usage.promptTokensDetails with cacheWriteTokens := cacheCreationTokens }
    promptTokens := totalInputTokens
    inputTokens := totalInputTokens
    totalTokens := totalInputTokens + usage.completionTokens
    usageSemantic := "openai"
    usageSource := "anthropic" }

def usageFromClaudeAPIUsage (usage : ClaudeUsage) : Usage :=
  buildOpenAIStyleUsageFromClaudeUsage
    { promptTokens := usage.inputTokens
      completionTokens := usage.outputTokens
      usageSemantic := "anthropic"
      usageSource := "anthropic"
      billingUsage := usage.billingUsage <|> newClaudeMessagesBillingUsage usage.toClaudeCounts
      promptTokensDetails :=
        { cachedTokens := usage.cacheReadInputTokens, cachedCreationTokens := usage.cacheCreationInputTokens }
      claudeCacheCreation5mTokens := usage.getCacheCreation5mTokens
      claudeCacheCreation1hTokens := usage.getCacheCreation1hTokens }

def tokensOf (modality : Modality) (details : List GeminiPromptTokensDetails) : Int :=
  ((details.filter fun d => d.modality = modality).map (·.tokenCount)).sum

def GeminiCounts.inputDetails (m : GeminiCounts) : InputTokenDetails where
  cachedTokens := m.cachedContentTokenCount
  audioTokens := tokensOf .audio m.promptTokensDetails + tokensOf .audio m.toolUsePromptTokensDetails
  imageTokens := tokensOf .image m.promptTokensDetails + tokensOf .image m.toolUsePromptTokensDetails
  textTokens := tokensOf .text m.promptTokensDetails + tokensOf .text m.toolUsePromptTokensDetails

def GeminiCounts.outputDetails (m : GeminiCounts) : OutputTokenDetails where
  reasoningTokens := m.thoughtsTokenCount
  imageTokens := tokensOf .image m.candidatesTokensDetails
  audioTokens := tokensOf .audio m.candidatesTokensDetails
  textTokens := tokensOf .text m.candidatesTokensDetails

/-- A prompt of no reported modality is text. -/
def textByDefault (promptTokens : Int) (details : InputTokenDetails) : InputTokenDetails :=
  if 0 < promptTokens ∧ details.textTokens = 0 ∧ details.audioTokens = 0 then
    { details with textTokens := promptTokens }
  else details

def usageFromGeminiMetadata (metadata : Option GeminiUsageMetadata) (fallbackPromptTokens : Int) : Option Usage :=
  match metadata with
  | none =>
    if fallbackPromptTokens ≤ 0 then none
    else
      some
        { promptTokens := fallbackPromptTokens
          promptTokensDetails := { textTokens := fallbackPromptTokens } }
  | some m =>
    let reported := wrap64 (m.promptTokenCount + m.toolUsePromptTokenCount)
    let promptTokens := if reported ≤ 0 ∧ 0 < fallbackPromptTokens then fallbackPromptTokens else reported
    let generated := wrap64 (m.candidatesTokenCount + m.thoughtsTokenCount)
    some
      { promptTokens := promptTokens
        completionTokens :=
          if 0 < m.totalTokenCount ∧ generated ≤ 0 then wrap64 (m.totalTokenCount - promptTokens)
          else generated
        totalTokens := m.totalTokenCount
        billingUsage := m.billingUsage <|> newGeminiChatBillingUsage m.toGeminiCounts
        promptTokensDetails := textByDefault promptTokens m.inputDetails
        completionTokenDetails := m.outputDetails }

end TokenEra.TokenUsage
