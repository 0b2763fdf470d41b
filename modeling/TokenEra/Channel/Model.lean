import TokenEra.Lib.Dict
import TokenEra.Lib.Text

/-!
# Channels

A channel as the database has it, with what its columns are read for: `channel_info` is about its
keys, `settings` is JSON with the paths that an Advanced Custom channel takes.
-/

namespace TokenEra.Channels

open Lib

def channelStatusEnabled : Int := 1

def channelStatusAutoDisabled : Int := 3

def channelTypeAdvancedCustom : Int := 58

inductive MultiKeyMode
  | random
  | polling
  | other (name : String)
deriving DecidableEq, Repr

structure ChannelInfo where
  isMultiKey : Bool
  multiKeySize : Int
  multiKeyStatusList : Dict Int Int
  multiKeyDisabledReason : Dict Int String
  multiKeyDisabledTime : Dict Int Int
  multiKeyPollingIndex : Int
  multiKeyMode : MultiKeyMode
deriving DecidableEq, Repr

inductive InfoValue
  | text (s : String)
  | time (t : Int)
deriving DecidableEq, Repr

structure Channel where
  id : Int
  type : Int
  key : String
  status : Int
  otherInfo : Dict String InfoValue
  channelInfo : ChannelInfo
  otherSettings : String
deriving DecidableEq, Repr

def Channel.setStatus (channel : Channel) (status : Int) (reason : String) (now : Int) : Channel :=
  { channel with
    status := status
    otherInfo := (channel.otherInfo.set "status_reason" (.text reason)).set "status_time" (.time now) }

/-! ### Advanced Custom channels -/

structure AdvancedCustomRoute where
  incomingPath : String
  models : List String
deriving DecidableEq, Repr

structure AdvancedCustomConfig where
  routes : List AdvancedCustomRoute
deriving DecidableEq, Repr

/-- The libraries: the `advanced_custom` member of a settings text, and whether the text was read
without an error (a member may be read although another one is not); and regular expressions. -/
structure Parsers where
  settings : String → Option AdvancedCustomConfig × Bool
  compile : String → Option (String → Bool)

def getAdvancedCustom (p : Parsers) (channel : Channel) : Option AdvancedCustomConfig :=
  if channel.otherSettings = "" then none else (p.settings channel.otherSettings).1

/-- `GetOtherSettings`: settings that are read with an error are replaced, and the channel is saved.
-/
def isBroken (p : Parsers) (channel : Channel) : Bool :=
  channel.otherSettings ≠ "" && !(p.settings channel.otherSettings).2

def advancedCustomModelPlaceholder : String := "\x7bmodel\x7d"

def matchAdvancedCustomIncomingPathTemplate (configuredPath requestPath : String) : Bool :=
  match cutText advancedCustomModelPlaceholder configuredPath with
  | none => configuredPath = requestPath
  | some (before, after) =>
    if contains after advancedCustomModelPlaceholder then false
    else if ¬ hasStart before requestPath ∨ ¬ hasTail after requestPath then false
    else
      let model := cutTail after (cutStart before requestPath)
      model ≠ "" && !contains model "/"

def matchAdvancedCustomIncomingPath (configuredPath requestPath : String) : Bool :=
  if matchAdvancedCustomIncomingPathTemplate configuredPath requestPath then true
  else
    match cutText ":generateContent" configuredPath with
    | none => false
    | some (before, after) =>
      matchAdvancedCustomIncomingPathTemplate (before ++ ":streamGenerateContent" ++ after) requestPath

def matchAdvancedCustomRouteModelRule (p : Parsers) (rule model : String) : Bool :=
  if ¬ hasStart "re:" rule then rule = model
  else if cutStart "re:" rule = "" then false
  else
    match p.compile (cutStart "re:" rule) with
    | none => false
    | some re => re model

def normalizeAdvancedCustomRouteModels (models : List String) : List String :=
  (models.map trimSpace).filter (· ≠ "")

def matchAdvancedCustomRouteModel (p : Parsers) (models : List String) (model : String) : Bool :=
  normalizeAdvancedCustomRouteModels models = [] ||
    (normalizeAdvancedCustomRouteModels models).any fun rule => matchAdvancedCustomRouteModelRule p rule model

def AdvancedCustomConfig.supportsPathForModel (p : Parsers) (config : AdvancedCustomConfig)
    (requestPath model : String) : Bool :=
  config.routes.any fun route =>
    matchAdvancedCustomIncomingPath (trimSpace route.incomingPath) requestPath &&
      matchAdvancedCustomRouteModel p route.models (trimSpace model)

/-! ### Model names -/

def handleThinkingBudgetModel (name start wildcard : String) : String :=
  if hasStart start name ∧ contains name "-thinking-" then wildcard else name

def formatMatchingModelName (name : String) : String :=
  let name :=
    if hasStart "gemini-2.5-flash-lite" name then
      handleThinkingBudgetModel name "gemini-2.5-flash-lite" "gemini-2.5-flash-lite-thinking-*"
    else if hasStart "gemini-2.5-flash" name then
      handleThinkingBudgetModel name "gemini-2.5-flash" "gemini-2.5-flash-thinking-*"
    else if hasStart "gemini-2.5-pro" name then
      handleThinkingBudgetModel name "gemini-2.5-pro" "gemini-2.5-pro-thinking-*"
    else name
  let name := if hasStart "gpt-4-gizmo" name then "gpt-4-gizmo-*" else name
  if hasStart "gpt-4o-gizmo" name then "gpt-4o-gizmo-*" else name

theorem formatMatchingModelName_ne_empty {name : String} (h : formatMatchingModelName name ≠ name) :
    formatMatchingModelName name ≠ "" := by
  have hthinking : ∀ start wildcard, wildcard ≠ "" → name ≠ "" →
      handleThinkingBudgetModel name start wildcard ≠ "" := by
    intro start wildcard hwildcard hname
    unfold handleThinkingBudgetModel
    split_ifs
    · exact hwildcard
    · exact hname
  by_cases hname : name = ""
  · subst hname
    exact absurd (by decide) h
  · unfold formatMatchingModelName
    dsimp only
    split_ifs <;> first
      | exact hname
      | exact hthinking _ _ (by decide) hname
      | decide

end TokenEra.Channels
