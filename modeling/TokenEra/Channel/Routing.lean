import TokenEra.Channel.Model
import TokenEra.Lib.Draw
import TokenEra.Lib.Table

/-!
# Routing

`GetRandomSatisfiedChannel` chooses a channel for a model, with the model's name upstream: among the
enabled bindings of the model that take the path of the request, one of the priority that the retry
asks for, by weight. With the memory cache on it looks into tables that `InitChannelCache` has
built; otherwise `GetChannelFromBindings` asks the database.

The queries are given by what they return. A table that is not changed in between is a list; the
primary keys are distinct.
-/

namespace TokenEra.Channels.Routing

open Lib

structure CatalogModel where
  id : Int
  modelName : String
deriving DecidableEq, Repr

structure ModelBinding where
  modelId : Int
  channelId : Int
  priority : Int
  weight : Int
  enabled : Bool
  upstreamModel : String
  deleted : Bool
deriving DecidableEq, Repr

structure Route where
  channelId : Int
  upstream : String
  priority : Int
  weight : Int
deriving DecidableEq, Repr

def newRoute (modelName : String) (channelId priority weight : Int) (upstreamModel : String) : Route where
  channelId := channelId
  upstream := if trimSpace upstreamModel = "" then modelName else trimSpace upstreamModel
  priority := priority
  weight := if weight < 0 then 0 else weight

/-! ### The memory cache -/

structure Cache where
  /-- The routes of a model; none if the map has no entry. -/
  model2routes : String → List Route
  channelsIDM : List Channel
  channel2advancedCustomConfig : Int → Option AdvancedCustomConfig

structure BindingRow where
  modelName : String
  channelId : Int
  priority : Int
  weight : Int
  enabled : Bool
  upstreamModel : String
deriving DecidableEq, Repr

def bindingRow (models : List CatalogModel) (b : ModelBinding) : Option BindingRow :=
  if b.deleted then none
  else
    (findRow CatalogModel.id b.modelId models).map fun m =>
      ⟨m.modelName, b.channelId, b.priority, b.weight, b.enabled, b.upstreamModel⟩

def bindingRows (models : List CatalogModel) (bindings : List ModelBinding) : List BindingRow :=
  bindings.filterMap (bindingRow models)

def needsRepair (p : Parsers) (channel : Channel) : Bool :=
  channel.type = channelTypeAdvancedCustom && isBroken p channel

def repair (p : Parsers) (channel : Channel) : Channel :=
  if needsRepair p channel then { channel with otherSettings := "\x7b\x7d" } else channel

def advancedCustomConfigs (p : Parsers) (channels : List Channel) (id : Int) : Option AdvancedCustomConfig :=
  match findRow Channel.id id channels with
  | some channel => if channel.type = channelTypeAdvancedCustom then getAdvancedCustom p channel else none
  | none => none

def addBinding (channels : List Channel) (routes : String → List Route) (row : BindingRow) : String → List Route :=
  match findRow Channel.id row.channelId channels with
  | none => routes
  | some channel =>
    if row.enabled ∧ channel.status = channelStatusEnabled then
      Function.update routes row.modelName
        (routes row.modelName ++ [newRoute row.modelName row.channelId row.priority row.weight row.upstreamModel])
    else routes

def buildRoutes (channels : List Channel) (rows : List BindingRow) : String → List Route :=
  rows.foldl (addBinding channels) fun _ => []

/-- The cursor of a polling channel is kept from the old cache. -/
def keepPollingIndex (old : List Channel) (channel : Channel) : Channel :=
  match findRow Channel.id channel.id old with
  | some o =>
    if (channel.channelInfo.isMultiKey ∧ channel.channelInfo.multiKeyMode = .polling) ∧
        o.channelInfo.isMultiKey ∧ o.channelInfo.multiKeyMode = .polling then
      { channel with
        channelInfo := { channel.channelInfo with multiKeyPollingIndex := o.channelInfo.multiKeyPollingIndex } }
    else channel
  | none => channel

def initChannelCache (p : Parsers) (old : Cache) (channels : List Channel) (rows : List BindingRow) : Cache where
  model2routes := buildRoutes channels rows
  channelsIDM := (channels.map (repair p)).map (keepPollingIndex old.channelsIDM)
  channel2advancedCustomConfig := advancedCustomConfigs p channels

def cacheUpdateChannelStatus (id status : Int) (cache : Cache) : Cache where
  model2routes name :=
    if status ≠ channelStatusEnabled then (cache.model2routes name).filter fun route => route.channelId ≠ id
    else cache.model2routes name
  channelsIDM := updateWhere (fun channel => channel.id = id) (fun channel => { channel with status := status })
    cache.channelsIDM
  channel2advancedCustomConfig := cache.channel2advancedCustomConfig

/-! ### The choice -/

inductive Selection
  | noChannel
  | picked (channelId : Int) (upstream : String)
  /-- The errors "channel does not exist" and "no channel found". -/
  | inconsistent
  /-- An index out of range. -/
  | panics
deriving DecidableEq, Repr

def sortedPriorities (priorities : List Int) : List Int := priorities.insertionSort (· ≥ ·)

/-- The priority that a retry asks for; `none` if the index is out of range. -/
def targetPriority (sorted : List Int) (retry : Int) : Option Int :=
  let retry : Int := if sorted.length ≤ retry then sorted.length - 1 else retry
  if retry < 0 then none else sorted[retry.toNat]?

def sumWeight (weights : List Int) : Int := weights.foldl (fun sum weight => (sum + weight).bmod (2 ^ 64)) 0

def filterRoutesByRequestPathAndModel (p : Parsers) (cache : Cache) (routes : List Route) (requestPath model : String) :
    List Route :=
  if requestPath = "" ∨ routes = [] then routes
  else
    routes.filter fun route =>
      match findRow Channel.id route.channelId cache.channelsIDM with
      | none => true
      | some channel =>
        if channel.type ≠ channelTypeAdvancedCustom then true
        else
          match cache.channel2advancedCustomConfig route.channelId with
          | none => false
          | some config => config.supportsPathForModel p requestPath model

/-- The routes for a request: those of the model, or else those of the normalized model. -/
def routesFor (p : Parsers) (cache : Cache) (model requestPath : String) : List Route :=
  let routes := filterRoutesByRequestPathAndModel p cache (cache.model2routes model) requestPath model
  if routes = [] then
    filterRoutesByRequestPathAndModel p cache (cache.model2routes (formatMatchingModelName model)) requestPath model
  else routes

/-- `GetRandomSatisfiedChannel` with the memory cache on. -/
def getRandomSatisfiedChannel (p : Parsers) (cache : Cache) (model : String) (retry : Int) (requestPath : String) :
    Draw Selection :=
  let routes := routesFor p cache model requestPath
  if routes = [] then .sure .noChannel
  else if ∃ route ∈ routes, findRow Channel.id route.channelId cache.channelsIDM = none then .sure .inconsistent
  else
    match targetPriority (sortedPriorities (routes.map Route.priority).dedup) retry with
    | none => .sure .panics
    | some target =>
      let found := routes.filter fun route => route.priority = target
      if h : found = [] then .sure .inconsistent
      else
        (byWeight Route.weight (sumWeight (found.map Route.weight)) found h).map fun picked =>
          match findRow Channel.id picked.channelId cache.channelsIDM with
          | none => .inconsistent
          | some channel => .picked channel.id picked.upstream

/-! ### The database -/

structure Database where
  models : List CatalogModel
  channels : List Channel
  bindings : List ModelBinding
  models_nodup : (models.map CatalogModel.id).Nodup
  channels_nodup : (channels.map Channel.id).Nodup

structure CandidateRow where
  channelId : Int
  priority : Int
  weight : Int
  upstreamModel : String
deriving DecidableEq, Repr

def candidateRow (db : Database) (name : String) (b : ModelBinding) : Option CandidateRow :=
  match findRow CatalogModel.id b.modelId db.models, findRow Channel.id b.channelId db.channels with
  | some m, some channel =>
    if m.modelName = name ∧ b.enabled ∧ ¬ b.deleted ∧ channel.status = channelStatusEnabled then
      some ⟨b.channelId, b.priority, b.weight, b.upstreamModel⟩
    else none
  | _, _ => none

def candidateRows (db : Database) (name : String) : List CandidateRow := db.bindings.filterMap (candidateRow db name)

structure BindingChannelCandidate where
  channel : Channel
  bindingPriority : Int
  bindingWeight : Int
  upstreamModel : String
deriving DecidableEq, Repr

def candidate (channels : List Channel) (name : String) (row : CandidateRow) : Option BindingChannelCandidate :=
  (findRow Channel.id row.channelId channels).map fun channel =>
    { channel := channel
      bindingPriority := row.priority
      bindingWeight := if row.weight < 0 then 0 else row.weight
      upstreamModel := if trimSpace row.upstreamModel = "" then name else trimSpace row.upstreamModel }

def loadCandidates (channels : List Channel) (name : String) (rows : List CandidateRow) :
    List BindingChannelCandidate :=
  rows.filterMap (candidate channels name)

def firstPlaces (l : List Int) : List Int := l.foldl (fun seen x => if x ∈ seen then seen else seen ++ [x]) []

def takesPath (p : Parsers) (requestPath model : String) (channel : Channel) : Bool :=
  if requestPath ≠ "" ∧ channel.type = channelTypeAdvancedCustom then
    match getAdvancedCustom p channel with
    | none => false
    | some config => config.supportsPathForModel p requestPath model
  else true

/-- `GetChannelFromBindings`, with the rows that the database returns for a name. -/
def getChannelFromBindings (p : Parsers) (channels : List Channel) (rows : String → List CandidateRow)
    (modelName : String) (retry : Int) (requestPath : String) : Draw Selection :=
  let normalized := formatMatchingModelName modelName
  let candidates :=
    if loadCandidates channels modelName (rows modelName) = [] ∧ normalized ≠ "" ∧ normalized ≠ modelName then
      loadCandidates channels normalized (rows normalized)
    else loadCandidates channels modelName (rows modelName)
  let filtered := candidates.filter fun candidate => takesPath p requestPath modelName candidate.channel
  if filtered = [] then .sure .noChannel
  else
    match targetPriority (sortedPriorities
      (firstPlaces (filtered.map BindingChannelCandidate.bindingPriority))) retry with
    | none => .sure .panics
    | some target =>
      let found := filtered.filter fun candidate => candidate.bindingPriority = target
      if h : found = [] then .sure .panics
      else
        (byWeight BindingChannelCandidate.bindingWeight
          (sumWeight (found.map BindingChannelCandidate.bindingWeight)) found h).map fun picked =>
            .picked picked.channel.id picked.upstreamModel

/-! ### Lemmas about the cache -/

theorem id_repair (p : Parsers) (channel : Channel) : (repair p channel).id = channel.id := by
  unfold repair
  split_ifs <;> rfl

theorem type_repair (p : Parsers) (channel : Channel) : (repair p channel).type = channel.type := by
  unfold repair
  split_ifs <;> rfl

theorem keepPollingIndex_frame (old : List Channel) (channel : Channel) :
    (keepPollingIndex old channel).id = channel.id ∧ (keepPollingIndex old channel).type = channel.type := by
  unfold keepPollingIndex
  split
  · split_ifs <;> exact ⟨rfl, rfl⟩
  · exact ⟨rfl, rfl⟩

/-- A lookup in the new cache finds the channel that was read, but for its settings and its cursor.
-/
theorem findRow_channelsIDM (p : Parsers) (old : Cache) (channels : List Channel) (rows : List BindingRow) (id : Int) :
    findRow Channel.id id (initChannelCache p old channels rows).channelsIDM =
      (findRow Channel.id id channels).map fun channel => keepPollingIndex old.channelsIDM (repair p channel) := by
  show findRow Channel.id id ((channels.map (repair p)).map (keepPollingIndex old.channelsIDM)) = _
  rw [findRow_map (fun channel => (keepPollingIndex_frame old.channelsIDM channel).1), findRow_map (id_repair p),
    Option.map_map]
  rfl

def Routable (channels : List Channel) (row : BindingRow) : Prop :=
  row.enabled = true ∧ ∃ channel, findRow Channel.id row.channelId channels = some channel ∧
    channel.status = channelStatusEnabled

def routeOf (row : BindingRow) : Route :=
  newRoute row.modelName row.channelId row.priority row.weight row.upstreamModel

theorem addBinding_apply (channels : List Channel) (routes : String → List Route) (row : BindingRow) (name : String)
    [Decidable (row.modelName = name ∧ Routable channels row)] :
    addBinding channels routes row name =
      routes name ++ if row.modelName = name ∧ Routable channels row then [routeOf row] else [] := by
  unfold addBinding
  cases hfind : findRow Channel.id row.channelId channels with
  | none =>
    have hnot : ¬ (row.modelName = name ∧ Routable channels row) := by
      rintro ⟨-, -, channel, hsome, -⟩
      rw [hfind] at hsome
      cases hsome
    rw [if_neg hnot, List.append_nil]
  | some channel =>
    have hroutable : Routable channels row ↔ row.enabled = true ∧ channel.status = channelStatusEnabled := by
      refine ⟨?_, fun h => ⟨h.1, channel, hfind, h.2⟩⟩
      rintro ⟨henabled, channel', hsome, hstatus⟩
      rw [hfind] at hsome
      cases hsome
      exact ⟨henabled, hstatus⟩
    dsimp only
    by_cases hok : row.enabled = true ∧ channel.status = channelStatusEnabled
    · rw [if_pos hok]
      by_cases hname : row.modelName = name
      · subst hname
        rw [Function.update_self, if_pos ⟨rfl, hroutable.2 hok⟩]
        rfl
      · rw [Function.update_of_ne (Ne.symm hname), if_neg (fun h => hname h.1), List.append_nil]
    · rw [if_neg hok, if_neg (fun h => hok (hroutable.1 h.2)), List.append_nil]

open Classical in
theorem buildRoutes_apply (channels : List Channel) (rows : List BindingRow) (name : String) :
    buildRoutes channels rows name =
      (rows.filter fun row => row.modelName = name ∧ Routable channels row).map routeOf := by
  have hfold : ∀ routes : String → List Route, rows.foldl (addBinding channels) routes name =
      routes name ++ (rows.filter fun row => row.modelName = name ∧ Routable channels row).map routeOf := by
    induction rows with
    | nil => exact fun routes => (List.append_nil _).symm
    | cons row rows ih =>
      intro routes
      rw [List.foldl_cons, ih, addBinding_apply, List.append_assoc]
      congr 1
      by_cases hrow : row.modelName = name ∧ Routable channels row
      · rw [if_pos hrow, List.filter_cons_of_pos (by simpa using hrow)]
        rfl
      · rw [if_neg hrow, List.filter_cons_of_neg (by simpa using hrow)]
        rfl
  exact hfold fun _ => []

theorem enabled_of_mem_buildRoutes {channels : List Channel} {rows : List BindingRow} {name : String} {route : Route}
    (h : route ∈ buildRoutes channels rows name) :
    ∃ channel, findRow Channel.id route.channelId channels = some channel ∧ channel.status = channelStatusEnabled := by
  classical
  rw [buildRoutes_apply] at h
  obtain ⟨row, hrow, rfl⟩ := List.mem_map.1 h
  have hroutable : row.modelName = name ∧ Routable channels row := by simpa using (List.mem_filter.1 hrow).2
  exact hroutable.2.2

theorem exists_name_of_mem_routesFor {p : Parsers} {cache : Cache} {model requestPath : String} {route : Route}
    (h : route ∈ routesFor p cache model requestPath) : ∃ name, route ∈ cache.model2routes name := by
  have hfilter : ∀ routes : List Route, ∀ route ∈ filterRoutesByRequestPathAndModel p cache routes requestPath model,
      route ∈ routes := by
    intro routes route hroute
    unfold filterRoutesByRequestPathAndModel at hroute
    split_ifs at hroute
    · exact hroute
    · exact List.mem_of_mem_filter hroute
  unfold routesFor at h
  dsimp only at h
  split_ifs at h <;> exact ⟨_, hfilter _ route h⟩

theorem exists_route_of_picked {p : Parsers} {cache : Cache} {model requestPath upstream : String} {retry id : Int}
    {x : Nat} (h : (getRandomSatisfiedChannel p cache model retry requestPath).result x = .picked id upstream) :
    ∃ name, ∃ route ∈ cache.model2routes name, route.channelId = id := by
  unfold getRandomSatisfiedChannel at h
  dsimp only at h
  split_ifs at h
  · cases h
  · cases h
  split at h
  · cases h
  · split_ifs at h with hfound
    · cases h
    have hmem := fun sum => List.mem_of_mem_filter (result_byWeight_mem Route.weight sum _ hfound x)
    simp only [Draw.map] at h
    split at h
    · cases h
    · rename_i channel hchannel
      cases h
      obtain ⟨name, hname⟩ := exists_name_of_mem_routesFor (hmem _)
      exact ⟨name, _, hname, (findRow_eq_some hchannel).2.symm⟩

end TokenEra.Channels.Routing
