import TokenEra.Channel.Choice

/-!
# Routing with and without the cache

For one content of the database, `GetRandomSatisfiedChannel` with a cache that has just been built
from it and `GetChannelFromBindings` are both `choose`, from lists of routes that they find in
different ways.

They try the normalized name of the model in different cases: the first one if no route of the model
takes the path, the second one only if the model has no route. So they agree unless a model with a
normalized name of its own has routes, none of which takes the path, and the normalized name has one
that does (`HiddenByPath`, `agree_iff`).

The database may return rows in any order. The order does not matter unless the sum of the weights
overflows, and then it does not if both queries return the rows in the order of the table.
-/

namespace TokenEra.Channels.Routing

open Lib

/-! ### Choices -/

variable {l : List Int}

theorem firstPlaces_spec (seen : List Int) (h : seen.Nodup) :
    (l.foldl (fun seen x => if x ∈ seen then seen else seen ++ [x]) seen).Nodup ∧
      ∀ x, x ∈ l.foldl (fun seen x => if x ∈ seen then seen else seen ++ [x]) seen ↔ x ∈ seen ∨ x ∈ l := by
  induction l generalizing seen with
  | nil => exact ⟨h, fun x => by simp⟩
  | cons a l ih =>
    rw [List.foldl_cons]
    by_cases ha : a ∈ seen
    · rw [if_pos ha]
      obtain ⟨hnodup, hmem⟩ := ih seen h
      refine ⟨hnodup, fun x => ?_⟩
      rw [hmem, List.mem_cons]
      constructor
      · rintro (hx | hx)
        · exact .inl hx
        · exact .inr (.inr hx)
      · rintro (hx | rfl | hx)
        · exact .inl hx
        · exact .inl ha
        · exact .inr hx
    · rw [if_neg ha]
      have happend : (seen ++ [a]).Nodup := by
        refine List.nodup_append.2 ⟨h, List.nodup_singleton a, fun x hx y hy hxy => ha ?_⟩
        rw [← List.mem_singleton.1 hy, ← hxy]
        exact hx
      obtain ⟨hnodup, hmem⟩ := ih (seen ++ [a]) happend
      refine ⟨hnodup, fun x => ?_⟩
      rw [hmem, List.mem_append, List.mem_singleton, List.mem_cons, or_assoc]

theorem firstPlaces_perm : (firstPlaces l).Perm l.dedup := by
  obtain ⟨hnodup, hmem⟩ := firstPlaces_spec [] List.nodup_nil
  refine (List.perm_ext_iff_of_nodup hnodup (List.nodup_dedup l)).2 fun x => ?_
  rw [hmem, List.mem_dedup]
  simp

theorem prob_choose_perm {routes routes' : List Route} (hlight : Light routes) (hperm : routes.Perm routes')
    (retry : Int) (o : Selection) : (choose routes retry).prob o = (choose routes' retry).prob o := by
  unfold choose
  by_cases hnil : routes = []
  · subst hnil
    rw [List.nil_perm.1 hperm]
  have hnil' : routes' ≠ [] := fun h => hnil (List.perm_nil.1 (h ▸ hperm))
  rw [if_neg hnil, if_neg hnil', sortedPriorities_eq (hperm.map Route.priority).dedup]
  cases htarget : targetPriority (sortedPriorities (routes'.map Route.priority).dedup) retry with
  | none => rfl
  | some target =>
    have hfilter : (routes.filter fun route => route.priority = target).Perm
        (routes'.filter fun route => route.priority = target) := hperm.filter _
    have hne' := exists_of_targetPriority htarget
    have hne : (routes.filter fun route => route.priority = target) ≠ [] :=
      fun h => hne' (List.nil_perm.1 (h ▸ hfilter))
    have hfound := hlight.sublist (List.filter_sublist (p := fun route => decide (route.priority = target)))
    have hsum : sumWeight ((routes'.filter fun route => route.priority = target).map Route.weight) =
        sumWeight ((routes.filter fun route => route.priority = target).map Route.weight) := by
      rw [sumWeight_eq_bmod, sumWeight_eq_bmod, (hfilter.map Route.weight).sum_eq]
    dsimp only
    rw [dif_neg hne, dif_neg hne', hsum]
    obtain ⟨hbound, hhits⟩ := hits_byWeight_perm hne hne' hfilter hfound.1 (.inr hfound.sumWeight)
      ((fun x => decide (x = o)) ∘ fun picked : Route => Selection.picked picked.channelId picked.upstream)
    simp only [Draw.prob, Draw.hits_map]
    rw [hhits]
    exact congrArg (fun bound : Nat => (_ : ℚ) / bound) hbound

variable {retry : Int}

theorem result_choose_ne_noChannel {routes : List Route} (h : routes ≠ []) (x : Nat) :
    (choose routes retry).result x ≠ .noChannel := by
  unfold choose
  rw [if_neg h]
  split
  · intro hresult
    cases hresult
  · split_ifs <;> (intro hresult; cases hresult)

theorem prob_noChannel_of_ne {routes : List Route} (h : routes ≠ []) :
    (choose routes retry).prob .noChannel = 0 := by
  rw [Draw.prob, Draw.hits_eq_zero fun x _ => by simpa using result_choose_ne_noChannel h x]
  simp

theorem prob_noChannel_nil : (choose [] retry).prob .noChannel = 1 := by
  rw [choose, if_pos rfl, Draw.prob, Draw.hits_sure]
  simp [Draw.sure]

/-! ### With the cache -/

def isServed (p : Parsers) (channels : List Channel) (requestPath model : String) (route : Route) : Bool :=
  match findRow Channel.id route.channelId channels with
  | none => true
  | some channel => takesPath p requestPath model channel

variable {p : Parsers} {requestPath model : String}

variable {old : Cache} {channels : List Channel} {rows : List BindingRow}

theorem filterRoutes_initChannelCache (routes : List Route) :
    filterRoutesByRequestPathAndModel p (initChannelCache p old channels rows) routes requestPath model =
      routes.filter (isServed p channels requestPath model) := by
  unfold filterRoutesByRequestPathAndModel
  split_ifs with hall
  · rcases hall with rfl | rfl
    · refine (List.filter_eq_self.2 fun route _ => ?_).symm
      unfold isServed takesPath
      split
      · rfl
      · rw [if_neg (fun h => h.1 rfl)]
    · rfl
  · refine List.filter_congr fun route _ => ?_
    rw [findRow_channelsIDM, isServed]
    cases hfind : findRow Channel.id route.channelId channels with
    | none => rfl
    | some channel =>
      have hpath : requestPath ≠ "" := fun hpath => hall (.inl hpath)
      simp only [Option.map_some, (keepPollingIndex_frame _ _).2, type_repair, initChannelCache, advancedCustomConfigs,
        hfind, takesPath]
      by_cases htype : channel.type = channelTypeAdvancedCustom
      · rw [if_neg (not_not.2 htype), if_pos htype, if_pos ⟨hpath, htype⟩]
      · rw [if_pos htype, if_neg (fun h => htype h.2)]

def cachedRoutes (served : Route → Bool) (routes : String → List Route) (model : String) : List Route :=
  if (routes model).filter served = [] then (routes (formatMatchingModelName model)).filter served
  else (routes model).filter served

theorem getRandomSatisfiedChannel_eq :
    getRandomSatisfiedChannel p (initChannelCache p old channels rows) model retry requestPath =
      choose (cachedRoutes (isServed p channels requestPath model) (buildRoutes channels rows) model) retry := by
  rw [getRandomSatisfiedChannel_eq_choose (consistent_initChannelCache p old channels rows), routesFor, cachedRoutes,
    filterRoutes_initChannelCache, filterRoutes_initChannelCache]
  rfl

/-! ### Without the cache -/

def BindingChannelCandidate.toRoute (c : BindingChannelCandidate) : Route :=
  ⟨c.channel.id, c.upstreamModel, c.bindingPriority, c.bindingWeight⟩

def CandidateRow.toRoute (name : String) (row : CandidateRow) : Route :=
  newRoute name row.channelId row.priority row.weight row.upstreamModel

/-- The routes that take the path: of the model if it has any, or else of the normalized model. -/
def uncachedRoutes (served : Route → Bool) (routes : String → List Route) (model : String) : List Route :=
  (if routes model = [] ∧ formatMatchingModelName model ≠ model then routes (formatMatchingModelName model)
    else routes model).filter served

variable {channels : List Channel} {name : String} {row : CandidateRow}

theorem toRoute_candidate {c : BindingChannelCandidate} (h : candidate channels name row = some c) :
    c.toRoute = row.toRoute name ∧ findRow Channel.id c.channel.id channels = some c.channel := by
  obtain ⟨channel, hchannel, rfl⟩ := Option.map_eq_some_iff.1 h
  have hid : channel.id = row.channelId := (findRow_eq_some hchannel).2
  refine ⟨?_, by rw [hid, hchannel]⟩
  simp only [BindingChannelCandidate.toRoute, CandidateRow.toRoute, newRoute, hid]

theorem map_toRoute_loadCandidates {rows : List CandidateRow}
    (h : ∀ row ∈ rows, ∃ channel, findRow Channel.id row.channelId channels = some channel) :
    (loadCandidates channels name rows).map BindingChannelCandidate.toRoute = rows.map (CandidateRow.toRoute name) := by
  unfold loadCandidates
  induction rows with
  | nil => rfl
  | cons row rows ih =>
    obtain ⟨channel, hchannel⟩ := h row List.mem_cons_self
    have hcandidate : ∃ c, candidate channels name row = some c := by
      rw [candidate, hchannel]
      exact ⟨_, rfl⟩
    obtain ⟨c, hc⟩ := hcandidate
    rw [List.filterMap_cons_some hc, List.map_cons, List.map_cons, (toRoute_candidate hc).1,
      ih fun row hrow => h row (List.mem_cons_of_mem _ hrow)]

theorem filter_loadCandidates (rows : List CandidateRow) :
    ((loadCandidates channels name rows).filter fun c => takesPath p requestPath model c.channel).map
        BindingChannelCandidate.toRoute =
      ((loadCandidates channels name rows).map BindingChannelCandidate.toRoute).filter
        (isServed p channels requestPath model) := by
  rw [List.filter_map]
  refine congrArg (List.map BindingChannelCandidate.toRoute) (List.filter_congr fun c hc => ?_)
  obtain ⟨row, -, hrow⟩ := List.mem_filterMap.1 hc
  simp only [Function.comp_apply, isServed, BindingChannelCandidate.toRoute, (toRoute_candidate hrow).2]

theorem choose_map_toRoute (l : List BindingChannelCandidate) :
    choose (l.map BindingChannelCandidate.toRoute) retry =
      if l = [] then .sure .noChannel
      else
        match targetPriority (sortedPriorities (firstPlaces (l.map BindingChannelCandidate.bindingPriority))) retry with
        | none => .sure .panics
        | some target =>
          if h : (l.filter fun c => c.bindingPriority = target) = [] then .sure .panics
          else
            (byWeight BindingChannelCandidate.bindingWeight
              (sumWeight ((l.filter fun c => c.bindingPriority = target).map BindingChannelCandidate.bindingWeight))
              (l.filter fun c => c.bindingPriority = target) h).map fun picked =>
                .picked picked.channel.id picked.upstreamModel := by
  have hpriorities : sortedPriorities (firstPlaces (l.map BindingChannelCandidate.bindingPriority)) =
      sortedPriorities ((l.map BindingChannelCandidate.toRoute).map Route.priority).dedup := by
    rw [sortedPriorities_eq firstPlaces_perm, List.map_map]
    rfl
  unfold choose
  rw [hpriorities]
  by_cases hnil : l = []
  · rw [if_pos hnil, if_pos (by rw [hnil]; rfl)]
  rw [if_neg hnil, if_neg (fun h => hnil (List.map_eq_nil_iff.1 h))]
  cases targetPriority (sortedPriorities ((l.map BindingChannelCandidate.toRoute).map Route.priority).dedup) retry with
  | none => rfl
  | some target =>
    have hfilter : ((l.map BindingChannelCandidate.toRoute).filter fun route => route.priority = target) =
        (l.filter fun c => c.bindingPriority = target).map BindingChannelCandidate.toRoute := by
      rw [List.filter_map]
      rfl
    dsimp only
    by_cases hfound : (l.filter fun c => c.bindingPriority = target) = []
    · rw [dif_pos hfound, dif_pos (by rw [hfilter, hfound]; rfl)]
    · have hne : (l.filter fun c => c.bindingPriority = target).map BindingChannelCandidate.toRoute ≠ [] :=
        fun h => hfound (List.map_eq_nil_iff.1 h)
      rw [dif_neg hfound, dif_neg (by rw [hfilter]; exact hne)]
      simp only [hfilter]
      rw [byWeight_map _ _ _ _ hfound hne, List.map_map]
      rfl

theorem getChannelFromBindings_eq {rows : String → List CandidateRow}
    (h : ∀ name, ∀ row ∈ rows name, ∃ channel, findRow Channel.id row.channelId channels = some channel) :
    getChannelFromBindings p channels rows model retry requestPath =
      choose (uncachedRoutes (isServed p channels requestPath model)
        (fun name => (rows name).map (CandidateRow.toRoute name)) model) retry := by
  have hnil : ∀ name, loadCandidates channels name (rows name) = [] ↔
      (rows name).map (CandidateRow.toRoute name) = [] := by
    intro name
    rw [← map_toRoute_loadCandidates (h name), List.map_eq_nil_iff]
  have hroutes : uncachedRoutes (isServed p channels requestPath model)
      (fun name => (rows name).map (CandidateRow.toRoute name)) model =
        ((if loadCandidates channels model (rows model) = [] ∧ formatMatchingModelName model ≠ "" ∧
            formatMatchingModelName model ≠ model then
          loadCandidates channels (formatMatchingModelName model) (rows (formatMatchingModelName model))
        else loadCandidates channels model (rows model)).filter
          fun c => takesPath p requestPath model c.channel).map BindingChannelCandidate.toRoute := by
    unfold uncachedRoutes
    by_cases hfallback : (rows model).map (CandidateRow.toRoute model) = [] ∧ formatMatchingModelName model ≠ model
    · rw [if_pos hfallback,
        if_pos ⟨(hnil model).2 hfallback.1, formatMatchingModelName_ne_empty hfallback.2, hfallback.2⟩,
        filter_loadCandidates, map_toRoute_loadCandidates (h _)]
    · rw [if_neg hfallback, if_neg (fun hall => hfallback ⟨(hnil model).1 hall.1, hall.2.2⟩), filter_loadCandidates,
        map_toRoute_loadCandidates (h _)]
  rw [hroutes, choose_map_toRoute]
  rfl

/-! ### One database -/

/-- The route of every binding of a model to an enabled channel, in the order of the table. -/
def Database.routes (db : Database) (name : String) : List Route :=
  (candidateRows db name).map (CandidateRow.toRoute name)

/-- An enabled binding of a model, and the enabled channel that it is to. -/
structure Database.Binds (db : Database) (name : String) (b : ModelBinding) (channel : Channel) : Prop where
  binding : b ∈ db.bindings
  model : ∃ m ∈ db.models, m.id = b.modelId ∧ m.modelName = name
  enabled : b.enabled = true
  kept : b.deleted = false
  channel_mem : channel ∈ db.channels
  channel_id : channel.id = b.channelId
  channel_enabled : channel.status = channelStatusEnabled

variable {db : Database}

theorem candidateRow_eq_some {b : ModelBinding} :
    candidateRow db name b = some row ↔
      (∃ m ∈ db.models, m.id = b.modelId ∧ m.modelName = name) ∧ b.enabled = true ∧ b.deleted = false ∧
        (∃ channel ∈ db.channels, channel.id = b.channelId ∧ channel.status = channelStatusEnabled) ∧
        row = ⟨b.channelId, b.priority, b.weight, b.upstreamModel⟩ := by
  unfold candidateRow
  constructor
  · intro h
    split at h
    · rename_i m channel hm hchannel
      split_ifs at h with hall
      cases h
      obtain ⟨hm, hid⟩ := findRow_eq_some hm
      obtain ⟨hchannel, hid'⟩ := findRow_eq_some hchannel
      exact ⟨⟨m, hm, hid, hall.1⟩, hall.2.1, by simpa using hall.2.2.1, ⟨channel, hchannel, hid', hall.2.2.2⟩, rfl⟩
    · cases h
  · rintro ⟨⟨m, hm, hid, hname⟩, henabled, hkept, ⟨channel, hchannel, hid', hstatus⟩, rfl⟩
    rw [(findRow_eq_some_iff db.models_nodup).2 ⟨hm, hid⟩, (findRow_eq_some_iff db.channels_nodup).2 ⟨hchannel, hid'⟩]
    exact if_pos ⟨hname, henabled, by simp [hkept], hstatus⟩

theorem mem_candidateRows (h : row ∈ candidateRows db name) :
    ∃ channel, findRow Channel.id row.channelId db.channels = some channel := by
  obtain ⟨b, -, hrow⟩ := List.mem_filterMap.1 h
  obtain ⟨-, -, -, ⟨channel, hchannel, hid, -⟩, rfl⟩ := candidateRow_eq_some.1 hrow
  exact ⟨channel, (findRow_eq_some_iff db.channels_nodup).2 ⟨hchannel, hid⟩⟩

theorem exists_mem_routes (db : Database) (name : String) (q : Channel → Prop) :
    (∃ route ∈ db.routes name, ∀ channel, findRow Channel.id route.channelId db.channels = some channel → q channel) ↔
      ∃ b channel, db.Binds name b channel ∧ q channel := by
  constructor
  · rintro ⟨route, hroute, hq⟩
    obtain ⟨row, hrow, rfl⟩ := List.mem_map.1 hroute
    obtain ⟨b, hb, hrow⟩ := List.mem_filterMap.1 hrow
    obtain ⟨hmodel, henabled, hkept, ⟨channel, hchannel, hid, hstatus⟩, rfl⟩ := candidateRow_eq_some.1 hrow
    exact ⟨b, channel, ⟨hb, hmodel, henabled, hkept, hchannel, hid, hstatus⟩,
      hq channel ((findRow_eq_some_iff db.channels_nodup).2 ⟨hchannel, hid⟩)⟩
  · rintro ⟨b, channel, hbinds, hq⟩
    have hrow := candidateRow_eq_some.2 ⟨hbinds.model, hbinds.enabled, hbinds.kept,
      ⟨channel, hbinds.channel_mem, hbinds.channel_id, hbinds.channel_enabled⟩, rfl⟩
    refine ⟨_, List.mem_map.2 ⟨_, List.mem_filterMap.2 ⟨b, hbinds.binding, hrow⟩, rfl⟩, fun channel' hfind => ?_⟩
    obtain ⟨hmem, hid⟩ := findRow_eq_some hfind
    rwa [List.inj_on_of_nodup_map db.channels_nodup hmem hbinds.channel_mem (hid.trans hbinds.channel_id.symm)]

theorem routes_ne_nil_iff :
    db.routes name ≠ [] ↔ ∃ b channel, db.Binds name b channel := by
  have h := exists_mem_routes db name fun _ => True
  simp only [implies_true, and_true] at h
  rw [← h]
  constructor
  · exact List.exists_mem_of_ne_nil _
  · rintro ⟨route, hroute⟩
    exact List.ne_nil_of_mem hroute

theorem served_ne_nil_iff :
    (db.routes name).filter (isServed p db.channels requestPath model) ≠ [] ↔
      ∃ b channel, db.Binds name b channel ∧ takesPath p requestPath model channel = true := by
  rw [← exists_mem_routes]
  have hserved : ∀ route, isServed p db.channels requestPath model route = true ↔
      ∀ channel, findRow Channel.id route.channelId db.channels = some channel →
        takesPath p requestPath model channel = true := by
    intro route
    unfold isServed
    cases findRow Channel.id route.channelId db.channels <;> simp
  constructor
  · intro hne
    obtain ⟨route, hroute⟩ := List.exists_mem_of_ne_nil _ hne
    obtain ⟨hmem, hok⟩ := List.mem_filter.1 hroute
    exact ⟨route, hmem, (hserved route).1 hok⟩
  · rintro ⟨route, hmem, hok⟩
    exact List.ne_nil_of_mem (List.mem_filter.2 ⟨hmem, (hserved route).2 hok⟩)

structure Reads (db : Database) where
  bindings : List BindingRow
  candidates : String → List CandidateRow
  bindings_perm : bindings.Perm (bindingRows db.models db.bindings)
  candidates_perm : ∀ name, (candidates name).Perm (candidateRows db name)

def Reads.InTableOrder {db : Database} (r : Reads db) : Prop :=
  r.bindings = bindingRows db.models db.bindings ∧ ∀ name, r.candidates name = candidateRows db name

def Database.WeightsFit (db : Database) : Prop :=
  (db.bindings.map fun b => if b.weight < 0 then 0 else b.weight).sum < 2 ^ 63

theorem buildRoutes_bindingRows :
    buildRoutes db.channels (bindingRows db.models db.bindings) name = db.routes name := by
  classical
  rw [buildRoutes_apply, Database.routes, bindingRows, candidateRows]
  induction db.bindings with
  | nil => rfl
  | cons b bindings ih =>
    have hsome : ∀ row, candidateRow db name b = some row ↔
        ∃ brow, bindingRow db.models b = some brow ∧ (brow.modelName = name ∧ Routable db.channels brow) ∧
          row = ⟨brow.channelId, brow.priority, brow.weight, brow.upstreamModel⟩ := by
      intro row
      rw [candidateRow_eq_some]
      constructor
      · rintro ⟨⟨m, hm, hid, hname⟩, henabled, hkept, ⟨channel, hchannel, hid', hstatus⟩, rfl⟩
        refine ⟨⟨m.modelName, b.channelId, b.priority, b.weight, b.enabled, b.upstreamModel⟩, ?_,
          ⟨hname, henabled, channel,
          (findRow_eq_some_iff db.channels_nodup).2 ⟨hchannel, hid'⟩, hstatus⟩, rfl⟩
        rw [bindingRow, if_neg (by simp [hkept]), (findRow_eq_some_iff db.models_nodup).2 ⟨hm, hid⟩]
        rfl
      · rintro ⟨brow, hbrow, ⟨hname, henabled, channel, hchannel, hstatus⟩, rfl⟩
        unfold bindingRow at hbrow
        split_ifs at hbrow with hdeleted
        obtain ⟨m, hm, rfl⟩ := Option.map_eq_some_iff.1 hbrow
        obtain ⟨hm, hid⟩ := findRow_eq_some hm
        obtain ⟨hchannel, hid'⟩ := findRow_eq_some hchannel
        exact ⟨⟨m, hm, hid, hname⟩, henabled, by simpa using hdeleted, ⟨channel, hchannel, hid', hstatus⟩, rfl⟩
    cases hrow : candidateRow db name b with
    | none =>
      rw [List.filterMap_cons_none hrow]
      cases hbrow : bindingRow db.models b with
      | none => rw [List.filterMap_cons_none hbrow, ih]
      | some brow =>
        have hnot : ¬ (brow.modelName = name ∧ Routable db.channels brow) := by
          intro hok
          have hsome' := (hsome _).2 ⟨brow, hbrow, hok, rfl⟩
          rw [hrow] at hsome'
          cases hsome'
        rw [List.filterMap_cons_some hbrow, List.filter_cons_of_neg (by simpa using hnot), ih]
    | some row =>
      obtain ⟨brow, hbrow, hok, rfl⟩ := (hsome row).1 hrow
      rw [List.filterMap_cons_some hrow, List.filterMap_cons_some hbrow, List.filter_cons_of_pos (by simpa using hok),
        List.map_cons, List.map_cons, ih, routeOf, CandidateRow.toRoute, hok.1]

theorem light_routes (h : db.WeightsFit) : Light (db.routes name) := by
  have hsub : ((db.routes name).map Route.weight).Sublist
      (db.bindings.map fun b => if b.weight < 0 then 0 else b.weight) := by
    rw [Database.routes, candidateRows, List.map_map]
    induction db.bindings with
    | nil => exact List.Sublist.slnil
    | cons b bindings ih =>
      cases hrow : candidateRow db name b with
      | none =>
        rw [List.filterMap_cons_none hrow, List.map_cons]
        exact ih.cons _
      | some row =>
        obtain ⟨-, -, -, -, rfl⟩ := candidateRow_eq_some.1 hrow
        rw [List.filterMap_cons_some hrow, List.map_cons, List.map_cons]
        exact ih.cons_cons _
  have hnonneg : ∀ weight ∈ db.bindings.map fun b => if b.weight < 0 then 0 else b.weight, 0 ≤ weight := by
    intro weight hweight
    obtain ⟨b, -, rfl⟩ := List.mem_map.1 hweight
    split_ifs <;> omega
  refine ⟨fun route hroute => ?_, lt_of_le_of_lt (hsub.sum_le_sum hnonneg) h⟩
  exact hnonneg _ (hsub.subset (List.mem_map.2 ⟨route, hroute, rfl⟩))

/-! ### The two lists of routes -/

variable {served : Route → Bool}

theorem filter_eq_nil_iff_of_perm {l l' : List Route} (h : l.Perm l') :
    l.filter served = [] ↔ l'.filter served = [] := by
  rw [← List.isEmpty_iff, ← List.isEmpty_iff, (h.filter served).isEmpty_eq]

variable {routes : String → List Route}

theorem cachedRoutes_perm (served : Route → Bool) {routes' : String → List Route}
    (h : ∀ name, (routes name).Perm (routes' name)) (model : String) :
    (cachedRoutes served routes model).Perm (cachedRoutes served routes' model) := by
  unfold cachedRoutes
  by_cases hnil : (routes model).filter served = []
  · rw [if_pos hnil, if_pos ((filter_eq_nil_iff_of_perm (h model)).1 hnil)]
    exact (h _).filter served
  · rw [if_neg hnil, if_neg (fun hnil' => hnil ((filter_eq_nil_iff_of_perm (h model)).2 hnil'))]
    exact (h _).filter served

theorem uncachedRoutes_perm (served : Route → Bool) {routes' : String → List Route}
    (h : ∀ name, (routes name).Perm (routes' name)) (model : String) :
    (uncachedRoutes served routes model).Perm (uncachedRoutes served routes' model) := by
  have hnil : routes model = [] ↔ routes' model = [] := by
    rw [← List.isEmpty_iff, ← List.isEmpty_iff, (h model).isEmpty_eq]
  unfold uncachedRoutes
  simp only [hnil]
  refine List.Perm.filter served ?_
  split_ifs <;> exact h _

/-- The routes of the model are all kept back by the path, those of the normalized model are not. -/
def Hidden (served : Route → Bool) (routes : String → List Route) (model : String) : Prop :=
  formatMatchingModelName model ≠ model ∧ routes model ≠ [] ∧ (routes model).filter served = [] ∧
    (routes (formatMatchingModelName model)).filter served ≠ []

theorem routes_of_hidden {model : String} (h : Hidden served routes model) :
    cachedRoutes served routes model ≠ [] ∧ uncachedRoutes served routes model = [] := by
  obtain ⟨hname, hroutes, hnone, hsome⟩ := h
  refine ⟨by rwa [cachedRoutes, if_pos hnone], ?_⟩
  rw [uncachedRoutes, if_neg (fun hnil => hroutes hnil.1), hnone]

theorem routes_eq_of_not_hidden {model : String}
    (h : ¬ Hidden served routes model) : cachedRoutes served routes model = uncachedRoutes served routes model := by
  unfold cachedRoutes uncachedRoutes
  by_cases hname : formatMatchingModelName model = model
  · rw [hname, ite_self, if_neg (fun hnil => hnil.2 rfl)]
  by_cases hroutes : routes model = []
  · rw [if_pos (by rw [hroutes]; rfl), if_pos ⟨hroutes, hname⟩]
  rw [if_neg (fun hnil : routes model = [] ∧ _ => hroutes hnil.1)]
  by_cases hnone : (routes model).filter served = []
  · rw [if_pos hnone, hnone]
    by_contra hsome
    exact h ⟨hname, hroutes, hnone, hsome⟩
  · rw [if_neg hnone]

/-! ### Agreement -/

def Agree (p : Parsers) (old : Cache) {db : Database} (r : Reads db) (model : String) (retry : Int)
    (requestPath : String) : Prop :=
  ∀ o, (getRandomSatisfiedChannel p (initChannelCache p old db.channels r.bindings) model retry requestPath).prob o =
    (getChannelFromBindings p db.channels r.candidates model retry requestPath).prob o

/-- The model has a normalized name of its own and enabled bindings, none of them to a channel that
takes the path, and the normalized name has one that is. -/
def Database.HiddenByPath (p : Parsers) (db : Database) (model requestPath : String) : Prop :=
  formatMatchingModelName model ≠ model ∧ (∃ b channel, db.Binds model b channel) ∧
    (∀ b channel, db.Binds model b channel → takesPath p requestPath model channel = false) ∧
    ∃ b channel, db.Binds (formatMatchingModelName model) b channel ∧ takesPath p requestPath model channel = true

theorem hidden_iff :
    Hidden (isServed p db.channels requestPath model) db.routes model ↔ db.HiddenByPath p model requestPath := by
  unfold Hidden Database.HiddenByPath
  rw [routes_ne_nil_iff, served_ne_nil_iff, ← not_not (a := List.filter _ (db.routes model) = []), ← ne_eq,
    served_ne_nil_iff]
  simp only [not_exists, not_and, Bool.not_eq_true]

def bindingOf (modelId channelId weight : Int) : ModelBinding := ⟨modelId, channelId, 0, weight, true, "", false⟩

def twoChannels : Database where
  models := [⟨1, "m"⟩]
  channels := [channelRow 1 1 "", channelRow 2 1 ""]
  bindings := [bindingOf 1 1 1, bindingOf 1 2 2]
  models_nodup := by decide
  channels_nodup := by decide

def twoChannelsReversed : Reads twoChannels where
  bindings := bindingRows twoChannels.models twoChannels.bindings
  candidates name := (candidateRows twoChannels name).reverse
  bindings_perm := .refl _
  candidates_perm _ := List.reverse_perm _

def messagesSettings : String :=
  "\x7b\"advanced_custom\":\x7b\"advanced_routes\":[\x7b\"incoming_path\":\"/v1/messages\"," ++
    "\"upstream_path\":\"/v1/messages\"\x7d]\x7d\x7d"

/-- Reads these settings; no other ones are read. -/
def messagesOnly : Parsers where
  settings s := if s = messagesSettings then (some ⟨[⟨"/v1/messages", []⟩]⟩, true) else (none, false)
  compile _ := none

/-- A model whose channel takes other paths only, and its normalized name. -/
def gizmos : Database where
  models := [⟨1, "gpt-4-gizmo-a"⟩, ⟨2, "gpt-4-gizmo-*"⟩]
  channels := [channelRow 1 channelTypeAdvancedCustom messagesSettings, channelRow 2 1 ""]
  bindings := [bindingOf 1 1 0, bindingOf 2 2 0]
  models_nodup := by decide
  channels_nodup := by decide

def gizmosInOrder : Reads gizmos where
  bindings := bindingRows gizmos.models gizmos.bindings
  candidates := candidateRows gizmos
  bindings_perm := .refl _
  candidates_perm _ := .refl _

end TokenEra.Channels.Routing
