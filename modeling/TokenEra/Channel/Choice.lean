import TokenEra.Channel.Routing

/-!
# The choice by weight

`GetRandomSatisfiedChannel` is `choose` of the routes that it finds, if the channels of the routes
are in the cache, which every cache that is built takes care of (`Cache.Consistent`). Among the
routes of the wanted priority each place is chosen by as many random numbers as its weight says,
unless the sum of the weights overflows (`exact_iff`).
-/

namespace TokenEra.Channels.Routing

open Lib

def choose (routes : List Route) (retry : Int) : Draw Selection :=
  if routes = [] then .sure .noChannel
  else
    match targetPriority (sortedPriorities (routes.map Route.priority).dedup) retry with
    | none => .sure .panics
    | some target =>
      if h : (routes.filter fun route => route.priority = target) = [] then .sure .panics
      else
        (byWeight Route.weight (sumWeight ((routes.filter fun route => route.priority = target).map Route.weight))
          (routes.filter fun route => route.priority = target) h).map fun picked =>
            .picked picked.channelId picked.upstream

theorem sortedPriorities_eq {l l' : List Int} (h : l.Perm l') : sortedPriorities l = sortedPriorities l' := by
  have hperm : (sortedPriorities l).Perm (sortedPriorities l') :=
    (List.perm_insertionSort _ l).trans (h.trans (List.perm_insertionSort _ l').symm)
  refine hperm.eq_of_pairwise (fun a b _ _ hab hba => le_antisymm hba hab) ?_ ?_
  · exact List.pairwise_insertionSort _ l
  · exact List.pairwise_insertionSort _ l'

theorem mem_of_targetPriority {sorted : List Int} {retry target : Int} (h : targetPriority sorted retry = some target) :
    target ∈ sorted := by
  unfold targetPriority at h
  dsimp only at h
  split_ifs at h <;> exact List.mem_of_getElem? h

variable {routes : List Route}

theorem exists_of_targetPriority {retry target : Int}
    (h : targetPriority (sortedPriorities (routes.map Route.priority).dedup) retry = some target) :
    (routes.filter fun route => route.priority = target) ≠ [] := by
  have hmem := mem_of_targetPriority h
  rw [sortedPriorities, (List.perm_insertionSort _ _).mem_iff, List.mem_dedup] at hmem
  obtain ⟨route, hroute, rfl⟩ := List.mem_map.1 hmem
  exact List.ne_nil_of_mem (List.mem_filter.2 ⟨hroute, by simp⟩)

theorem sumWeight_eq_bmod (weights : List Int) : sumWeight weights = weights.sum.bmod (2 ^ 64) := by
  have hfold : ∀ x : Int, weights.foldl (fun sum weight => (sum + weight).bmod (2 ^ 64)) (x.bmod (2 ^ 64)) =
      (x + weights.sum).bmod (2 ^ 64) := by
    induction weights with
    | nil => exact fun x => by rw [List.sum_nil, add_zero, List.foldl_nil]
    | cons weight weights ih =>
      intro x
      rw [List.foldl_cons, Int.bmod_add_bmod, ih, List.sum_cons, add_assoc]
  have h := hfold 0
  rwa [Int.zero_bmod, zero_add] at h

def Light (routes : List Route) : Prop :=
  (∀ route ∈ routes, 0 ≤ route.weight) ∧ (routes.map Route.weight).sum < 2 ^ 63

theorem Light.perm {routes' : List Route} (h : Light routes) (hperm : routes.Perm routes') : Light routes' :=
  ⟨fun route hroute => h.1 route (hperm.mem_iff.2 hroute), (hperm.map Route.weight).sum_eq ▸ h.2⟩

theorem Light.sublist {routes' : List Route} (h : Light routes) (hsub : routes'.Sublist routes) :
    Light routes' := by
  refine ⟨fun route hroute => h.1 route (hsub.subset hroute), lt_of_le_of_lt ?_ h.2⟩
  refine (hsub.map Route.weight).sum_le_sum fun weight hweight => ?_
  obtain ⟨route, hroute, rfl⟩ := List.mem_map.1 hweight
  exact h.1 route hroute

theorem Light.sumWeight (h : Light routes) :
    sumWeight (routes.map Route.weight) = (routes.map Route.weight).sum := by
  have hnonneg : 0 ≤ (routes.map Route.weight).sum := by
    refine List.sum_nonneg fun weight hweight => ?_
    obtain ⟨route, hroute, rfl⟩ := List.mem_map.1 hweight
    exact h.1 route hroute
  have hlt := h.2
  rw [sumWeight_eq_bmod]
  refine Int.bmod_eq_of_le ?_ ?_
  · omega
  · norm_num
    omega

/-! ### The cache -/

def Cache.Consistent (cache : Cache) : Prop :=
  ∀ name, ∀ route ∈ cache.model2routes name, ∃ channel,
    findRow Channel.id route.channelId cache.channelsIDM = some channel

theorem consistent_initChannelCache (p : Parsers) (old : Cache) (channels : List Channel) (rows : List BindingRow) :
    (initChannelCache p old channels rows).Consistent := by
  intro name route hroute
  obtain ⟨channel, hchannel, -⟩ := enabled_of_mem_buildRoutes hroute
  exact ⟨_, by rw [findRow_channelsIDM, hchannel]; rfl⟩

theorem consistent_cacheUpdateChannelStatus {cache : Cache} (h : cache.Consistent) (id status : Int) :
    (cacheUpdateChannelStatus id status cache).Consistent := by
  intro name route hroute
  have hmem : route ∈ cache.model2routes name := by
    unfold cacheUpdateChannelStatus at hroute
    dsimp only at hroute
    split_ifs at hroute
    · exact List.mem_of_mem_filter hroute
    · exact hroute
  obtain ⟨channel, hchannel⟩ := h name route hmem
  obtain ⟨hin, hid⟩ := findRow_eq_some hchannel
  have hids : route.channelId ∈ (cacheUpdateChannelStatus id status cache).channelsIDM.map Channel.id := by
    rw [cacheUpdateChannelStatus,
      map_updateWhere (f := fun channel : Channel => { channel with status := status })
      fun _ => rfl]
    exact List.mem_map.2 ⟨channel, hin, hid⟩
  obtain ⟨updated, hupdated, hroute⟩ := List.mem_map.1 hids
  rw [← hroute]
  exact findRow_isSome_of_mem Channel.id hupdated

theorem getRandomSatisfiedChannel_eq_choose {p : Parsers} {cache : Cache} (h : cache.Consistent)
    (model : String) (retry : Int) (requestPath : String) :
    getRandomSatisfiedChannel p cache model retry requestPath = choose (routesFor p cache model requestPath) retry := by
  have hfind : ∀ route ∈ routesFor p cache model requestPath,
      ∃ channel, findRow Channel.id route.channelId cache.channelsIDM = some channel := by
    intro route hroute
    obtain ⟨name, hname⟩ := exists_name_of_mem_routesFor hroute
    exact h name route hname
  unfold getRandomSatisfiedChannel choose
  dsimp only
  split_ifs with hnil hmissing
  · rfl
  · obtain ⟨route, hroute, hnone⟩ := hmissing
    obtain ⟨channel, hsome⟩ := hfind route hroute
    rw [hnone] at hsome
    cases hsome
  · cases htarget : targetPriority
      (sortedPriorities ((routesFor p cache model requestPath).map Route.priority).dedup) retry with
    | none => rfl
    | some target =>
      dsimp only
      rw [dif_neg (exists_of_targetPriority htarget), dif_neg (exists_of_targetPriority htarget)]
      simp only [Draw.map, Draw.mk.injEq, true_and]
      funext x
      have hpicked := List.mem_of_mem_filter (result_byWeight_mem Route.weight
        (sumWeight (((routesFor p cache model requestPath).filter fun route =>
          route.priority = target).map Route.weight)) _
        (exists_of_targetPriority htarget) x)
      obtain ⟨channel, hsome⟩ := hfind _ hpicked
      rw [hsome]
      dsimp only
      rw [(findRow_eq_some hsome).2]

/-! ### Exactness -/

/-- The priority of a try: the next lower one each time, and the lowest one from then on. -/
def wantedPriority (routes : List Route) (retry : Nat) : Int :=
  ((routes.map Route.priority).toFinset.sort (· ≥ ·)).getD (min retry ((routes.map Route.priority).toFinset.card - 1)) 0

def wantedRoutes (routes : List Route) (retry : Nat) : List Route :=
  routes.filter fun route => route.priority = wantedPriority routes retry

/-- Only wanted routes are chosen, each by as many random numbers as its weight is, or by one if
there are no weights. -/
def ExactByWeight (routes : List Route) (retry : Nat) (d : Draw Selection) : Prop :=
  let wanted := wantedRoutes routes retry
  let sum := (wanted.map Route.weight).sum
  ∃ place : Draw (Fin wanted.length),
    d = place.map (fun i => .picked (wanted.get i).channelId (wanted.get i).upstream) ∧
      (0 < sum → place.bound = sum ∧ ∀ i, place.hits (fun j => j = i) = (wanted.get i).weight) ∧
      (sum = 0 → place.bound = wanted.length ∧ ∀ i, place.hits (fun j => j = i) = 1)

theorem sortedPriorities_dedup (l : List Int) : sortedPriorities l.dedup = l.toFinset.sort (· ≥ ·) := by
  have hperm : (sortedPriorities l.dedup).Perm (l.toFinset.sort (· ≥ ·)) := by
    refine (List.perm_insertionSort _ _).trans
      ((List.perm_ext_iff_of_nodup (List.nodup_dedup l) (Finset.sort_nodup _ _)).2 ?_)
    intro x
    rw [List.mem_dedup, Finset.mem_sort, List.mem_toFinset]
  exact hperm.eq_of_pairwise (fun a b _ _ hab hba => le_antisymm hba hab) (List.pairwise_insertionSort _ _)
    (Finset.pairwise_sort _ _)

variable {retry : Nat}

theorem targetPriority_eq (h : routes ≠ []) :
    targetPriority (sortedPriorities (routes.map Route.priority).dedup) retry = some (wantedPriority routes retry) := by
  rw [sortedPriorities_dedup, wantedPriority, ← Finset.length_sort (s := (routes.map Route.priority).toFinset) (· ≥ ·)]
  set sorted := (routes.map Route.priority).toFinset.sort (· ≥ ·) with hsorted
  have hpos : 0 < sorted.length := by
    obtain ⟨route, hroute⟩ := List.exists_mem_of_ne_nil routes h
    refine List.length_pos_of_mem (a := route.priority) ?_
    rw [hsorted, Finset.mem_sort, List.mem_toFinset]
    exact List.mem_map_of_mem hroute
  have hlt : min retry (sorted.length - 1) < sorted.length := by omega
  have hclamp : (if (sorted.length : Int) ≤ retry then (sorted.length : Int) - 1 else retry) =
      (min retry (sorted.length - 1) : Nat) := by
    split_ifs <;> omega
  rw [targetPriority, hclamp, if_neg (by omega), Int.toNat_natCast, List.getElem?_eq_getElem hlt,
    List.getD_eq_getElem _ _ hlt]

theorem wantedRoutes_ne_nil (h : routes ≠ []) (retry : Nat) : wantedRoutes routes retry ≠ [] :=
  exists_of_targetPriority (targetPriority_eq h)

theorem choose_eq_place (h : routes ≠ []) :
    choose routes retry =
      (placeByWeight Route.weight (sumWeight ((wantedRoutes routes retry).map Route.weight)) (wantedRoutes routes retry)
        (wantedRoutes_ne_nil h retry)).map
          fun i => .picked ((wantedRoutes routes retry).get i).channelId
            ((wantedRoutes routes retry).get i).upstream := by
  rw [choose, if_neg h, targetPriority_eq h]
  dsimp only
  rw [dif_neg (exists_of_targetPriority (targetPriority_eq h))]
  exact congrArg (Draw.map _) (byWeight_eq_map_place _ _ _ (wantedRoutes_ne_nil h retry))

theorem bound_placeByWeight_lt (h : routes ≠ []) (hlength : routes.length < 2 ^ 63) :
    ((placeByWeight Route.weight (sumWeight (routes.map Route.weight)) routes h).bound : Int) < 2 ^ 63 := by
  unfold placeByWeight byWeight
  split_ifs with hsum
  · dsimp only
    rw [List.length_finRange]
    exact_mod_cast hlength
  · have hlt := Int.bmod_lt (x := (routes.map Route.weight).sum) (m := 2 ^ 64) (by decide)
    rw [← sumWeight_eq_bmod] at hlt
    dsimp only
    omega

/-- **Among the routes of a request the choice is exact, unless the weights add up to what an `int`
cannot hold.** -/
theorem exact_iff (p : Parsers) (cache : Cache) (model : String) (retry : Nat)
    (requestPath : String) (h : cache.Consistent)
    (hroutes : routesFor p cache model requestPath ≠ [])
    (hlength : (routesFor p cache model requestPath).length < 2 ^ 63)
    (hweight : ∀ route ∈ routesFor p cache model requestPath, 0 ≤ route.weight) :
    ExactByWeight (routesFor p cache model requestPath) retry
      (getRandomSatisfiedChannel p cache model retry requestPath) ↔
      ((wantedRoutes (routesFor p cache model requestPath) retry).map Route.weight).sum < 2 ^ 63 := by
  rw [getRandomSatisfiedChannel_eq_choose h, choose_eq_place hroutes]
  set wanted := wantedRoutes (routesFor p cache model requestPath) retry with hwanted
  have hwantedWeight : ∀ route ∈ wanted, 0 ≤ route.weight := fun route hroute =>
    hweight route (List.mem_of_mem_filter hroute)
  constructor
  · rintro ⟨place, hplace, hpos, -⟩
    by_contra hlarge
    rw [not_lt] at hlarge
    have hbound : place.bound = (placeByWeight Route.weight (sumWeight (wanted.map Route.weight)) wanted
        (wantedRoutes_ne_nil hroutes retry)).bound := (congrArg Draw.bound hplace).symm
    have hsmall : (place.bound : Int) < 2 ^ 63 := by
      rw [hbound]
      exact bound_placeByWeight_lt _ (lt_of_le_of_lt (List.length_filter_le _ _) hlength)
    have hsum := (hpos (by omega)).1
    omega
  · intro hlight
    have hsum : sumWeight (wanted.map Route.weight) = (wanted.map Route.weight).sum :=
      Light.sumWeight ⟨hwantedWeight, hlight⟩
    refine ⟨_, rfl, fun hpos => ?_, fun hzero => ?_⟩
    · rw [hsum]
      have hplace := hits_placeByWeight (wantedRoutes_ne_nil hroutes retry) hwantedWeight hpos
      obtain ⟨i⟩ : Nonempty (Fin wanted.length) := ⟨0, List.length_pos_iff.2 (wantedRoutes_ne_nil hroutes retry)⟩
      exact ⟨(hplace i).1, fun i => (hplace i).2⟩
    · rw [hsum]
      have hplace := hits_placeByWeight_uniform Route.weight (wantedRoutes_ne_nil hroutes retry) hzero.le
      obtain ⟨i⟩ : Nonempty (Fin wanted.length) := ⟨0, List.length_pos_iff.2 (wantedRoutes_ne_nil hroutes retry)⟩
      exact ⟨(hplace i).1, fun i => (hplace i).2⟩

def noConfig : Parsers where
  settings _ := (none, true)
  compile _ := none

def channelRow (id type : Int) (settings : String) : Channel where
  id := id
  type := type
  key := "k"
  status := channelStatusEnabled
  otherInfo := []
  channelInfo := ⟨false, 0, [], [], [], 0, .random⟩
  otherSettings := settings

def emptyCache : Cache := ⟨fun _ => [], [], fun _ => none⟩

def twoRoutes (weight weight' : Int) : Cache :=
  initChannelCache noConfig emptyCache [channelRow 1 1 "", channelRow 2 1 ""]
    [⟨"m", 1, 0, weight, true, ""⟩, ⟨"m", 2, 0, weight', true, ""⟩]

theorem exact_two_routes :
    ExactByWeight (routesFor noConfig (twoRoutes 1 3) "m" "") 5
      (getRandomSatisfiedChannel noConfig (twoRoutes 1 3) "m" 5 "") ∧
      (getRandomSatisfiedChannel noConfig (twoRoutes 1 3) "m" 5 "").hits (fun o => o = .picked 2 "m") = 3 := by
  refine ⟨(exact_iff noConfig (twoRoutes 1 3) "m" 5 "" (consistent_initChannelCache _ _ _ _) ?_ ?_ ?_).2 ?_, ?_⟩ <;>
    decide +kernel

/-- Three equal weights whose sum wraps to less than the first of them, which takes every draw. -/
theorem overflow_not_exact :
    let cache := initChannelCache noConfig emptyCache
      [channelRow 1 1 "", channelRow 2 1 "", channelRow 3 1 ""]
      ([1, 2, 3].map fun id => ⟨"m", id, 0, 2 ^ 63 - 1, true, ""⟩)
    let draw := getRandomSatisfiedChannel noConfig cache "m" 0 ""
    cache.Consistent ∧ draw.bound = 2 ^ 63 - 3 ∧ draw.result (2 ^ 63 - 4) = .picked 1 "m" ∧
      ¬ ExactByWeight (routesFor noConfig cache "m" "") 0 draw := by
  intro cache draw
  have hbound : draw.bound = 2 ^ 63 - 3 := by decide +kernel
  have hsum : ((wantedRoutes (routesFor noConfig cache "m" "") 0).map Route.weight).sum =
      3 * (2 ^ 63 - 1) := by decide +kernel
  refine ⟨consistent_initChannelCache _ _ _ _, hbound, by decide +kernel, ?_⟩
  rintro ⟨place, hplace, hpos, -⟩
  have hplaces : place.bound = 2 ^ 63 - 3 := (congrArg Draw.bound hplace).symm.trans hbound
  have htotal := (hpos (by rw [hsum]; decide)).1
  rw [hsum, hplaces] at htotal
  exact absurd htotal (by decide)

/-- Whatever statuses are set after the cache was built, the choice is none or a channel of the
cache, and never fails. -/
theorem choice_after_updates (p : Parsers) (old : Cache) (channels : List Channel) (rows : List BindingRow)
    (updates : List (Int × Int)) (model : String) (retry : Nat) (requestPath : String) (x : Nat) :
    let cache := updates.foldl (fun cache u => cacheUpdateChannelStatus u.1 u.2 cache)
      (initChannelCache p old channels rows)
    let choice := (getRandomSatisfiedChannel p cache model retry requestPath).result x
    choice = .noChannel ∨ ∃ channel ∈ cache.channelsIDM, ∃ upstream, choice = .picked channel.id upstream := by
  intro cache choice
  have hcache : cache.Consistent := List.foldlRecOn updates _ (consistent_initChannelCache p old channels rows)
    fun cache h u _ => consistent_cacheUpdateChannelStatus h u.1 u.2
  have hchoice : choice = (choose (routesFor p cache model requestPath) retry).result x := by
    rw [← getRandomSatisfiedChannel_eq_choose hcache]
  by_cases hroutes : routesFor p cache model requestPath = []
  · exact .inl (by rw [hchoice, hroutes]; rfl)
  · rw [hchoice, choose_eq_place hroutes]
    obtain ⟨name, hname⟩ := exists_name_of_mem_routesFor
      (List.mem_of_mem_filter (List.get_mem (wantedRoutes _ retry) _))
    obtain ⟨channel, hchannel⟩ := hcache name _ hname
    obtain ⟨hmem, hid⟩ := findRow_eq_some hchannel
    exact .inr ⟨channel, hmem, _, by rw [hid]; rfl⟩

end TokenEra.Channels.Routing
