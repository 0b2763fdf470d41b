import TokenEra.Lib.Text

/-!
# The model of a request

`distribute` reads the model of a JSON request, checks it and chooses a channel with the model's
name upstream; the body that is sent on (`outboundBoundRequestBody`) is the client's, with that name
in the place of the model.

A body is the list of its top-level members, each with the raw text of its name and of its value,
since names may repeat. The libraries that read and edit it (gjson and sjson) take the first member
of a name; whoever reads the body upstream may take the last one. So the model that was checked is
the one that runs, whichever is taken, exactly if all members named `model` after the first already
have the name upstream.
-/

namespace TokenEra.Distributor

open Lib

/-! ### Bodies -/

structure Member where
  rawName : String
  rawValue : String
  deriving DecidableEq, Repr

/-- A value as gjson reports it: a value that is no string has its text. -/
inductive Value
  | null
  | str (s : String)
  | other (text : String)
  deriving DecidableEq, Repr

def Value.text : Value → String
  | .null => ""
  | .str s => s
  | .other text => text

/-- gjson and sjson: how raw names and values are read, how a string is written, and what they find
and replace in a body that has the field. -/
structure JsonLib where
  name : String → String
  value : String → Value
  encode : String → String
  get : List Member → String → Option Value
  set : List Member → String → String → List Member
  value_encode : ∀ s, value (encode s) = .str s
  get_first : ∀ body field, get body field = (body.find? fun m => name m.rawName = field).map fun m => value m.rawValue
  set_first : ∀ before m after field s, (∀ x ∈ before, name x.rawName ≠ field) → name m.rawName = field →
    set (before ++ m :: after) field s = before ++ { m with rawValue := encode s } :: after

def getJSONStringValue (result : Option Value) (field : String) : Except String String :=
  match result with
  | none | some .null => .ok ""
  | some (.str s) => .ok s
  | some (.other _) => .error ("field " ++ field ++ " must be a string")

structure ModelRequest where
  model : String
  group : String
  deriving DecidableEq, Repr

def getModelFromJSONBody (lib : JsonLib) (body : List Member) : Except String ModelRequest :=
  match getJSONStringValue (lib.get body "model") "model" with
  | .error text => .error text
  | .ok model =>
    match getJSONStringValue (lib.get body "group") "group" with
    | .error text => .error text
    | .ok group => .ok ⟨model, group⟩

/-! ### Distribution -/

/-- Where the channel comes from: the token names it, the user's last one is still good for the
model, or it is drawn together with the name upstream of one of its bindings. -/
inductive ChannelSource
  | specific (status : Bool) (enabledForModel : String → Bool)
  | preferred
  | random (select : String → Option String)

structure Context where
  isModelCatalogVisible : String → Bool
  modelLimitEnable : Bool
  tokenModelLimit : Option (List String)
  formatMatchingModelName : String → String
  source : ChannelSource
  /-- The name upstream of the chosen channel's binding of a model. -/
  bindingUpstream : String → Option String

inductive Rejection
  | invalidRequest (text : String)
  | modelNotInCatalog
  | channelDisabled
  | noAvailableChannel
  | tokenNoModelAccess
  | tokenModelForbidden
  | modelNameRequired
  deriving DecidableEq, Repr

def getBindingUpstreamModel (ctx : Context) (catalogModel : String) : String :=
  let catalogModel := trimSpace catalogModel
  if catalogModel = "" then catalogModel
  else
    match ctx.bindingUpstream catalogModel with
    | some upstream => if trimSpace upstream ≠ "" then trimSpace upstream else catalogModel
    | none => catalogModel

/-- `SetupContextForSelectedChannel`: the name upstream, from the selected binding if there is one.
-/
def setupUpstreamModel (ctx : Context) (selected modelName : String) : String :=
  let upstreamModel := if trimSpace selected = "" then getBindingUpstreamModel ctx modelName else trimSpace selected
  if upstreamModel = "" then modelName else upstreamModel

def checkModelLimit (ctx : Context) (model : String) : Except Rejection Unit :=
  if ctx.modelLimitEnable then
    match ctx.tokenModelLimit with
    | none => .error .tokenNoModelAccess
    | some limit =>
      if ctx.formatMatchingModelName model ∈ limit then .ok () else .error .tokenModelForbidden
  else .ok ()

/-- The name upstream that comes with the channel; empty if the channel does not come from a
binding. -/
def selectUpstream (ctx : Context) (model : String) : Except Rejection String :=
  match ctx.source with
  | .specific status enabledForModel =>
    if status = false then .error .channelDisabled
    else if model ≠ "" ∧ enabledForModel model = false then .error .noAvailableChannel
    else .ok ""
  | .preferred =>
    match checkModelLimit ctx model with
    | .error r => .error r
    | .ok () => if model = "" then .error .modelNameRequired else .ok ""
  | .random select =>
    match checkModelLimit ctx model with
    | .error r => .error r
    | .ok () =>
      if model = "" then .error .modelNameRequired
      else
        match select model with
        | none => .error .noAvailableChannel
        | some upstream => .ok upstream

/-- `Distribute` on a JSON body: the model that is checked and billed, and its name upstream. -/
def distribute (lib : JsonLib) (ctx : Context) (body : List Member) : Except Rejection (String × String) :=
  match getModelFromJSONBody lib body with
  | .error text => .error (.invalidRequest text)
  | .ok request =>
    if request.model ≠ "" ∧ ctx.isModelCatalogVisible request.model = false then .error .modelNotInCatalog
    else
      match selectUpstream ctx request.model with
      | .error r => .error r
      | .ok selected => .ok (request.model, setupUpstreamModel ctx selected request.model)

/-! ### The body that is sent on -/

def rewriteOutboundJSONModel (lib : JsonLib) (raw : List Member) (upstream : String) : List Member :=
  let upstream := trimSpace upstream
  if upstream = "" then raw
  else
    match lib.get raw "model" with
    | none => raw
    | some value => if value.text = upstream then raw else lib.set raw "model" upstream

def outboundBoundRequestBody (lib : JsonLib) (body : List Member)
    (originModelName upstreamModelName : String) : List Member :=
  if upstreamModelName = "" ∨ upstreamModelName = originModelName then body
  else rewriteOutboundJSONModel lib body upstreamModelName

/-! ### What is forwarded -/

section Forwarded

variable (lib : JsonLib)

def isModel (m : Member) : Bool := lib.name m.rawName = "model"

def modelMembers (body : List Member) : List Member := body.filter (isModel lib)

structure Forwards (upstream : String) (body out : List Member) : Prop where
  model : ∀ m ∈ modelMembers lib out, lib.value m.rawValue = .str upstream
  others : out.filter (fun m => !isModel lib m) = body.filter fun m => !isModel lib m

variable {lib} {ctx : Context} {body : List Member} {m u : String}

theorem getJSONStringValue_eq_ok {result : Option Value} {field s : String}
    (h : getJSONStringValue result field = .ok s) (hs : s ≠ "") : result = some (.str s) := by
  cases result with
  | none => exact absurd (Except.ok.inj h).symm hs
  | some value =>
    cases value with
    | null => exact absurd (Except.ok.inj h).symm hs
    | str t => rw [Except.ok.inj h]
    | other text => simp [getJSONStringValue] at h

theorem getModelFromJSONBody_eq_ok {request : ModelRequest} (h : getModelFromJSONBody lib body = .ok request) :
    getJSONStringValue (lib.get body "model") "model" = .ok request.model := by
  rw [getModelFromJSONBody] at h
  cases hmodel : getJSONStringValue (lib.get body "model") "model" with
  | error text => simp [hmodel] at h
  | ok model =>
    cases hgroup : getJSONStringValue (lib.get body "group") "group" with
    | error text => simp [hmodel, hgroup] at h
    | ok group =>
      simp only [hmodel, hgroup] at h
      rw [← Except.ok.inj h]

theorem distribute_eq_ok (h : distribute lib ctx body = .ok (m, u)) :
    ∃ request selected, getModelFromJSONBody lib body = .ok request ∧ request.model = m ∧
      u = setupUpstreamModel ctx selected m := by
  rw [distribute] at h
  cases hrequest : getModelFromJSONBody lib body with
  | error text => simp [hrequest] at h
  | ok request =>
    simp only [hrequest] at h
    split_ifs at h
    cases hselected : selectUpstream ctx request.model with
    | error r => simp [hselected] at h
    | ok selected =>
      simp only [hselected] at h
      obtain ⟨rfl, rfl⟩ := Prod.mk.inj (Except.ok.inj h)
      exact ⟨request, selected, rfl, rfl, rfl⟩

theorem first_of_distribute (h : distribute lib ctx body = .ok (m, u)) (hm : m ≠ "") :
    ∃ before x after, body = before ++ x :: after ∧ (∀ y ∈ before, lib.name y.rawName ≠ "model") ∧
      lib.name x.rawName = "model" ∧ lib.value x.rawValue = .str m := by
  obtain ⟨request, selected, hrequest, rfl, -⟩ := distribute_eq_ok h
  have hget := getJSONStringValue_eq_ok (getModelFromJSONBody_eq_ok hrequest) hm
  rw [lib.get_first, Option.map_eq_some_iff] at hget
  obtain ⟨x, hx, hvalue⟩ := hget
  obtain ⟨hname, before, after, rfl, hbefore⟩ := List.find?_eq_some_iff_append.1 hx
  exact ⟨before, x, after, rfl, fun y hy => by simpa using hbefore y hy, by simpa using hname, hvalue⟩

theorem trimSpace_getBindingUpstreamModel :
    trimSpace (getBindingUpstreamModel ctx m) = getBindingUpstreamModel ctx m := by
  simp only [getBindingUpstreamModel]
  split_ifs
  · rw [trimSpace_trimSpace]
  · cases ctx.bindingUpstream (trimSpace m) with
    | none => exact trimSpace_trimSpace m
    | some upstream =>
      simp only
      split_ifs <;> rw [trimSpace_trimSpace]

variable {selected : String}

theorem trimSpace_setupUpstreamModel :
    trimSpace (setupUpstreamModel ctx selected m) = setupUpstreamModel ctx selected m ∨
      setupUpstreamModel ctx selected m = m := by
  simp only [setupUpstreamModel]
  split_ifs
  · exact .inr rfl
  · exact .inl trimSpace_getBindingUpstreamModel
  · exact .inl (trimSpace_trimSpace selected)

theorem setupUpstreamModel_ne_empty (hm : m ≠ "") : setupUpstreamModel ctx selected m ≠ "" := by
  intro hempty
  simp only [setupUpstreamModel] at hempty
  by_cases hnone : (if trimSpace selected = "" then getBindingUpstreamModel ctx m else trimSpace selected) = ""
  · rw [if_pos hnone] at hempty
    exact hm hempty
  · rw [if_neg hnone] at hempty
    exact hnone hempty

theorem modelMembers_split {before : List Member} (after : List Member) {x : Member}
    (hbefore : ∀ y ∈ before, lib.name y.rawName ≠ "model")
    (hx : lib.name x.rawName = "model") : modelMembers lib (before ++ x :: after) = x :: modelMembers lib after := by
  have hnone : before.filter (isModel lib) = [] := by
    rw [List.filter_eq_nil_iff]
    intro y hy
    simp [isModel, hbefore y hy]
  rw [modelMembers, List.filter_append, hnone, List.nil_append,
    List.filter_cons_of_pos (by simp [isModel, hx]), modelMembers]

/-- The body that is sent on for an accepted model: the first member has the name upstream. -/
theorem outbound_split {before : List Member} (after : List Member) {x : Member} (hu : u ≠ "")
    (htrim : trimSpace u = u ∨ u = m)
    (hbefore : ∀ y ∈ before, lib.name y.rawName ≠ "model") (hx : lib.name x.rawName = "model")
    (hvalue : lib.value x.rawValue = .str m) :
    ∃ raw, lib.value raw = .str u ∧
      outboundBoundRequestBody lib (before ++ x :: after) m u = before ++ { x with rawValue := raw } :: after := by
  rw [outboundBoundRequestBody]
  by_cases hsame : u = m
  · refine ⟨x.rawValue, hsame ▸ hvalue, ?_⟩
    rw [if_pos (.inr hsame)]
  · have hget : lib.get (before ++ x :: after) "model" = some (.str m) := by
      have hnone : before.find? (fun y => lib.name y.rawName = "model") = none := by
        rw [List.find?_eq_none]
        intro y hy
        simpa using hbefore y hy
      rw [lib.get_first, List.find?_append, hnone, Option.none_or,
        List.find?_cons_of_pos (by simpa using hx), Option.map_some,
        hvalue]
    refine ⟨lib.encode u, lib.value_encode u, ?_⟩
    rw [if_neg (by simp [hu, hsame]), rewriteOutboundJSONModel]
    simp only [htrim.resolve_right hsame, hu, if_false, hget]
    rw [if_neg (fun h => hsame h.symm), lib.set_first _ _ _ _ _ hbefore hx]

/-- **The model that was checked is the one that is forwarded exactly if the other members of the
name agree.** -/
theorem forwards_iff (lib : JsonLib) (ctx : Context) (body : List Member) (m u : String)
    (h : distribute lib ctx body = .ok (m, u)) (hm : m ≠ "") :
    Forwards lib u body (outboundBoundRequestBody lib body m u) ↔
      ∀ x ∈ (modelMembers lib body).tail, lib.value x.rawValue = .str u := by
  obtain ⟨before, x, after, rfl, hbefore, hx, hvalue⟩ := first_of_distribute h hm
  obtain ⟨request, selected, -, rfl, hu⟩ := distribute_eq_ok h
  have hne : u ≠ "" := by
    rw [hu]
    exact setupUpstreamModel_ne_empty hm
  have htrim : trimSpace u = u ∨ u = request.model := by
    rw [hu]
    exact trimSpace_setupUpstreamModel
  obtain ⟨raw, hraw, hout⟩ := outbound_split after hne htrim hbefore hx hvalue
  have hmodels := modelMembers_split after hbefore hx
  have hmodels' := modelMembers_split (x := { x with rawValue := raw }) after hbefore hx
  rw [hout, hmodels, List.tail_cons]
  constructor
  · rintro ⟨hmodel, -⟩ y hy
    exact hmodel y (by rw [hmodels']; exact List.mem_cons_of_mem _ hy)
  · intro hrest
    refine ⟨?_, ?_⟩
    · intro y hy
      rw [hmodels'] at hy
      rcases List.mem_cons.1 hy with rfl | hy
      · exact hraw
      · exact hrest y hy
    · have hself : isModel lib x = true := by simp [isModel, hx]
      have hself' : isModel lib { x with rawValue := raw } = true := by simp [isModel, hx]
      rw [List.filter_append, List.filter_append, List.filter_cons_of_neg (by simp [hself']),
        List.filter_cons_of_neg (by simp [hself])]

end Forwarded

/-! ### A library for bodies without escapes -/

def replaceFirst (field raw : String) : List Member → List Member
  | [] => []
  | m :: body => if m.rawName = field then { m with rawValue := raw } :: body else m :: replaceFirst field raw body

theorem replaceFirst_append {field raw : String} {before after : List Member} {m : Member}
    (hbefore : ∀ x ∈ before, x.rawName ≠ field) (hm : m.rawName = field) :
    replaceFirst field raw (before ++ m :: after) = before ++ { m with rawValue := raw } :: after := by
  induction before with
  | nil => rw [List.nil_append, replaceFirst, if_pos hm, List.nil_append]
  | cons x before ih =>
    obtain ⟨hx, hbefore⟩ := List.forall_mem_cons.1 hbefore
    rw [List.cons_append, replaceFirst, if_neg hx, ih hbefore, List.cons_append]

def plainLib : JsonLib where
  name raw := raw
  value raw := .str raw
  encode s := s
  get body field := (body.find? fun m => m.rawName = field).map fun m => .str m.rawValue
  set body field s := replaceFirst field s body
  value_encode _ := rfl
  get_first _ _ := rfl
  set_first _ _ _ _ _ hbefore hm := replaceFirst_append hbefore hm

def openContext (upstream : String) : Context where
  isModelCatalogVisible _ := true
  modelLimitEnable := false
  tokenModelLimit := none
  formatMatchingModelName := id
  source := .random fun _ => some upstream
  bindingUpstream _ := none

theorem forwards_one :
    let body : List Member := [⟨"model", "fast"⟩, ⟨"input", "hi"⟩, ⟨"model", "fast-v2"⟩]
    Forwards plainLib "fast-v2" body (outboundBoundRequestBody plainLib body "fast" "fast-v2") := by
  intro body
  have haccepted : distribute plainLib (openContext "fast-v2") body = .ok ("fast", "fast-v2") := by decide +kernel
  have htail : (modelMembers plainLib body).tail = [⟨"model", "fast-v2"⟩] := by decide +kernel
  refine (forwards_iff plainLib (openContext "fast-v2") body "fast" "fast-v2" haccepted (by decide)).2 ?_
  rw [htail, List.forall_mem_singleton]
  rfl

/-- A second model is sent on as it is. -/
theorem second_model_forwarded :
    let body : List Member := [⟨"model", "fast"⟩, ⟨"model", "large"⟩]
    distribute plainLib (openContext "fast-v2") body = .ok ("fast", "fast-v2") ∧
      outboundBoundRequestBody plainLib body "fast" "fast-v2" = [⟨"model", "fast-v2"⟩, ⟨"model", "large"⟩] ∧
      ¬ Forwards plainLib "fast-v2" body (outboundBoundRequestBody plainLib body "fast" "fast-v2") := by
  intro body
  have hout : outboundBoundRequestBody plainLib body "fast" "fast-v2" = [⟨"model", "fast-v2"⟩, ⟨"model", "large"⟩] := by
    decide +kernel
  refine ⟨by decide +kernel, hout, ?_⟩
  rintro ⟨hmodel, -⟩
  have hlarge := hmodel ⟨"model", "large"⟩ (by rw [hout]; decide +kernel)
  exact absurd hlarge (by decide)

end TokenEra.Distributor
