import Mathlib.Tactic

/-! The static audit of the routes of an app: which routes depend on the bare API-key principal,
and which dependency paths it does not look at. -/
namespace FastapiM8

/-- A node of the dependency tree that is built for a route. Callables are told apart by
identity. -/
inductive Dependant (C : Type) where
  | mk (call : C) (dependencies : List (Dependant C))

namespace Dependant

variable {C : Type}

def call : Dependant C → C
  | mk call _ => call

def dependencies : Dependant C → List (Dependant C)
  | mk _ dependencies => dependencies

/-- The tree with further dependencies before its own. -/
def behind (inherited : List (Dependant C)) (d : Dependant C) : Dependant C :=
  mk d.call (inherited ++ d.dependencies)

@[simp] theorem behind_nil (d : Dependant C) : d.behind [] = d := by
  cases d
  rfl

theorem sizeOf_lt_of_mem {d dep : Dependant C} (h : dep ∈ d.dependencies) :
    sizeOf dep < sizeOf d := by
  obtain ⟨call, dependencies⟩ := d
  have hlt : sizeOf dep < sizeOf dependencies := List.sizeOf_lt_of_mem h
  rw [mk.sizeOf_spec]
  omega

/-- What holds of a node when it holds of its dependencies holds of every tree. -/
@[elab_as_elim]
theorem treeInduction {P : Dependant C → Prop}
    (node : ∀ d, (∀ dep ∈ d.dependencies, P dep) → P d) (d : Dependant C) : P d :=
  node d fun dep _ => treeInduction node dep
termination_by sizeOf d
decreasing_by exact sizeOf_lt_of_mem ‹_›

/-- The callables on a dependency path from a node to the bare dependency. -/
inductive Path (bare : C) : Dependant C → List C → Prop
  | direct {d dep : Dependant C} (h : dep ∈ d.dependencies) (hbare : dep.call = bare) :
      Path bare d [bare]
  | through {d dep : Dependant C} {calls : List C} (h : dep ∈ d.dependencies)
      (rest : Path bare dep calls) : Path bare d (dep.call :: calls)

/-- Every dependency path to the bare dependency passes through a capability dependency. -/
def Capped (capability : C → Bool) (bare : C) (d : Dependant C) : Prop :=
  ∀ calls, Path bare d calls → ∃ c ∈ calls, capability c = true

end Dependant

/-- An HTTP route with the dependency tree of its endpoint. -/
structure APIRoute (C : Type) where
  path : String
  methods : Option (List String)
  dependant : Dependant C

/-- What an app can have among its routes. An included router is an entry of its own there, which
resolves its dependencies before those of each of its routes; a mounted application has only its
own. `other` is a route without dependencies. -/
inductive Route (C : Type) where
  | api (route : APIRoute C)
  | websocket (path : String) (dependant : Dependant C)
  | included (pathPrefix : String) (dependencies : List (Dependant C)) (routes : List (Route C))
  | mount (path : String) (routes : List (Route C))
  | other (path : String)

/-- One route found depending directly on the bare API-key principal. -/
structure BareApiKeyDependency where
  path : String
  methods : List String
  deriving DecidableEq

section Audit

variable {C : Type} [DecidableEq C]

/-- Return every route depending directly on `bareDependency`. -/
def auditApiKeyRoutes (routes : List (Route C)) (bareDependency : C) (exemptPaths : List String) :
    List BareApiKeyDependency :=
  routes.filterMap fun
    | .api route =>
      if route.path ∈ exemptPaths then none
      else if route.dependant.dependencies.any fun dep => dep.call = bareDependency then
        some ⟨route.path, route.methods.getD []⟩
      else none
    | _ => none

end Audit

section Endpoints

variable {C : Type}

mutual

/-- The endpoints behind a route, under the path of the routers and mounts around it and behind
the dependencies of the routers. -/
def Route.endpoints (base : String) (inherited : List (Dependant C)) :
    Route C → List (String × Dependant C)
  | .api route => [(base ++ route.path, route.dependant.behind inherited)]
  | .websocket path dependant => [(base ++ path, dependant.behind inherited)]
  | .included pathPrefix dependencies routes =>
    endpointsOf (base ++ pathPrefix) (inherited ++ dependencies) routes
  | .mount path routes => endpointsOf (base ++ path) [] routes
  | .other _ => []

def endpointsOf (base : String) (inherited : List (Dependant C)) :
    List (Route C) → List (String × Dependant C)
  | [] => []
  | route :: routes => route.endpoints base inherited ++ endpointsOf base inherited routes

end

/-- The endpoints of an app with these routes. -/
def appEndpoints (routes : List (Route C)) : List (String × Dependant C) := endpointsOf "" [] routes

/-- Whether the audit looks at the route. -/
def Route.isApi : Route C → Bool
  | .api _ => true
  | _ => false

theorem mem_endpointsOf {base : String} {inherited : List (Dependant C)} {routes : List (Route C)}
    {e : String × Dependant C} : e ∈ endpointsOf base inherited routes ↔
      ∃ route ∈ routes, e ∈ route.endpoints base inherited := by
  induction routes with
  | nil => simp [endpointsOf]
  | cons route routes ih => simp [endpointsOf, ih]

/-- The endpoints of an app are those of its HTTP routes, and those that the audit skips. -/
theorem mem_endpoints_iff {routes : List (Route C)} {e : String × Dependant C} :
    e ∈ appEndpoints routes ↔
      (∃ route, .api route ∈ routes ∧ e = (route.path, route.dependant)) ∨
        e ∈ appEndpoints (routes.filter fun route => !route.isApi) := by
  simp only [appEndpoints, mem_endpointsOf, List.mem_filter]
  constructor
  · rintro ⟨route, hmem, he⟩
    cases route with
    | api route =>
      refine .inl ⟨route, hmem, ?_⟩
      simpa [Route.endpoints] using he
    | _ => exact .inr ⟨_, ⟨hmem, rfl⟩, he⟩
  · rintro (⟨route, hmem, rfl⟩ | ⟨route, ⟨hmem, -⟩, he⟩)
    · exact ⟨.api route, hmem, by simp [Route.endpoints]⟩
    · exact ⟨route, hmem, he⟩

end Endpoints

namespace Dependant

section Walk

variable {C : Type} [DecidableEq C] (capability : C → Bool) (bare : C)

mutual

/-- Some path from the node to the bare dependency passes through no capability dependency. -/
def uncapped : Dependant C → Bool
  | mk _ dependencies => uncappedAny dependencies

def uncappedAny : List (Dependant C) → Bool
  | [] => false
  | dep :: dependencies =>
    (!capability dep.call && (dep.call = bare || dep.uncapped)) || uncappedAny dependencies

end

variable {capability bare}

theorem uncappedAny_eq_true {dependencies : List (Dependant C)} :
    uncappedAny capability bare dependencies = true ↔ ∃ dep ∈ dependencies,
      capability dep.call = false ∧ (dep.call = bare ∨ dep.uncapped capability bare = true) := by
  induction dependencies with
  | nil => simp [uncappedAny]
  | cons dep dependencies ih => simp [uncappedAny, ih]

theorem uncapped_eq_true {d : Dependant C} : d.uncapped capability bare = true ↔
    ∃ dep ∈ d.dependencies,
      capability dep.call = false ∧ (dep.call = bare ∨ dep.uncapped capability bare = true) := by
  obtain ⟨call, dependencies⟩ := d
  rw [uncapped, uncappedAny_eq_true, Dependant.dependencies]

/-- The walk finds every uncapped path. -/
theorem uncapped_of_path {d : Dependant C} {calls : List C} (h : Path bare d calls)
    (hnone : ∀ c ∈ calls, capability c = false) : d.uncapped capability bare = true := by
  induction h with
  | @direct d dep h hbare =>
    have hdep : capability dep.call = false := by
      simpa [hbare] using hnone
    exact uncapped_eq_true.mpr ⟨dep, h, hdep, .inl hbare⟩
  | @through d dep calls h rest ih =>
    rw [List.forall_mem_cons] at hnone
    exact uncapped_eq_true.mpr ⟨dep, h, hnone.1, .inr (ih hnone.2)⟩

/-- What the walk finds is an uncapped path. -/
theorem path_of_uncapped (d : Dependant C) (h : d.uncapped capability bare = true) :
    ∃ calls, Path bare d calls ∧ ∀ c ∈ calls, capability c = false := by
  induction d using treeInduction with
  | node d ih =>
    obtain ⟨dep, hmem, hdep, hbare | hrest⟩ := uncapped_eq_true.mp h
    · refine ⟨[bare], .direct hmem hbare, ?_⟩
      simpa [hbare] using hdep
    · obtain ⟨calls, hpath, hnone⟩ := ih dep hmem hrest
      exact ⟨dep.call :: calls, .through hmem hpath, List.forall_mem_cons.mpr ⟨hdep, hnone⟩⟩

theorem capped_iff {d : Dependant C} :
    d.Capped capability bare ↔ d.uncapped capability bare = false := by
  rw [← Bool.not_eq_true, Capped]
  constructor
  · intro hcapped huncapped
    obtain ⟨calls, hpath, hnone⟩ := path_of_uncapped d huncapped
    obtain ⟨c, hc, hcap⟩ := hcapped calls hpath
    simp [hnone c hc] at hcap
  · intro hwalk calls hpath
    by_contra hnone
    have hall : ∀ c ∈ calls, capability c = false := by
      simpa using hnone
    exact hwalk (uncapped_of_path hpath hall)

variable (capability bare) in
/-- Some path to the bare dependency goes through another dependency, and through no capability
dependency. -/
def wrapped (d : Dependant C) : Bool :=
  d.dependencies.any fun dep => !capability dep.call && dep.uncapped capability bare

/-- Where the bare dependency is not named directly, only wrapped paths are left. -/
theorem uncapped_eq_wrapped {d : Dependant C} (h : ∀ dep ∈ d.dependencies, dep.call ≠ bare) :
    d.uncapped capability bare = d.wrapped capability bare := by
  rw [Bool.eq_iff_iff, uncapped_eq_true, wrapped, List.any_eq_true]
  constructor
  · rintro ⟨dep, hmem, hdep, hbare | hrest⟩
    · exact absurd hbare (h dep hmem)
    · exact ⟨dep, hmem, by simp [hdep, hrest]⟩
  · rintro ⟨dep, hmem, hdep⟩
    simp only [Bool.and_eq_true, Bool.not_eq_true'] at hdep
    exact ⟨dep, hmem, hdep.1, .inr hdep.2⟩

end Walk

end Dependant

section Soundness

variable {C : Type} [DecidableEq C] {routes : List (Route C)} {bare : C} {exempt : List String}

/-- An HTTP route that is not exempt names the bare dependency directly. -/
def NamesBare (routes : List (Route C)) (bare : C) (exempt : List String) (route : APIRoute C) :
    Prop :=
  .api route ∈ routes ∧ route.path ∉ exempt ∧ ∃ dep ∈ route.dependant.dependencies, dep.call = bare

/-- The findings are the routes that name the bare dependency directly. -/
theorem mem_auditApiKeyRoutes {finding : BareApiKeyDependency} :
    finding ∈ auditApiKeyRoutes routes bare exempt ↔ ∃ route,
      NamesBare routes bare exempt route ∧ finding = ⟨route.path, route.methods.getD []⟩ := by
  rw [auditApiKeyRoutes, List.mem_filterMap]
  constructor
  · rintro ⟨route, hmem, hfound⟩
    cases route with
    | api route =>
      dsimp only at hfound
      split at hfound
      next => contradiction
      next hpath =>
        split at hfound
        next hnames =>
          obtain ⟨dep, hdep, hbare⟩ := List.any_eq_true.mp hnames
          exact ⟨route, ⟨hmem, hpath, dep, hdep, of_decide_eq_true hbare⟩,
            (Option.some.inj hfound).symm⟩
        next => contradiction
    | _ => contradiction
  · rintro ⟨route, ⟨hmem, hpath, dep, hdep, hbare⟩, rfl⟩
    have hnames : (route.dependant.dependencies.any fun dep => dep.call = bare) = true :=
      List.any_eq_true.mpr ⟨dep, hdep, decide_eq_true hbare⟩
    exact ⟨.api route, hmem, by simp [hpath, hnames]⟩

theorem audit_eq_nil_iff :
    auditApiKeyRoutes routes bare exempt = [] ↔ ¬ ∃ route, NamesBare routes bare exempt route := by
  rw [List.eq_nil_iff_forall_not_mem]
  constructor
  · rintro h ⟨route, hnames⟩
    exact h _ (mem_auditApiKeyRoutes.mpr ⟨route, hnames, rfl⟩)
  · intro h finding hfinding
    obtain ⟨route, hnames, -⟩ := mem_auditApiKeyRoutes.mp hfinding
    exact h ⟨route, hnames⟩

/-- An empty audit means that every dependency path from an endpoint to the bare dependency
passes through a capability dependency exactly when the audit cannot be empty, or neither the
endpoints that it skips (of websockets, included routers and mounts) have an uncapped path nor the
others a wrapped one. -/
theorem audit_sound_iff (capability : C → Bool) (bare : C) (routes : List (Route C))
    (exempt : List String) :
    (auditApiKeyRoutes routes bare exempt = [] →
      ∀ e ∈ appEndpoints routes, e.1 ∉ exempt → e.2.Capped capability bare) ↔
    (∃ route, NamesBare routes bare exempt route) ∨
    (∀ e ∈ appEndpoints (routes.filter fun route => !route.isApi), e.1 ∉ exempt →
      e.2.uncapped capability bare = false) ∧
    ∀ route, .api route ∈ routes → route.path ∉ exempt →
      route.dependant.wrapped capability bare = false := by
  rw [audit_eq_nil_iff]
  by_cases hnames : ∃ route, NamesBare routes bare exempt route
  · simp [hnames]
  · have hwrapped : ∀ route, .api route ∈ routes → route.path ∉ exempt →
        route.dependant.uncapped capability bare = route.dependant.wrapped capability bare := by
      intro route hmem hpath
      refine Dependant.uncapped_eq_wrapped fun dep hdep hbare => ?_
      exact hnames ⟨route, hmem, hpath, dep, hdep, hbare⟩
    simp only [hnames, not_false_eq_true, forall_const, false_or, Dependant.capped_iff]
    constructor
    · intro hcapped
      constructor
      · intro e he
        exact hcapped e (mem_endpoints_iff.mpr (.inr he))
      · intro route hmem hpath
        rw [← hwrapped route hmem hpath]
        exact hcapped _ (mem_endpoints_iff.mpr (.inl ⟨route, hmem, rfl⟩)) hpath
    · rintro ⟨hskipped, hothers⟩ e he hpath
      rcases mem_endpoints_iff.mp he with ⟨route, hmem, rfl⟩ | he
      · rw [hwrapped route hmem hpath]
        exact hothers route hmem hpath
      · exact hskipped e he hpath

/-- An endpoint that gets the principal through a helper. -/
def helperRoute : Route String :=
  .api ⟨"/items", some ["GET"], .mk "items" [.mk "current_owner" [.mk "principal" []]]⟩

/-- A websocket endpoint that depends on the principal directly. -/
def socketRoute : Route String := .websocket "/feed" (.mk "feed" [.mk "principal" []])

/-- An endpoint of a router that depends on the principal directly. -/
def ownerRoute : Route String := .api ⟨"/owner", some ["GET"], .mk "owner" [.mk "principal" []]⟩

/-- No route above is a finding, whether its router is included or mounted. -/
example : auditApiKeyRoutes [helperRoute, socketRoute, .included "/v1" [] [ownerRoute],
    .mount "/v2" [ownerRoute]] "principal" [] = [] := by decide

/-- The dependencies of an included router come before those of its endpoints. -/
example : appEndpoints [.included "/v1" [.mk "require_api_key_role" []] [ownerRoute]] =
    [("/v1/owner", .mk "owner" [.mk "require_api_key_role" [], .mk "principal" []])] := by
  simp [appEndpoints, endpointsOf, Route.endpoints, ownerRoute, Dependant.behind, Dependant.call,
    Dependant.dependencies]

theorem audit_not_sound :
    ¬ ∀ (capability : String → Bool) (bare : String) (routes : List (Route String))
      (exempt : List String), auditApiKeyRoutes routes bare exempt = [] →
      ∀ e ∈ appEndpoints routes, e.1 ∉ exempt → e.2.Capped capability bare := by
  intro h
  have hcapped := h (· = "require_api_key_role") "principal"
    [helperRoute, socketRoute, .included "/v1" [] [ownerRoute]] [] (by decide)
    ("/v1/owner", .mk "owner" [.mk "principal" []])
    (by simp [appEndpoints, endpointsOf, Route.endpoints, helperRoute, socketRoute, ownerRoute])
    (by simp)
  rw [Dependant.capped_iff] at hcapped
  contradiction

end Soundness

end FastapiM8
