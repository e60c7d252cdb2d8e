import FastapiM8.InternalAuth
import FastapiM8.Deps

/-! The guard on the routes that other services call: which scopes it can be built for, and which
clients it lets through. A set is iterated in an order that changes from one process to the next;
nothing that the guard answers depends on it. -/
namespace FastapiM8

/-- An item of an iterable of scopes: a string, another object that a set can hold, or one that it
cannot. Objects are told apart by identity. -/
inductive ScopeItem where
  | text (scope : String)
  | other (identity : ℕ)
  | unhashable
  deriving DecidableEq

/-- What is passed as `required_scopes`. -/
inductive RequiredScopes where
  | text (scopes : String)
  | items (items : List ScopeItem)

/-- What `build_service_client_guard` raises. -/
inductive ScopeError where
  | typeError (message : String)
  | valueError (message : String)
  deriving DecidableEq

/-- The order in which a process iterates over a set. -/
structure SetOrder (α : Type) where
  toList : Finset α → List α
  mem_toList : ∀ s a, a ∈ toList s ↔ a ∈ s

/-- An authenticated client. -/
structure ConsumerCredential where
  clientId : String
  hasScope : String → Bool

/-- The registry of clients: `verify` is given the two headers, as far as they are there. -/
structure ConsumerCredentialRegistry where
  verify : (clientId secret : Option String) → Option ConsumerCredential

/-- `isinstance(scope, str) and scope`. -/
def ScopeItem.isScope : ScopeItem → Bool
  | .text scope => scope ≠ ""
  | _ => false

variable (order : SetOrder ScopeItem)

/-- Return the required scopes as a non-empty set of strings. -/
def normaliseRequiredScopes : RequiredScopes → Except ScopeError (Finset ScopeItem)
  | .text _ =>
    .error (.typeError "required_scopes must be an iterable of scope strings, not a str")
  | .items items =>
    if .unhashable ∈ items then .error (.typeError "unhashable type")
    else if items.toFinset = ∅ then
      .error (.valueError ("required_scopes must name at least one scope; a service-client " ++
        "guard is deny-by-default"))
    else if (order.toList items.toFinset).any fun scope => !scope.isScope then
      .error (.valueError "every required scope must be a non-empty string")
    else .ok items.toFinset

/-- Whether the client holds what an item names. -/
def ConsumerCredential.holds (credential : ConsumerCredential) : ScopeItem → Bool
  | .text scope => credential.hasScope scope
  | _ => false

/-- The dependency: it returns the authenticated client id. -/
def serviceClient (registry : ConsumerCredentialRegistry) (scopes : Finset ScopeItem)
    (headers : String → Option String) : Except PyExc String :=
  match registry.verify (headers internalClientHeader) (headers internalTokenHeader) with
  | none => .error (.httpException 401 "Unauthorized")
  | some credential =>
    if (order.toList scopes).all credential.holds then .ok credential.clientId
    else .error (.httpException forbidden "Forbidden")

/-- Build a dependency that authenticates a service client. -/
def buildServiceClientGuard (registry : ConsumerCredentialRegistry)
    (requiredScopes : RequiredScopes) :
    Except ScopeError ((String → Option String) → Except PyExc String) :=
  (normaliseRequiredScopes order requiredScopes).map fun scopes =>
    serviceClient order registry scopes

variable {order}

theorem SetOrder.any_eq {α : Type} (order order' : SetOrder α) (s : Finset α) (p : α → Bool) :
    (order.toList s).any p = (order'.toList s).any p := by
  rw [Bool.eq_iff_iff, List.any_eq_true, List.any_eq_true]
  simp only [SetOrder.mem_toList]

theorem SetOrder.all_eq {α : Type} (order order' : SetOrder α) (s : Finset α) (p : α → Bool) :
    (order.toList s).all p = (order'.toList s).all p := by
  rw [Bool.eq_iff_iff, List.all_eq_true, List.all_eq_true]
  simp only [SetOrder.mem_toList]

theorem normaliseRequiredScopes_order (order order' : SetOrder ScopeItem)
    (requiredScopes : RequiredScopes) :
    normaliseRequiredScopes order requiredScopes =
      normaliseRequiredScopes order' requiredScopes := by
  cases requiredScopes with
  | text scopes => rfl
  | items items =>
    simp only [normaliseRequiredScopes]
    rw [order.any_eq order']

/-- Processes that iterate over their sets in different orders build the same guard. -/
theorem buildServiceClientGuard_order (order order' : SetOrder ScopeItem)
    (registry : ConsumerCredentialRegistry) (requiredScopes : RequiredScopes) :
    buildServiceClientGuard order registry requiredScopes =
      buildServiceClientGuard order' registry requiredScopes := by
  unfold buildServiceClientGuard
  rw [normaliseRequiredScopes_order order order']
  refine congrArg (fun f => Except.map f _) (funext fun scopes => funext fun headers => ?_)
  unfold serviceClient
  split
  next => rfl
  next credential _ => rw [order.all_eq order']

/-- A guard is built for at least one scope, and for strings that are not empty only. -/
theorem normaliseRequiredScopes_eq_ok {requiredScopes : RequiredScopes}
    {scopes : Finset ScopeItem} :
    normaliseRequiredScopes order requiredScopes = .ok scopes ↔
      ∃ items, requiredScopes = .items items ∧ items ≠ [] ∧
        (∀ item ∈ items, item.isScope = true) ∧ scopes = items.toFinset := by
  cases requiredScopes with
  | text scopes => simp [normaliseRequiredScopes]
  | items items =>
    simp only [normaliseRequiredScopes, RequiredScopes.items.injEq]
    constructor
    · intro h
      split at h
      next => contradiction
      next =>
        split at h
        next => contradiction
        next hne =>
          split at h
          next => contradiction
          next hall =>
            obtain rfl := Except.ok.inj h
            refine ⟨items, rfl, ?_, ?_, rfl⟩
            · rintro rfl
              exact hne rfl
            · simpa [SetOrder.mem_toList] using hall
    · rintro ⟨_, rfl, hne, hall, rfl⟩
      have hhashable : ScopeItem.unhashable ∉ items := by
        intro hmem
        have hscope := hall _ hmem
        contradiction
      have hany : (order.toList items.toFinset).any (fun scope => !scope.isScope) = false := by
        simpa [SetOrder.mem_toList] using hall
      rw [if_neg hhashable, if_neg (by simpa using hne), if_neg (by simp [hany])]

/-- What the guard answers: 401 to whom the registry does not know, 403 to a client that lacks a
scope, and otherwise the id of the client, which holds every scope. -/
inductive GuardVerdict (registry : ConsumerCredentialRegistry) (items : List ScopeItem)
    (headers : String → Option String) : Except PyExc String → Prop
  | unknown (h : registry.verify (headers internalClientHeader) (headers internalTokenHeader) =
      none) : GuardVerdict registry items headers (.error (.httpException 401 "Unauthorized"))
  | lacking (credential : ConsumerCredential) (scope : String)
      (h : registry.verify (headers internalClientHeader) (headers internalTokenHeader) =
        some credential) (hmem : .text scope ∈ items) (hscope : credential.hasScope scope = false) :
      GuardVerdict registry items headers (.error (.httpException forbidden "Forbidden"))
  | admitted (credential : ConsumerCredential)
      (h : registry.verify (headers internalClientHeader) (headers internalTokenHeader) =
        some credential) (hall : ∀ scope, .text scope ∈ items → credential.hasScope scope = true) :
      GuardVerdict registry items headers (.ok credential.clientId)

/-- A guard that was built answers every request by the credential and the scopes alone. -/
theorem guard_verdict {registry : ConsumerCredentialRegistry} {items : List ScopeItem}
    {guard : (String → Option String) → Except PyExc String}
    (h : buildServiceClientGuard order registry (.items items) = .ok guard)
    (headers : String → Option String) :
    (∃ item ∈ items, item.isScope = true) ∧
      GuardVerdict registry items headers (guard headers) := by
  unfold buildServiceClientGuard at h
  cases hscopes : normaliseRequiredScopes order (.items items) with
  | error error =>
    rw [hscopes] at h
    contradiction
  | ok scopes =>
    rw [hscopes] at h
    obtain rfl := Except.ok.inj h
    obtain ⟨_, heq, hne, hall, rfl⟩ := normaliseRequiredScopes_eq_ok.mp hscopes
    obtain rfl := RequiredScopes.items.inj heq
    obtain ⟨item, hmem⟩ := List.exists_mem_of_ne_nil items hne
    refine ⟨⟨item, hmem, hall item hmem⟩, ?_⟩
    show GuardVerdict registry items headers (serviceClient order registry items.toFinset headers)
    unfold serviceClient
    split
    next hnone => exact .unknown hnone
    next credential hsome =>
      split
      next hheld =>
        refine .admitted credential hsome fun scope hscope => ?_
        rw [List.all_eq_true] at hheld
        exact hheld (.text scope) ((order.mem_toList _ _).mpr (List.mem_toFinset.mpr hscope))
      next hlacking =>
        rw [List.all_eq_true] at hlacking
        obtain ⟨item, hitem⟩ := not_forall.mp hlacking
        obtain ⟨hitem, hnot⟩ := Classical.not_imp.mp hitem
        rw [order.mem_toList, List.mem_toFinset] at hitem
        have hscope := hall item hitem
        cases item with
        | text scope => exact .lacking credential scope hsome hitem (Bool.eq_false_iff.mpr hnot)
        | _ => contradiction

end FastapiM8
