import Gungnir.Core.Text
import Gungnir.Library.Interaction
import Mathlib.Data.List.AList

/-!
# Resolution of services

A factory resolves services while it runs, through the scope it was given or through the
container. Both keep the types that the thread is resolving on a stack, and refuse a type that
is on theirs.
-/

namespace Gungnir.Core.Container

open Gungnir.Library List

inductive Lifetime where
  | transient
  | singleton
  | scoped
  deriving DecidableEq

/-- A call of `resolve`, with a scope or on the container. -/
structure Request (τ : Type) where
  type : τ
  scope : Bool

/-- A program resolves services and may catch what they throw. -/
abbrev Program (τ α β : Type) := Interaction (Request τ) (fun _ => Except Exception α) β

/-- The factory is given a scope or none, and returns an object or null. -/
structure Binding (τ α : Type) where
  factory : Bool → Program τ α (Except Exception (Option α))
  lifetime : Lifetime
  shared : Option α

/-- The container and the scope, as one thread sees them: `resolving true` is the stack of the
scope, and `resolving false` that of the container. -/
structure State (τ α : Type) where
  bindings : AList fun _ : τ => Binding τ α
  instances : AList fun _ : τ => α
  resolving : Bool → List τ

abbrev Resolver (τ α : Type) := Request τ → State τ α → Option (Except Exception α × State τ α)

variable {τ α β : Type} [DecidableEq τ]

def circular (scope : Bool) : Exception :=
  if scope then .logicError "Circular dependency detected while resolving scoped service"
  else .logicError "Circular dependency detected while resolving Gungnir service"

def enterResolution (state : State τ α) (request : Request τ) : Except Exception (State τ α) :=
  let resolving := state.resolving request.scope
  if request.type ∈ resolving then .error (circular request.scope)
  else .ok { state with
    resolving := Function.update state.resolving request.scope (resolving ++ [request.type]) }

/-- The last entry of the type is removed. -/
def leaveResolution (state : State τ α) (request : Request τ) : State τ α :=
  { state with
    resolving := Function.update state.resolving request.scope
      ((state.resolving request.scope).reverse.erase request.type).reverse }

section Erased

variable (resolve : Resolver τ α)

/-- A factory runs, and its requests are resolved. -/
def follow : Program τ α β → State τ α → Option (β × State τ α)
  | .done result, state => some (result, state)
  | .call request next, state =>
    (resolve request state).bind fun answered => follow (next answered.1) answered.2

/-- What becomes of a new object. -/
def keep (state : State τ α) (type : τ) (created : α) : Lifetime → Except Exception α × State τ α
  | .transient => (.ok created, state)
  | .scoped =>
    match state.instances.lookup type with
    | some found => (.ok found, state)
    | none => (.ok created, { state with instances := state.instances.insert type created })
  | .singleton =>
    match state.bindings.lookup type with
    | none => (.error (.outOfRange "_Map_base::at"), state)
    | some binding =>
      let shared := binding.shared.getD created
      (.ok shared, { state with
        bindings := state.bindings.replace type { binding with shared := some shared } })

def created (state : State τ α) (type : τ) (lifetime : Lifetime) :
    Except Exception (Option α) → Except Exception α × State τ α
  | .error raised => (.error raised, state)
  | .ok none => (.error (.logicError "Gungnir container factory returned null"), state)
  | .ok (some object) => keep state type object lifetime

/-- A factory that is given no scope resolves through the container. -/
def resolveErased : Resolver τ α := fun request state =>
  match state.bindings.lookup request.type with
  | none => some (.error (.logicError "Gungnir container service is not registered"), state)
  | some binding =>
    match binding.shared with
    | some shared => some (.ok shared, state)
    | none =>
      if binding.lifetime = .scoped ∧ request.scope = false then
        some (.error (.logicError "Scoped service resolved outside a ServiceScope"), state)
      else
        match if binding.lifetime = .scoped then state.instances.lookup request.type else none with
        | some found => some (.ok found, state)
        | none =>
          (follow (fun inner => resolve ⟨inner.type, inner.scope && request.scope⟩)
            (binding.factory request.scope) state).map fun made =>
              created made.2 request.type binding.lifetime made.1

end Erased

/-- `resolve_service`, with a bound for how many resolutions are nested. -/
def resolve : Nat → Resolver τ α
  | 0, _, _ => none
  | depth + 1, request, state =>
    match enterResolution state request with
    | .error raised => some (.error raised, state)
    | .ok entered =>
      (if request.type ∈ entered.bindings then resolveErased (resolve depth) request entered
        else some (.error (.logicError
          "Service is not registered and cannot be constructed automatically"), entered)).map
        fun resolved => (resolved.1, leaveResolution resolved.2 request)

/-! ## Nested resolutions -/

/-- The stacks hold registered types, each at most once. -/
def Fits (state : State τ α) : Prop :=
  ∀ scope, (state.resolving scope).Nodup ∧ state.resolving scope ⊆ state.bindings.keys

/-- How many resolutions are nested. -/
def nested (state : State τ α) : Nat :=
  (state.resolving true).length + (state.resolving false).length

/-- The same types are registered and being resolved. -/
def Same (state after : State τ α) : Prop :=
  after.bindings.keys = state.bindings.keys ∧ after.resolving = state.resolving

/-- A run ends, and leaves the stacks as they were. -/
def Ends (state : State τ α) (outcome : Option (β × State τ α)) : Prop :=
  ∃ result after, outcome = some (result, after) ∧ Same state after

variable {state : State τ α} {request : Request τ} {resolver : Resolver τ α}

omit [DecidableEq τ] in
theorem nested_le (fits : Fits state) : nested state ≤ 2 * state.bindings.keys.length := by
  have one := ((fits true).1.subperm (fits true).2).length_le
  have other := ((fits false).1.subperm (fits false).2).length_le
  unfold nested
  omega

/-- A type that is entered is new to its stack, and on top of it until it is left. -/
theorem enter_cases (fits : Fits state) (request : Request τ) :
    enterResolution state request = .error (circular request.scope) ∨
      ∃ entered, enterResolution state request = .ok entered ∧
        entered.bindings = state.bindings ∧ nested entered = nested state + 1 ∧
        (∀ after, Same entered after → Same state (leaveResolution after request)) ∧
        (request.type ∈ state.bindings → Fits entered) := by
  unfold enterResolution
  dsimp only
  split
  · exact .inl rfl
  · rename_i new
    refine .inr ⟨_, rfl, rfl, ?_, fun after same => ⟨same.1, ?_⟩, fun listed scope => ?_⟩
    · unfold nested
      cases request.scope <;> simp <;> omega
    · rw [leaveResolution, same.2]
      simp
    · dsimp only
      by_cases own : scope = request.scope
      · subst own
        rw [Function.update_self]
        exact ⟨nodup_append.mpr ⟨(fits _).1, nodup_singleton _, by
          rintro type member _ last rfl; exact new (mem_singleton.mp last ▸ member)⟩,
          append_subset.mpr ⟨(fits _).2, cons_subset.mpr ⟨listed, nil_subset _⟩⟩⟩
      · rw [Function.update_of_ne own]
        exact fits scope

omit [DecidableEq τ] in
theorem follow_ends {start : State τ α}
    (each : ∀ request state, Same start state → Ends start (resolver request state))
    (program : Program τ α β) (same : Same start state) : Ends start (follow resolver program state) := by
  induction program generalizing state with
  | done result => exact ⟨result, state, rfl, same⟩
  | call request next ih =>
    obtain ⟨answer, after, answered, same⟩ := each request state same
    rw [follow, answered]
    exact ih answer same

theorem created_same (type : τ) (lifetime : Lifetime) (result : Except Exception (Option α)) :
    Same state (created state type lifetime result).2 := by
  unfold created keep
  split
  · exact ⟨rfl, rfl⟩
  · exact ⟨rfl, rfl⟩
  · split
    · exact ⟨rfl, rfl⟩
    · split <;> exact ⟨rfl, rfl⟩
    · split
      · exact ⟨rfl, rfl⟩
      · exact ⟨AList.keys_replace _ _ _, rfl⟩

theorem resolveErased_ends
    (each : ∀ request after, Same state after → Ends state (resolver request after)) :
    Ends state (resolveErased resolver request state) := by
  unfold resolveErased
  split
  · exact ⟨_, _, rfl, rfl, rfl⟩
  · rename_i binding _
    split
    · exact ⟨_, _, rfl, rfl, rfl⟩
    · split
      · exact ⟨_, _, rfl, rfl, rfl⟩
      · split
        · exact ⟨_, _, rfl, rfl, rfl⟩
        · obtain ⟨made, after, ran, same⟩ := follow_ends (fun inner => each ⟨inner.type,
            inner.scope && request.scope⟩) (binding.factory request.scope) ⟨rfl, rfl⟩
          have kept := @created_same _ _ _ after request.type binding.lifetime made
          rw [ran]
          exact ⟨_, _, rfl, kept.1.trans same.1, kept.2.trans same.2⟩

theorem resolve_ends {depth : Nat} (fits : Fits state)
    (deep : 2 * state.bindings.keys.length < depth + nested state) :
    Ends state (resolve depth request state) := by
  induction depth generalizing state request with
  | zero => exact absurd (nested_le fits) (by omega)
  | succ depth ih =>
    rw [resolve]
    rcases enter_cases fits request with refused | ⟨entered, enters, bindings, more, leaves, fitting⟩
    · rw [refused]
      exact ⟨_, _, rfl, rfl, rfl⟩
    · have inner : Ends entered (if request.type ∈ entered.bindings then
          resolveErased (resolve depth) request entered else some (.error (.logicError
            "Service is not registered and cannot be constructed automatically"), entered)) := by
        split
        · rename_i listed
          refine resolveErased_ends fun nestedRequest after same => ?_
          have fits : Fits after := by
            unfold Fits
            rw [same.1, same.2]
            exact fitting (bindings ▸ listed)
          obtain ⟨result, last, resolved, kept⟩ := @ih after nestedRequest fits (by
            rw [same.1, bindings, nested, same.2]; unfold nested at more deep; omega)
          exact ⟨result, last, resolved, kept.1.trans same.1, kept.2.trans same.2⟩
        · exact ⟨_, _, rfl, rfl, rfl⟩
      obtain ⟨result, after, resolved, same⟩ := inner
      rw [enters]
      dsimp only
      rw [resolved]
      exact ⟨_, _, rfl, leaves after same⟩

theorem enter_walk {walk : List (Request τ)} (fits : Fits state)
    (registered : ∀ request ∈ walk, request.type ∈ state.bindings)
    (long : 2 * state.bindings.keys.length < walk.length + nested state) :
    ∃ taken request rest entered, walk = taken ++ request :: rest ∧
      taken.foldlM enterResolution state = .ok entered ∧
      enterResolution entered request = .error (circular request.scope) := by
  induction walk generalizing state with
  | nil => exact absurd (nested_le fits) (by simpa using long)
  | cons request rest ih =>
    rcases enter_cases fits request with refused | ⟨entered, enters, bindings, more, _, fitting⟩
    · exact ⟨[], request, rest, state, rfl, rfl, refused⟩
    · obtain ⟨own, others⟩ := forall_mem_cons.mp registered
      obtain ⟨taken, next, behind, last, rfl, ran, refused⟩ :=
        ih (fitting own) (bindings.symm ▸ others) (by
          rw [bindings, more]
          rw [length_cons] at long
          omega)
      refine ⟨request :: taken, next, behind, last, rfl, ?_, refused⟩
      rw [foldlM_cons, enters]
      exact ran

/-- A service whose factory resolves it again, on the container. -/
def looping : AList fun _ : Unit => Binding Unit Unit :=
  AList.singleton () ⟨fun _ => .call ⟨(), false⟩ fun answer => .done (answer.map some), .transient, none⟩

end Gungnir.Core.Container
