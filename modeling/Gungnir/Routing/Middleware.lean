import Gungnir.Core.Text
import Gungnir.Library.Interaction
import Mathlib.Data.List.AList

/-!
# The middleware of a route

A route group keeps its handlers, its aliases and its groups in three lists and adds them to a
route one list after the other. The chain of a request is the global middleware and then the
route's, and each middleware runs the rest of the chain whenever it calls its continuation.
-/

namespace Gungnir.Routing

open Gungnir.Core Gungnir.Library List

variable {μ : Type}

/-! ## Registration -/

structure MiddlewareRegistry (μ : Type) where
  aliases : AList fun _ : Bytes => μ
  groups : AList fun _ : Bytes => List Bytes
  priority : AList fun _ : Bytes => Nat

namespace MiddlewareRegistry

variable (registry : MiddlewareRegistry μ) (name : Bytes)

def setPriority (aliases : List Bytes) : MiddlewareRegistry μ :=
  { registry with
    priority := aliases.zipIdx.foldl (fun ranks entry => ranks.insert entry.1 entry.2) ∅ }

def rank : Nat := (registry.priority.lookup name).getD registry.priority.keys.length

def resolve : Except Exception μ :=
  match registry.aliases.lookup name with
  | none => .error ⟨.outOfRange, ascii "Unknown middleware alias: " ++ name⟩
  | some handler => .ok handler

def resolveGroup : Except Exception (List μ) :=
  match registry.groups.lookup name with
  | none => .error ⟨.outOfRange, ascii "Unknown middleware group: " ++ name⟩
  | some names =>
    (names.insertionSort fun left right => registry.rank left ≤ registry.rank right).mapM
      registry.resolve

end MiddlewareRegistry

/-- One call of `middleware` or `middleware_group`. -/
inductive Declaration (μ : Type) where
  | handler (middleware : μ)
  | named (name : Bytes)
  | grouped (name : Bytes)

structure RouteGroup (μ : Type) where
  middleware : List μ := []
  middlewareAliases : List Bytes := []
  middlewareGroups : List Bytes := []

def RouteGroup.declare (group : RouteGroup μ) : Declaration μ → RouteGroup μ
  | .handler handler => { group with middleware := group.middleware ++ [handler] }
  | .named name => { group with middlewareAliases := group.middlewareAliases ++ [name] }
  | .grouped name => { group with middlewareGroups := group.middlewareGroups ++ [name] }

variable (registry : Option (MiddlewareRegistry μ))

def attached : Except Exception (MiddlewareRegistry μ) :=
  match registry with
  | none => .error (.logicError "Middleware registry is not attached")
  | some registry => .ok registry

def contribution : Declaration μ → Except Exception (List μ)
  | .handler handler => .ok [handler]
  | .named name => do return [← (← attached registry).resolve name]
  | .grouped name => do (← attached registry).resolveGroup name

def addMiddleware (route : List μ) (declaration : Declaration μ) : Except Exception (List μ) := do
  return route ++ (← contribution registry declaration)

def RouteGroup.apply (group : RouteGroup μ) (route : List μ) : Except Exception (List μ) := do
  let route ← (group.middleware.map .handler).foldlM (addMiddleware registry) route
  let route ← (group.middlewareAliases.map .named).foldlM (addMiddleware registry) route
  (group.middlewareGroups.map .grouped).foldlM (addMiddleware registry) route

/-- A call of `middleware` on a route, with a handler or an alias. -/
def Declaration.ofRoute : μ ⊕ Bytes → Declaration μ := Sum.elim .handler .named

variable (used : List μ) (calls : List (Declaration μ)) (own : List (μ ⊕ Bytes))

/-- The chain of a request to a route of the group. -/
def dispatchChain : Except Exception (List μ) := do
  let route ← (calls.foldl RouteGroup.declare {}).apply registry []
  let route ← (own.map Declaration.ofRoute).foldlM (addMiddleware registry) route
  return used ++ route

def declaredChain : Except Exception (List μ) := do
  let route ← (calls ++ own.map Declaration.ofRoute).foldlM (addMiddleware registry) []
  return used ++ route

/-! ## The order of the chain -/

def Declaration.kind : Declaration μ → Nat
  | .handler _ => 0
  | .named _ => 1
  | .grouped _ => 2

@[simp] theorem kind_handler (middleware : μ) : (Declaration.handler middleware).kind = 0 := rfl

@[simp] theorem kind_named (name : Bytes) : (.named name : Declaration μ).kind = 1 := rfl

@[simp] theorem kind_grouped (name : Bytes) : (.grouped name : Declaration μ).kind = 2 := rfl

/-- The declarations with the handlers first, then the aliases, then the groups. -/
def byKind : List (Declaration μ) := [0, 1, 2].flatMap fun kind => calls.filter (·.kind = kind)

/-- No handler is declared behind an alias or a group, and no alias behind a group. -/
def KindsInOrder : Prop := calls.Pairwise fun first second => first.kind ≤ second.kind

instance : Decidable (KindsInOrder calls) :=
  inferInstanceAs (Decidable (calls.Pairwise fun first second => first.kind ≤ second.kind))

section

variable {registry used calls own}

theorem declared_byKind (group : RouteGroup μ) :
    let after := calls.foldl RouteGroup.declare group
    after.middleware.map .handler = group.middleware.map .handler ++ calls.filter (·.kind = 0) ∧
    after.middlewareAliases.map .named =
      group.middlewareAliases.map .named ++ calls.filter (·.kind = 1) ∧
    after.middlewareGroups.map .grouped =
      group.middlewareGroups.map .grouped ++ calls.filter (·.kind = 2) := by
  induction calls generalizing group with
  | nil => simp
  | cons call rest ih =>
    obtain ⟨handlers, aliases, groups⟩ := ih (group.declare call)
    simp only [foldl_cons]
    rw [handlers, aliases, groups]
    cases call <;> simp [RouteGroup.declare]

theorem dispatchChain_eq : dispatchChain registry used calls own = (do
    let route ← (byKind calls ++ own.map Declaration.ofRoute).foldlM (addMiddleware registry) []
    return used ++ route) := by
  obtain ⟨handlers, aliases, groups⟩ := @declared_byKind μ calls {}
  unfold dispatchChain RouteGroup.apply
  rw [handlers, aliases, groups]
  simp [byKind, foldlM_append]

theorem byKind_of_inOrder (ordered : KindsInOrder calls) : byKind calls = calls := by
  induction calls with
  | nil => rfl
  | cons call rest ih =>
    obtain ⟨least, ordered⟩ := pairwise_cons.mp ordered
    have none : ∀ kind < call.kind, rest.filter (·.kind = kind) = [] := by
      intro kind less
      refine filter_eq_nil_iff.mpr fun later member same => ?_
      exact absurd (least later member) (by rw [of_decide_eq_true same]; omega)
    have tail := ih ordered
    unfold byKind at tail ⊢
    cases call with
    | handler => simpa using tail
    | named => simpa [none 0 Nat.zero_lt_one] using tail
    | grouped => simpa [none 0 Nat.zero_lt_two, none 1 Nat.one_lt_two] using tail

end

/-! ## The run of a chain -/

variable {ρ σ : Type}

/-- A middleware is entered and left, and the route's handler is run. -/
inductive Step (μ : Type) where
  | entered (middleware : μ)
  | left (middleware : μ)
  | handled

/-- A middleware runs with a continuation: what is logged, and what comes back. -/
def follow (next : ρ → List (Step μ) × σ) : Interaction ρ (fun _ => σ) σ → List (Step μ) × σ
  | .done result => ([], result)
  | .call request rest =>
    let inner := next request
    let outer := follow next (rest inner.2)
    (inner.1 ++ outer.1, outer.2)

/-- `pipeline`, over what each middleware does with a request: it calls its continuation any
number of times. What comes back may be an exception, and holds the changes of the request. -/
def pipeline (middleware : μ → ρ → Interaction ρ (fun _ => σ) σ) (terminal : ρ → σ) :
    List μ → ρ → List (Step μ) × σ
  | [], request => ([.handled], terminal request)
  | first :: rest, request =>
    let inner := follow (pipeline middleware terminal rest) (middleware first request)
    (.entered first :: inner.1 ++ [.left first], inner.2)

/-- A chain runs inside out: a middleware is entered, makes some calls of its continuation and
is left. Each call is one run of the rest of the chain, on the request that the call passes on,
and what this returns is the answer to the call. The handler runs inside of all of them. -/
inductive Runs (middleware : μ → ρ → Interaction ρ (fun _ => σ) σ) (terminal : ρ → σ) :
    List μ → ρ → List (Step μ) → σ → Prop where
  | handler (request : ρ) : Runs middleware terminal [] request [.handled] (terminal request)
  | middleware {first : μ} {rest : List μ} {request : ρ} {result : σ}
      {calls : List (Interaction.Exchange ρ fun _ => σ)}
      {steps : Interaction.Exchange ρ (fun _ => σ) → List (Step μ)}
      (returns : (middleware first request).Returns calls result)
      (inner : ∀ call ∈ calls, Runs middleware terminal rest call.1 (steps call) call.2) :
      Runs middleware terminal (first :: rest) request
        (.entered first :: calls.flatMap steps ++ [.left first]) result

theorem follow_calls (next : ρ → List (Step μ) × σ) (program : Interaction ρ (fun _ => σ) σ) :
    ∃ calls : List (Interaction.Exchange ρ fun _ => σ),
      program.Returns calls (follow next program).2 ∧
      (follow next program).1 = calls.flatMap (fun call => (next call.1).1) ∧
      ∀ call ∈ calls, call.2 = (next call.1).2 := by
  induction program with
  | done result => exact ⟨[], .here _, rfl, forall_mem_nil _⟩
  | call request rest ih =>
    obtain ⟨calls, returns, logged, answers⟩ := ih (next request).2
    exact ⟨⟨request, (next request).2⟩ :: calls, .step _ returns,
      congrArg ((next request).1 ++ ·) logged, forall_mem_cons.mpr ⟨rfl, answers⟩⟩

theorem pipeline_runs (middleware : μ → ρ → Interaction ρ (fun _ => σ) σ) (terminal : ρ → σ)
    (chain : List μ) (request : ρ) :
    Runs middleware terminal chain request (pipeline middleware terminal chain request).1
      (pipeline middleware terminal chain request).2 := by
  induction chain generalizing request with
  | nil => exact .handler request
  | cons first rest ih =>
    obtain ⟨calls, returns, logged, answers⟩ :=
      follow_calls (pipeline middleware terminal rest) (middleware first request)
    rw [pipeline]
    dsimp only
    rw [logged]
    refine .middleware returns fun call member => ?_
    rw [answers call member]
    exact ih call.1

/-- Aliases and a group, whose second alias has the higher priority. -/
def sampleRegistry : MiddlewareRegistry Nat :=
  (⟨(AList.singleton (ascii "auth") 4).insert (ascii "log") 3, AList.singleton (ascii "web")
    [ascii "auth", ascii "log"], ∅⟩ : MiddlewareRegistry Nat).setPriority [ascii "log"]

end Gungnir.Routing
