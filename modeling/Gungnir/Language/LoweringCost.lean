import Mathlib.Algebra.Polynomial.Eval.Defs

/-!
# The cost of lowering

How often `expr` is called while a body is lowered. `lower_expression` renders each node
again for every node above it, a safe member access renders its receiver twice, and a call
renders the defaults of the parameters it leaves out.
-/

namespace Gungnir.Language

/-! ## The renderer -/

inductive Access where
  | dot
  | safe
  | scope
  deriving DecidableEq

/-- What a call renders of its callee: nothing, the operand of a member, or the operand of
that operand, where `receiver_expression` names it. -/
inductive Receiver where
  | none
  | operand
  | outer
  deriving DecidableEq

/-- The kind of an expression or a statement, with what the resolution says about it. The
target of a scoped member can be native. An operand of `==` and `!=` can be null. A call
leaves out parameters, and a loop can have no condition or go over a map. -/
inductive NodeKind where
  | literal | name | await | unary | binary | conditional | subscript | list | object | lambda
  | member (access : Access) (native : Bool)
  | equality (leftNull rightNull : Bool)
  | call (receiver : Receiver) (omitted : Nat)
  | binding | expression | return_ | throw_ | try_ | catch_ | block | if_ | while_ | break_
  | continue_
  | for_ (endless : Bool)
  | forIn (map : Bool)

/-- A node of the syntax with its operands, body, parts and alternative. -/
inductive Node where
  | mk (kind : NodeKind) (children : List Node)

namespace NodeKind

def isExpression : NodeKind → Bool
  | literal | name | await | unary | binary | conditional | subscript | list | object | lambda
  | member .. | equality .. | call .. => true
  | _ => false

/-- The calls of `expr` on the node itself; an endless loop renders its missing condition. -/
def own : NodeKind → Nat
  | for_ endless => endless.toNat
  | kind => kind.isExpression.toNat

/-- The calls of `expr` on the defaults of a call, which are literals. -/
def omitted : NodeKind → Nat
  | call _ count => count
  | _ => 0

/-- How often a child is rendered. -/
def copies : NodeKind → Nat → Nat
  | member .scope true, _ => 0
  | member .safe _, _ => 2
  | equality true _, 0 => 0
  | equality _ true, 1 => 0
  | call .., 0 => 0
  | _, _ => 1

/-- How far below a child, operand by operand, the node lies that is rendered in its place:
the receiver of a call is found below the callee. -/
def below : NodeKind → Nat → Nat
  | call .operand _, 0 => 1
  | call .outer _, 0 => 2
  | _, _ => 0

end NodeKind

mutual

/-- The calls of `expr` that rendering a node makes, by `expr` or `stmt`. -/
def Node.exprCalls : Node → Nat
  | .mk kind children => kind.own + kind.omitted + childCalls kind 0 children

def childCalls (kind : NodeKind) (i : Nat) : List Node → Nat
  | [] => 0
  | child :: rest =>
    kind.copies i * child.exprCalls + child.callsBelow (kind.below i) + childCalls kind (i + 1) rest

/-- The calls for the node some operands below. -/
def Node.callsBelow : Node → Nat → Nat
  | .mk _ children, depth => firstBelow children depth

def firstBelow : List Node → Nat → Nat
  | first :: _, 1 => first.exprCalls
  | first :: _, depth + 2 => first.callsBelow (depth + 1)
  | _, _ => 0

end

/-- The further call of `expr` for a loop over the keys of a map. -/
def rangeCalls : NodeKind → List Node → Nat
  | .forIn true, children => firstBelow children 1
  | _, _ => 0

mutual

/-- The calls of `expr` by `lower_expression` or `lower_statement`. -/
def Node.lowerCalls : Node → Nat
  | .mk kind children =>
    (if kind.isExpression then (Node.mk kind children).exprCalls else 0) +
      rangeCalls kind children + lowerAll children

def lowerAll : List Node → Nat
  | [] => 0
  | node :: rest => node.lowerCalls + lowerAll rest

end

/-! ## Measures -/

mutual

/-- The sum over the nodes of a tree. -/
def Node.sum (measure : NodeKind → Nat) : Node → Nat
  | .mk kind children => measure kind + sumAll measure children

def sumAll (measure : NodeKind → Nat) : List Node → Nat
  | [] => 0
  | node :: rest => node.sum measure + sumAll measure rest

end

/-- The number of nodes. -/
def Node.size : Node → Nat := Node.sum fun _ => 1

def NodeKind.weight (kind : NodeKind) : Nat := 1 + kind.omitted

/-- The number of nodes and of parameters that calls leave out. -/
def Node.weight : Node → Nat := Node.sum NodeKind.weight

def NodeKind.isSafe : NodeKind → Nat
  | member .safe _ => 1
  | _ => 0

/-- The number of safe accesses. -/
def Node.safeAccesses : Node → Nat := Node.sum NodeKind.isSafe

/-! ## The bound -/

theorem NodeKind.copies_le {kind : NodeKind} (plain : kind.isSafe = 0) (i : Nat) :
    kind.copies i ≤ 1 := by
  unfold copies
  split
  · exact Nat.zero_le _
  · cases plain
  · exact Nat.zero_le _
  · exact Nat.zero_le _
  · exact Nat.zero_le _
  · exact Nat.le_refl _

/-- A callee is not rendered itself. -/
theorem NodeKind.copies_eq_zero {kind : NodeKind} {i : Nat} (receiver : kind.below i ≠ 0) :
    kind.copies i = 0 := by
  unfold below at receiver
  split at receiver
  · rfl
  · rfl
  · exact absurd rfl receiver

mutual

theorem Node.exprCalls_le : ∀ node : Node, node.safeAccesses = 0 → node.exprCalls ≤ node.weight
  | .mk kind children, plain => by
    have own : kind.own ≤ 1 := by
      unfold NodeKind.own
      split <;> exact Bool.toNat_le _
    have rendered := childCalls_le kind 0 children plain
    rw [Node.exprCalls, Node.weight, Node.sum, NodeKind.weight]
    omega

theorem childCalls_le (kind : NodeKind) (i : Nat) : ∀ children : List Node,
    kind.isSafe + sumAll NodeKind.isSafe children = 0 →
      childCalls kind i children ≤ sumAll NodeKind.weight children
  | [], _ => Nat.zero_le _
  | child :: rest, plain => by
    have parts : kind.isSafe + (child.safeAccesses + sumAll NodeKind.isSafe rest) = 0 := plain
    have dotted : kind.isSafe = 0 := by omega
    have own : kind.copies i * child.exprCalls + child.callsBelow (kind.below i) ≤ child.weight := by
      by_cases direct : kind.below i = 0
      · have none : child.callsBelow 0 = 0 := by
          obtain ⟨_, children⟩ := child
          cases children <;> rfl
        have once := Nat.mul_le_mul (NodeKind.copies_le dotted i) (child.exprCalls_le (by omega))
        rw [direct]
        omega
      · have inner := child.callsBelow_le (by omega) (kind.below i)
        rw [NodeKind.copies_eq_zero direct]
        omega
    have later := childCalls_le kind (i + 1) rest (by omega)
    exact Nat.add_le_add own later

theorem Node.callsBelow_le : ∀ node : Node, node.safeAccesses = 0 →
    ∀ depth, node.callsBelow depth ≤ node.weight
  | .mk _ children, plain, depth =>
    (firstBelow_le children (Nat.add_eq_zero_iff.mp plain).2 depth).trans (Nat.le_add_left _ _)

theorem firstBelow_le : ∀ nodes : List Node, sumAll NodeKind.isSafe nodes = 0 →
    ∀ depth, firstBelow nodes depth ≤ sumAll NodeKind.weight nodes
  | [], _, _ => Nat.zero_le _
  | _ :: _, _, 0 => Nat.zero_le _
  | first :: _, plain, 1 =>
    (first.exprCalls_le (Nat.add_eq_zero_iff.mp plain).1).trans (Nat.le_add_right _ _)
  | first :: _, plain, depth + 2 =>
    (first.callsBelow_le (Nat.add_eq_zero_iff.mp plain).1 (depth + 1)).trans (Nat.le_add_right _ _)

end

theorem rangeCalls_le (kind : NodeKind) {children : List Node}
    (plain : sumAll NodeKind.isSafe children = 0) :
    rangeCalls kind children ≤ sumAll NodeKind.weight children := by
  unfold rangeCalls
  split
  · exact firstBelow_le _ plain _
  · exact Nat.zero_le _

mutual

theorem Node.lowerCalls_le : ∀ node : Node, node.safeAccesses = 0 →
    node.lowerCalls ≤ 2 * node.size * node.weight
  | .mk kind children, plain => by
    have inside := (Nat.add_eq_zero_iff.mp plain).2
    have inner : sumAll NodeKind.weight children ≤ (Node.mk kind children).weight :=
      Nat.le_add_left _ _
    have rendered := (Node.mk kind children).exprCalls_le plain
    have again := (rangeCalls_le kind inside).trans inner
    have lowered := (lowerAll_le children inside).trans (Nat.mul_le_mul_left _ inner)
    calc (Node.mk kind children).lowerCalls
        ≤ (Node.mk kind children).weight + (Node.mk kind children).weight +
            2 * sumAll (fun _ => 1) children * (Node.mk kind children).weight := by
          rw [Node.lowerCalls]
          split <;> omega
      _ = 2 * (Node.mk kind children).size * (Node.mk kind children).weight := by
          rw [Node.size, Node.sum]
          ring

theorem lowerAll_le : ∀ children : List Node, sumAll NodeKind.isSafe children = 0 →
    lowerAll children ≤ 2 * sumAll (fun _ => 1) children * sumAll NodeKind.weight children
  | [], _ => Nat.zero_le _
  | node :: rest, plain => by
    obtain ⟨here, inside⟩ := Nat.add_eq_zero_iff.mp plain
    have first := node.lowerCalls_le here
    have later := lowerAll_le rest inside
    calc lowerAll (node :: rest)
        ≤ 2 * node.size * sumAll NodeKind.weight (node :: rest) +
            2 * sumAll (fun _ => 1) rest * sumAll NodeKind.weight (node :: rest) := by
          exact Nat.add_le_add (first.trans (Nat.mul_le_mul_left _ (Nat.le_add_right _ _)))
            (later.trans (Nat.mul_le_mul_left _ (Nat.le_add_left _ _)))
      _ = 2 * sumAll (fun _ => 1) (node :: rest) * sumAll NodeKind.weight (node :: rest) := by
          rw [sumAll, sumAll, Node.size]
          ring

end

/-! ## Omitted parameters -/

/-- A call that leaves out all its parameters. -/
def defaulted (count : Nat) : Node := .mk .expression [.mk (.call .none count) [.mk .name []]]

/-- No polynomial in the number of nodes bounds the calls: a call renders its defaults. -/
theorem lowerCalls_unbounded :
    ¬∃ p : Polynomial ℕ, ∀ body : Node, body.lowerCalls ≤ p.eval body.size := by
  rintro ⟨p, bounded⟩
  have calls : ∀ count, (defaulted count).lowerCalls = 2 + count := by
    intro count
    change 0 + 0 + (1 + count + 0 + 0 + (1 + 0 + 0 + 0 + 0 + 0) + 0) = _
    omega
  have least := bounded (defaulted (p.eval 3))
  rw [calls] at least
  change 2 + p.eval 3 ≤ p.eval 3 at least
  omega

/-- Without safe accesses the calls are at most quadratic in the number of nodes and omitted
parameters. -/
theorem lowerCalls_bound (body : Node) (none : body.safeAccesses = 0) :
    body.lowerCalls ≤ 2 * body.size * body.weight :=
  body.lowerCalls_le none

/-- The negation of a call that leaves out two of its parameters. -/
theorem lowerCalls_bound_sample :
    (Node.mk .return_ [.mk .unary [.mk (.call .operand 2)
      [.mk (.member .dot false) [.mk .name []], .mk .literal []]]]).lowerCalls ≤ 96 :=
  lowerCalls_bound _ rfl

end Gungnir.Language
