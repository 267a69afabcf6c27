/-
This file measures how high trees are: by the number of nodes on the longest
path from the root to a leaf. The nodes of one kind can be counted alone, and
the height is no more than the count of a kind and that of all others.
-/

import Mathlib.Data.List.MinMax
import Mathlib.Order.Nat
import Reckon.Proofs.Expression.Occurrence

namespace Reckon

namespace Expression

/-! ### Parts -/

/-- The parts that an expression is put together from. -/
def parts : Expression → List Expression
  | .integer _ | .float _ | .text _ | .boolean _ | .null | .variable _ => []
  | .binary _ left right => [left, right]
  | .unary _ operand => [operand]
  | .ternary condition whenTrue whenFalse => [condition, whenTrue, whenFalse]
  | .binding _ value _ body => [value, body]
  | .conditional branches otherwise =>
    (branches.flatMap fun branch => [branch.1, branch.2]) ++ otherwise.toList
  | .call _ _ arguments => arguments
  | .cast _ inner | .grouping inner => [inner]

variable {tree part : Expression}

theorem sizeOf_lt_of_mem_parts (member : part ∈ tree.parts) : sizeOf part < sizeOf tree := by
  cases tree with
  | conditional branches otherwise =>
    rcases List.mem_append.mp member with inBranches | inOtherwise
    · obtain ⟨⟨condition, result⟩, inBranch, side⟩ := List.mem_flatMap.mp inBranches
      have smaller := List.sizeOf_lt_of_mem inBranch
      simp only [Prod.mk.sizeOf_spec, conditional.sizeOf_spec] at smaller ⊢
      rcases List.mem_pair.mp side with rfl | rfl <;> omega
    · obtain rfl := Option.mem_toList.mp inOtherwise
      simp only [Option.some.sizeOf_spec, conditional.sizeOf_spec]
      omega
  | call function hint arguments =>
    have smaller : sizeOf part < sizeOf arguments := List.sizeOf_lt_of_mem member
    simp only [call.sizeOf_spec]
    omega
  | integer | float | text | boolean | null | «variable» => cases member
  | binary | unary | ternary | binding | cast | grouping =>
    simp only [parts, List.mem_cons, List.not_mem_nil, or_false] at member
    rcases member with rfl | rfl | rfl <;> simp <;> omega

/-! ### Paths -/

/-- The greatest number of nodes of a kind on one path from the root of a tree to a leaf. -/
def mostOnPath (counted : Expression → Bool) (tree : Expression) : Nat :=
  (counted tree).toNat +
    (tree.parts.attach.map fun part => mostOnPath counted part.1).foldr max 0
termination_by tree
decreasing_by exact sizeOf_lt_of_mem_parts part.2

/-- The number of nodes on the longest path from the root of a tree to a leaf. -/
def height (tree : Expression) : Nat :=
  tree.mostOnPath fun _ => true

/-- The greatest number of nodes of a kind on one path in some trees. -/
def mostInAll (counted : Expression → Bool) (trees : List Expression) : Nat :=
  (trees.map (mostOnPath counted)).foldr max 0

variable {counted : Expression → Bool} {trees : List Expression} {bound : Nat}

theorem mostOnPath_eq (counted : Expression → Bool) (tree : Expression) :
    tree.mostOnPath counted = (counted tree).toNat + mostInAll counted tree.parts := by
  rw [mostOnPath, mostInAll]
  simp only [List.map_attach_eq_pmap, List.pmap_eq_map]

theorem mostInAll_le (each : ∀ tree ∈ trees, tree.mostOnPath counted ≤ bound) :
    mostInAll counted trees ≤ bound :=
  List.max_le_of_forall_le _ bound (List.forall_mem_map.mpr each)

theorem mostOnPath_le_mostInAll (member : tree ∈ trees) :
    tree.mostOnPath counted ≤ mostInAll counted trees :=
  List.le_max_of_le (List.mem_map_of_mem member) (Nat.le_refl _)

/-- What bounds all parts bounds a tree, but for its own node. -/
theorem mostOnPath_le (each : ∀ part ∈ tree.parts, part.mostOnPath counted ≤ bound) :
    tree.mostOnPath counted ≤ (counted tree).toNat + bound := by
  rw [mostOnPath_eq]
  exact Nat.add_le_add_left (mostInAll_le each) _

theorem mostOnPath_of_parts_eq_nil (counted : Expression → Bool) (leaf : tree.parts = []) :
    tree.mostOnPath counted = (counted tree).toNat := by
  rw [mostOnPath_eq, leaf]
  rfl

theorem mostOnPath_binary (counted : Expression → Bool) (operator : BinaryOperator)
    (left right : Expression) :
    (binary operator left right).mostOnPath counted =
      (counted (binary operator left right)).toNat +
        max (left.mostOnPath counted) (right.mostOnPath counted) := by
  rw [mostOnPath_eq]
  simp [mostInAll, parts]

/-- On a path the nodes of a kind and all others are all nodes. -/
theorem height_le_add (counted : Expression → Bool) (tree : Expression) :
    tree.height ≤ tree.mostOnPath counted + tree.mostOnPath fun part => !counted part := by
  have node : 1 = (counted tree).toNat + (!counted tree).toNat := by
    cases counted tree <;> rfl
  have inParts : mostInAll (fun _ => true) tree.parts ≤
      mostInAll counted tree.parts + mostInAll (fun part => !counted part) tree.parts := by
    refine mostInAll_le fun part member => ?_
    have smaller := sizeOf_lt_of_mem_parts member
    exact (height_le_add counted part).trans
      (Nat.add_le_add (mostOnPath_le_mostInAll member) (mostOnPath_le_mostInAll member))
  rw [height, mostOnPath_eq, mostOnPath_eq counted, mostOnPath_eq fun part => !counted part]
  rw [Bool.toNat_true]
  omega
termination_by tree

end Expression

end Reckon
