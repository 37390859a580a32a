import Mathlib.Data.List.Basic
import ChartParser.Proofs.Steps
import ChartParser.Proofs.Tree.Tokens

/-! # The walk over a tree

The tokens of a tree are its frontier. The walk that collects them is also a machine here, with a
stack of nodes that are still to be visited. It visits each node once.
-/

namespace ChartParser

open Relation

namespace Tree

/-! ## The frontier -/

mutual

/-- The names of the terminals without children. A node with children has those of its children. -/
def frontier : Tree → List String
  | node (.term name) [] => [name]
  | node (.nonterm _) [] => []
  | node _ (child :: more) => child.frontier ++ frontiers more

/-- The frontiers of trees side by side. -/
def frontiers : List Tree → List String
  | [] => []
  | tree :: more => tree.frontier ++ frontiers more

end

theorem frontiers_eq_flatMap (trees : List Tree) : frontiers trees = trees.flatMap frontier := by
  induction trees with
  | nil => rfl
  | cons tree more ih => rw [frontiers, ih, List.flatMap_cons]

theorem frontier_leaf (symbol : Symbol) : (leaf symbol).frontier = symbol.termName?.toList := by
  cases symbol <;> rfl

theorem frontier_node (symbol : Symbol) {children : List Tree} (h : children ≠ []) :
    (node symbol children).frontier = children.flatMap frontier := by
  cases children with
  | nil => exact absurd rfl h
  | cons child more => rw [frontier, frontiers_eq_flatMap, List.flatMap_cons]

theorem tokens_eq (tree : Tree) : tree.tokens = tree.frontier := by
  induction tree with
  | node symbol children ih =>
    by_cases none : children = []
    · subst none
      exact (tokens_leaf symbol).trans (frontier_leaf symbol).symm
    · rw [tokens_node symbol none, frontier_node symbol none, List.flatMap_congr ih]

/-! ## Positions -/

/-- The tree at a position, which is the way down from the root by numbers of children. -/
def at? : Tree → List Nat → Option Tree
  | tree, [] => some tree
  | tree, i :: position => tree.children[i]?.bind fun child => child.at? position

/-- Trees that are the children of a node at `position` from number `i` on. -/
def childrenFrom (position : List Nat) (i : Nat) (trees : List Tree) : List (List Nat × Tree) :=
  (trees.zipIdx i).map fun child => (position ++ [child.2], child.1)

theorem flatMap_childrenFrom {β : Type} (f : Tree → List β) (position : List Nat) (i : Nat)
    (trees : List Tree) :
    ((childrenFrom position i trees).flatMap fun node => f node.2) = trees.flatMap f := by
  induction trees generalizing i with
  | nil => rfl
  | cons tree more ih =>
    rw [childrenFrom, List.zipIdx_cons, List.map_cons, List.flatMap_cons, List.flatMap_cons, ← ih]
    rfl

mutual

/-- The nodes of a tree at `position`, each before the nodes below it. -/
def nodesAt (position : List Nat) : Tree → List (List Nat × Tree)
  | node symbol children => (position, node symbol children) :: nodesFrom position 0 children

/-- The nodes of trees that are the children of a node at `position` from number `i` on. -/
def nodesFrom (position : List Nat) (i : Nat) : List Tree → List (List Nat × Tree)
  | [] => []
  | tree :: more => nodesAt (position ++ [i]) tree ++ nodesFrom position (i + 1) more

end

variable {position place : List Nat} {tree sub : Tree} {trees : List Tree} {i : Nat}

theorem nodesFrom_eq_flatMap (position : List Nat) (i : Nat) (trees : List Tree) :
    nodesFrom position i trees =
      (childrenFrom position i trees).flatMap fun child => nodesAt child.1 child.2 := by
  induction trees generalizing i with
  | nil => rfl
  | cons tree more ih =>
    rw [nodesFrom, ih, childrenFrom, childrenFrom, List.zipIdx_cons, List.map_cons,
      List.flatMap_cons]

mutual

theorem mem_nodesAt : ∀ {tree : Tree} {position place : List Nat},
    (place, sub) ∈ nodesAt position tree ↔
      ∃ path, place = position ++ path ∧ tree.at? path = some sub
  | node symbol children, position, place => by
    rw [nodesAt, List.mem_cons, Prod.mk.injEq, mem_nodesFrom]
    constructor
    · rintro (⟨rfl, rfl⟩ | ⟨k, path, rfl, found⟩)
      · exact ⟨[], (List.append_nil _).symm, rfl⟩
      · exact ⟨k :: path, by rw [Nat.zero_add], found⟩
    · rintro ⟨_ | ⟨k, path⟩, rfl, found⟩
      · exact .inl ⟨List.append_nil _, (Option.some.inj found).symm⟩
      · exact .inr ⟨k, path, by rw [Nat.zero_add], found⟩

theorem mem_nodesFrom : ∀ {trees : List Tree} {position place : List Nat} {i : Nat},
    (place, sub) ∈ nodesFrom position i trees ↔ ∃ k path, place = position ++ (i + k) :: path ∧
      (trees[k]?.bind fun tree => tree.at? path) = some sub
  | [], _, _, _ => by simp [nodesFrom]
  | tree :: more, position, place, i => by
    rw [nodesFrom, List.mem_append, mem_nodesAt, mem_nodesFrom]
    constructor
    · rintro (⟨path, rfl, found⟩ | ⟨k, path, rfl, found⟩)
      · exact ⟨0, path, by simp, found⟩
      · exact ⟨k + 1, path, by rw [Nat.add_right_comm, Nat.add_assoc], found⟩
    · rintro ⟨_ | k, path, rfl, found⟩
      · exact .inl ⟨path, by simp, found⟩
      · exact .inr ⟨k, path, by rw [Nat.add_right_comm, Nat.add_assoc], found⟩

end

mutual

/-- No two nodes are at the same position. -/
theorem nodup_nodesAt : ∀ (position : List Nat) (tree : Tree),
    ((nodesAt position tree).map Prod.fst).Nodup
  | position, node symbol children => by
    rw [nodesAt, List.map_cons, List.nodup_cons]
    refine ⟨fun again => ?_, nodup_nodesFrom position 0 children⟩
    obtain ⟨⟨place, sub⟩, mem, same⟩ := List.mem_map.mp again
    obtain ⟨k, path, rfl, -⟩ := mem_nodesFrom.mp mem
    simp at same

theorem nodup_nodesFrom : ∀ (position : List Nat) (i : Nat) (trees : List Tree),
    ((nodesFrom position i trees).map Prod.fst).Nodup
  | _, _, [] => .nil
  | position, i, tree :: more => by
    rw [nodesFrom, List.map_append, List.nodup_append]
    refine ⟨nodup_nodesAt _ tree, nodup_nodesFrom position (i + 1) more, ?_⟩
    rintro _ first _ second rfl
    obtain ⟨⟨place, sub⟩, mem, rfl⟩ := List.mem_map.mp first
    obtain ⟨⟨place', sub'⟩, mem', same⟩ := List.mem_map.mp second
    obtain ⟨path, rfl, -⟩ := mem_nodesAt.mp mem
    obtain ⟨k, path', rfl, -⟩ := mem_nodesFrom.mp mem'
    -- The number of the child tells the two places apart.
    simp at same
    omega

end

/-! ## The machine -/

/-- Where the walk stands. Each node comes with its position. -/
structure Walk where
  /-- What is still to be visited. The first node is on top. -/
  stack : List (List Nat × Tree)
  tokens : List String
  /-- What has been visited, in order. -/
  visited : List (List Nat × Tree)

/-- The root is to be visited. -/
def Walk.start (tree : Tree) : Walk := ⟨[([], tree)], [], []⟩

/-- The stack with more nodes on it, one pushed after the other. -/
def push (stack nodes : List (List Nat × Tree)) : List (List Nat × Tree) :=
  nodes.foldl (fun stack node => node :: stack) stack

/-- The node on top of the stack is visited. Its children are pushed from the last to the first. -/
inductive WalkStep : Walk → Walk → Prop
  | leaf {position : List Nat} {symbol : Symbol} {stack visited : List (List Nat × Tree)}
      {tokens : List String} :
      WalkStep ⟨(position, leaf symbol) :: stack, tokens, visited⟩
        ⟨stack, tokens ++ symbol.termName?.toList, visited ++ [(position, leaf symbol)]⟩
  | inner {position : List Nat} {tree : Tree} {stack visited : List (List Nat × Tree)}
      {tokens : List String} : tree.isLeaf = false →
      WalkStep ⟨(position, tree) :: stack, tokens, visited⟩
        ⟨push stack (childrenFrom position 0 tree.children).reverse, tokens,
          visited ++ [(position, tree)]⟩

theorem push_reverse (stack nodes : List (List Nat × Tree)) :
    push stack nodes.reverse = nodes ++ stack := by
  simp [push]

theorem walkStep_unique (before after other : Walk) (one : WalkStep before after)
    (two : WalkStep before other) : after = other := by
  cases one with
  | leaf =>
    cases two with
    | leaf => rfl
    | inner branch => nomatch branch
  | inner branch =>
    cases two with
    | leaf => nomatch branch
    | inner _ => rfl

theorem exists_walkStep {walk : Walk} (more : walk.stack ≠ []) : ∃ next, WalkStep walk next := by
  obtain ⟨_ | ⟨⟨position, tree⟩, stack⟩, tokens, visited⟩ := walk
  · exact absurd rfl more
  · cases branch : tree.isLeaf with
    | true =>
      obtain ⟨symbol, _ | _⟩ := tree
      · exact ⟨_, .leaf⟩
      · nomatch branch
    | false => exact ⟨_, .inner branch⟩

namespace Walk

variable {walk before after : Walk}

/-- What the nodes on the stack add to the tokens. -/
def tokensLeft (walk : Walk) : List String := walk.stack.flatMap fun node => node.2.frontier

/-- The nodes that are not visited yet. -/
def nodesLeft (walk : Walk) : List (List Nat × Tree) :=
  walk.stack.flatMap fun node => nodesAt node.1 node.2

/-- A step moves one node, with its own token, from what is left to what is done. -/
theorem exists_visited (step : WalkStep before after) : ∃ node own,
    before.nodesLeft = node :: after.nodesLeft ∧ after.visited = before.visited ++ [node] ∧
      before.tokensLeft = own ++ after.tokensLeft ∧ after.tokens = before.tokens ++ own := by
  cases step with
  | @leaf position symbol =>
    refine ⟨(position, Tree.leaf symbol), symbol.termName?.toList, ?_, rfl, ?_, rfl⟩
    · simp [nodesLeft, Tree.leaf, nodesAt, nodesFrom]
    · simp [tokensLeft, frontier_leaf]
  | @inner position tree stack _ _ branch =>
    obtain ⟨symbol, children⟩ := tree
    have some : children ≠ [] := by simpa [isLeaf, Tree.children] using branch
    refine ⟨(position, node symbol children), [], ?_, rfl, ?_, (List.append_nil _).symm⟩
    · simp [nodesLeft, push_reverse, nodesAt, nodesFrom_eq_flatMap, Tree.children]
    · simp [tokensLeft, push_reverse, frontier_node symbol some, flatMap_childrenFrom, Tree.children]

theorem terminates_walkStep : Terminates WalkStep := by
  apply terminates_of_measure fun walk => walk.nodesLeft.length
  intro before after step
  obtain ⟨node, own, moved, -⟩ := exists_visited step
  change after.nodesLeft.length < before.nodesLeft.length
  simp [moved]

/-- What is done together with what is left makes up the tree. -/
structure Through (tree : Tree) (walk : Walk) : Prop where
  tokens : walk.tokens ++ walk.tokensLeft = tree.frontier
  visited : walk.visited ++ walk.nodesLeft = nodesAt [] tree

theorem through_start (tree : Tree) : Through tree (start tree) where
  tokens := by simp [start, tokensLeft]
  visited := by simp [start, nodesLeft]

theorem through_step (through : Through tree before) (step : WalkStep before after) :
    Through tree after := by
  obtain ⟨node, own, nodes_left, visited, tokens_left, tokens⟩ := exists_visited step
  constructor
  · rw [← through.tokens, tokens, tokens_left, List.append_assoc]
  · rw [← through.visited, visited, nodes_left, List.append_assoc, List.singleton_append]

theorem through_of_reaches (run : ReflTransGen WalkStep (start tree) walk) : Through tree walk := by
  induction run with
  | refl => exact through_start tree
  | tail _ step through => exact through_step through step

end Walk

/-- The tokens of a tree are its frontier, and the walk ends with them. It visits the node at each
position, and none of them twice. -/
theorem tokens_eq_frontier (tree : Tree) : tree.tokens = tree.frontier ∧
    Settles WalkStep (.start tree) fun last => last.stack = [] ∧ last.tokens = tree.tokens ∧
      (last.visited.map Prod.fst).Nodup ∧
      ∀ position sub, (position, sub) ∈ last.visited ↔ tree.at? position = some sub := by
  refine ⟨tokens_eq tree, settles_of_leads walkStep_unique ?_⟩
  obtain ⟨last, run, stuck⟩ := leads_of_terminates Walk.terminates_walkStep (Walk.start tree)
  have empty : last.stack = [] := by
    by_contra more
    obtain ⟨next, step⟩ := exists_walkStep more
    exact stuck next step
  have ⟨tokens, visited⟩ := Walk.through_of_reaches run
  rw [Walk.tokensLeft, empty, List.flatMap_nil, List.append_nil] at tokens
  rw [Walk.nodesLeft, empty, List.flatMap_nil, List.append_nil] at visited
  refine ⟨last, run, stuck, empty, tokens.trans (tokens_eq tree).symm, ?_, fun position sub => ?_⟩
  · exact visited ▸ nodup_nodesAt [] tree
  · rw [visited, mem_nodesAt]
    simp

end Tree

end ChartParser
