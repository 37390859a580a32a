import ChartParser.Symbol

/-! # Trees -/

namespace ChartParser

/-- A derivation tree: a symbol and the trees that its parts have. -/
inductive Tree
  | node (symbol : Symbol) (children : List Tree)

namespace Tree

/-- A tree without children. -/
def leaf (symbol : Symbol) : Tree := node symbol []

def symbol : Tree → Symbol
  | node symbol _ => symbol

def children : Tree → List Tree
  | node _ children => children

def isLeaf (tree : Tree) : Bool := tree.children.isEmpty

/-! ## Size -/

mutual

/-- How many nodes the tree has. -/
def size : Tree → Nat
  | node _ children => sizes children + 1

/-- How many nodes the trees have together. -/
def sizes : List Tree → Nat
  | [] => 0
  | tree :: more => tree.size + sizes more

end

theorem sizes_append (before after : List Tree) :
    sizes (before ++ after) = sizes before + sizes after := by
  induction before with
  | nil => simp [sizes]
  | cons tree before ih => simp [sizes, ih, Nat.add_assoc]

/-! ## Text -/

mutual

/-- The tree on one line, with the children of a node in parentheses. -/
def text : Tree → String
  | node symbol [] => symbol.text
  | node symbol (child :: more) => symbol.text ++ "(" ++ child.text ++ texts more ++ ")"

/-- The texts with a comma before each. -/
def texts : List Tree → String
  | [] => ""
  | tree :: more => ", " ++ tree.text ++ texts more

end

/-! ## Order -/

mutual

/-- By symbol, then by children. -/
def order : Tree → Tree → Ordering
  | node s children, node t others => (compare s t).then (orders children others)

/-- Lists by their first difference. A proper beginning of a list comes before it. -/
def orders : List Tree → List Tree → Ordering
  | [], [] => .eq
  | [], _ :: _ => .lt
  | _ :: _, [] => .gt
  | tree :: more, other :: others => (order tree other).then (orders more others)

end

instance : Ord Tree := ⟨order⟩

/-! ## Leaves -/

/-- The words at the leaves of trees that are still to be visited. The first tree is next, and its
children come before the other trees. -/
def walk : List Tree → List String
  | [] => []
  | node symbol [] :: pending => symbol.termName?.toList ++ walk pending
  | node _ (child :: more) :: pending => walk (child :: more ++ pending)
termination_by pending => sizes pending
decreasing_by
  · simp [sizes, size]
  · simp [sizes, size, sizes_append]
    omega

/-- The names of the terminals without children, from left to right. -/
def tokens (tree : Tree) : List String := walk [tree]

end Tree

end ChartParser
