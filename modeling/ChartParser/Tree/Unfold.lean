import ChartParser.Tree.Basic

/-! # Trees without helpers -/

namespace ChartParser.Tree

variable (isHelper : Symbol → Bool)

mutual

/-- What stands for a child: the tree itself, or what stands for its children if it is a helper. -/
def splice : Tree → List Tree
  | node symbol children =>
    if isHelper symbol then spliceAll children else [node symbol (spliceAll children)]

/-- What stands for some children. -/
def spliceAll : List Tree → List Tree
  | [] => []
  | tree :: more => tree.splice ++ spliceAll more

end

/-- The tree whose helpers below the root give way to their children. -/
def unfoldHelpers : Tree → Tree
  | node symbol children => node symbol (spliceAll isHelper children)

end ChartParser.Tree
