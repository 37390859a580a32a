import ChartParser.Proofs.Parser.Limit

/-! # Renaming symbols

A renaming that takes the rules of one grammar to rules of another takes derivation trees to
derivation trees of the same words. If it keeps heads apart, it keeps trees apart, and then the
other grammar has at least as many of them.
-/

namespace ChartParser

variable {rename : Symbol → Symbol}

namespace Tree

mutual

/-- The tree with another symbol at each node. -/
def renamed (rename : Symbol → Symbol) : Tree → Tree
  | node symbol children => node (rename symbol) (renamedAll rename children)

def renamedAll (rename : Symbol → Symbol) : List Tree → List Tree
  | [] => []
  | tree :: more => tree.renamed rename :: renamedAll rename more

end

theorem renamed_node (rename : Symbol → Symbol) (symbol : Symbol) (children : List Tree) :
    (node symbol children).renamed rename =
      node (rename symbol) (children.map (Tree.renamed rename)) := by
  have all (trees : List Tree) : renamedAll rename trees = trees.map (Tree.renamed rename) := by
    induction trees with
    | nil => rfl
    | cons tree more ih => rw [renamedAll, ih, List.map_cons]
  rw [renamed, all]

theorem symbol_renamed (rename : Symbol → Symbol) (tree : Tree) :
    (tree.renamed rename).symbol = rename tree.symbol := by
  cases tree
  rw [renamed]
  rfl

theorem tokens_renamed (terms : ∀ symbol, (rename symbol).termName? = symbol.termName?)
    (tree : Tree) : (tree.renamed rename).tokens = tree.tokens := by
  induction tree with
  | node symbol children ih =>
    rw [renamed_node]
    cases children with
    | nil => exact (tokens_leaf _).trans ((congrArg _ (terms symbol)).trans (tokens_leaf _).symm)
    | cons child more =>
      rw [tokens_node _ (by simp), tokens_node _ (by simp), List.flatMap_map]
      exact List.flatMap_congr ih

end Tree

namespace Grammar

/-- The renaming changes no terminal, takes rules of `h` to rules of `other` and keeps heads
apart. -/
structure Renames (rename : Symbol → Symbol) (h other : Grammar) : Prop where
  terms : ∀ symbol, (rename symbol).termName? = symbol.termName?
  rules : ∀ rule ∈ h.rules, ∃ image ∈ other.rules, image.shape = rule.renamedShape rename
  heads : ∀ rule ∈ h.rules, ∀ rule' ∈ h.rules, rename rule.head = rename rule'.head →
    rule.head = rule'.head

variable {h other : Grammar} {words : List String}

/-! ## Trees of the other grammar -/

theorem rename_eq_term_iff (renames : Renames rename h other) {symbol : Symbol} {word : String} :
    rename symbol = .term word ↔ symbol = .term word := by
  rw [← Symbol.termName?_eq_some, renames.terms, Symbol.termName?_eq_some]

theorem isNonterm_rename (renames : Renames rename h other) (symbol : Symbol) :
    (rename symbol).isNonterm = symbol.isNonterm := by
  rw [Symbol.isNonterm_eq_isNone, Symbol.isNonterm_eq_isNone, renames.terms]

theorem derivedBy_renamed (renames : Renames rename h other) {tree : Tree}
    (derived : tree.DerivedBy h) : (tree.renamed rename).DerivedBy other := by
  induction derived with
  | leaf word =>
    rw [Tree.leaf, Tree.renamed_node, (rename_eq_term_iff renames).mpr rfl]
    exact .leaf word
  | @node rule children mem roots _ ih =>
    obtain ⟨image, image_mem, shape⟩ := renames.rules rule mem
    obtain ⟨head, body⟩ := Prod.mk.inj shape
    rw [Tree.renamed_node, ← head]
    refine .node image_mem ?_ (List.forall_mem_map.mpr ih)
    rw [body, ← roots, List.map_map, List.map_map]
    exact List.map_congr_left fun child _ => Tree.symbol_renamed rename child

theorem parses_renamed (renames : Renames rename h other) {symbol : Symbol} {tree : Tree}
    (parses : h.Parses symbol words tree) :
    other.Parses (rename symbol) words (tree.renamed rename) := by
  refine ⟨derivedBy_renamed renames parses.derived, ?_, ?_⟩
  · rw [Tree.symbol_renamed, parses.root]
  · rw [Tree.tokens_renamed renames.terms, parses.tokens]

/-! ## Trees stay apart -/

theorem eq_of_map_renamed {trees others : List Tree}
    (each : ∀ tree ∈ trees, ∀ other ∈ others, tree.renamed rename = other.renamed rename →
      tree = other)
    (same : trees.map (Tree.renamed rename) = others.map (Tree.renamed rename)) :
    trees = others := by
  induction trees generalizing others with
  | nil => exact (List.map_eq_nil_iff.mp same.symm).symm
  | cons tree trees ih =>
    obtain ⟨other, others, rfl, first, more⟩ := List.map_eq_cons_iff.mp same.symm
    rw [each tree (.head _) other (.head _) first.symm,
      ih (fun one mem two mem' => each one (.tail _ mem) two (.tail _ mem')) more.symm]

theorem rename_symbol_eq {tree tree' : Tree} (same : tree.renamed rename = tree'.renamed rename) :
    rename tree.symbol = rename tree'.symbol := by
  rw [← Tree.symbol_renamed rename tree, same, Tree.symbol_renamed]

theorem eq_of_renamed_eq (renames : Renames rename h other) {tree tree' : Tree}
    (derived : tree.DerivedBy h) (derived' : tree'.DerivedBy h)
    (same : tree.renamed rename = tree'.renamed rename) : tree = tree' := by
  induction derived generalizing tree' with
  | leaf word =>
    have image : rename tree'.symbol = .term word :=
      (rename_symbol_eq same).symm.trans ((rename_eq_term_iff renames).mpr rfl)
    have root := (rename_eq_term_iff renames).mp image
    exact (parses_term.mp ⟨derived', root, rfl⟩).2.symm
  | @node rule children mem roots derived ih =>
    have images : rename rule.head = rename tree'.symbol := rename_symbol_eq same
    have kind : tree'.symbol.isNonterm = true := by
      rw [← isNonterm_rename renames, ← images, isNonterm_rename renames]
      exact (h.rules_valid rule mem).1
    obtain ⟨rule', mem', head, children', shape, parses⟩ :=
      (parses_nonterm kind).mp ⟨derived', rfl, rfl⟩
    have heads : rule.head = tree'.symbol :=
      (renames.heads rule mem rule' mem' (head ▸ images)).trans head
    rw [shape, Tree.renamed_node, Tree.renamed_node] at same
    have below : children = children' :=
      eq_of_map_renamed (fun child child_mem child' child_mem' =>
        ih child child_mem (parses.derived child' child_mem')) (Tree.node.inj same).2
    rw [shape, ← heads, below]

/-! ## As many trees -/

theorem forest_encard_le (renames : Renames rename h other) (words : List String) (span : Span) :
    (h.forest words span).encard ≤ (other.forest words span).encard := by
  apply Set.encard_le_encard_of_injOn (f := Tree.renamed rename)
  · rintro tree ⟨kind, parses⟩
    have image := parses_renamed renames parses
    rw [← Tree.symbol_renamed rename tree] at image
    refine ⟨?_, image⟩
    rw [Tree.symbol_renamed, isNonterm_rename renames, kind]
  · rintro tree ⟨-, parses⟩ tree' ⟨-, parses'⟩ same
    exact eq_of_renamed_eq renames parses.derived parses'.derived same

theorem parses_encard_le (renames : Renames rename h other) (symbol : Symbol)
    (words : List String) : {tree | h.Parses symbol words tree}.encard ≤
      {tree | other.Parses (rename symbol) words tree}.encard := by
  apply Set.encard_le_encard_of_injOn (f := Tree.renamed rename)
  · exact fun tree parses => parses_renamed renames parses
  · exact fun tree parses tree' parses' same =>
      eq_of_renamed_eq renames parses.derived parses'.derived same

end Grammar

end ChartParser
