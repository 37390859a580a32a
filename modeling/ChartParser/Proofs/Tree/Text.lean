import ChartParser.Proofs.Tree.Unfold

/-! # The text of a tree identifies it

What follows a tree in a longer text begins with a comma or a parenthesis. So where the tree ends
can be seen, also with names that are empty or contain spaces.
-/

namespace ChartParser

/-- The characters around the symbols of a tree. -/
def Tree.isMark (c : Char) : Bool := c == '(' || c == ')' || c == ','

/-- The name has no marks of a tree in it, and a terminal does not look like a non-terminal. -/
structure Symbol.Legible (symbol : Symbol) : Prop where
  unmarked : ∀ c ∈ symbol.name.toList, Tree.isMark c = false
  kind : symbol.isTerm = true → symbol.name.toList.head? ≠ some '$'

namespace Tree

/-- The symbols at all nodes are legible. -/
def Legible (tree : Tree) : Prop := ∀ sub ∈ tree.subtrees, sub.symbol.Legible

/-! ## Symbols -/

theorem toList_text_nonterm (name : String) :
    (Symbol.nonterm name).text.toList = '$' :: name.toList := by
  rw [Symbol.text, String.toList_append]
  rfl

theorem isMark_of_mem_text {symbol : Symbol} (legible : symbol.Legible) :
    ∀ c ∈ symbol.text.toList, isMark c = false := by
  cases symbol with
  | term name => exact legible.unmarked
  | nonterm name =>
    rw [toList_text_nonterm]
    exact List.forall_mem_cons.mpr ⟨rfl, legible.unmarked⟩

theorem symbol_eq_of_text {symbol other : Symbol} (legible : symbol.Legible)
    (legible' : other.Legible) (h : symbol.text.toList = other.text.toList) : symbol = other := by
  cases symbol with
  | term name =>
    cases other with
    | term name' => exact congrArg Symbol.term (String.toList_injective h)
    | nonterm name' =>
      rw [toList_text_nonterm] at h
      exact absurd (congrArg List.head? h) (legible.kind rfl)
  | nonterm name =>
    cases other with
    | term name' =>
      rw [toList_text_nonterm] at h
      exact absurd (congrArg List.head? h.symm) (legible'.kind rfl)
    | nonterm name' =>
      rw [toList_text_nonterm, toList_text_nonterm, List.cons.injEq] at h
      exact congrArg Symbol.nonterm (String.toList_injective h.2)

/-- A run without marks ends where the next mark is. -/
theorem run_unique {run other rest rest' : List Char} (clear : ∀ c ∈ run, isMark c = false)
    (clear' : ∀ c ∈ other, isMark c = false) (mark : ∀ c ∈ rest.head?, isMark c = true)
    (mark' : ∀ c ∈ rest'.head?, isMark c = true) (h : run ++ rest = other ++ rest') :
    run = other ∧ rest = rest' := by
  induction run generalizing other with
  | nil =>
    cases other with
    | nil => exact ⟨rfl, h⟩
    | cons c other =>
      have first : rest = c :: (other ++ rest') := h
      subst first
      simp [clear' c (.head _)] at mark
  | cons c run ih =>
    obtain ⟨c_clear, run_clear⟩ := List.forall_mem_cons.mp clear
    cases other with
    | nil =>
      have first : c :: (run ++ rest) = rest' := h
      subst first
      simp [c_clear] at mark'
    | cons d other =>
      obtain ⟨rfl, more⟩ := List.cons.inj h
      obtain ⟨rfl, rest_eq⟩ := ih run_clear (List.forall_mem_cons.mp clear').2 more
      exact ⟨rfl, rest_eq⟩

/-! ## Trees -/

/-- What may follow a tree in a text. -/
def Stops (rest : List Char) : Prop := ∀ c ∈ rest.head?, c = ',' ∨ c = ')'

/-- The tree and its end can be read off every text that begins with the tree. -/
def Cancels (tree : Tree) : Prop :=
  ∀ (other : Tree) (rest rest' : List Char), other.Legible → Stops rest → Stops rest' →
    tree.text.toList ++ rest = other.text.toList ++ rest' → tree = other ∧ rest = rest'

theorem toList_texts_cons (tree : Tree) (more : List Tree) :
    (texts (tree :: more)).toList = ',' :: ' ' :: (tree.text.toList ++ (texts more).toList) := by
  rw [texts, String.toList_append, String.toList_append]
  rfl

/-- What stands after the symbol of a node. -/
def inner : List Tree → List Char
  | [] => []
  | child :: more => '(' :: (child.text.toList ++ ((texts more).toList ++ [')']))

theorem toList_text (symbol : Symbol) (children : List Tree) :
    (node symbol children).text.toList = symbol.text.toList ++ inner children := by
  cases children with
  | nil => rw [text, inner, List.append_nil]
  | cons child more =>
    rw [text]
    simp only [String.toList_append, List.append_assoc]
    rfl

theorem isMark_head_inner (children : List Tree) {rest : List Char} (stops : Stops rest) :
    ∀ c ∈ (inner children ++ rest).head?, isMark c = true := by
  cases children with
  | nil =>
    intro c head
    rcases stops c head with rfl | rfl
    · rfl
    · rfl
  | cons child more => simp [inner, isMark]

theorem stops_texts (trees : List Tree) (rest : List Char) :
    Stops ((texts trees).toList ++ ')' :: rest) := by
  cases trees with
  | nil => simp [texts, Stops]
  | cons tree more =>
    rw [toList_texts_cons]
    simp [Stops]

theorem siblings_inj {child other : Tree} {more others : List Tree} {rest rest' : List Char}
    (cancels : ∀ tree ∈ child :: more, Cancels tree)
    (legible : ∀ tree ∈ other :: others, tree.Legible)
    (h : child.text.toList ++ ((texts more).toList ++ ')' :: rest) =
      other.text.toList ++ ((texts others).toList ++ ')' :: rest')) :
    child :: more = other :: others ∧ rest = rest' := by
  -- The first trees are the same and end at the same place. The later siblings follow there.
  induction more generalizing child other others with
  | nil =>
    obtain ⟨rfl, later⟩ := cancels child (.head _) other _ _ (legible other (.head _))
      (stops_texts [] rest) (stops_texts others rest') h
    cases others with
    | nil => exact ⟨rfl, (List.cons.inj later).2⟩
    | cons tree others => simp [texts] at later
  | cons next more ih =>
    obtain ⟨rfl, later⟩ := cancels child (.head _) other _ _ (legible other (.head _))
      (stops_texts (next :: more) rest) (stops_texts others rest') h
    cases others with
    | nil => simp [texts] at later
    | cons tree others =>
      rw [toList_texts_cons, toList_texts_cons] at later
      simp only [List.cons_append, List.cons.injEq, true_and, List.append_assoc] at later
      obtain ⟨same, rest_eq⟩ := ih (List.forall_mem_cons.mp cancels).2
        (List.forall_mem_cons.mp legible).2 later
      exact ⟨congrArg (child :: ·) same, rest_eq⟩

theorem inner_inj {children others : List Tree} {rest rest' : List Char}
    (cancels : ∀ child ∈ children, Cancels child) (legible : ∀ other ∈ others, other.Legible)
    (stops : Stops rest) (stops' : Stops rest') (h : inner children ++ rest = inner others ++ rest') :
    children = others ∧ rest = rest' := by
  cases children with
  | nil =>
    cases others with
    | nil => exact ⟨rfl, h⟩
    | cons other others =>
      have first : rest = inner (other :: others) ++ rest' := h
      subst first
      simp [Stops, inner] at stops
  | cons child children =>
    cases others with
    | nil =>
      have first : inner (child :: children) ++ rest = rest' := h
      subst first
      simp [Stops, inner] at stops'
    | cons other others =>
      simp only [inner, List.cons_append, List.cons.injEq, true_and, List.append_assoc,
        List.nil_append] at h
      exact siblings_inj cancels legible h

theorem cancels_of_legible {tree : Tree} (legible : tree.Legible) : Cancels tree := by
  induction tree with
  | node symbol children ih =>
    rintro ⟨symbol', others⟩ rest rest' legible' stops stops' h
    obtain ⟨symbol_legible, children_legible⟩ := forall_mem_subtrees.mp legible
    obtain ⟨symbol_legible', others_legible⟩ := forall_mem_subtrees.mp legible'
    -- The symbol of the root goes as far as the first mark, and the children are what is left.
    rw [toList_text, toList_text, List.append_assoc, List.append_assoc] at h
    obtain ⟨symbol_eq, inner_eq⟩ := run_unique (isMark_of_mem_text symbol_legible)
      (isMark_of_mem_text symbol_legible') (isMark_head_inner children stops)
      (isMark_head_inner others stops') h
    obtain rfl : symbol = symbol' := symbol_eq_of_text symbol_legible symbol_legible' symbol_eq
    have cancels : ∀ child ∈ children, Cancels child :=
      fun child mem => ih child mem (children_legible child mem)
    obtain ⟨rfl, rest_eq⟩ := inner_inj cancels others_legible stops stops' inner_eq
    exact ⟨rfl, rest_eq⟩

/-- Trees with legible symbols are told apart by their texts. -/
theorem text_eq_text_iff {tree other : Tree} (legible : tree.Legible) (legible' : other.Legible) :
    tree.text = other.text ↔ tree = other := by
  constructor
  · intro h
    have stops : Stops [] := by simp [Stops]
    exact (cancels_of_legible legible other [] [] legible' stops stops (by rw [h])).1
  · rintro rfl
    rfl

/-- A leaf without a name is seen between the parentheses. -/
theorem text_ne_of_empty_leaf :
    (node (.nonterm "") [leaf (.term "")]).Legible ∧ (leaf (.nonterm "")).Legible ∧
      (node (.nonterm "") [leaf (.term "")]).text ≠ (leaf (.nonterm "")).text := by
  have root : (Symbol.nonterm "").Legible := ⟨by simp [Symbol.name], by simp [Symbol.name]⟩
  have word : (Symbol.term "").Legible := ⟨by simp [Symbol.name], by simp [Symbol.name]⟩
  have legible : (node (.nonterm "") [leaf (.term "")]).Legible := by
    simp [Legible, subtrees, subtreesAll, leaf, Tree.symbol, root, word]
  have legible' : (leaf (.nonterm "")).Legible := by
    simp [Legible, subtrees, subtreesAll, leaf, Tree.symbol, root]
  refine ⟨legible, legible', mt (text_eq_text_iff legible legible').mp ?_⟩
  simp [leaf]

end Tree

end ChartParser
