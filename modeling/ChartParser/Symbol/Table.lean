import ChartParser.Symbol

/-! # Tables of symbols

A table holds one symbol for each text. The first symbol stored for a text stays.
-/

namespace ChartParser

/-- The known symbols, by text. -/
structure SymbolTable where
  byText : Std.TreeMap String Symbol

namespace SymbolTable

def empty : SymbolTable := ⟨∅⟩

/-- How many texts the table knows. -/
def size (table : SymbolTable) : Nat := table.byText.size

/-- The symbol stored for a text. -/
def get? (table : SymbolTable) (text : String) : Option Symbol := table.byText[text]?

/-- The text of `symbol` is known, whatever the kind of the symbol stored for it. -/
def contains (table : SymbolTable) (symbol : Symbol) : Bool := table.byText.contains symbol.text

/-- The table that also knows a text. `symbol` is stored for it if the text is new. -/
def store (table : SymbolTable) (text : String) (symbol : Symbol) : SymbolTable :=
  ⟨table.byText.insertIfNew text symbol⟩

/-- The table that also knows the text of `symbol`. -/
def add (table : SymbolTable) (symbol : Symbol) : SymbolTable := table.store symbol.text symbol

/-- The table that also knows every symbol of a list. -/
def addAll (table : SymbolTable) (symbols : List Symbol) : SymbolTable := symbols.foldl add table

/-- The symbol that the table has for a text once the text is stored, and the table then. -/
def internAs (table : SymbolTable) (text : String) (symbol : Symbol) : Symbol × SymbolTable :=
  ((table.get? text).getD symbol, table.store text symbol)

/-- The symbol that stands for `symbol` in the table, and the table that knows it. -/
def intern (table : SymbolTable) (symbol : Symbol) : Symbol × SymbolTable :=
  table.internAs symbol.text symbol

/-- The symbol of a token, and the table that knows it. -/
def internToken (table : SymbolTable) (token : String) : Symbol × SymbolTable :=
  table.internAs token (.ofToken token)

/-- The symbols of tokens in order, each of them interned after the one before. -/
def internTokens (table : SymbolTable) : List String → List Symbol × SymbolTable
  | [] => ([], table)
  | token :: tokens =>
    let (symbol, table) := table.internToken token
    let (symbols, table) := table.internTokens tokens
    (symbol :: symbols, table)

/-! ## What the table holds -/

theorem get?_empty (text : String) : empty.get? text = none := Std.TreeMap.getElem?_emptyc

theorem contains_eq_isSome (table : SymbolTable) (symbol : Symbol) :
    table.contains symbol = (table.get? symbol.text).isSome :=
  Std.TreeMap.contains_eq_isSome_getElem?

/-- The first symbol stored for a text stays. -/
theorem get?_add (table : SymbolTable) (symbol : Symbol) (text : String) :
    (table.add symbol).get? text =
      if symbol.text = text then some ((table.get? text).getD symbol) else table.get? text := by
  unfold add store get?
  rw [Std.TreeMap.getElem?_insertIfNew]
  by_cases h : symbol.text = text
  · subst h
    cases known : table.byText[symbol.text]? with
    | none => simp [Std.TreeMap.mem_iff_isSome_getElem?, known]
    | some stored => simp [Std.TreeMap.mem_iff_isSome_getElem?, known]
  · simp [h]

theorem contains_add {table : SymbolTable} {symbol other : Symbol} :
    (table.add symbol).contains other = true ↔
      symbol.text = other.text ∨ table.contains other = true := by
  rw [contains_eq_isSome, contains_eq_isSome, get?_add]
  split
  · next same => simp [same]
  · next apart => simp [apart]

theorem contains_addAll {table : SymbolTable} {symbols : List Symbol} {other : Symbol} :
    (table.addAll symbols).contains other = true ↔
      (∃ symbol ∈ symbols, symbol.text = other.text) ∨ table.contains other = true := by
  unfold addAll
  induction symbols generalizing table with
  | nil => simp
  | cons symbol symbols ih =>
    simp only [List.foldl_cons, ih, contains_add, List.mem_cons, exists_eq_or_imp]
    constructor
    · rintro (later | first | known)
      · exact .inl (.inr later)
      · exact .inl (.inl first)
      · exact .inr known
    · rintro ((first | later) | known)
      · exact .inr (.inl first)
      · exact .inl later
      · exact .inr (.inr known)

end SymbolTable

end ChartParser
