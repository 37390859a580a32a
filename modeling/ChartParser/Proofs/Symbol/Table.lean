import ChartParser.Symbol.Table

/-! # What a table of symbols stores

A symbol is spelled if its text stands for it. As long as all symbols that enter a table are
spelled, the table stores under each text the symbol that the text stands for, and so interning
gives back what it is given.
-/

namespace ChartParser

/-- The symbol is what its text stands for. -/
def Symbol.Spelled (symbol : Symbol) : Prop := ofToken symbol.text = symbol

theorem spelled_ofToken (token : String) : (Symbol.ofToken token).Spelled := by
  unfold Symbol.Spelled
  rw [Symbol.text_ofToken]

theorem spelled_nonterm (name : String) : (Symbol.nonterm name).Spelled := by
  simp [Symbol.Spelled, Symbol.ofToken, Symbol.text]

namespace SymbolTable

variable {table : SymbolTable}

/-- Every symbol that is stored is the one that its key stands for. -/
def Consistent (table : SymbolTable) : Prop :=
  ∀ text symbol, table.get? text = some symbol → symbol = .ofToken text

theorem consistent_empty : empty.Consistent := by
  intro text symbol stored
  simp [get?_empty] at stored

theorem consistent_add (consistent : table.Consistent) {symbol : Symbol}
    (spelled : symbol.Spelled) : (table.add symbol).Consistent := by
  intro text other stored
  rw [get?_add] at stored
  split at stored
  · next same =>
    cases known : table.get? text with
    | none =>
      simp only [known, Option.getD_none, Option.some.injEq] at stored
      rw [← stored, ← same, spelled]
    | some first =>
      simp only [known, Option.getD_some, Option.some.injEq] at stored
      exact stored ▸ consistent text first known
  · exact consistent text other stored

theorem consistent_addAll (consistent : table.Consistent) {symbols : List Symbol}
    (spelled : ∀ symbol ∈ symbols, symbol.Spelled) : (table.addAll symbols).Consistent := by
  induction symbols generalizing table with
  | nil => exact consistent
  | cons symbol symbols ih =>
    obtain ⟨first, others⟩ := List.forall_mem_cons.mp spelled
    exact ih (consistent_add consistent first) others

theorem consistent_addTokens (consistent : table.Consistent) (tokens : List String) :
    (table.addAll (tokens.map .ofToken)).Consistent := by
  apply consistent_addAll consistent
  rw [List.forall_mem_map]
  exact fun token _ => spelled_ofToken token

/-! ## Keys -/

theorem contains_iff_mem_keys {symbol : Symbol} :
    table.contains symbol = true ↔ symbol.text ∈ table.byText.keys := by
  rw [contains, Std.TreeMap.mem_keys, Std.TreeMap.mem_iff_contains]

theorem mem_keys_addAll {symbols : List Symbol} {text : String} :
    text ∈ (table.addAll symbols).byText.keys ↔
      (∃ symbol ∈ symbols, symbol.text = text) ∨ text ∈ table.byText.keys := by
  rw [← Symbol.text_ofToken text, ← contains_iff_mem_keys, contains_addAll, contains_iff_mem_keys]

theorem consistent_iff : table.Consistent ↔
    ∀ text ∈ table.byText.keys, table.get? text = some (.ofToken text) := by
  unfold Consistent
  simp only [Std.TreeMap.mem_keys, Std.TreeMap.mem_iff_isSome_getElem?]
  constructor
  · intro consistent text known
    obtain ⟨symbol, stored⟩ := Option.isSome_iff_exists.mp known
    rw [← consistent text symbol stored]
    exact stored
  · intro stored text symbol found
    have known := stored text (Option.isSome_iff_exists.mpr ⟨symbol, found⟩)
    rw [found] at known
    exact Option.some.inj known

/-! ## Interning -/

theorem intern_of_consistent (consistent : table.Consistent) {symbol : Symbol}
    (spelled : symbol.Spelled) : table.intern symbol = (symbol, table.add symbol) := by
  unfold intern internAs
  cases known : table.get? symbol.text with
  | none => rfl
  | some first =>
    rw [consistent _ _ known, spelled, Option.getD_some]
    rfl

/-- A token is the text of its symbol, so it makes no difference which of the two is interned. -/
theorem internToken_eq (table : SymbolTable) (token : String) :
    table.internToken token = table.intern (.ofToken token) := by
  rw [internToken, intern, Symbol.text_ofToken]

/-- Whatever the table knows, a token is interned as the symbol that it stands for. -/
theorem internTokens_of_consistent (consistent : table.Consistent) (tokens : List String) :
    table.internTokens tokens =
      (tokens.map .ofToken, table.addAll (tokens.map .ofToken)) := by
  induction tokens generalizing table with
  | nil => rfl
  | cons token tokens ih =>
    have spelled := spelled_ofToken token
    have next := consistent_add consistent spelled
    unfold internTokens
    simp only [internToken_eq, intern_of_consistent consistent spelled, ih next]
    rfl

theorem addAll_append (table : SymbolTable) (symbols more : List Symbol) :
    table.addAll (symbols ++ more) = (table.addAll symbols).addAll more :=
  List.foldl_append

end SymbolTable

end ChartParser
