import ChartParser.Symbol.Table

/-! # Supply of helper names

Helpers are named `$_H0`, `$_H1` and so on. A number is free when no symbol has that text.
-/

namespace ChartParser

/-- The helper with number `i`. -/
def helperSymbol (i : Nat) : Symbol := .nonterm ("_H" ++ toString i)

namespace SymbolTable

/-- The first free number from `i` on, if one is found within `steps`. -/
def nextFreeWithin (table : SymbolTable) : Nat → Nat → Nat
  | 0, i => i
  | steps + 1, i =>
    if table.contains (helperSymbol i) then table.nextFreeWithin steps (i + 1) else i

/-- The first free number from `i` on. A table of `n` texts leaves one of `n + 1` numbers free. -/
def nextFree (table : SymbolTable) (i : Nat) : Nat := table.nextFreeWithin table.size i

/-- The free number from `i` on that has `n` free numbers before it. -/
def freeNumber (table : SymbolTable) (i : Nat) : Nat → Nat
  | 0 => table.nextFree i
  | n + 1 => table.freeNumber (table.nextFree i + 1) n

/-- The first `n` free numbers from `i` on. -/
def freeNumbers (table : SymbolTable) (i : Nat) : Nat → List Nat
  | 0 => []
  | n + 1 =>
    let free := table.nextFree i
    free :: table.freeNumbers (free + 1) n

end SymbolTable

end ChartParser
