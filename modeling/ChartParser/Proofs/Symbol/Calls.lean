import Mathlib.Data.Finset.Card
import ChartParser.Proofs.Symbol.Table

/-! # Calls on a table of symbols

After any calls, a table holds for each text the first symbol with this text that it was given.
Nothing is stored over it and nothing is removed, whatever kinds of symbols are given.
-/

namespace ChartParser.SymbolTable

/-! ## Calls -/

/-- A call on a table. -/
inductive Call
  | intern (token : String)
  | internSymbol (symbol : Symbol)
  | get (text : String)
  | contains (symbol : Symbol)

/-- What a call returns. -/
inductive Answer
  | symbol (symbol : Symbol)
  | found (symbol : Option Symbol)
  | known (known : Bool)

/-- The answer to a call, and the table after it. -/
def call (table : SymbolTable) : Call → Answer × SymbolTable
  | .intern token => (.symbol (table.internToken token).1, (table.internToken token).2)
  | .internSymbol symbol => (.symbol (table.intern symbol).1, (table.intern symbol).2)
  | .get text => (.found (table.get? text), table)
  | .contains symbol => (.known (table.contains symbol), table)

/-- A new table after some calls. -/
def after (calls : List Call) : SymbolTable :=
  calls.foldl (fun table call => (table.call call).2) empty

/-- The symbol that a call gives to the table. -/
def Call.given? : Call → Option Symbol
  | .intern token => some (.ofToken token)
  | .internSymbol symbol => some symbol
  | .get _ | .contains _ => none

/-- The symbols that calls give to the table, in order. -/
def given (calls : List Call) : List Symbol := calls.filterMap Call.given?

/-! ## What is stored -/

variable {table : SymbolTable} {calls later : List Call} {text : String} {symbol : Symbol}

/-- Calls that only ask change nothing. -/
theorem after_eq (calls : List Call) : after calls = empty.addAll (given calls) := by
  rw [addAll, given, List.foldl_filterMap, after]
  congr 1
  funext table call
  cases call with
  | intern token => exact congrArg Prod.snd (internToken_eq table token)
  | _ => rfl

/-- What is stored stays, and else the first symbol with the text is stored. -/
theorem get?_addAll (table : SymbolTable) (symbols : List Symbol) (text : String) :
    (table.addAll symbols).get? text =
      (table.get? text).or (symbols.find? (·.text == text)) := by
  induction symbols generalizing table with
  | nil => exact Option.or_none.symm
  | cons symbol symbols ih =>
    change ((table.add symbol).addAll symbols).get? text = _
    rw [ih, get?_add, List.find?_cons]
    by_cases same : symbol.text = text
    · rw [if_pos same, beq_iff_eq.mpr same]
      cases table.get? text <;> rfl
    · rw [if_neg same, beq_eq_false_iff_ne.mpr same]

theorem get?_after (calls : List Call) (text : String) :
    (after calls).get? text = (given calls).find? (·.text == text) := by
  rw [after_eq, get?_addAll, get?_empty, Option.none_or]

theorem after_append (calls later : List Call) :
    after (calls ++ later) = (after calls).addAll (given later) := by
  rw [after_eq, after_eq, given, List.filterMap_append, addAll_append]
  rfl

/-- No later call removes or replaces a symbol. -/
theorem get?_after_append (stored : (after calls).get? text = some symbol) (later : List Call) :
    (after (calls ++ later)).get? text = some symbol := by
  rw [after_append, get?_addAll, stored, Option.some_or]

theorem text_of_get?_after (stored : (after calls).get? text = some symbol) :
    symbol.text = text := by
  rw [get?_after] at stored
  have first := List.find?_some stored
  exact beq_iff_eq.mp first

theorem contains_after : (after calls).contains symbol = true ↔
    symbol.text ∈ (given calls).map Symbol.text := by
  rw [after_eq, contains_addAll, List.mem_map, contains_eq_isSome, get?_empty]
  simp

theorem mem_keys_after : text ∈ (after calls).byText.keys ↔
    text ∈ (given calls).map Symbol.text := by
  rw [← Symbol.text_ofToken text, ← contains_iff_mem_keys, contains_after]

/-- The table counts each text once. -/
theorem size_after (calls : List Call) :
    (after calls).size = ((given calls).map Symbol.text).toFinset.card := by
  have distinct : (after calls).byText.keys.Nodup := Std.TreeMap.nodup_keys
  have keys : (after calls).byText.keys.toFinset = ((given calls).map Symbol.text).toFinset := by
    ext text
    rw [List.mem_toFinset, List.mem_toFinset, mem_keys_after]
  rw [← keys, List.toFinset_card_of_nodup distinct, Std.TreeMap.length_keys]
  rfl

/-! ## Answers -/

theorem fst_call_intern (stored : table.get? text = some symbol) :
    (table.call (.intern text)).1 = .symbol symbol := by
  simp [call, internToken, internAs, stored]

theorem fst_call_internSymbol {other : Symbol} (stored : table.get? other.text = some symbol) :
    (table.call (.internSymbol other)).1 = .symbol symbol := by
  simp [call, intern, internAs, stored]

/-- After any calls, the table maps the texts that it was given to the first symbols that it was
given for them. These symbols are what all later calls find. -/
theorem first_symbols_stay (calls : List Call) :
    (∀ text, (after calls).get? text = (given calls).find? (·.text == text)) ∧
    (∀ text symbol, (after calls).get? text = some symbol → symbol.text = text) ∧
    (after calls).size = ((given calls).map Symbol.text).toFinset.card ∧
    (∀ symbol, (after calls).call (.contains symbol) =
      (.known (decide (symbol.text ∈ (given calls).map Symbol.text)), after calls)) ∧
    ∀ text symbol, (after calls).get? text = some symbol → ∀ later,
      (after (calls ++ later)).get? text = some symbol ∧
      ((after (calls ++ later)).call (.intern text)).1 = .symbol symbol ∧
      ((after (calls ++ later)).call (.get text)).1 = .found (some symbol) ∧
      ∀ other : Symbol, other.text = text →
        ((after (calls ++ later)).call (.internSymbol other)).1 = .symbol symbol := by
  refine ⟨get?_after calls, fun _ _ => text_of_get?_after, size_after calls, fun symbol => ?_,
    fun text symbol stored later => ?_⟩
  · have known : (after calls).contains symbol =
        decide (symbol.text ∈ (given calls).map Symbol.text) := by
      rw [Bool.eq_iff_iff, contains_after, decide_eq_true_iff]
    rw [call, known]
  · have stays := get?_after_append stored later
    refine ⟨stays, fst_call_intern stays, congrArg Answer.found stays, ?_⟩
    rintro other rfl
    exact fst_call_internSymbol stays

/-- A terminal that is written as a non-terminal, and what is asked for by this text later. -/
theorem first_symbols_stay_marked :
    (after [.internSymbol (.term "$x"), .intern "y"]).get? "$x" = some (.term "$x") ∧
    ∀ later : List Call,
      ((after ([.internSymbol (.term "$x"), .intern "y"] ++ later)).call (.intern "$x")).1 =
        .symbol (.term "$x") ∧
      ((after ([.internSymbol (.term "$x"), .intern "y"] ++ later)).call
        (.internSymbol (.nonterm "x"))).1 = .symbol (.term "$x") := by
  have stored : (after [.internSymbol (.term "$x"), .intern "y"]).get? "$x" =
      some (.term "$x") := by
    rw [get?_after]
    decide
  obtain ⟨-, -, -, -, stays⟩ :=
    first_symbols_stay [.internSymbol (.term "$x"), .intern "y"]
  refine ⟨stored, fun later => ?_⟩
  obtain ⟨-, token, -, others⟩ := stays _ _ stored later
  exact ⟨token, others (.nonterm "x") rfl⟩

end ChartParser.SymbolTable
