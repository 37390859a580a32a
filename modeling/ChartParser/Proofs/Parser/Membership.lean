import ChartParser.Parser.Membership
import ChartParser.Proofs.Parser.Forest
import ChartParser.Proofs.Search
import ChartParser.Proofs.SymbolChart

/-! # Membership agrees with the parse forest

The symbols of a span are the roots of its derivation trees, although no tree is built.
-/

namespace ChartParser.Parser

open Grammar

variable {g : Grammar} {words : List String} {span : Span}

/-! ## Unit rules -/

theorem contains_unitClosure {symbols : List Symbol} {symbol : Symbol} :
    (unitClosure g symbols).contains symbol = true ↔
      ∃ base ∈ symbols, Search.LeadsTo g.unitParents base symbol := by
  have complete (child : Symbol) (h : g.unitParents child ≠ []) :
      child ∈ g.rules.map fun rule => rule.body.headD rule.head := by
    obtain ⟨parent, up⟩ := List.exists_mem_of_ne_nil _ h
    obtain ⟨rule, mem, -, body⟩ := mem_unitParents.mp up
    exact List.mem_map.mpr ⟨rule, mem, by rw [body, List.headD_cons]⟩
  rw [Std.TreeSet.contains_iff_mem, unitClosure]
  exact Search.mem_reached complete (by simp)

/-- The roots of towers are what unit rules make of the roots below. -/
theorem exists_tower_iff {base : Tree → Prop} {symbol : Symbol} :
    (∃ tree, Tower g base tree ∧ tree.symbol = symbol) ↔
      ∃ tree, base tree ∧ Search.LeadsTo g.unitParents tree.symbol symbol := by
  constructor
  · rintro ⟨tree, tower, rfl⟩
    induction tower with
    | base held => exact ⟨_, held, .refl⟩
    | step _ up ih =>
      obtain ⟨below, held, path⟩ := ih
      exact ⟨below, held, path.tail up⟩
  · rintro ⟨tree, held, path⟩
    induction path with
    | refl => exact ⟨tree, .base held, rfl⟩
    | tail _ up ih =>
      obtain ⟨child, tower, rfl⟩ := ih
      exact ⟨_, .step tower up, rfl⟩

/-! ## Symbols before unit rules -/

theorem mem_wordHeads (relaxed : g.violation? = none) {word : String} {symbol : Symbol} :
    symbol ∈ wordHeads g word ↔ ∃ tree, g.Grounded [word] tree ∧ tree.symbol = symbol := by
  have roots : wordHeads g word = (wordTrees g word).map Tree.symbol := by
    rw [wordHeads, wordTrees, List.map_map]
    rfl
  simp only [roots, List.mem_map, mem_wordTrees relaxed]

theorem mem_pairHeads {left right : Std.TreeSet Symbol} {symbol : Symbol} :
    symbol ∈ pairHeads g left right ↔ ∃ leftRoot rightRoot, left.contains leftRoot = true ∧
      right.contains rightRoot = true ∧
        ∃ rule ∈ g.rules, rule.body = [leftRoot, rightRoot] ∧ rule.head = symbol := by
  simp only [pairHeads, List.mem_flatMap, List.mem_map, mem_rulesProducing, Std.TreeSet.mem_toList,
    Std.TreeSet.contains_iff_mem]
  constructor
  · rintro ⟨leftRoot, hleft, rightRoot, hright, rule, ⟨mem, body⟩, head⟩
    exact ⟨leftRoot, rightRoot, hleft, hright, rule, mem, body, head⟩
  · rintro ⟨leftRoot, rightRoot, hleft, hright, rule, mem, body, head⟩
    exact ⟨leftRoot, hleft, rightRoot, hright, rule, ⟨mem, body⟩, head⟩

theorem mem_spanHeads (relaxed : g.violation? = none) {chart : Chart (Std.TreeSet Symbol)}
    (size : chart.size = words.length) (within : span.Within words.length)
    (long : span.isWord = false) (ready : chart.Ready (g.RightSymbols words) span)
    {symbol : Symbol} :
    symbol ∈ spanHeads g chart span ↔
      ∃ tree, g.Grounded (span.slice words) tree ∧ tree.symbol = symbol := by
  rw [exists_grounded_iff, spanHeads, List.mem_flatMap]
  constructor
  · rintro ⟨cut, cut_mem, h⟩
    obtain ⟨left, right, left_eq, right_eq, hleft, hright⟩ :=
      Chart.exists_parts size within ready cut_mem
    rw [left_eq, right_eq] at h
    obtain ⟨leftRoot, rightRoot, left_mem, right_mem, rule, mem, body, head⟩ := mem_pairHeads.mp h
    refine ⟨rule, mem, by simp [Rule.unaryNonterm?, body], head, ?_⟩
    rw [body, derivesAll_pair within]
    exact ⟨cut, cut_mem, ((hleft _).mp left_mem).2, ((hright _).mp right_mem).2⟩
  · rintro ⟨rule, mem, direct, head, h⟩
    have two := Span.one_lt_length_slice within long
    obtain ⟨leftRoot, rightRoot, body, left_kind, right_kind⟩ :=
      body_eq_of_derivesAll_long relaxed mem direct two h
    rw [body, derivesAll_pair within] at h
    obtain ⟨cut, cut_mem, left_derives, right_derives⟩ := h
    obtain ⟨left, right, left_eq, right_eq, hleft, hright⟩ :=
      Chart.exists_parts size within ready cut_mem
    refine ⟨cut, cut_mem, ?_⟩
    rw [left_eq, right_eq]
    exact mem_pairHeads.mpr ⟨leftRoot, rightRoot, (hleft _).mpr ⟨left_kind, left_derives⟩,
      (hright _).mpr ⟨right_kind, right_derives⟩, rule, mem, body, head⟩

/-! ## Charts -/

/-- Over right symbols of all shorter spans, the symbols of a span are right. -/
theorem rightSymbols_symbolsFor (relaxed : g.violation? = none)
    {chart : Chart (Std.TreeSet Symbol)} (size : chart.size = words.length)
    (within : span.Within words.length) (ready : chart.Ready (g.RightSymbols words) span) :
    g.RightSymbols words span (symbolsFor g words chart span) := by
  intro symbol
  have direct (base : Symbol) :
      (base ∈ if span.isWord then (words[span.start]?.map (wordHeads g)).getD []
        else spanHeads g chart span) ↔
      ∃ tree, g.Grounded (span.slice words) tree ∧ tree.symbol = base := by
    split
    · next word =>
      have here := List.getElem?_eq_getElem (Nat.lt_of_lt_of_le within.1 within.2)
      rw [here, Option.map_some, Option.getD_some, Span.slice_word word here, mem_wordHeads relaxed]
    · next long => exact mem_spanHeads relaxed size within (by simpa using long) ready
  rw [symbolsFor, contains_unitClosure]
  simp only [direct]
  constructor
  · rintro ⟨-, ⟨tree, grounded, rfl⟩, path⟩
    obtain ⟨top, tower, rfl⟩ := exists_tower_iff.mpr ⟨tree, grounded, path⟩
    obtain ⟨kind, parses⟩ := tower_grounded_iff.mp tower
    exact ⟨kind, top, parses⟩
  · rintro ⟨kind, top, parses⟩
    have root := parses.root
    subst root
    have tower := tower_grounded_iff.mpr ⟨kind, parses⟩
    obtain ⟨tree, grounded, path⟩ := exists_tower_iff.mp ⟨top, tower, rfl⟩
    exact ⟨tree.symbol, ⟨tree, grounded, rfl⟩, path⟩

theorem symbolChart_spec (relaxed : g.violation? = none) (words : List String) :
    (symbolChart g words).size = words.length ∧
      (symbolChart g words).Holds (g.RightSymbols words) (Span.all words.length) :=
  Chart.fill_spec fun _ _ size within ready => rightSymbols_symbolsFor relaxed size within ready

theorem accepts_iff (parser : Parser) (words : List String) :
    parser.accepts words = true ↔ parser.grammar.Derives parser.grammar.start words := by
  obtain ⟨size, holds⟩ := symbolChart_spec parser.relaxed words
  rw [← contains_start_iff size holds, accepts]
  cases (symbolChart parser.grammar words).get? ⟨0, words.length⟩ <;> rfl

end ChartParser.Parser
