import ChartParser.NormalForm.Supply
import Std.Data.String.ToNat

/-! # The supply of helpers is fresh

A table has fewer texts than there are numbers in a search, so one of the numbers is free. Free
numbers are drawn in ascending order, and no helper is drawn twice.
-/

namespace ChartParser

theorem text_helperSymbol_inj {i j : Nat} (h : (helperSymbol i).text = (helperSymbol j).text) :
    i = j := by
  have names : "_H" ++ toString i = "_H" ++ toString j := (String.append_right_inj "$").mp h
  exact Nat.repr_inj.mp ((String.append_right_inj "_H").mp names)

theorem helperSymbol_inj {i j : Nat} (h : helperSymbol i = helperSymbol j) : i = j :=
  text_helperSymbol_inj (congrArg Symbol.text h)

namespace SymbolTable

variable {table : SymbolTable}

/-- The table does not know the text of the helper with number `i`. -/
def Free (table : SymbolTable) (i : Nat) : Prop := table.contains (helperSymbol i) = false

/-! ## The next free number -/

theorem nextFreeWithin_spec (steps i : Nat) :
    i ≤ table.nextFreeWithin steps i ∧
      (∀ j, i ≤ j → j < table.nextFreeWithin steps i → ¬ table.Free j) ∧
      (table.Free (table.nextFreeWithin steps i) ∨ table.nextFreeWithin steps i = i + steps) := by
  induction steps generalizing i with
  | zero => exact ⟨Nat.le_refl i, by rw [nextFreeWithin]; omega, .inr rfl⟩
  | succ steps ih =>
    unfold nextFreeWithin
    split
    · next taken =>
      obtain ⟨lower, skipped, found⟩ := ih (i + 1)
      refine ⟨by omega, fun j first last => ?_, ?_⟩
      · by_cases here : j = i
        · subst here
          simp [Free, taken]
        · exact skipped j (by omega) last
      · rcases found with found | found
        · exact .inl found
        · exact .inr (by omega)
    · next free =>
      refine ⟨Nat.le_refl i, by omega, .inl ?_⟩
      simpa [Free] using free

/-- A table of `n` texts leaves one of `n + 1` numbers free. -/
theorem exists_free (table : SymbolTable) (i : Nat) :
    ∃ j, i ≤ j ∧ j ≤ i + table.size ∧ table.Free j := by
  apply Classical.byContradiction
  intro none
  have taken (j : Nat) (first : i ≤ j) (last : j ≤ i + table.size) :
      table.contains (helperSymbol j) = true := by
    rw [← Bool.not_eq_false]
    exact fun free => none ⟨j, first, last, free⟩
  have distinct : ((List.range' i (table.size + 1)).map fun j => (helperSymbol j).text).Nodup := by
    rw [List.Nodup, List.pairwise_map]
    apply List.Pairwise.imp _ List.pairwise_lt_range'
    exact fun less same => Nat.ne_of_lt less (text_helperSymbol_inj same)
  have subset : (List.range' i (table.size + 1)).map (fun j => (helperSymbol j).text) ⊆
      table.byText.keys := by
    intro text mem
    obtain ⟨j, range, rfl⟩ := List.mem_map.mp mem
    rw [List.mem_range'_1] at range
    exact Std.TreeMap.mem_keys.mpr (taken j range.1 (by omega))
  -- The table would have more texts than its size.
  have few := List.Nodup.length_le_of_subset distinct subset
  rw [List.length_map, List.length_range', Std.TreeMap.length_keys] at few
  simp only [size] at few
  omega

theorem nextFree_spec (i : Nat) :
    i ≤ table.nextFree i ∧ table.Free (table.nextFree i) ∧
      ∀ j, i ≤ j → j < table.nextFree i → ¬ table.Free j := by
  obtain ⟨lower, skipped, found⟩ := table.nextFreeWithin_spec table.size i
  refine ⟨lower, ?_, skipped⟩
  rcases found with found | found
  · exact found
  · obtain ⟨j, first, last, free⟩ := table.exists_free i
    have here : j = table.nextFree i := by
      apply Classical.byContradiction
      intro apart
      exact skipped j first (by rw [nextFree] at apart; omega) free
    exact here ▸ free

/-! ## All free numbers -/

theorem le_freeNumber (i n : Nat) : i ≤ table.freeNumber i n := by
  induction n generalizing i with
  | zero => exact (nextFree_spec i).1
  | succ n ih => exact Nat.le_trans (Nat.le_succ_of_le (nextFree_spec i).1) (ih _)

theorem free_freeNumber (i n : Nat) : table.Free (table.freeNumber i n) := by
  induction n generalizing i with
  | zero => exact (nextFree_spec i).2.1
  | succ n ih => exact ih _

theorem freeNumber_lt_succ (i n : Nat) : table.freeNumber i n < table.freeNumber i (n + 1) := by
  induction n generalizing i with
  | zero => exact le_freeNumber (table.nextFree i + 1) 0
  | succ n ih => exact ih _

theorem freeNumber_inj {i m n : Nat} (h : table.freeNumber i m = table.freeNumber i n) : m = n := by
  have ascending {m n : Nat} (less : m < n) : table.freeNumber i m < table.freeNumber i n := by
    induction n with
    | zero => omega
    | succ n ih =>
      rcases Nat.lt_succ_iff_lt_or_eq.mp less with less | rfl
      · exact Nat.lt_trans (ih less) (freeNumber_lt_succ i n)
      · exact freeNumber_lt_succ i m
  rcases Nat.lt_trichotomy m n with less | same | more
  · exact absurd h (Nat.ne_of_lt (ascending less))
  · exact same
  · exact absurd h (Nat.ne_of_gt (ascending more))

theorem freeNumbers_eq_map (i n : Nat) :
    table.freeNumbers i n = (List.range n).map (table.freeNumber i) := by
  induction n generalizing i with
  | zero => rfl
  | succ n ih =>
    rw [freeNumbers, ih, List.range_succ_eq_map, List.map_cons, List.map_map]
    rfl

/-- The numbers that are drawn are the free ones up to the last of them. -/
theorem freeNumbers_spec {i n j : Nat} :
    i ≤ (table.freeNumbers i n).getLast?.elim i (· + 1) ∧
      (j ∈ table.freeNumbers i n ↔
        table.Free j ∧ i ≤ j ∧ j < (table.freeNumbers i n).getLast?.elim i (· + 1)) := by
  induction n generalizing i with
  | zero =>
    simp only [freeNumbers, List.getLast?_nil, Option.elim_none, List.not_mem_nil, false_iff]
    omega
  | succ n ih =>
    obtain ⟨lower, free, skipped⟩ := table.nextFree_spec i
    obtain ⟨later, mem_later⟩ := ih (i := table.nextFree i + 1)
    have last : (table.freeNumbers i (n + 1)).getLast?.elim i (· + 1) =
        (table.freeNumbers (table.nextFree i + 1) n).getLast?.elim (table.nextFree i + 1)
          (· + 1) := by
      rw [freeNumbers, List.getLast?_cons]
      cases (table.freeNumbers (table.nextFree i + 1) n).getLast? <;> rfl
    rw [last, freeNumbers, List.mem_cons, mem_later]
    refine ⟨by omega, ?_, ?_⟩
    · rintro (rfl | ⟨known, above, below⟩)
      · exact ⟨free, by omega, by omega⟩
      · exact ⟨known, by omega, below⟩
    · rintro ⟨known, above, below⟩
      rcases Nat.lt_trichotomy j (table.nextFree i) with less | same | more
      · exact absurd known (skipped j above less)
      · exact .inl same
      · exact .inr ⟨known, more, below⟩

end SymbolTable

end ChartParser
