import ChartParser.Proofs.Text.Bytes
import ChartParser.Proofs.Tree.Order

/-! # What the order of trees says

A tree precedes another one by its root symbol or, with the same symbol, by its children. This is
the comparison of trees, read as a relation.
-/

namespace ChartParser

open Text

/-- Terminals come first. Symbols of one kind are ordered by the bytes of their names. -/
inductive Symbol.Precedes : Symbol → Symbol → Prop
  | kind {name other : String} : Precedes (.term name) (.nonterm other)
  | term {name other : String} : bytes name < bytes other → Precedes (.term name) (.term other)
  | nonterm {name other : String} : bytes name < bytes other →
      Precedes (.nonterm name) (.nonterm other)

theorem Symbol.compare_eq_lt_iff {s t : Symbol} : compare s t = .lt ↔ s.Precedes t := by
  cases s with
  | term name =>
    cases t with
    | term other =>
      change compare name other = .lt ↔ _
      rw [Text.compare_eq_lt_iff]
      constructor
      · exact .term
      · intro precedes
        cases precedes with
        | term less => exact less
    | nonterm other => exact ⟨fun _ => .kind, fun _ => rfl⟩
  | nonterm name =>
    cases t with
    | term other => exact ⟨nofun, nofun⟩
    | nonterm other =>
      change compare name other = .lt ↔ _
      rw [Text.compare_eq_lt_iff]
      constructor
      · exact .nonterm
      · intro precedes
        cases precedes with
        | nonterm less => exact less

namespace Tree

/-- The root symbol decides, and then the first children that differ. Where the children of one node
begin with all those of the other, fewer children come first. -/
inductive Precedes : Tree → Tree → Prop
  | root {s t : Symbol} {trees others : List Tree} : s.Precedes t →
      Precedes (node s trees) (node t others)
  | children {s : Symbol} {trees others : List Tree} : List.Lex Precedes trees others →
      Precedes (node s trees) (node s others)

variable {a b : Tree}

theorem compare_eq_eq_iff : compare a b = .eq ↔ a = b := Std.compare_eq_iff_eq

mutual

theorem order_eq_lt_iff : ∀ {a b : Tree}, order a b = .lt ↔ a.Precedes b
  | node s children, node t others => by
    rw [order, Ordering.then_eq_lt, Symbol.compare_eq_lt_iff, Std.compare_eq_iff_eq,
      orders_eq_lt_iff]
    constructor
    · rintro (less | ⟨rfl, less⟩)
      · exact .root less
      · exact .children less
    · rintro (less | less)
      · exact .inl less
      · exact .inr ⟨rfl, less⟩

theorem orders_eq_lt_iff : ∀ {trees others : List Tree},
    orders trees others = .lt ↔ List.Lex Precedes trees others
  | [], [] => by simp [orders]
  | [], _ :: _ => ⟨fun _ => .nil, fun _ => rfl⟩
  | _ :: _, [] => ⟨nofun, nofun⟩
  | tree :: more, other :: others => by
    have same : order tree other = .eq ↔ tree = other := compare_eq_eq_iff
    rw [orders, Ordering.then_eq_lt, order_eq_lt_iff, orders_eq_lt_iff, same,
      List.cons_lex_cons_iff]

end

theorem compare_eq_lt_iff : compare a b = .lt ↔ a.Precedes b := order_eq_lt_iff

theorem compare_eq_gt_iff : compare a b = .gt ↔ b.Precedes a := by
  rw [Std.OrientedCmp.gt_iff_lt, compare_eq_lt_iff]

end Tree

end ChartParser
