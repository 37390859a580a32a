import ChartParser.Tree.Basic

/-! # The order of trees is lawful -/

namespace ChartParser.Tree

mutual

theorem order_swap : ∀ a b : Tree, order a b = (order b a).swap
  | node s children, node t others => by
    rw [order, order, Ordering.swap_then, ← Std.OrientedCmp.eq_swap, ← orders_swap children others]

theorem orders_swap : ∀ a b : List Tree, orders a b = (orders b a).swap
  | [], [] => rfl
  | [], _ :: _ => rfl
  | _ :: _, [] => rfl
  | tree :: more, other :: others => by
    rw [orders, orders, Ordering.swap_then, ← order_swap tree other, ← orders_swap more others]

end

mutual

theorem eq_of_order : ∀ {a b : Tree}, order a b = .eq → a = b
  | node s children, node t others, h => by
    rw [order, Ordering.then_eq_eq, Std.compare_eq_iff_eq] at h
    rw [h.1, eq_of_orders h.2]

theorem eq_of_orders : ∀ {a b : List Tree}, orders a b = .eq → a = b
  | [], [], _ => rfl
  | tree :: more, other :: others, h => by
    rw [orders, Ordering.then_eq_eq] at h
    rw [eq_of_order h.1, eq_of_orders h.2]

end

mutual

theorem order_lt_trans : ∀ {a b c : Tree}, order a b = .lt → order b c = .lt → order a c = .lt
  | node s as, node t bs, node u cs, hab, hbc => by
    rw [order, Ordering.then_eq_lt] at hab hbc ⊢
    rcases hab with hab | ⟨hst, hab⟩ <;> rcases hbc with hbc | ⟨htu, hbc⟩
    · exact .inl (Std.TransCmp.lt_trans hab hbc)
    · exact .inl (Std.compare_eq_iff_eq.mp htu ▸ hab)
    · exact .inl (Std.compare_eq_iff_eq.mp hst ▸ hbc)
    · exact .inr ⟨Std.TransCmp.eq_trans hst htu, orders_lt_trans hab hbc⟩

theorem orders_lt_trans : ∀ {a b c : List Tree},
    orders a b = .lt → orders b c = .lt → orders a c = .lt
  | [], _, [], hab, hbc => by
    rw [orders_swap, hab] at hbc
    nomatch hbc
  | [], _, _ :: _, _, _ => rfl
  | x :: xs, y :: ys, [], _, hbc => nomatch hbc
  | x :: xs, y :: ys, z :: zs, hab, hbc => by
    rw [orders, Ordering.then_eq_lt] at hab hbc ⊢
    rcases hab with hab | ⟨hxy, hab⟩ <;> rcases hbc with hbc | ⟨hyz, hbc⟩
    · exact .inl (order_lt_trans hab hbc)
    · exact .inl (eq_of_order hyz ▸ hab)
    · exact .inl (eq_of_order hxy ▸ hbc)
    · refine .inr ⟨?_, orders_lt_trans hab hbc⟩
      rw [eq_of_order hxy, hyz]

end

instance : Std.OrientedOrd Tree := ⟨order_swap _ _⟩

instance : Std.TransOrd Tree where
  isLE_trans {a b c} hab hbc := by
    change (order a b).isLE = true at hab
    change (order b c).isLE = true at hbc
    change (order a c).isLE = true
    cases h : order a b with
    | eq => rwa [eq_of_order h]
    | gt => simp [h] at hab
    | lt =>
      cases h' : order b c with
      | eq => rw [← eq_of_order h', h]; rfl
      | gt => simp [h'] at hbc
      | lt => rw [order_lt_trans h h']; rfl

instance : Std.LawfulEqOrd Tree where
  eq_of_compare := eq_of_order

/-! ## Lists in ascending order -/

theorem nodup_of_ascending {trees : List Tree}
    (ascending : trees.Pairwise fun a b => compare a b = .lt) : trees.Nodup := by
  apply ascending.imp
  rintro a b less rfl
  simp [Std.ReflCmp.compare_self] at less

theorem eq_of_ascending {trees others : List Tree}
    (ascending : trees.Pairwise fun a b => compare a b = .lt)
    (ascending' : others.Pairwise fun a b => compare a b = .lt)
    (same : ∀ tree, tree ∈ trees ↔ tree ∈ others) : trees = others := by
  have perm := (List.perm_ext_iff_of_nodup (nodup_of_ascending ascending)
    (nodup_of_ascending ascending')).mpr same
  apply perm.eq_of_pairwise _ ascending ascending'
  intro a b _ _ less more
  exact absurd more (Std.OrientedCmp.not_lt_of_lt less)

end ChartParser.Tree
