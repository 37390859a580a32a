/-! # Counting in lists -/

namespace ChartParser

/-- A stronger property that some element loses holds of fewer elements. -/
theorem countP_lt_countP {α : Type} {p q : α → Bool} {l : List α} (imp : ∀ x ∈ l, p x → q x)
    {a : α} (mem : a ∈ l) (hq : q a = true) (hp : p a = false) : l.countP p < l.countP q := by
  obtain ⟨before, after, rfl⟩ := List.append_of_mem mem
  have first : before.countP p ≤ before.countP q :=
    List.countP_mono_left fun x h => imp x (List.mem_append_left _ h)
  have second : after.countP p ≤ after.countP q :=
    List.countP_mono_left fun x h => imp x (List.mem_append_right _ (.tail a h))
  simp only [List.countP_append, List.countP_cons, hq, hp]
  simp
  omega

end ChartParser
