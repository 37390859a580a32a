import Mathlib.Data.List.Forall2
import Mathlib.Data.List.Nodup
import Mathlib.Logic.Function.Basic

/-! # Lists that agree position by position -/

namespace ChartParser

variable {α β γ : Type} {R : α → β → Prop} {l : List α} {l' : List β}

theorem exists_right_of_forall₂ (h : List.Forall₂ R l l') {a : α} (mem : a ∈ l) :
    ∃ b ∈ l', R a b := by
  induction h with
  | nil => nomatch mem
  | cons first _ ih =>
    rcases List.mem_cons.mp mem with rfl | mem
    · exact ⟨_, .head _, first⟩
    · obtain ⟨b, b_mem, hb⟩ := ih mem
      exact ⟨b, .tail _ b_mem, hb⟩

theorem exists_left_of_forall₂ (h : List.Forall₂ R l l') {b : β} (mem : b ∈ l') :
    ∃ a ∈ l, R a b :=
  exists_right_of_forall₂ h.flip mem

theorem map_eq_of_forall₂ {f : β → α} (h : List.Forall₂ R l l')
    (inverse : ∀ a, ∀ b ∈ l', R a b → f b = a) : l'.map f = l := by
  induction h with
  | nil => rfl
  | @cons a b _ _ first _ ih =>
    rw [List.map_cons, inverse a b (.head _) first,
      ih fun other other' mem => inverse other other' (.tail _ mem)]

/-- Two elements on the right have partners on the left. If `f` tells the marked elements on the
left apart, it tells the positions of marked partners apart. -/
theorem exists_partners_of_forall₂ {p : α → Bool} {f : α → γ}
    (h : List.Forall₂ R l l') (distinct : ((l.filter p).map f).Nodup) {b b' : β} (mem : b ∈ l')
    (mem' : b' ∈ l') : ∃ a ∈ l, ∃ a' ∈ l, R a b ∧ R a' b' ∧
      (p a = true → p a' = true → f a = f a' → b = b') := by
  induction h with
  | nil => nomatch mem
  | @cons a c l l' first rest ih =>
    have apart (other : α) (other_mem : other ∈ l) (mark : p a = true)
        (other_mark : p other = true) : f a ≠ f other := by
      intro same
      rw [List.filter_cons_of_pos mark, List.map_cons, List.nodup_cons] at distinct
      exact distinct.1 (same ▸ List.mem_map_of_mem (List.mem_filter.mpr ⟨other_mem, other_mark⟩))
    rcases List.mem_cons.mp mem with rfl | later
    · rcases List.mem_cons.mp mem' with rfl | later'
      · exact ⟨a, .head _, a, .head _, first, first, fun _ _ _ => rfl⟩
      · obtain ⟨a', a'_mem, related⟩ := exists_left_of_forall₂ rest later'
        refine ⟨a, .head _, a', .tail _ a'_mem, first, related, fun mark mark' same => ?_⟩
        exact absurd same (apart a' a'_mem mark mark')
    · rcases List.mem_cons.mp mem' with rfl | later'
      · obtain ⟨a', a'_mem, related⟩ := exists_left_of_forall₂ rest later
        refine ⟨a', .tail _ a'_mem, a, .head _, related, first, fun mark mark' same => ?_⟩
        exact absurd same.symm (apart a' a'_mem mark' mark)
      · have others : ((l.filter p).map f).Nodup :=
          distinct.sublist (((List.sublist_cons_self a l).filter p).map f)
        obtain ⟨one, one_mem, other, other_mem, parts⟩ := ih others later later'
        exact ⟨one, .tail _ one_mem, other, .tail _ other_mem, parts⟩

/-! ## Lists that agree in some order -/

theorem exists_pairs_of_perm {f : α → γ} {f' : β → γ} (perm : (l.map f).Perm (l'.map f')) :
    ∃ pairs : List (α × β), pairs.map Prod.fst = l ∧ (pairs.map Prod.snd).Perm l' ∧
      ∀ pair ∈ pairs, f pair.1 = f' pair.2 := by
  induction l generalizing l' with
  | nil =>
    rw [List.map_nil, List.nil_perm, List.map_eq_nil_iff] at perm
    subst perm
    exact ⟨[], rfl, .refl _, by simp⟩
  | cons a l ih =>
    obtain ⟨b, mem, same⟩ := List.mem_map.mp (perm.subset (.head _))
    obtain ⟨before, after, rfl⟩ := List.append_of_mem mem
    have others : (l.map f).Perm ((before ++ after).map f') := by
      rw [List.map_cons, List.map_append, List.map_cons, same] at perm
      rw [List.map_append]
      exact (perm.trans List.perm_middle).cons_inv
    obtain ⟨pairs, firsts, seconds, each⟩ := ih others
    refine ⟨(a, b) :: pairs, by rw [List.map_cons, firsts], ?_, ?_⟩
    · exact (seconds.cons b).trans List.perm_middle.symm
    · exact List.forall_mem_cons.mpr ⟨same.symm, each⟩

/-! ## Maps from one list to another -/

/-- A list without repetitions is taken to any list of the same length, and nothing else changes. -/
theorem exists_map_eq [DecidableEq α] {l l' : List α} (distinct : l.Nodup)
    (lengths : l.length = l'.length) : ∃ f : α → α, l.map f = l' ∧ ∀ a ∉ l, f a = a := by
  induction l generalizing l' with
  | nil => exact ⟨id, (List.length_eq_zero_iff.mp lengths.symm).symm, fun _ _ => rfl⟩
  | cons a l ih =>
    obtain ⟨new, distinct⟩ := List.nodup_cons.mp distinct
    obtain ⟨b, l', rfl⟩ := List.exists_cons_of_length_eq_add_one lengths.symm
    obtain ⟨f, taken, fixed⟩ := ih distinct (Nat.succ.inj lengths)
    refine ⟨Function.update f a b, ?_, fun other absent => ?_⟩
    · rw [List.map_cons, Function.update_self, ← taken]
      congr 1
      refine List.map_congr_left fun other mem => Function.update_of_ne ?_ _ _
      exact fun same => new (same ▸ mem)
    · rw [List.mem_cons, not_or] at absent
      rw [Function.update_of_ne absent.1, fixed other absent.2]

theorem map_eq_of_map_flatMap_eq {parts : γ → List α} {parts' : γ → List β} {f : α → β}
    {l : List γ} (lengths : ∀ c ∈ l, (parts c).length = (parts' c).length)
    (same : (l.flatMap parts).map f = l.flatMap parts') : ∀ c ∈ l, (parts c).map f = parts' c := by
  induction l with
  | nil => simp
  | cons c l ih =>
    obtain ⟨length, lengths⟩ := List.forall_mem_cons.mp lengths
    rw [List.flatMap_cons, List.flatMap_cons, List.map_append] at same
    obtain ⟨first, others⟩ := List.append_inj same (by rw [List.length_map, length])
    exact List.forall_mem_cons.mpr ⟨first, ih lengths others⟩

end ChartParser
