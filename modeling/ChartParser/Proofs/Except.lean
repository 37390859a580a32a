/-! # Steps that can fail -/

namespace ChartParser

variable {ε α β : Type}

theorem bind_eq_ok {x : Except ε α} {f : α → Except ε β} {b : β} :
    x >>= f = .ok b ↔ ∃ a, x = .ok a ∧ f a = .ok b := by
  cases x with
  | error error =>
    constructor
    · intro h
      nomatch h
    · rintro ⟨a, h, -⟩
      nomatch h
  | ok a =>
    constructor
    · exact fun h => ⟨a, rfl, h⟩
    · rintro ⟨a', h, h'⟩
      cases h
      exact h'

theorem mapError_eq_ok {ε' : Type} {x : Except ε α} {f : ε → ε'} {a : α} :
    x.mapError f = .ok a ↔ x = .ok a := by
  cases x with
  | error error =>
    constructor
    · intro h
      nomatch h
    · intro h
      nomatch h
  | ok b =>
    constructor
    · intro h
      cases h
      rfl
    · intro h
      cases h
      rfl

theorem bind_eq_error {x : Except ε α} {f : α → Except ε β} {error : ε} :
    x >>= f = .error error ↔ x = .error error ∨ ∃ a, x = .ok a ∧ f a = .error error := by
  cases x with
  | error first => simp [bind, Except.bind]
  | ok a => simp [bind, Except.bind]

theorem mapError_eq_error {ε' : Type} {x : Except ε α} {f : ε → ε'} {error : ε'} :
    x.mapError f = .error error ↔ ∃ first, x = .error first ∧ f first = error := by
  cases x with
  | error first =>
    constructor
    · intro h
      exact ⟨first, rfl, Except.error.inj h⟩
    · rintro ⟨_, h, rfl⟩
      cases h
      rfl
  | ok a =>
    constructor
    · intro h
      nomatch h
    · rintro ⟨_, h, -⟩
      nomatch h

theorem map_eq_error {x : Except ε α} {f : α → β} {error : ε} :
    x.map f = .error error ↔ x = .error error := by
  cases x with
  | error first => simp [Except.map]
  | ok a => simp [Except.map]

theorem foldlM_flatMap {m : Type → Type} [Monad m] [LawfulMonad m] {γ : Type} (f : α → List β)
    (step : γ → β → m γ) (l : List α) (start : γ) :
    (l.flatMap f).foldlM step start = l.foldlM (fun acc a => (f a).foldlM step acc) start := by
  induction l generalizing start with
  | nil => rfl
  | cons a l ih =>
    rw [List.flatMap_cons, List.foldlM_append, List.foldlM_cons]
    simp only [ih]

/-- A fold whose steps succeed only as plain steps succeeds only as the plain fold. -/
theorem eq_foldl_of_foldlM {γ : Type} {step : γ → β → Except ε γ} {plain : γ → β → γ}
    (hstep : ∀ acc b next, step acc b = .ok next → next = plain acc b) {l : List β}
    {start final : γ} (h : l.foldlM step start = .ok final) : final = l.foldl plain start := by
  induction l generalizing start with
  | nil => exact (Except.ok.inj h).symm
  | cons b l ih =>
    rw [List.foldlM_cons] at h
    obtain ⟨next, hnext, h⟩ := bind_eq_ok.mp h
    rw [List.foldl_cons, ← hstep start b next hnext]
    exact ih h

/-- A fold fails at its first step that fails, with the error of that step. -/
theorem foldlM_eq_error_iff {γ : Type} {step : γ → β → Except ε γ} {l : List β} {start : γ}
    {error : ε} : l.foldlM step start = .error error ↔ ∃ before b after acc,
      l = before ++ b :: after ∧ before.foldlM step start = .ok acc ∧
        step acc b = .error error := by
  constructor
  · intro failed
    induction l generalizing start with
    | nil => nomatch failed
    | cons b l ih =>
      rw [List.foldlM_cons] at failed
      rcases bind_eq_error.mp failed with here | ⟨next, first, later⟩
      · exact ⟨[], b, l, start, rfl, rfl, here⟩
      · obtain ⟨before, c, after, acc, rfl, run, there⟩ := ih later
        refine ⟨b :: before, c, after, acc, rfl, ?_, there⟩
        rw [List.foldlM_cons, first]
        exact run
  · rintro ⟨before, b, after, acc, rfl, run, here⟩
    rw [List.foldlM_append]
    refine bind_eq_error.mpr (.inr ⟨acc, run, ?_⟩)
    rw [List.foldlM_cons, here]
    rfl

/-- Steps that never fail make a fold that does not fail. -/
theorem exists_foldlM_eq_ok {γ : Type} {step : γ → β → Except ε γ}
    (h : ∀ acc b, ∃ next, step acc b = .ok next) (l : List β) (start : γ) :
    ∃ final, l.foldlM step start = .ok final := by
  induction l generalizing start with
  | nil => exact ⟨start, rfl⟩
  | cons b l ih =>
    obtain ⟨next, step_eq⟩ := h start b
    obtain ⟨final, fold_eq⟩ := ih next
    refine ⟨final, ?_⟩
    rw [List.foldlM_cons, step_eq]
    exact fold_eq

/-! ## Both outcomes -/

/-- What holds of the result of a step, and what holds of its error. -/
def Ends (good : α → Prop) (bad : ε → Prop) : Except ε α → Prop
  | .ok a => good a
  | .error error => bad error

theorem ends_bind {mid : α → Prop} {good : β → Prop} {bad : ε → Prop} {x : Except ε α}
    {f : α → Except ε β} (first : Ends mid bad x) (second : ∀ a, mid a → Ends good bad (f a)) :
    Ends good bad (x >>= f) := by
  cases x with
  | error error => exact first
  | ok a => exact second a first

/-- What every step keeps, a fold keeps, and it fails only as one of the steps does. -/
theorem ends_foldlM {γ : Type} {good : γ → Prop} {bad : ε → Prop} {step : γ → β → Except ε γ}
    {l : List β} (h : ∀ acc, good acc → ∀ b ∈ l, Ends good bad (step acc b)) {start : γ}
    (hstart : good start) : Ends good bad (l.foldlM step start) := by
  induction l generalizing start with
  | nil => exact hstart
  | cons b l ih =>
    rw [List.foldlM_cons]
    apply ends_bind (h start hstart b (.head l))
    intro next hnext
    exact ih (fun acc hacc other mem => h acc hacc other (.tail b mem)) hnext

end ChartParser
