import SecretBroker.LibEffect

/-! Two runs of computations, side by side. The computations start in related states, and are coupled if they end in
related states and with the same error or with related results. What a result depends on can be read off such a
coupling: if the results are equal, then it does not depend on what the states differ in. -/

namespace Eff

variable {σ τ ε α β γ δ : Type}

/-- The same error, or related results. -/
inductive Alike (Q : α → β → Prop) : Except ε α → Except ε β → Prop
  | ok {a : α} {b : β} (h : Q a b) : Alike Q (.ok a) (.ok b)
  | error (e : ε) : Alike Q (.error e) (.error e)

theorem alike_refl (x : Except ε α) : Alike Eq x x := by
  cases x with
  | error e => exact .error e
  | ok a => exact .ok rfl

theorem Alike.mapError {ε' : Type} {Q : α → β → Prop} {x : Except ε α} {y : Except ε β} (h : Alike Q x y) (f : ε → ε') :
    Alike Q (x.mapError f) (y.mapError f) := by
  cases h with
  | ok h => exact .ok h
  | error e => exact .error (f e)

theorem Alike.mono {Q P : α → β → Prop} {x : Except ε α} {y : Except ε β} (h : Alike Q x y) (hQP : ∀ a b, Q a b → P a b) :
    Alike P x y := by
  cases h with
  | ok h => exact .ok (hQP _ _ h)
  | error e => exact .error e

theorem Alike.check {P : γ → δ → Prop} (x : Except ε α) {f : α → Except ε γ} {g : α → Except ε δ}
    (hf : ∀ a, Alike P (f a) (g a)) : Alike P (x >>= f) (x >>= g) := by
  cases x with
  | ok a => exact hf a
  | error e => exact .error e

/-- From related states to related states, with alike results. -/
def Coupled (R : σ → τ → Prop) (Q : α → β → Prop) (m : Eff σ ε α) (n : Eff τ ε β) : Prop :=
  ∀ s t, R s t → Alike Q (m s).1 (n t).1 ∧ R (m s).2 (n t).2

section Rules

variable {R : σ → τ → Prop} {Q : α → β → Prop}

theorem coupled_pure {a : α} {b : β} (h : Q a b) : Coupled R Q (pure a : Eff σ ε α) (pure b : Eff τ ε β) :=
  fun _ _ hst => ⟨.ok h, hst⟩

theorem coupled_mono {P : α → β → Prop} {m : Eff σ ε α} {n : Eff τ ε β} (h : Coupled R Q m n)
    (hQP : ∀ a b, Q a b → P a b) : Coupled R P m n := fun s t hst => ⟨(h s t hst).1.mono hQP, (h s t hst).2⟩

theorem coupled_lift {x : Except ε α} {y : Except ε β} (h : Alike Q x y) : Coupled R Q (lift x) (lift y) := by
  intro s t hst
  rw [lift_apply, lift_apply]
  exact ⟨h, hst⟩

theorem coupled_check (x : Except ε α) : Coupled R Eq (lift x) (lift x) := coupled_lift (alike_refl x)

/-- The rest may use that the check has passed. -/
theorem coupled_passed (x : Except ε α) : Coupled R (fun a b => b = a ∧ x = .ok a) (lift x) (lift x) := by
  cases x with
  | error e => exact coupled_lift (.error e)
  | ok a => exact coupled_lift (.ok ⟨rfl, rfl⟩)

theorem coupled_read : Coupled R R (read : Eff σ ε σ) read := fun _ _ hst => ⟨.ok hst, hst⟩

theorem coupled_modify {f : σ → σ} {g : τ → τ} (h : ∀ s t, R s t → R (f s) (g t)) :
    Coupled R Eq (modify f : Eff σ ε Unit) (modify g) := fun s t hst => ⟨.ok rfl, h s t hst⟩

theorem coupled_mapError {ε' : Type} {m : Eff σ ε α} {n : Eff τ ε β} (h : Coupled R Q m n) (f : ε → ε') :
    Coupled R Q (mapError f m) (mapError f n) := by
  intro s t hst
  obtain ⟨halike, hafter⟩ := h s t hst
  rcases hm : m s with ⟨e | a, s'⟩
  all_goals
    rcases hn : n t with ⟨e' | b, t'⟩
    all_goals
      rw [hm, hn] at halike hafter
      cases halike
  · rw [mapError_of_error hm, mapError_of_error hn]
    exact ⟨.error (f e), hafter⟩
  · next hQ =>
      rw [mapError_of_ok hm, mapError_of_ok hn]
      exact ⟨.ok hQ, hafter⟩

theorem coupled_bind {m : Eff σ ε α} {n : Eff τ ε β} {f : α → Eff σ ε γ} {g : β → Eff τ ε δ} {P : γ → δ → Prop}
    (hm : Coupled R Q m n) (hf : ∀ a b, Q a b → Coupled R P (f a) (g b)) : Coupled R P (m >>= f) (n >>= g) := by
  intro s t hst
  obtain ⟨halike, hafter⟩ := hm s t hst
  rcases hms : m s with ⟨e | a, s'⟩
  all_goals
    rcases hnt : n t with ⟨e' | b, t'⟩
    all_goals
      rw [hms, hnt] at halike hafter
      cases halike
  · rw [bind_of_error hms, bind_of_error hnt]
    exact ⟨.error e, hafter⟩
  · next hQ =>
      rw [bind_of_ok hms, bind_of_ok hnt]
      exact hf a b hQ s' t' hafter

/-- The rest is coupled for each result that the first parts agree on. -/
theorem coupled_bind_eq {m : Eff σ ε α} {n : Eff τ ε α} {f : α → Eff σ ε γ} {g : α → Eff τ ε δ} {P : γ → δ → Prop}
    (hm : Coupled R Eq m n) (hf : ∀ a, Coupled R P (f a) (g a)) : Coupled R P (m >>= f) (n >>= g) := by
  refine coupled_bind hm fun a b hab => ?_
  subst hab
  exact hf a

theorem coupled_ite {c : Prop} [Decidable c] {m m' : Eff σ ε α} {n n' : Eff τ ε β} (h : Coupled R Q m n)
    (h' : Coupled R Q m' n') : Coupled R Q (if c then m else m') (if c then n else n') := by
  split_ifs
  · exact h
  · exact h'

end Rules

end Eff
