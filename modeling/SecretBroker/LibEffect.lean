import Mathlib

/-! Computations that may fail and keep the state they have reached when they fail: the shape of a
request handler that returns early after some of its writes. The rules below say how a relation
between the state before and the state after is carried through a program, whatever its result. -/

/-- A computation over states `σ` that fails with an `ε` or returns an `α`. -/
def Eff (σ ε α : Type) := σ → Except ε α × σ

namespace Eff

variable {σ ε α β : Type}

protected def pure (a : α) : Eff σ ε α := fun s => (.ok a, s)

protected def bind (m : Eff σ ε α) (f : α → Eff σ ε β) : Eff σ ε β := fun s =>
  match m s with
  | (.ok a, s') => f a s'
  | (.error e, s') => (.error e, s')

instance : Monad (Eff σ ε) where
  pure := Eff.pure
  bind := Eff.bind

/-- Fail here. -/
def fail (e : ε) : Eff σ ε α := fun s => (.error e, s)

/-- A check or a computation that does not touch the state. -/
def lift : Except ε α → Eff σ ε α
  | .ok a => Eff.pure a
  | .error e => fail e

/-- Read the state. -/
def read : Eff σ ε σ := fun s => (.ok s, s)

/-- Change the state. -/
def modify (f : σ → σ) : Eff σ ε Unit := fun s => (.ok (), f s)

/-- The same computation under another error type. -/
def mapError {ε' : Type} (f : ε → ε') (m : Eff σ ε α) : Eff σ ε' α := fun s =>
  match m s with
  | (.ok a, s') => (.ok a, s')
  | (.error e, s') => (.error (f e), s')

@[simp] theorem pure_apply (a : α) (s : σ) : (pure a : Eff σ ε α) s = (.ok a, s) := rfl

@[simp] theorem fail_apply (e : ε) (s : σ) : (fail e : Eff σ ε α) s = (.error e, s) := rfl

@[simp] theorem read_apply (s : σ) : (read : Eff σ ε σ) s = (.ok s, s) := rfl

@[simp] theorem modify_apply (f : σ → σ) (s : σ) : (modify f : Eff σ ε Unit) s = (.ok (), f s) := rfl

@[simp] theorem lift_apply (x : Except ε α) (s : σ) : (lift x : Eff σ ε α) s = (x, s) := by
  cases x <;> rfl

@[simp] theorem lift_snd (x : Except ε α) (s : σ) : (lift x s : Except ε α × σ).2 = s := by
  rw [lift_apply]

theorem bind_of_ok {m : Eff σ ε α} {f : α → Eff σ ε β} {s s' : σ} {a : α} (h : m s = (.ok a, s')) :
    (m >>= f) s = f a s' := by
  change Eff.bind m f s = _
  rw [Eff.bind, h]

theorem bind_of_error {m : Eff σ ε α} {f : α → Eff σ ε β} {s s' : σ} {e : ε} (h : m s = (.error e, s')) :
    (m >>= f) s = (.error e, s') := by
  change Eff.bind m f s = _
  rw [Eff.bind, h]

instance : LawfulMonad (Eff σ ε) := by
  refine LawfulMonad.mk' _ ?_ ?_ ?_
  · intro α m
    funext s
    change Eff.bind m Eff.pure s = m s
    rcases h : m s with ⟨e | a, s'⟩
    · rw [Eff.bind, h]
    · rw [Eff.bind, h]
      rfl
  · intro α β a f
    rfl
  · intro α β γ m f g
    funext s
    rcases h : m s with ⟨e | a, s'⟩
    · rw [bind_of_error h, bind_of_error (bind_of_error h)]
    · rw [bind_of_ok h]
      change Eff.bind (m >>= f) g s = Eff.bind (f a) g s'
      rw [Eff.bind, Eff.bind, bind_of_ok h]

theorem lift_ok_bind (a : α) (f : α → Eff σ ε β) : (lift (.ok a) >>= f : Eff σ ε β) = f a := rfl

/-- Checks in a row are one check. -/
theorem lift_bind (x : Except ε α) (f : α → Except ε β) :
    (lift (x >>= f) : Eff σ ε β) = lift x >>= fun a => lift (f a) := by
  cases x <;> rfl

/-- A sequence returns exactly when both parts do. -/
theorem bind_eq_ok {m : Eff σ ε α} {f : α → Eff σ ε β} {s t : σ} {b : β} :
    (m >>= f) s = (.ok b, t) ↔ ∃ a s', m s = (.ok a, s') ∧ f a s' = (.ok b, t) := by
  constructor
  · intro h
    rcases hm : m s with ⟨_ | a, s'⟩
    · rw [bind_of_error hm] at h
      cases h
    · rw [bind_of_ok hm] at h
      exact ⟨a, s', rfl, h⟩
  · rintro ⟨a, s', hm, hf⟩
    rw [bind_of_ok hm, hf]

theorem bind_fst_eq_ok {m : Eff σ ε α} {f : α → Eff σ ε β} {s : σ} {b : β} (h : ((m >>= f) s).1 = .ok b) :
    ∃ a s', (m s).1 = .ok a ∧ (f a s').1 = .ok b := by
  obtain ⟨a, s', hm, hf⟩ := bind_eq_ok.mp (Prod.ext h rfl : (m >>= f) s = (.ok b, ((m >>= f) s).2))
  exact ⟨a, s', congrArg Prod.fst hm, congrArg Prod.fst hf⟩

/-- A sequence fails where one of its parts does. -/
theorem bind_eq_error {m : Eff σ ε α} {f : α → Eff σ ε β} {s t : σ} {e : ε} :
    (m >>= f) s = (.error e, t) ↔ m s = (.error e, t) ∨ ∃ a s', m s = (.ok a, s') ∧ f a s' = (.error e, t) := by
  rcases hm : m s with ⟨e' | a, s'⟩
  · simp [bind_of_error hm]
  · simp [bind_of_ok hm]

theorem lift_eq_error {x : Except ε α} {e : ε} {s t : σ} : lift x s = (.error e, t) ↔ x = .error e ∧ t = s := by
  rw [lift_apply, Prod.mk.injEq, eq_comm (a := s)]

theorem pure_eq_ok {a b : α} {s t : σ} : (pure a : Eff σ ε α) s = (.ok b, t) ↔ b = a ∧ t = s := by
  rw [pure_apply, Prod.mk.injEq, Except.ok.injEq, eq_comm, eq_comm (a := s)]

theorem lift_eq_ok {x : Except ε α} {a : α} {s t : σ} : lift x s = (.ok a, t) ↔ x = .ok a ∧ t = s := by
  rw [lift_apply, Prod.mk.injEq, eq_comm (a := s)]

theorem read_eq_ok {s t u : σ} : (read : Eff σ ε σ) s = (.ok u, t) ↔ u = s ∧ t = s := pure_eq_ok

theorem modify_eq_ok {f : σ → σ} {u : Unit} {s t : σ} : (modify f : Eff σ ε Unit) s = (.ok u, t) ↔ t = f s := by
  rw [modify_apply, Prod.mk.injEq, and_iff_right rfl, eq_comm]

theorem mapError_of_ok {ε' : Type} {f : ε → ε'} {m : Eff σ ε α} {s s' : σ} {a : α} (h : m s = (.ok a, s')) :
    mapError f m s = (.ok a, s') := by
  rw [mapError, h]

theorem mapError_of_error {ε' : Type} {f : ε → ε'} {m : Eff σ ε α} {s s' : σ} {e : ε}
    (h : m s = (.error e, s')) : mapError f m s = (.error (f e), s') := by
  rw [mapError, h]

theorem mapError_eq_ok {ε' : Type} {f : ε → ε'} {m : Eff σ ε α} {s s' : σ} {a : α} :
    mapError f m s = (.ok a, s') ↔ m s = (.ok a, s') := by
  rcases h : m s with ⟨e | b, t⟩
  · rw [mapError_of_error h]
    simp
  · rw [mapError_of_ok h]
    simp

theorem fst_mapError_bind_pure {ε' : Type} (f : ε → ε') (g : α → β) (m : Eff σ ε α) (s : σ) :
    ((mapError f m >>= fun a => pure (g a)) s).1 = ((m s).1.mapError f).map g := by
  rcases h : m s with ⟨e | a, s'⟩
  · rw [bind_of_error (mapError_of_error h)]
    rfl
  · rw [bind_of_ok (mapError_of_ok h)]
    rfl

@[simp] theorem mapError_snd {ε' : Type} (f : ε → ε') (m : Eff σ ε α) (s : σ) : (mapError f m s).2 = (m s).2 := by
  rcases h : m s with ⟨e | a, s'⟩
  · rw [mapError_of_error h]
  · rw [mapError_of_ok h]

/-- A computation on a part of a larger state. -/
def zoom {τ : Type} (get : τ → σ) (set : τ → σ → τ) (m : Eff σ ε α) : Eff τ ε α := fun t =>
  ((m (get t)).1, set t (m (get t)).2)

theorem zoom_eq_ok {τ : Type} {get : τ → σ} {set : τ → σ → τ} {m : Eff σ ε α} {t t' : τ} {a : α} :
    zoom get set m t = (.ok a, t') ↔ ∃ s', m (get t) = (.ok a, s') ∧ t' = set t s' := by
  rw [zoom, Prod.mk.injEq]
  constructor
  · rintro ⟨hresult, rfl⟩
    exact ⟨_, Prod.ext hresult rfl, rfl⟩
  · rintro ⟨s', hm, rfl⟩
    rw [hm]
    exact ⟨rfl, rfl⟩

/-- Run a program for what it does to the state, whatever its result. -/
def attempt (m : Eff σ ε α) : Eff σ ε Unit := fun s => (.ok (), (m s).2)

/-- Return early with an error. -/
def rejectIf (c : Prop) [Decidable c] (e : ε) : Except ε Unit := if c then .error e else .ok ()

theorem rejectIf_eq_ok {c : Prop} [Decidable c] {e : ε} {u : Unit} : rejectIf c e = .ok u ↔ ¬ c := by
  by_cases h : c <;> simp [rejectIf, h]

/-- What an option holds, or an error. -/
def okOr : Option α → ε → Except ε α
  | some a, _ => .ok a
  | none, e => .error e

@[simp] theorem okOr_some (a : α) (e : ε) : okOr (some a) e = .ok a := rfl

@[simp] theorem okOr_none (e : ε) : okOr (none : Option α) e = .error e := rfl

theorem okOr_eq_ok {o : Option α} {e : ε} {a : α} : okOr o e = .ok a ↔ o = some a := by
  cases o <;> simp

theorem except_mapError_eq_ok {ε' : Type} {f : ε → ε'} {x : Except ε α} {a : α} :
    x.mapError f = .ok a ↔ x = .ok a := by
  cases x <;> simp [Except.mapError]

theorem except_toOption_eq_some {x : Except ε α} {a : α} : x.toOption = some a ↔ x = .ok a := by
  cases x <;> simp [Except.toOption]

theorem except_bind_eq_ok {x : Except ε α} {f : α → Except ε β} {b : β} :
    (x >>= f) = .ok b ↔ ∃ a, x = .ok a ∧ f a = .ok b := by
  cases x <;> simp [bind, Except.bind]

@[simp] theorem ok_bind (a : α) (f : α → Except ε β) : ((.ok a : Except ε α) >>= f) = f a := rfl

theorem except_mapM_eq_ok {f : α → Except ε β} {l : List α} {r : List β} :
    l.mapM f = .ok r ↔ List.Forall₂ (fun a b => f a = .ok b) l r := by
  induction l generalizing r with
  | nil => simp [pure, Except.pure, eq_comm]
  | cons a l ih =>
      simp only [List.mapM_cons, except_bind_eq_ok, pure, Except.pure, Except.ok.injEq,
        List.forall₂_cons_left_iff]
      constructor
      · rintro ⟨b, hb, bs, hbs, rfl⟩
        exact ⟨b, bs, hb, ih.mp hbs, rfl⟩
      · rintro ⟨b, bs, hb, hbs, rfl⟩
        exact ⟨b, hb, bs, ih.mpr hbs, rfl⟩

theorem exists_mapM_eq_ok {f : α → Except ε β} {l : List α} (h : ∀ a ∈ l, ∃ b, f a = .ok b) :
    ∃ r, l.mapM f = .ok r := by
  induction l with
  | nil => exact ⟨[], rfl⟩
  | cons a l ih =>
      obtain ⟨b, hb⟩ := h a List.mem_cons_self
      obtain ⟨r, hr⟩ := ih fun a' ha' => h a' (List.mem_cons_of_mem _ ha')
      refine ⟨b :: r, ?_⟩
      rw [List.mapM_cons, hb, ok_bind, hr, ok_bind]
      rfl

theorem except_forM_eq_ok {f : α → Except ε PUnit} {l : List α} {u : PUnit} :
    l.forM f = .ok u ↔ ∀ a ∈ l, f a = .ok () := by
  induction l with
  | nil => simp [pure, Except.pure]
  | cons a l ih =>
      change (f a >>= fun _ => l.forM f) = .ok u ↔ _
      rw [except_bind_eq_ok, List.forall_mem_cons]
      constructor
      · rintro ⟨_, ha, hl⟩
        exact ⟨ha, ih.mp hl⟩
      · rintro ⟨ha, hl⟩
        exact ⟨(), ha, ih.mpr hl⟩

/-- `R` relates the state before to the state after, on success and on failure. -/
def Keeps (R : σ → σ → Prop) (m : Eff σ ε α) : Prop := ∀ s, R s (m s).2

section Rules

variable {R : σ → σ → Prop} [IsPreorder σ R]

theorem keeps_pure (a : α) : Keeps R (pure a : Eff σ ε α) := fun s => refl_of R s

theorem keeps_read : Keeps R (read : Eff σ ε σ) := fun s => refl_of R s

theorem keeps_lift (x : Except ε α) : Keeps R (lift x : Eff σ ε α) := by
  intro s
  rw [lift_apply]
  exact refl_of R s

/-- The rest may use what a successful first part has established. -/
theorem rel_bind {m : Eff σ ε α} {f : α → Eff σ ε β} {s : σ} (hm : R s (m s).2)
    (hf : ∀ a s', m s = (.ok a, s') → R s' (f a s').2) : R s ((m >>= f) s).2 := by
  rcases h : m s with ⟨e | a, s'⟩
  · rw [bind_of_error h]
    rwa [h] at hm
  · rw [bind_of_ok h]
    rw [h] at hm
    exact trans_of R hm (hf a s' h)

theorem keeps_bind_of_post {m : Eff σ ε α} {f : α → Eff σ ε β} {Q : α → Prop} (hm : Keeps R m)
    (hpost : ∀ s a s', m s = (.ok a, s') → Q a) (hf : ∀ a, Q a → Keeps R (f a)) : Keeps R (m >>= f) :=
  fun s => rel_bind (hm s) fun a s' h => hf a (hpost s a s' h) s'

theorem keeps_bind {m : Eff σ ε α} {f : α → Eff σ ε β} (hm : Keeps R m) (hf : ∀ a, Keeps R (f a)) :
    Keeps R (m >>= f) :=
  keeps_bind_of_post hm (fun _ _ _ _ => trivial) fun a _ => hf a

/-- After a check, the rest may use that it passed. -/
theorem keeps_lift_bind {x : Except ε α} {f : α → Eff σ ε β} (hf : ∀ a, x = .ok a → Keeps R (f a)) :
    Keeps R (lift x >>= f) := by
  intro s
  cases x with
  | error e =>
      rw [bind_of_error (lift_apply _ s)]
      exact refl_of R s
  | ok a =>
      rw [bind_of_ok (lift_apply _ s)]
      exact hf a rfl s

end Rules

theorem keeps_mapError {ε' : Type} {R : σ → σ → Prop} {m : Eff σ ε α} (h : Keeps R m) (f : ε → ε') :
    Keeps R (mapError f m) := by
  intro s
  rw [mapError_snd]
  exact h s

theorem keeps_modify {R : σ → σ → Prop} {f : σ → σ} (h : ∀ s, R s (f s)) :
    Keeps R (modify f : Eff σ ε Unit) := h

theorem keeps_ite {R : σ → σ → Prop} {c : Prop} [Decidable c] {m m' : Eff σ ε α} (hm : Keeps R m) (hm' : Keeps R m') :
    Keeps R (if c then m else m') := by
  split_ifs
  · exact hm
  · exact hm'

theorem keeps_zoom {τ : Type} {R : σ → σ → Prop} {R' : τ → τ → Prop} {get : τ → σ} {set : τ → σ → τ} {m : Eff σ ε α}
    (hm : Keeps R m) (h : ∀ t s, R (get t) s → R' t (set t s)) : Keeps R' (zoom get set m) := fun t => h t _ (hm (get t))

/-- What comes after changes nothing. -/
theorem bind_snd {m : Eff σ ε α} {f : α → Eff σ ε β} (h : ∀ a, Keeps Eq (f a)) (s : σ) : ((m >>= f) s).2 = (m s).2 := by
  rcases hm : m s with ⟨e | a, s'⟩
  · rw [bind_of_error hm]
  · rw [bind_of_ok hm]
    exact (h a s').symm

/-- The program ends with the same error in every state, and changes nothing. -/
def Refuses (m : Eff σ ε α) : Prop := ∃ e, ∀ s, m s = (.error e, s)

theorem refuses_lift {x : Except ε α} (h : ∀ a, x ≠ .ok a) : Refuses (lift x : Eff σ ε α) := by
  cases x with
  | error e => exact ⟨e, lift_apply _⟩
  | ok a => exact absurd rfl (h a)

theorem refuses_mapError {ε' : Type} {m : Eff σ ε α} (h : Refuses m) (f : ε → ε') : Refuses (mapError f m) := by
  obtain ⟨e, he⟩ := h
  exact ⟨f e, fun s => mapError_of_error (he s)⟩

theorem refuses_bind {m : Eff σ ε α} (h : Refuses m) (f : α → Eff σ ε β) : Refuses (m >>= f) := by
  obtain ⟨e, he⟩ := h
  exact ⟨e, fun s => bind_of_error (he s)⟩

/-- A check that comes before a refusal may fail or pass, in every state alike. -/
theorem refuses_lift_bind {x : Except ε α} {f : α → Eff σ ε β} (h : ∀ a, x = .ok a → Refuses (f a)) :
    Refuses (lift x >>= f) := by
  cases x with
  | error e => exact ⟨e, fun s => bind_of_error (lift_apply _ s)⟩
  | ok a =>
      obtain ⟨e, he⟩ := h a rfl
      exact ⟨e, fun s => (bind_of_ok (lift_apply _ s)).trans (he s)⟩

/-- `R` relates the state before to the state after whenever the program fails. -/
def Spares (R : σ → σ → Prop) (m : Eff σ ε α) : Prop := ∀ s e s', m s = (.error e, s') → R s s'

/-- The program does not fail. -/
def Succeeds (m : Eff σ ε α) : Prop := ∀ s, ∃ a s', m s = (.ok a, s')

theorem Keeps.spares {R : σ → σ → Prop} {m : Eff σ ε α} (h : Keeps R m) : Spares R m := by
  intro s e s' hm
  have hkept := h s
  rwa [hm] at hkept

/-- What comes before may also return, so it must keep `R` then. -/
theorem spares_bind {R : σ → σ → Prop} [IsPreorder σ R] {m : Eff σ ε α} {f : α → Eff σ ε β} (hm : Keeps R m)
    (hf : ∀ a, Spares R (f a)) : Spares R (m >>= f) := by
  intro s e s' hfail
  have hkept := hm s
  rcases hrun : m s with ⟨e' | a, t⟩
  · rw [bind_of_error hrun] at hfail
    cases hfail
    rwa [hrun] at hkept
  · rw [bind_of_ok hrun] at hfail
    rw [hrun] at hkept
    exact trans_of R hkept (hf a t e s' hfail)

/-- After the last part that can fail, nothing needs to be kept. -/
theorem spares_bind_of_succeeds {R : σ → σ → Prop} {m : Eff σ ε α} {f : α → Eff σ ε β} (hm : Spares R m)
    (hf : ∀ s a s', m s = (.ok a, s') → Succeeds (f a)) : Spares R (m >>= f) := by
  intro s e s' hfail
  rcases hrun : m s with ⟨e' | a, t⟩
  · rw [bind_of_error hrun] at hfail
    cases hfail
    exact hm s e _ hrun
  · rw [bind_of_ok hrun] at hfail
    obtain ⟨b, u, hb⟩ := hf s a t hrun t
    rw [hb] at hfail
    cases hfail

theorem succeeds_pure (a : α) : Succeeds (pure a : Eff σ ε α) := fun s => ⟨a, s, rfl⟩

theorem succeeds_modify (f : σ → σ) : Succeeds (modify f : Eff σ ε Unit) := fun s => ⟨(), f s, rfl⟩

/-- From `s`, the program returns after steps of `R`. -/
def Finishes (R : σ → σ → Prop) (m : Eff σ ε α) (s : σ) : Prop := ∃ a s', m s = (.ok a, s') ∧ R s s'

/-- From `s`, the program takes steps of `R`. If it fails and `C` holds, it has only taken steps of `A`: the shape of a
request handler that makes its change in the last part that can fail. -/
structure Acts (C : Prop) (A R : σ → σ → Prop) (m : Eff σ ε α) (s : σ) : Prop where
  steps : R s (m s).2
  spares : C → ∀ e s', m s = (.error e, s') → A s s'

section Acts

variable {C : Prop} {A R : σ → σ → Prop} {m : Eff σ ε α} {f : α → Eff σ ε β} {s : σ}

theorem finishes_pure [IsPreorder σ R] (a : α) : Finishes R (pure a : Eff σ ε α) s := ⟨a, s, rfl, refl_of R s⟩

theorem finishes_lift_bind {x : Except ε α} {a : α} (hx : x = .ok a) (hf : Finishes R (f a) s) :
    Finishes R (lift x >>= f) s := by
  rw [Finishes, bind_of_ok (lift_eq_ok.mpr ⟨hx, rfl⟩)]
  exact hf

theorem finishes_ite {c : Prop} [Decidable c] {m' : Eff σ ε α} (hm : Finishes R m s) (hm' : Finishes R m' s) :
    Finishes R (if c then m else m') s := by
  split_ifs
  · exact hm
  · exact hm'

theorem Finishes.steps (h : Finishes R m s) : R s (m s).2 := by
  obtain ⟨a, s', hm, hR⟩ := h
  rwa [hm]

theorem Finishes.acts (h : Finishes R m s) : Acts C A R m s := by
  refine ⟨h.steps, fun _ e t hfail => ?_⟩
  obtain ⟨a, s', hm, -⟩ := h
  rw [hm] at hfail
  cases hfail

theorem acts_pure [IsPreorder σ R] (a : α) : Acts C A R (pure a : Eff σ ε α) s := (finishes_pure a).acts

theorem Acts.mono {C' : Prop} {R' : σ → σ → Prop} (h : Acts C A R m s) (hC : C' → C) (hR : ∀ {s s'}, R s s' → R' s s') :
    Acts C' A R' m s := ⟨hR h.steps, fun hC' => h.spares (hC hC')⟩

theorem acts_mapError {ε' : Type} (h : Acts C A R m s) (f : ε → ε') : Acts C A R (mapError f m) s := by
  constructor
  · rw [mapError_snd]
    exact h.steps
  · intro hC e s' hfail
    rcases hm : m s with ⟨e' | a, t⟩
    · rw [mapError_of_error hm] at hfail
      cases hfail
      exact h.spares hC e' _ hm
    · rw [mapError_of_ok hm] at hfail
      cases hfail

/-- After the change, nothing can fail. -/
theorem acts_bind_of_finishes [IsPreorder σ R] (hm : Acts C A R m s)
    (hf : ∀ a s', m s = (.ok a, s') → Finishes R (f a) s') : Acts C A R (m >>= f) s := by
  refine ⟨rel_bind hm.steps fun a s' h => (hf a s' h).steps, fun hC e s' hfail => ?_⟩
  rcases bind_eq_error.mp hfail with h | ⟨a, t, h, hfail⟩
  · exact hm.spares hC e s' h
  · obtain ⟨b, u, hb, -⟩ := hf a t h
    rw [hb] at hfail
    cases hfail

section

variable [IsPreorder σ A] [IsPreorder σ R] (hAR : ∀ {s s'}, A s s' → R s s')

include hAR

/-- Before the change, there are only steps of `A`. -/
theorem acts_bind (hm : A s (m s).2) (hf : ∀ a s', m s = (.ok a, s') → Acts C A R (f a) s') : Acts C A R (m >>= f) s := by
  refine ⟨rel_bind (hAR hm) fun a s' h => (hf a s' h).steps, fun hC e s' hfail => ?_⟩
  rcases bind_eq_error.mp hfail with h | ⟨a, t, h, hfail⟩
  · rwa [h] at hm
  · rw [h] at hm
    exact trans_of A hm ((hf a t h).spares hC e s' hfail)

theorem acts_lift_bind {x : Except ε α} (hf : ∀ a, x = .ok a → Acts C A R (f a) s) : Acts C A R (lift x >>= f) s := by
  refine acts_bind hAR (keeps_lift x s) fun a s' h => ?_
  obtain ⟨hx, rfl⟩ := lift_eq_ok.mp h
  exact hf a hx

end

end Acts

end Eff
