import SecretBroker.LibEffect

/-! Transactions of a database. A statement that fails aborts its transaction: every later statement fails as well,
and a commit then keeps the state from before the transaction, which is not reported as an error. -/

/-- An open transaction: the state it was begun in, and what its statements have made of it so far, which is nothing
once one of them has failed. -/
structure Transaction (σ : Type) where
  start : σ
  current : Option σ

namespace Transaction

variable {σ ε α β : Type}

/-- Run a statement, and return early if it fails. -/
def execute (e : ε) (statement : σ → Option σ) : Eff (Transaction σ) ε Unit := fun tx =>
  match tx.current.bind statement with
  | some s => (.ok (), { tx with current := some s })
  | none => (.error e, { tx with current := none })

/-- Run a statement, and go on if it fails. -/
def attempt (statement : σ → Option σ) : Eff (Transaction σ) ε Unit := fun tx =>
  (.ok (), { tx with current := tx.current.bind statement })

/-- Run statements in a row, up to the first that fails. -/
def executeAll (e : β → ε) (exec : β → σ → Option σ) : List β → Eff (Transaction σ) ε Unit
  | [] => pure ()
  | b :: l => do
      execute (e b) (exec b)
      executeAll e exec l

/-- Run all statements, whether or not some of them fail. -/
def attemptAll (exec : β → σ → Option σ) : List β → Eff (Transaction σ) ε Unit
  | [] => pure ()
  | b :: l => do
      attempt (exec b)
      attemptAll exec l

/-- A transaction around a program. It is rolled back if the program returns early, or if the commit is refused. -/
def transact (refusal : Option ε) (body : Eff (Transaction σ) ε α) : Eff σ ε α := fun s =>
  match body ⟨s, some s⟩, refusal with
  | (.ok a, tx), none => (.ok a, tx.current.getD tx.start)
  | (.ok _, _), some e => (.error e, s)
  | (.error e, _), _ => (.error e, s)

theorem execute_eq_ok {e : ε} {statement : σ → Option σ} {tx tx' : Transaction σ} {u : Unit} :
    execute e statement tx = (.ok u, tx') ↔
      ∃ s, tx.current.bind statement = some s ∧ tx' = { tx with current := some s } := by
  unfold execute
  cases h : tx.current.bind statement with
  | none => simp
  | some s => simp [eq_comm]

@[simp] theorem attempt_apply (statement : σ → Option σ) (tx : Transaction σ) :
    (attempt statement : Eff _ ε Unit) tx = (.ok (), { tx with current := tx.current.bind statement }) := rfl

/-- In a transaction that has not been aborted, statements in a row succeed if each one does where it is run. -/
theorem executeAll_eq_ok {e : β → ε} {exec : β → σ → Option σ} {l : List β} {start s : σ} {tx : Transaction σ} {u : Unit} :
    executeAll e exec l ⟨start, some s⟩ = (.ok u, tx) ↔
      ∃ s', l.foldlM (fun s b => exec b s) s = some s' ∧ tx = ⟨start, some s'⟩ := by
  induction l generalizing s with
  | nil => simp [executeAll, eq_comm]
  | cons b l ih =>
      rw [executeAll, Eff.bind_eq_ok]
      simp only [execute_eq_ok, List.foldlM_cons, Option.bind_eq_bind, Option.bind_some]
      constructor
      · rintro ⟨_, _, ⟨s₁, hb, rfl⟩, hl⟩
        obtain ⟨s', hs', rfl⟩ := ih.mp hl
        exact ⟨s', by rw [hb, Option.bind_some, hs'], rfl⟩
      · rintro ⟨s', hs', rfl⟩
        obtain ⟨s₁, hb, hs₁⟩ := Option.bind_eq_some_iff.mp hs'
        exact ⟨(), _, ⟨s₁, hb, rfl⟩, ih.mpr ⟨s', hs₁, rfl⟩⟩

theorem attemptAll_apply (exec : β → σ → Option σ) (l : List β) (tx : Transaction σ) :
    (attemptAll exec l : Eff _ ε Unit) tx =
      (.ok (), { tx with current := tx.current.bind fun s => l.foldlM (fun s b => exec b s) s }) := by
  induction l generalizing tx with
  | nil =>
      cases tx with
      | mk start current => cases current <;> rfl
  | cons b l ih =>
      rw [attemptAll, Eff.bind_of_ok (attempt_apply _ tx), ih]
      simp only [List.foldlM_cons, Option.bind_eq_bind, Option.bind_assoc]

theorem transact_eq_ok {refusal : Option ε} {body : Eff (Transaction σ) ε α} {s t : σ} {a : α} :
    transact refusal body s = (.ok a, t) ↔
      refusal = none ∧ ∃ tx, body ⟨s, some s⟩ = (.ok a, tx) ∧ t = tx.current.getD tx.start := by
  unfold transact
  rcases h : body ⟨s, some s⟩ with ⟨e | b, tx⟩
  · simp
  · cases refusal with
    | some e => simp
    | none =>
        simp only [Prod.mk.injEq, Except.ok.injEq, true_and]
        constructor
        · rintro ⟨rfl, rfl⟩
          exact ⟨tx, ⟨rfl, rfl⟩, rfl⟩
        · rintro ⟨tx', ⟨rfl, rfl⟩, rfl⟩
          exact ⟨rfl, rfl⟩

/-- A transaction that fails leaves no trace. -/
theorem spares_transact (refusal : Option ε) (body : Eff (Transaction σ) ε α) : Eff.Spares Eq (transact refusal body) := by
  intro s e t h
  unfold transact at h
  rcases hbody : body ⟨s, some s⟩ with ⟨e' | b, tx⟩
  · rw [hbody] at h
    cases h
    rfl
  · rw [hbody] at h
    cases refusal with
    | none => cases h
    | some e' =>
        cases h
        rfl

end Transaction
