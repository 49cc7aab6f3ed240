import SecretBroker.KeyReplacement
import SecretBroker.LibInterleave

/-! Concurrent generations of key pairs. A generation checks the limit of its customer in one step, under a read
guard, and stores the new key in another one, under write guards. Calls that all check before any of them
stores pass together, so a customer can come to have more active keys than the limit allows. -/

open Wire Interleave

namespace SecretBroker.KeyManager

/-- How far a generation has come. -/
inductive GeneratePhase where
  | start
  | checked
  | returned (result : Except Failure KeyPair)

/-- The new key is in the tables. -/
def GeneratePhase.inserted : GeneratePhase → Bool
  | .start => false
  | .checked => false
  | .returned result => result.toBool

namespace GenerateCall

variable (env : Env) (call : GenerateCall) (s : Broker)

/-- The checks of the first step. -/
def checks : Except Failure Unit := do
  (validatePostQuantumAlgorithm env call.algorithm).mapError .anyhow
  (SecretBroker.checkKeyLimits env s.keyMetadata call.customerId).mapError .anyhow

/-- The next step of the generation. What lies between the two is local to the call. -/
def act : GeneratePhase → Broker → GeneratePhase × Broker
  | .start, s =>
      match call.checks env s with
      | .ok () => (.checked, s)
      | .error e => (.returned (.error e), s)
  | .checked, s =>
      match newKeyPair env call.d call.algorithm with
      | .ok pair => (.returned (.ok pair), s.addKey pair call.customerId)
      | .error e => (.returned (.error e), s)
  | .returned result, s => (.returned result, s)

/-- Two steps in a row are the whole generation. -/
theorem act_act : call.act env (call.act env .start s).1 (call.act env .start s).2 =
    (.returned (SecretBroker.generateKeyPair env call.d call.algorithm call.customerId s).1,
      (SecretBroker.generateKeyPair env call.d call.algorithm call.customerId s).2) := by
  have hsplit : admitKeyPair env call.d call.algorithm call.customerId s.keyMetadata = (do
      call.checks env s
      newKeyPair env call.d call.algorithm) := by
    rw [admitKeyPair, checks, bind_assoc]
  cases hchecks : call.checks env s with
  | error e =>
      rw [hchecks] at hsplit
      rw [generateKeyPair_of_error hsplit]
      simp only [act, hchecks]
  | ok u =>
      rw [hchecks] at hsplit
      cases hpair : newKeyPair env call.d call.algorithm with
      | error e =>
          rw [generateKeyPair_of_error (hsplit.trans hpair)]
          simp only [act, hchecks, hpair]
      | ok pair =>
          rw [generateKeyPair_of_ok (hsplit.trans hpair)]
          simp only [act, hchecks, hpair]

variable {env call s}

theorem checks_eq_ok : call.checks env s = .ok () ↔ validatePostQuantumAlgorithm env call.algorithm = .ok () ∧
    customerKeyCount s.keyMetadata call.customerId < env.crypto.maxKeysPerCustomer.toNat := by
  simp only [checks, SecretBroker.checkKeyLimits, Eff.except_bind_eq_ok, Eff.except_mapError_eq_ok, Eff.rejectIf_eq_ok,
    not_le, Unique.exists_iff, PUnit.default_eq_unit]

theorem act_start_cases (env : Env) (call : GenerateCall) (s : Broker) :
    (call.checks env s = .ok () ∧ call.act env .start s = (.checked, s)) ∨
      ∃ e, call.act env .start s = (.returned (.error e), s) := by
  cases hchecks : call.checks env s with
  | ok u => exact Or.inl ⟨rfl, by simp only [act, hchecks]⟩
  | error e => exact Or.inr ⟨e, by simp only [act, hchecks]⟩

theorem act_checked_cases (env : Env) (call : GenerateCall) (s : Broker) :
    (∃ pair, newKeyPair env call.d call.algorithm = .ok pair ∧
      call.act env .checked s = (.returned (.ok pair), s.addKey pair call.customerId)) ∨
      ∃ e, call.act env .checked s = (.returned (.error e), s) := by
  cases hpair : newKeyPair env call.d call.algorithm with
  | ok pair => exact Or.inl ⟨pair, rfl, by simp only [act, hpair]⟩
  | error e => exact Or.inr ⟨e, by simp only [act, hpair]⟩

/-- The call makes a key unless the limit stops it. -/
def MakesKey (env : Env) (call : GenerateCall) : Prop :=
  validatePostQuantumAlgorithm env call.algorithm = .ok () ∧ ∃ pair, newKeyPair env call.d call.algorithm = .ok pair

instance (env : Env) (call : GenerateCall) : Decidable (call.MakesKey env) :=
  decidable_of_iff (validatePostQuantumAlgorithm env call.algorithm = .ok () ∧
    (newKeyPair env call.d call.algorithm).toOption.isSome = true) <| by
      rw [MakesKey, Option.isSome_iff_exists]
      simp only [Eff.except_toOption_eq_some]

end GenerateCall

theorem customerKeyCount_addKey {s : Broker} {pair : KeyPair} (hunused : Unused pair.keyId s.keyMetadata)
    (customerId c : String) : customerKeyCount (s.addKey pair customerId).keyMetadata c =
      customerKeyCount s.keyMetadata c + if customerId = c then 1 else 0 := by
  rw [Broker.addKey, insertKeyMetadata_of_unused hunused, customerKeyCount_cons]
  simp [newKeyMetadata]

theorem activeKeyCount_addKey {s : Broker} {pair : KeyPair} (hunused : Unused pair.keyId s.keyMetadata)
    (customerId c : String) : activeKeyCount (s.addKey pair customerId).keyMetadata c =
      activeKeyCount s.keyMetadata c + if customerId = c then 1 else 0 := by
  rw [Broker.addKey, insertKeyMetadata_of_unused hunused, activeKeyCount, List.countP_cons]
  simp [newKeyMetadata, activeKeyCount]

section

variable {ι : Type} [Fintype ι] [DecidableEq ι]

/-- How many of the calls for a customer have stored their key. -/
def insertions (calls : ι → GenerateCall) (phase : ι → GeneratePhase) (c : String) : ℕ :=
  (Finset.univ.filter fun i => (phase i).inserted = true ∧ (calls i).customerId = c).card

/-- One more call has stored its key. -/
theorem insertions_update {calls : ι → GenerateCall} {phase : ι → GeneratePhase} {i : ι} {p : GeneratePhase}
    (hbefore : (phase i).inserted = false) (hafter : p.inserted = true) (c : String) :
    insertions calls (Function.update phase i p) c =
      insertions calls phase c + if (calls i).customerId = c then 1 else 0 := by
  unfold insertions
  by_cases hc : (calls i).customerId = c
  · have hinsert : (Finset.univ.filter fun j => (Function.update phase i p j).inserted = true ∧ (calls j).customerId = c) =
        insert i (Finset.univ.filter fun j => (phase j).inserted = true ∧ (calls j).customerId = c) := by
      ext j
      by_cases hj : j = i
      · subst hj
        simp [hafter, hc]
      · simp [hj]
    rw [hinsert, Finset.card_insert_of_notMem (by simp [hbefore]), if_pos hc]
  · rw [if_neg hc, Nat.add_zero]
    congr 1
    ext j
    by_cases hj : j = i
    · subst hj
      simp [hc]
    · simp [hj]

/-- A step that stores no key. -/
theorem insertions_update_of_eq {calls : ι → GenerateCall} {phase : ι → GeneratePhase} {i : ι} {p : GeneratePhase}
    (h : p.inserted = (phase i).inserted) (c : String) :
    insertions calls (Function.update phase i p) c = insertions calls phase c := by
  unfold insertions
  congr 1
  ext j
  by_cases hj : j = i
  · subst hj
    simp [h]
  · simp [hj]

/-- What holds of the tables and of the calls at every moment, from the table that the calls have started on. -/
structure Counted (env : Env) (calls : ι → GenerateCall) (s : Broker) (k : Config ι Broker GeneratePhase) : Prop where
  active : ∀ c, activeKeyCount k.shared.keyMetadata c = activeKeyCount s.keyMetadata c + insertions calls k.phase c
  counted : ∀ c, customerKeyCount k.shared.keyMetadata c = customerKeyCount s.keyMetadata c + insertions calls k.phase c
  unused : ∀ i, (k.phase i).inserted = false → Unused (keyIdOf (calls i).d.keyId) k.shared.keyMetadata
  passed : ∀ i, k.phase i = .checked ∨ (k.phase i).inserted = true → (calls i).checks env s = .ok ()
  made : ∀ i, (k.phase i).inserted = true → (calls i).MakesKey env

omit [DecidableEq ι] in
theorem counted_start {env : Env} {calls : ι → GenerateCall} {s : Broker}
    (hunused : ∀ i, Unused (keyIdOf (calls i).d.keyId) s.keyMetadata) :
    Counted env calls s ⟨s, fun _ => .start⟩ := by
  have hnone : ∀ c, insertions calls (fun _ => .start) c = 0 := by
    intro c
    simp [insertions, GeneratePhase.inserted]
  refine ⟨fun c => ?_, fun c => ?_, fun i _ => hunused i, fun i h => ?_, fun i h => ?_⟩
  · rw [hnone, Nat.add_zero]
  · rw [hnone, Nat.add_zero]
  · rcases h with h | h
    · cases h
    · cases h
  · cases h

/-- A step that changes no table, and stores no key. -/
theorem Counted.move {env : Env} {calls : ι → GenerateCall} {s : Broker} {k : Config ι Broker GeneratePhase}
    (h : Counted env calls s k) {i : ι} {p : GeneratePhase} (hp : p.inserted = (k.phase i).inserted)
    (hpassed : p = .checked → (calls i).checks env s = .ok ()) :
    Counted env calls s ⟨k.shared, Function.update k.phase i p⟩ := by
  refine ⟨fun c => ?_, fun c => ?_, ?_, ?_, ?_⟩
  · rw [insertions_update_of_eq hp]
    exact h.active c
  · rw [insertions_update_of_eq hp]
    exact h.counted c
  · apply (Function.forall_update_iff k.phase (p := fun j q => q.inserted = false →
      Unused (keyIdOf (calls j).d.keyId) k.shared.keyMetadata)).mpr
    refine ⟨fun hnot => h.unused i (hp ▸ hnot), fun j _ => h.unused j⟩
  · apply (Function.forall_update_iff k.phase (p := fun j q => q = .checked ∨ q.inserted = true →
      (calls j).checks env s = .ok ())).mpr
    refine ⟨fun hor => ?_, fun j _ => h.passed j⟩
    rcases hor with hchecked | hinserted
    · exact hpassed hchecked
    · exact h.passed i (Or.inr (hp ▸ hinserted))
  · apply (Function.forall_update_iff k.phase (p := fun j q => q.inserted = true → (calls j).MakesKey env)).mpr
    exact ⟨fun hinserted => h.made i (hp ▸ hinserted), fun j _ => h.made j⟩

/-- A checked call stores its key. -/
theorem Counted.store {env : Env} {calls : ι → GenerateCall} (hids : Function.Injective fun i => (calls i).d.keyId)
    {s : Broker} {k : Config ι Broker GeneratePhase} (h : Counted env calls s k) {i : ι} (hi : k.phase i = .checked)
    {pair : KeyPair} (hpair : newKeyPair env (calls i).d (calls i).algorithm = .ok pair) :
    Counted env calls s
      ⟨k.shared.addKey pair (calls i).customerId, Function.update k.phase i (.returned (.ok pair))⟩ := by
  have hbefore : (k.phase i).inserted = false := congrArg GeneratePhase.inserted hi
  have hid := (newKeyPair_eq_ok hpair).1
  have hunused : Unused pair.keyId k.shared.keyMetadata := hid ▸ h.unused i hbefore
  have hchecks := h.passed i (Or.inl hi)
  refine ⟨fun c => ?_, fun c => ?_, ?_, ?_, ?_⟩
  · rw [activeKeyCount_addKey hunused, insertions_update hbefore rfl, h.active c, Nat.add_assoc]
  · rw [customerKeyCount_addKey hunused, insertions_update hbefore rfl, h.counted c, Nat.add_assoc]
  · apply (Function.forall_update_iff k.phase (p := fun j q => q.inserted = false →
      Unused (keyIdOf (calls j).d.keyId) (k.shared.addKey pair (calls i).customerId).keyMetadata)).mpr
    refine ⟨fun hnot => Bool.noConfusion hnot, fun j hj hnot => ?_⟩
    rw [Broker.addKey, insertKeyMetadata_of_unused hunused]
    intro m hm
    rcases List.mem_cons.mp hm with rfl | hm
    · intro heq
      exact hj (hids (keyIdOf_injective (hid.symm.trans heq))).symm
    · exact h.unused j hnot m hm
  · apply (Function.forall_update_iff k.phase (p := fun j q => q = .checked ∨ q.inserted = true →
      (calls j).checks env s = .ok ())).mpr
    exact ⟨fun _ => hchecks, fun j _ => h.passed j⟩
  · apply (Function.forall_update_iff k.phase (p := fun j q => q.inserted = true → (calls j).MakesKey env)).mpr
    exact ⟨fun _ => ⟨(GenerateCall.checks_eq_ok.mp hchecks).1, pair, hpair⟩, fun j _ => h.made j⟩

theorem Counted.step {env : Env} {calls : ι → GenerateCall} (hids : Function.Injective fun i => (calls i).d.keyId)
    {s : Broker} {k : Config ι Broker GeneratePhase} (h : Counted env calls s k) (i : ι) :
    Counted env calls s (k.step (fun i => (calls i).act env) i) := by
  cases hphase : k.phase i with
  | start =>
      have hinserted : (k.phase i).inserted = false := congrArg GeneratePhase.inserted hphase
      rcases GenerateCall.act_start_cases env (calls i) k.shared with ⟨hchecks, hact⟩ | ⟨e, hact⟩
      · rw [Config.step_eq (hphase ▸ hact)]
        refine h.move hinserted.symm fun _ => ?_
        -- the table has only grown since the start, so the check would have passed then
        obtain ⟨hvalid, hlimit⟩ := GenerateCall.checks_eq_ok.mp hchecks
        rw [h.counted] at hlimit
        exact GenerateCall.checks_eq_ok.mpr ⟨hvalid, by omega⟩
      · rw [Config.step_eq (hphase ▸ hact)]
        exact h.move hinserted.symm fun hchecked => by cases hchecked
  | checked =>
      have hinserted : (k.phase i).inserted = false := congrArg GeneratePhase.inserted hphase
      rcases GenerateCall.act_checked_cases env (calls i) k.shared with ⟨pair, hpair, hact⟩ | ⟨e, hact⟩
      · rw [Config.step_eq (hphase ▸ hact)]
        exact h.store hids hphase hpair
      · rw [Config.step_eq (hphase ▸ hact)]
        exact h.move hinserted.symm fun hchecked => by cases hchecked
  | returned result =>
      have hact : (calls i).act env (k.phase i) k.shared = (.returned result, k.shared) := by
        rw [hphase]
        rfl
      rw [Config.step_eq hact]
      exact h.move (by rw [hphase]) fun hchecked => by cases hchecked

/-- The calls run from a given table. -/
def generating (env : Env) (calls : ι → GenerateCall) (s : Broker) (schedule : List ι) : Config ι Broker GeneratePhase :=
  Config.run (fun i => (calls i).act env) ⟨s, fun _ => .start⟩ schedule

theorem counted_generating (env : Env) {calls : ι → GenerateCall} {s : Broker}
    (hids : Function.Injective fun i => (calls i).d.keyId)
    (hunused : ∀ i, Unused (keyIdOf (calls i).d.keyId) s.keyMetadata) (schedule : List ι) :
    Counted env calls s (generating env calls s schedule) :=
  Config.invariant_run (fun _ i h => h.step hids i) (counted_start hunused) schedule

/-- If all calls check before any of them stores, the checks see the table of the start. -/
theorem inserted_of_checks_first (env : Env) (calls : ι → GenerateCall) (s : Broker) {i : ι}
    (hchecks : (calls i).checks env s = .ok ()) (hmakes : (calls i).MakesKey env) :
    ((generating env calls s (Finset.univ.toList ++ Finset.univ.toList)).phase i).inserted = true := by
  obtain ⟨-, pair, hpair⟩ := hmakes
  have hnodup : (Finset.univ : Finset ι).toList.Nodup := Finset.nodup_toList _
  have hi : i ∈ (Finset.univ : Finset ι).toList := Finset.mem_toList.mpr (Finset.mem_univ i)
  have hkeeps : ∀ j ∈ (Finset.univ : Finset ι).toList, ∀ s', s' = s → ((calls j).act env .start s').2 = s := by
    intro j _ s' hs'
    rcases GenerateCall.act_start_cases env (calls j) s' with ⟨-, hact⟩ | ⟨e, hact⟩
    · rw [hact, hs']
    · rw [hact, hs']
  obtain ⟨s₁, rfl, hchecked⟩ : ∃ s₁, s₁ = s ∧
      (generating env calls s Finset.univ.toList).phase i = ((calls i).act env .start s₁).1 :=
    (Config.run_once (P := fun s' => s' = s) hnodup rfl hkeeps).2 i hi
  obtain ⟨s₂, -, hstored⟩ : ∃ s₂, True ∧
      ((generating env calls s₁ Finset.univ.toList).run (fun i => (calls i).act env) Finset.univ.toList).phase i =
        ((calls i).act env ((generating env calls s₁ Finset.univ.toList).phase i) s₂).1 :=
    (Config.run_once (P := fun _ => True) hnodup trivial fun _ _ _ _ => trivial).2 i hi
  have hphase : (generating env calls s₁ Finset.univ.toList).phase i = .checked := by
    rw [hchecked]
    simp only [GenerateCall.act, hchecks]
  rw [generating, Config.run_append, ← generating, hstored, hphase]
  simp only [GenerateCall.act, hpair, GeneratePhase.inserted, Except.toBool]

/-- The limit on active keys holds in every order of the calls exactly when no order matters for it: the keys that all
the calls for a customer would make fit together, or the customer's records already stop every one of them. -/
theorem keyLimit_holds_iff (env : Env) (calls : ι → GenerateCall) (s : Broker)
    (hids : Function.Injective fun i => (calls i).d.keyId)
    (hunused : ∀ i, Unused (keyIdOf (calls i).d.keyId) s.keyMetadata)
    (hwithin : ∀ c, activeKeyCount s.keyMetadata c ≤ env.crypto.maxKeysPerCustomer.toNat) :
    (∀ schedule c, activeKeyCount (generating env calls s schedule).shared.keyMetadata c ≤
        env.crypto.maxKeysPerCustomer.toNat) ↔
      ∀ c, env.crypto.maxKeysPerCustomer.toNat ≤ customerKeyCount s.keyMetadata c ∨
        activeKeyCount s.keyMetadata c +
            (Finset.univ.filter fun i => (calls i).MakesKey env ∧ (calls i).customerId = c).card ≤
          env.crypto.maxKeysPerCustomer.toNat := by
  constructor
  · intro h c
    by_contra hover
    rw [not_or, not_le, not_le] at hover
    obtain ⟨hroom, hover⟩ := hover
    have hk := counted_generating env hids hunused (Finset.univ.toList ++ Finset.univ.toList)
    have hlimit := h (Finset.univ.toList ++ Finset.univ.toList) c
    rw [hk.active c] at hlimit
    have hall : (Finset.univ.filter fun i => (calls i).MakesKey env ∧ (calls i).customerId = c).card ≤
        insertions calls (generating env calls s (Finset.univ.toList ++ Finset.univ.toList)).phase c := by
      apply Finset.card_le_card
      intro i hi
      rw [Finset.mem_filter] at hi ⊢
      obtain ⟨hi, hmakes, hc⟩ := hi
      have hchecks : (calls i).checks env s = .ok () := GenerateCall.checks_eq_ok.mpr ⟨hmakes.1, hc ▸ hroom⟩
      exact ⟨hi, inserted_of_checks_first env calls s hchecks hmakes, hc⟩
    omega
  · intro h schedule c
    have hk := counted_generating env hids hunused schedule
    rw [hk.active c]
    rcases h c with hfull | hfits
    · have hnone : insertions calls (generating env calls s schedule).phase c = 0 := by
        rw [insertions, Finset.card_eq_zero, Finset.filter_eq_empty_iff]
        intro i _ hi
        have hlimit := (GenerateCall.checks_eq_ok.mp (hk.passed i (Or.inr hi.1))).2
        rw [hi.2] at hlimit
        omega
      rw [hnone]
      exact hwithin c
    · have hall : insertions calls (generating env calls s schedule).phase c ≤
          (Finset.univ.filter fun i => (calls i).MakesKey env ∧ (calls i).customerId = c).card := by
        apply Finset.card_le_card
        intro i hi
        rw [Finset.mem_filter] at hi ⊢
        exact ⟨hi.1, hk.made i hi.2.1, hi.2.2⟩
      omega

/-- Two calls for one customer, with their own key ids. -/
def twoCalls (i : Fin 2) : GenerateCall :=
  ⟨drawsOf (if i.val = 0 then .filled 1 else .filled 2), "dilithium5", "customer"⟩

theorem keyId_twoCalls_injective : Function.Injective fun i => (twoCalls i).d.keyId := by decide

theorem keyLimit_holds_two : ¬ ∃ schedule c,
    (rotatingEnv 2).crypto.maxKeysPerCustomer.toNat <
      activeKeyCount (generating (rotatingEnv 2) twoCalls Broker.empty schedule).shared.keyMetadata c := by
  rintro ⟨schedule, c, hover⟩
  have hlimit := (keyLimit_holds_iff (rotatingEnv 2) twoCalls Broker.empty keyId_twoCalls_injective
    (fun i m hm => absurd hm List.not_mem_nil) fun c => Nat.zero_le _).mpr (fun c => Or.inr ?_) schedule c
  · exact absurd hlimit (not_le.mpr hover)
  · rw [show activeKeyCount Broker.empty.keyMetadata c = 0 from rfl, Nat.zero_add]
    exact Finset.card_le_univ _

/-- A limit of one key, and a customer with two active ones: both calls have checked before one stores. -/
theorem keyLimit_exceeded : (rotatingEnv 1).crypto.maxKeysPerCustomer.toNat = 1 ∧
    activeKeyCount (generating (rotatingEnv 1) twoCalls Broker.empty [0, 1, 0, 1]).shared.keyMetadata "customer" = 2 := by
  decide +kernel

end

end SecretBroker.KeyManager
