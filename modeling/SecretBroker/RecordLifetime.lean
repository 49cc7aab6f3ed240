import SecretBroker.SealedStore

/-! What can become of a record. Whatever operation of the sealed store rewrites it, the part that was
fixed when the record was created stays, a revoked record stays revoked and a consumed redeem token
stays consumed. -/

open Wire Register

namespace SecretBroker

/-- The record with every field blank that the store's operations rewrite. -/
def StoredEnvelopeRecord.issued (r : StoredEnvelopeRecord) : StoredEnvelopeRecord :=
  { r with
    envelope := { r.envelope with metadata := none }
    lastAccessed := none
    redeemNonce := none
    redeemBinding := none
    thirdPartyCaveatKeys := none
    redeemUsed := false
    threshold := none
    thresholdCommitments := none
    leaseExpiresAt := none
    leaseRenewalCount := 0
    revoked := false
    revokedAt := none
    revocationReason := none
    shareAssignments := none
    heldShares := none }

/-- `r'` is `r` after any number of the store's operations. -/
structure Advances (serde : Serde) (r r' : StoredEnvelopeRecord) : Prop where
  issued : r'.issued = r.issued
  metadata : ∃ n, r'.envelope.metadata = serde.reloadMetadata^[n] r.envelope.metadata
  revoked : r.revoked = true → r'.revoked = true
  redeemUsed : r.redeemUsed = true → r'.redeemUsed = true
  redeem : r'.redeemUsed = false → r'.redeemNonce = r.redeemNonce ∧ r'.redeemBinding = r.redeemBinding

/-- A caveat key from which a discharge key can be read. -/
def ThirdPartyCaveatKey.Usable (k : ThirdPartyCaveatKey) : Prop :=
  ∃ secret, Base64.standard.decode k.secretB64 = some secret ∧ secret.length = 32 ∧ k.condition.isSome

/-- `r'` is `r` after operations that leave its threshold policy alone and add usable caveat keys
only, as the handlers do once a handle has been issued. -/
structure Evolves (serde : Serde) (r r' : StoredEnvelopeRecord) : Prop extends Advances serde r r' where
  threshold : r'.threshold = r.threshold
  thresholdCommitments : r'.thresholdCommitments = r.thresholdCommitments
  caveatKeys : ∀ k ∈ r'.thirdPartyCaveatKeys.getD [], k ∈ r.thirdPartyCaveatKeys.getD [] ∨ k.Usable

section

variable {serde : Serde}

instance : IsPreorder StoredEnvelopeRecord (Advances serde) where
  refl r := ⟨rfl, ⟨0, rfl⟩, id, id, fun _ => ⟨rfl, rfl⟩⟩
  trans r₁ r₂ r₃ h h' := by
    refine ⟨h'.issued.trans h.issued, ?_, h'.revoked ∘ h.revoked, h'.redeemUsed ∘ h.redeemUsed, fun hused => ?_⟩
    · obtain ⟨m, hm⟩ := h.metadata
      obtain ⟨n, hn⟩ := h'.metadata
      exact ⟨n + m, by rw [Function.iterate_add_apply, ← hm, hn]⟩
    · have hused₂ : r₂.redeemUsed = false := by
        by_contra h₂
        rw [h'.redeemUsed (eq_true_of_ne_false h₂)] at hused
        cases hused
      exact ⟨(h'.redeem hused).1.trans (h.redeem hused₂).1, (h'.redeem hused).2.trans (h.redeem hused₂).2⟩

instance : IsPreorder StoredEnvelopeRecord (Evolves serde) where
  refl r := ⟨refl_of (Advances serde) r, rfl, rfl, fun _ hk => Or.inl hk⟩
  trans r₁ r₂ r₃ h h' := by
    refine ⟨trans_of (Advances serde) h.toAdvances h'.toAdvances, h'.threshold.trans h.threshold,
      h'.thresholdCommitments.trans h.thresholdCommitments, fun k hk => ?_⟩
    rcases h'.caveatKeys k hk with hk | hk
    · exact h.caveatKeys k hk
    · exact Or.inr hk

/-- Reading a record back is itself a step of its life. -/
theorem reload_evolves (serde : Serde) (r : StoredEnvelopeRecord) : Evolves serde r (serde.reload r) :=
  ⟨⟨rfl, ⟨1, rfl⟩, id, id, fun _ => ⟨rfl, rfl⟩⟩, rfl, rfl, fun _ hk => Or.inl hk⟩

end

/-- One operation of the store on the record of a handle that has been issued, as the handlers use it. A
token is consumed only if the secret is not renewable. -/
inductive RecordStep (serde : Serde) : StoredEnvelopeRecord → StoredEnvelopeRecord → Prop
  | load (r : StoredEnvelopeRecord) (accessedAt : DateTime) :
      RecordStep serde r { serde.reload r with lastAccessed := some accessedAt }
  | markRedeemUsed (r : StoredEnvelopeRecord) (hl : r.lifecycle ≠ .renewableLease) :
      RecordStep serde r { serde.reload r with redeemUsed := true, redeemNonce := none, redeemBinding := none }
  | renewLease (r : StoredEnvelopeRecord) (lease now : DateTime) (count : UInt32) :
      RecordStep serde r { serde.reload r with
        leaseExpiresAt := some lease, leaseRenewalCount := count, lastAccessed := some now }
  | revoke (r : StoredEnvelopeRecord) (reason : Option String) (now : DateTime) :
      RecordStep serde r { serde.reload r with
        revoked := true, revokedAt := some now, revocationReason := reason,
        redeemUsed := true, redeemNonce := none, redeemBinding := none }
  | claim {r r' : StoredEnvelopeRecord} {custodianId : String} {result : ClaimResult}
      (hclaim : SealedStore.claim custodianId (serde.reload r) = .ok (r', result)) : RecordStep serde r r'
  | appendCaveatKey (r : StoredEnvelopeRecord) {entry : ThirdPartyCaveatKey} (hentry : entry.Usable) :
      RecordStep serde r { serde.reload r with
        thirdPartyCaveatKeys := some (SealedStore.pushCaveatKey entry (r.thirdPartyCaveatKeys.getD [])) }

/-- What becomes of a record by the operations that the handlers use on it. -/
abbrev RecordSteps (serde : Serde) : StoredEnvelopeRecord → StoredEnvelopeRecord → Prop :=
  Relation.ReflTransGen (RecordStep serde)

/-- A step other than the renewal of a lease. -/
structure UnrenewedStep (serde : Serde) (r r' : StoredEnvelopeRecord) : Prop where
  step : RecordStep serde r r'
  lease : r'.leaseExpiresAt = r.leaseExpiresAt

abbrev UnrenewedSteps (serde : Serde) : StoredEnvelopeRecord → StoredEnvelopeRecord → Prop :=
  Relation.ReflTransGen (UnrenewedStep serde)

/-- No record, or one with the property. -/
def OnRecord (P : StoredEnvelopeRecord → Prop) (cell : Option StoredEnvelopeRecord) : Prop :=
  ∀ r, cell = some r → P r

/-- A property that a change keeps. -/
theorem OnRecord.follows {R : StoredEnvelopeRecord → StoredEnvelopeRecord → Prop} {P : StoredEnvelopeRecord → Prop}
    {cell cell' : Option StoredEnvelopeRecord} (h : OnRecord P cell) (hP : ∀ r r', R r r' → P r → P r')
    (hcell : Follows R cell cell') : OnRecord P cell' := by
  intro r' hr'
  obtain ⟨r, hr, hR⟩ := hcell r' hr'
  exact hP r r' hR (h r hr)

namespace SealedStore

variable (serde : Serde)

theorem modifyRecord_within {α : Type} {R : StoredEnvelopeRecord → StoredEnvelopeRecord → Prop}
    [IsPreorder _ R] (hreload : ∀ r, R r (serde.reload r)) {f : StoredEnvelopeRecord → StoredEnvelopeRecord}
    (hf : ∀ r, R r (f r)) (result : StoredEnvelopeRecord → α) : (modifyRecord serde f result).Within R := by
  refine Op.within_update (fun v r h => by cases h) fun stored v r h => ?_
  cases h
  exact trans_of R (hreload stored) (hf _)

theorem markRedeemUsed_evolves : (markRedeemUsed serde).Within (Evolves serde) := by
  refine modifyRecord_within serde (reload_evolves serde) (fun r => ?_) _
  exact ⟨⟨rfl, ⟨0, rfl⟩, id, fun _ => rfl, fun h => by cases h⟩, rfl, rfl, fun _ hk => Or.inl hk⟩

theorem appendThirdPartyCaveatKey_advances (entry : ThirdPartyCaveatKey) :
    (appendThirdPartyCaveatKey serde entry).Within (Advances serde) := by
  refine modifyRecord_within serde (fun r => (reload_evolves serde r).toAdvances) (fun r => ?_) _
  exact ⟨rfl, ⟨0, rfl⟩, id, id, fun _ => ⟨rfl, rfl⟩⟩

theorem updateThresholdConfig_advances (threshold : UInt8) (commitments : List String) :
    (updateThresholdConfig serde threshold commitments).Within (Advances serde) := by
  refine modifyRecord_within serde (fun r => (reload_evolves serde r).toAdvances) (fun r => ?_) _
  exact ⟨rfl, ⟨0, rfl⟩, id, id, fun _ => ⟨rfl, rfl⟩⟩

theorem updateShareAssignments_advances (assignments : List ShareAssignment) (heldShares : List HeldShare) :
    (updateShareAssignments serde assignments heldShares).Within (Advances serde) := by
  refine modifyRecord_within serde (fun r => (reload_evolves serde r).toAdvances) (fun r => ?_) _
  exact ⟨rfl, ⟨0, rfl⟩, id, id, fun _ => ⟨rfl, rfl⟩⟩

/-- A claim succeeds for a custodian with a share that is held and can be decoded. -/
theorem claim_eq_ok {custodianId : String} {r r' : StoredEnvelopeRecord} {result : ClaimResult} :
    claim custodianId r = .ok (r', result) ↔
      ∃ assignments held commitments assignment share y, r.shareAssignments = some assignments ∧
        r.heldShares = some held ∧ r.thresholdCommitments = some commitments ∧
        (assignments.find? fun a => a.custodianId = custodianId) = some assignment ∧
        (held.find? fun h => h.x = assignment.shareIndex) = some share ∧ Base64.standard.decode share.yB64 = some y ∧
        r' = { r with shareAssignments := some (markClaimed custodianId assignments) } ∧
        result = ⟨share.x, y, commitments.map fun c => (Base64.standard.decode c).getD [], assignment.claimed⟩ := by
  simp only [claim, Eff.except_bind_eq_ok, Eff.okOr_eq_ok, Except.ok.injEq, Prod.mk.injEq]
  constructor
  · rintro ⟨assignments, hassignments, held, hheld, commitments, hcommitments, assignment, hassignment, share, hshare, y,
      hy, rfl, rfl⟩
    exact ⟨assignments, held, commitments, assignment, share, y, hassignments, hheld, hcommitments, hassignment, hshare,
      hy, rfl, rfl⟩
  · rintro ⟨assignments, held, commitments, assignment, share, y, hassignments, hheld, hcommitments, hassignment, hshare,
      hy, rfl, rfl⟩
    exact ⟨assignments, hassignments, held, hheld, commitments, hcommitments, assignment, hassignment, share, hshare, y,
      hy, rfl, rfl⟩

/-- It changes the assignments only. -/
theorem claim_changes {custodianId : String} {r r' : StoredEnvelopeRecord} {result : ClaimResult}
    (h : claim custodianId r = .ok (r', result)) :
    ∃ assignments, r' = { r with shareAssignments := some assignments } := by
  obtain ⟨_, _, _, _, _, _, -, -, -, -, -, -, hr', -⟩ := claim_eq_ok.mp h
  exact ⟨_, hr'⟩

theorem load_steps (accessedAt : DateTime) : (load serde accessedAt).Within (RecordSteps serde) := by
  refine Op.within_update (fun v r h => by cases h) fun stored v r h => ?_
  cases h
  exact .single (.load stored accessedAt)

theorem renewLease_steps (newLeaseExpiresAt now : DateTime) :
    (renewLease serde newLeaseExpiresAt now).Within (RecordSteps serde) := by
  refine Op.within_update (fun v r h => by cases h) fun stored v r h => ?_
  cases h
  exact .single (.renewLease stored newLeaseExpiresAt now _)

theorem revoke_steps (reason : Option String) (now : DateTime) :
    (revoke serde reason now).Within (UnrenewedSteps serde) := by
  refine Op.within_update (fun v r h => by cases h) fun stored v r h => ?_
  cases h
  exact .single ⟨.revoke stored reason now, rfl⟩

theorem claimCustodianShare_steps (custodianId : String) :
    (claimCustodianShare serde custodianId).Within (UnrenewedSteps serde) := by
  refine Op.within_update (fun v r h => by cases h) fun stored v r h => ?_
  simp only at h
  split at h
  · cases h
  · next record result hclaim =>
      cases h
      obtain ⟨_, rfl⟩ := claim_changes hclaim
      exact .single ⟨.claim hclaim, rfl⟩

theorem appendThirdPartyCaveatKey_steps {entry : ThirdPartyCaveatKey} (hentry : entry.Usable) :
    (appendThirdPartyCaveatKey serde entry).Within (UnrenewedSteps serde) := by
  refine Op.within_update (fun v r h => by cases h) fun stored v r h => ?_
  cases h
  exact .single ⟨.appendCaveatKey stored hentry, rfl⟩

theorem mem_pushCaveatKey {entry k : ThirdPartyCaveatKey} {entries : List ThirdPartyCaveatKey}
    (h : k ∈ pushCaveatKey entry entries) : k ∈ entries ∨ k = entry := by
  unfold pushCaveatKey at h
  split_ifs at h
  · exact Or.inl h
  · simpa using h

end SealedStore

theorem RecordStep.evolves {serde : Serde} {r r' : StoredEnvelopeRecord} (h : RecordStep serde r r') :
    Evolves serde r r' := by
  cases h with
  | load => exact ⟨⟨rfl, ⟨1, rfl⟩, id, id, fun _ => ⟨rfl, rfl⟩⟩, rfl, rfl, fun _ hk => Or.inl hk⟩
  | markRedeemUsed =>
      exact ⟨⟨rfl, ⟨1, rfl⟩, id, fun _ => rfl, fun h => by cases h⟩, rfl, rfl, fun _ hk => Or.inl hk⟩
  | renewLease => exact ⟨⟨rfl, ⟨1, rfl⟩, id, id, fun _ => ⟨rfl, rfl⟩⟩, rfl, rfl, fun _ hk => Or.inl hk⟩
  | revoke =>
      exact ⟨⟨rfl, ⟨1, rfl⟩, fun _ => rfl, fun _ => rfl, fun h => by cases h⟩, rfl, rfl, fun _ hk => Or.inl hk⟩
  | claim hclaim =>
      obtain ⟨assignments, rfl⟩ := SealedStore.claim_changes hclaim
      exact ⟨⟨rfl, ⟨1, rfl⟩, id, id, fun _ => ⟨rfl, rfl⟩⟩, rfl, rfl, fun _ hk => Or.inl hk⟩
  | appendCaveatKey hentry =>
      refine ⟨⟨rfl, ⟨1, rfl⟩, id, id, fun _ => ⟨rfl, rfl⟩⟩, rfl, rfl, fun k hk => ?_⟩
      rcases SealedStore.mem_pushCaveatKey hk with hk | rfl
      · exact Or.inl hk
      · exact Or.inr hentry

theorem UnrenewedSteps.steps {serde : Serde} {r r' : StoredEnvelopeRecord} (h : UnrenewedSteps serde r r') :
    RecordSteps serde r r' := by
  have hle : UnrenewedStep serde ≤ RecordStep serde := fun _ _ hstep => hstep.step
  exact Relation.ReflTransGen.mono hle _ _ h

/-- So the record only evolves by any number of steps. -/
theorem RecordSteps.evolves {serde : Serde} {r r' : StoredEnvelopeRecord} (h : RecordSteps serde r r') :
    Evolves serde r r' := by
  induction h with
  | refl => exact refl_of (Evolves serde) r
  | tail _ hstep ih => exact trans_of (Evolves serde) ih hstep.evolves

end SecretBroker
