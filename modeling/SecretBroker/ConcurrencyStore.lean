import SecretBroker.RecordLifetime

/-! Requests that work on one handle at the same time. Each operation of the sealed store reads the
record and writes a whole record later, with the steps of other operations in between. Their effect
is that of a sequential order as long as no write is stale; a stale write, even that of a `load`,
brings a revoked record back. -/

open Wire Register

namespace SecretBroker

/-- An operation on the handle, with its arguments and the time it reads. -/
inductive StoreCall where
  | load (accessedAt : DateTime)
  | markRedeemUsed
  | revoke (reason : Option String) (now : DateTime)
  | renewLease (newLeaseExpiresAt now : DateTime)
  | claimCustodianShare (custodianId : String)
  | appendThirdPartyCaveatKey (entry : ThirdPartyCaveatKey)
  | updateThresholdConfig (threshold : UInt8) (commitments : List String)
  | updateShareAssignments (assignments : List ShareAssignment) (heldShares : List HeldShare)
  | delete

/-- What the operations return. -/
inductive StoreResult where
  | record (result : Except String (Option StoredEnvelopeRecord))
  | unit (result : Except String Unit)
  | flag (result : Except String Bool)
  | renewed (result : Except String StoredEnvelopeRecord)
  | share (result : Except String ClaimResult)

def StoreCall.op (serde : Serde) : StoreCall → Op StoredEnvelopeRecord StoreResult
  | .load accessedAt => (SealedStore.load serde accessedAt).map .record
  | .markRedeemUsed => (SealedStore.markRedeemUsed serde).map .unit
  | .revoke reason now => (SealedStore.revoke serde reason now).map .flag
  | .renewLease newLeaseExpiresAt now => (SealedStore.renewLease serde newLeaseExpiresAt now).map .renewed
  | .claimCustodianShare custodianId => (SealedStore.claimCustodianShare serde custodianId).map .share
  | .appendThirdPartyCaveatKey entry => (SealedStore.appendThirdPartyCaveatKey serde entry).map .unit
  | .updateThresholdConfig threshold commitments =>
      (SealedStore.updateThresholdConfig serde threshold commitments).map .unit
  | .updateShareAssignments assignments heldShares =>
      (SealedStore.updateShareAssignments serde assignments heldShares).map .unit
  | .delete => SealedStore.delete.map .flag

theorem StoreCall.op_advances (serde : Serde) (call : StoreCall) : (call.op serde).Within (Advances serde) := by
  have hweaken : ∀ r r', RecordSteps serde r r' → Advances serde r r' := fun _ _ h => h.evolves.toAdvances
  cases call with
  | load accessedAt => exact ((SealedStore.load_steps serde accessedAt).mono hweaken).map _
  | markRedeemUsed => exact ((SealedStore.markRedeemUsed_evolves serde).mono fun _ _ h => h.toAdvances).map _
  | revoke reason now => exact ((SealedStore.revoke_steps serde reason now).mono fun _ _ h => hweaken _ _ h.steps).map _
  | renewLease expiry now => exact ((SealedStore.renewLease_steps serde expiry now).mono hweaken).map _
  | claimCustodianShare custodianId =>
      exact ((SealedStore.claimCustodianShare_steps serde custodianId).mono fun _ _ h => hweaken _ _ h.steps).map _
  | appendThirdPartyCaveatKey entry => exact (SealedStore.appendThirdPartyCaveatKey_advances serde entry).map _
  | updateThresholdConfig threshold commitments =>
      exact (SealedStore.updateThresholdConfig_advances serde threshold commitments).map _
  | updateShareAssignments assignments heldShares =>
      exact (SealedStore.updateShareAssignments_advances serde assignments heldShares).map _
  | delete => exact (Op.within_remove _ _).map _

/-- A property that outlives every change of a record outlives every operation. -/
theorem OnRecord.keep {serde : Serde} {P : StoredEnvelopeRecord → Prop}
    (hP : ∀ r r', Advances serde r r' → P r → P r') (call : StoreCall) (cell : Option StoredEnvelopeRecord)
    (h : OnRecord P cell) : OnRecord P ((call.op serde).run cell).1 := by
  exact h.follows hP (call.op_advances serde cell)

theorem revoke_establishes (serde : Serde) (reason : Option String) (now : DateTime)
    (cell : Option StoredEnvelopeRecord) :
    OnRecord (fun r => r.revoked = true) (((StoreCall.revoke reason now).op serde).run cell).1 := by
  intro r hr
  rw [StoreCall.op, Op.run_map] at hr
  cases cell with
  | none => cases hr
  | some stored =>
      cases hr
      rfl

theorem markRedeemUsed_establishes (serde : Serde) (cell : Option StoredEnvelopeRecord) :
    OnRecord (fun r => r.redeemUsed = true) ((StoreCall.markRedeemUsed.op serde).run cell).1 := by
  intro r hr
  rw [StoreCall.op, Op.run_map] at hr
  cases cell with
  | none => cases hr
  | some stored =>
      cases hr
      rfl

theorem delete_establishes (serde : Serde) (cell : Option StoredEnvelopeRecord) :
    OnRecord (fun _ => False) ((StoreCall.delete.op serde).run cell).1 := by
  intro r hr
  cases hr

variable {ι : Type} [DecidableEq ι]

/-- The operations that have returned had the effect and the results of a sequential order; what a
revocation, a redemption or a deletion that has returned did is still in force. -/
structure NoLostUpdate (serde : Serde) (calls : ι → StoreCall) (cell : Option StoredEnvelopeRecord)
    (c : Config StoredEnvelopeRecord StoreResult ι) : Prop where
  serializable : Serializable (fun i => (calls i).op serde) cell c
  revoked : ∀ i reason now result, calls i = .revoke reason now → c.phase i = .returned result →
    OnRecord (fun r => r.revoked = true) c.cell
  redeemUsed : ∀ i result, calls i = .markRedeemUsed → c.phase i = .returned result →
    OnRecord (fun r => r.redeemUsed = true) c.cell
  deleted : ∀ i result, calls i = .delete → c.phase i = .returned result → c.cell = none

omit [DecidableEq ι] in
/-- A sequential order loses no update. -/
theorem noLostUpdate_of_serializable {serde : Serde} {calls : ι → StoreCall} {cell : Option StoredEnvelopeRecord}
    {c : Config StoredEnvelopeRecord StoreResult ι} (h : Serializable (fun i => (calls i).op serde) cell c) :
    NoLostUpdate serde calls cell c where
  serializable := h
  revoked i reason now result hcall hreturned := by
    refine h.establishes (fun j => OnRecord.keep (fun r r' hadv => hadv.revoked) (calls j)) hreturned ?_
    intro cell'
    simp only [hcall]
    exact revoke_establishes serde reason now cell'
  redeemUsed i result hcall hreturned := by
    refine h.establishes (fun j => OnRecord.keep (fun r r' hadv => hadv.redeemUsed) (calls j)) hreturned ?_
    intro cell'
    simp only [hcall]
    exact markRedeemUsed_establishes serde cell'
  deleted i result hcall hreturned := by
    have hnone : OnRecord (fun _ => False) c.cell := by
      refine h.establishes (fun j => OnRecord.keep (fun r r' _ hfalse => hfalse) (calls j)) hreturned ?_
      intro cell'
      simp only [hcall]
      exact delete_establishes serde cell'
    exact Option.eq_none_iff_forall_ne_some.mpr hnone

/-- **No lost update without stale writes.** In every run of any operations on a handle in which each
write stores what its operation would compute from the record it overwrites, no state that is reached
has lost an update. -/
theorem no_lost_update_of_current (serde : Serde) (calls : ι → StoreCall) (cell : Option StoredEnvelopeRecord)
    (sched reached : List ι) (hreached : reached <+: sched)
    (hcur : (Config.start cell).RunCurrent (fun i => (calls i).op serde) sched) :
    NoLostUpdate serde calls cell ((Config.start cell).run (fun i => (calls i).op serde) reached) :=
  noLostUpdate_of_serializable (serializable_of_current _ cell reached (hcur.of_isPrefix hreached))

/-- A single-use record without metadata. -/
def plainRecord : StoredEnvelopeRecord where
  envelope :=
    { envelopeKeyId := "key", algorithm := "mlkem768-hybrid", ciphertext := "", kyberCiphertext := "",
      customerId := "customer", exporterBinding := none, metadata := none, createdAt := ⟨0, 0⟩ }
  signature := ""
  signingKeyId := "keypair"
  signingPublicKey := ""
  signingKeyExpiresAt := none
  expiresAt := none
  lastAccessed := none
  redeemNonce := some ""
  redeemBinding := none
  unwrapPrincipalId := some "alice"
  issuedWithAuthenticatedTransport := true
  issuedByPrincipalId := some "alice"
  issuedByPeerCertSha256 := none
  issuedByAttestationDigest := none
  thirdPartyCaveatKeys := none
  redeemExpiresAt := none
  redeemUsed := false
  threshold := none
  thresholdCommitments := none
  lifecycle := .singleUseUnwrap
  leaseExpiresAt := none
  leaseRenewalCount := 0
  revoked := false
  revokedAt := none
  revocationReason := none
  shareAssignments := none
  heldShares := none

/-- Documents are read back as they were written. -/
def plainSerde : Serde where
  envelopeToVec _ := []
  reparse := id
  sharesToString _ := ""
  sharesFromStr _ := none

/-- A request that reads the record and a request that revokes it. -/
def loadAndRevoke : Fin 2 → StoreCall := ![.load ⟨10, 0⟩, .revoke none ⟨20, 0⟩]

theorem no_lost_update_of_current_in_turn :
    NoLostUpdate plainSerde loadAndRevoke (some plainRecord)
      ((Config.start (some plainRecord)).run (fun i => (loadAndRevoke i).op plainSerde) [0, 0, 1, 1]) := by
  refine no_lost_update_of_current plainSerde loadAndRevoke (some plainRecord) [0, 0, 1, 1] _ (List.prefix_refl _) ?_
  refine ⟨fun v r h => ?_, fun v r h => ?_, fun v r h => ?_, fun v r h => ?_, trivial⟩
  · cases h
  · cases h
    exact ⟨_, rfl, rfl⟩
  · cases h
  · cases h
    exact ⟨_, rfl, rfl⟩

/-- **A load undoes a revocation.** The load reads the record, the revocation reads it, writes it and
returns, and then the load writes back what it read: the stored record is not revoked, which no
sequential order of the two leads to. -/
theorem load_undoes_revoke :
    ∃ c, c = (Config.start (some plainRecord)).run (fun i => (loadAndRevoke i).op plainSerde) [0, 1, 1, 0] ∧
      c.Complete ∧ c.phase 1 = .returned (.flag (.ok true)) ∧
      c.cell = some { plainRecord with lastAccessed := some ⟨10, 0⟩ } ∧
      ¬ Serializable (fun i => (loadAndRevoke i).op plainSerde) (some plainRecord) c ∧
      ¬ NoLostUpdate plainSerde loadAndRevoke (some plainRecord) c := by
  refine ⟨_, rfl, fun i => ?_, rfl, rfl, ?_⟩
  · match i with
    | 0 => exact ⟨_, rfl⟩
    | 1 => exact ⟨_, rfl⟩
  · have hlost : ¬ NoLostUpdate plainSerde loadAndRevoke (some plainRecord)
        ((Config.start (some plainRecord)).run (fun i => (loadAndRevoke i).op plainSerde) [0, 1, 1, 0]) := by
      intro h
      have hrevoked := h.revoked 1 none ⟨20, 0⟩ _ rfl rfl _ rfl
      cases hrevoked
    exact ⟨fun h => hlost (noLostUpdate_of_serializable h), hlost⟩

end SecretBroker
