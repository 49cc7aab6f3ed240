import SecretBroker.Run
import SecretBroker.LibCoupling

/-! Two brokers whose records differ in what no check and no entry of the log depends on: the ciphertext, the signature
and the shares in custody. They answer every request alike, if opening an envelope, claiming a share and combining
shares do. -/

open Wire Register

namespace SecretBroker

/-- The part of a record that stays as it was sealed, and the shares in custody. -/
structure RecordContents where
  envelope : SecretEnvelope
  signature : String
  signingPublicKey : String
  heldShares : Option (List HeldShare)

/-- The record with other contents. -/
def RecordContents.put (x : RecordContents) (r : StoredEnvelopeRecord) : StoredEnvelopeRecord :=
  { r with
    envelope := x.envelope, signature := x.signature, signingPublicKey := x.signingPublicKey, heldShares := x.heldShares }

/-- The contents of a record. -/
def StoredEnvelopeRecord.contents (r : StoredEnvelopeRecord) : RecordContents :=
  ⟨r.envelope, r.signature, r.signingPublicKey, r.heldShares⟩

/-- A relation of records under a handle that differ in their contents, with the key pairs that both brokers have to
have. Changes to the rest of the records keep it. -/
structure RecordTwins (env : Env) where
  Twin : Uuid → StoredEnvelopeRecord → StoredEnvelopeRecord → Prop
  Pair : String → KyberKeyPair → Prop
  refl (i : Uuid) (r : StoredEnvelopeRecord) : Twin i r r
  hidden {i : Uuid} {r r' : StoredEnvelopeRecord} : Twin i r r' → ∃ ciphertext signature heldShares,
    r' = { r with
      envelope := { r.envelope with ciphertext := ciphertext }, signature := signature, heldShares := heldShares }
  update {i : Uuid} {r r' : StoredEnvelopeRecord} {f : StoredEnvelopeRecord → StoredEnvelopeRecord} : Twin i r r' →
    (∀ (x : RecordContents) r, f (x.put r) = x.put (f r)) → Twin i (f r) (f r')
  reload {i : Uuid} {r r' : StoredEnvelopeRecord} : Twin i r r' → Twin i (env.serde.reload r) (env.serde.reload r')
  assign {i : Uuid} {r r' : StoredEnvelopeRecord} (assignments : List ShareAssignment) (held : List HeldShare) :
    Twin i r r' → Twin i { r with shareAssignments := some assignments, heldShares := some held }
      { r' with shareAssignments := some assignments, heldShares := some held }

namespace RecordTwins

variable {env : Env} (t : RecordTwins env)

/-- The same broker up to twin records. -/
structure Twins (s s' : Broker) : Prop where
  records : ∀ i, Option.Rel (t.Twin i) (s.records i) (s'.records i)
  kyberTree : s'.kyberTree = s.kyberTree
  keyPairs : s'.keyPairs = s.keyPairs
  keyMetadata : s'.keyMetadata = s.keyMetadata
  log : s'.log = s.log
  pairs : ∀ keyId pair, t.Pair keyId pair → s.kyberTree keyId = some pair

/-- A key pair may be stored under this id. -/
def Free (keyId : String) : Prop := ∀ pair, ¬ t.Pair keyId pair

/-- On twin records, an operation has alike results and leaves twin records. -/
def Respects {α : Type} (i : Uuid) (Q : α → α → Prop) (op : Op StoredEnvelopeRecord (Except String α)) : Prop :=
  ∀ cell cell', Option.Rel (t.Twin i) cell cell' →
    Eff.Alike Q (op.run cell).2 (op.run cell').2 ∧ Option.Rel (t.Twin i) (op.run cell).1 (op.run cell').1

variable {t}

theorem twins_refl {s : Broker}
    (hpairs : ∀ keyId pair, t.Pair keyId pair → s.kyberTree keyId = some pair) : t.Twins s s := by
  refine ⟨fun i => ?_, rfl, rfl, rfl, rfl, hpairs⟩
  cases s.records i with
  | none => exact .none
  | some r => exact .some (t.refl i r)

theorem Twins.putRecord {s s' : Broker} (h : t.Twins s s') {i : Uuid} {cell cell' : Option StoredEnvelopeRecord}
    (hcell : Option.Rel (t.Twin i) cell cell') : t.Twins (s.putRecord i cell) (s'.putRecord i cell') := by
  refine ⟨fun j => ?_, h.kyberTree, h.keyPairs, h.keyMetadata, h.log, h.pairs⟩
  by_cases hj : j = i
  · subst hj
    rwa [Broker.putRecord_records_self, Broker.putRecord_records_self]
  · rw [Broker.putRecord_records_of_ne hj, Broker.putRecord_records_of_ne hj]
    exact h.records j

theorem Twins.putKyber {s s' : Broker} (h : t.Twins s s') {pair : KyberKeyPair} (hfree : t.Free pair.keyId) :
    t.Twins (s.putKyber pair) (s'.putKyber pair) := by
  have htree : (s'.putKyber pair).kyberTree = (s.putKyber pair).kyberTree := by simp only [Broker.putKyber, h.kyberTree]
  refine ⟨h.records, htree, h.keyPairs, h.keyMetadata, h.log, fun keyId kept hkept => ?_⟩
  have hne : keyId ≠ pair.keyId := fun heq => hfree kept (heq ▸ hkept)
  exact (Function.update_of_ne hne _ _).trans (h.pairs keyId kept hkept)

theorem perform_coupled {α : Type} {i : Uuid} {Q : α → α → Prop} {op : Op StoredEnvelopeRecord (Except String α)}
    (hop : t.Respects i Q op) (disk : Disk) : Eff.Coupled t.Twins Q (perform disk i op) (perform disk i op) := by
  intro s s' h
  obtain ⟨halike, hcell⟩ := hop _ _ (h.records i)
  cases disk with
  | ok => exact ⟨halike.mapError _, h.putRecord hcell⟩
  | failed message => exact ⟨.error _, h⟩
  | unflushed message => exact ⟨.error _, h.putRecord hcell⟩

section

variable {α : Type} {i : Uuid} {Q : α → α → Prop}
  {plan : Option StoredEnvelopeRecord → Plan StoredEnvelopeRecord (Except String α)} {missing : Except String α}
  (f : StoredEnvelopeRecord → StoredEnvelopeRecord) (result : StoredEnvelopeRecord → α)
  (hnone : plan none = .done missing) (hmissing : Eff.Alike Q missing missing)
  (hsome : ∀ r, plan (some r) = .write (f (env.serde.reload r)) (.ok (result (f (env.serde.reload r)))))
include hnone hmissing hsome

/-- An operation that rewrites a record that is there. -/
theorem respects_update (hf : ∀ r r', t.Twin i r r' → t.Twin i (f r) (f r'))
    (hQ : ∀ r r', t.Twin i r r' → Q (result r) (result r')) : t.Respects i Q (.update plan) := by
  intro cell cell' h
  cases h with
  | none =>
      rw [Op.run, hnone]
      exact ⟨hmissing, .none⟩
  | some h =>
      rw [Op.run, Op.run, hsome, hsome]
      have htwin := hf _ _ (t.reload h)
      exact ⟨.ok (hQ _ _ htwin), .some htwin⟩

/-- An operation that leaves the contents of the record as they are. -/
theorem respects_rewrite (hf : ∀ (x : RecordContents) r, f (x.put r) = x.put (f r))
    (hQ : ∀ r r', t.Twin i r r' → Q (result r) (result r')) : t.Respects i Q (.update plan) :=
  respects_update f result hnone hmissing hsome (fun _ _ h => t.update h hf) hQ

end

theorem load_respects (i : Uuid) (accessedAt : DateTime) :
    t.Respects i (Option.Rel (t.Twin i)) (SealedStore.load env.serde accessedAt) :=
  respects_rewrite (fun r => { r with lastAccessed := some accessedAt }) some rfl (.ok .none) (fun _ => rfl)
    (fun _ _ => rfl)
    fun _ _ h => .some h

theorem modifyRecord_respects {α : Type} (i : Uuid) {f : StoredEnvelopeRecord → StoredEnvelopeRecord}
    (hf : ∀ (x : RecordContents) r, f (x.put r) = x.put (f r)) {result : StoredEnvelopeRecord → α} {Q : α → α → Prop}
    (hQ : ∀ r r', t.Twin i r r' → Q (result r) (result r')) :
    t.Respects i Q (SealedStore.modifyRecord env.serde f result) :=
  respects_rewrite f result rfl (.error _) (fun _ => rfl) hf hQ

theorem updateThresholdConfig_respects (i : Uuid) (threshold : UInt8) (commitments : List String) :
    t.Respects i Eq (SealedStore.updateThresholdConfig env.serde threshold commitments) :=
  modifyRecord_respects i (fun _ _ => rfl) fun _ _ _ => rfl

theorem markRedeemUsed_respects (i : Uuid) : t.Respects i Eq (SealedStore.markRedeemUsed env.serde) :=
  modifyRecord_respects i (fun _ _ => rfl) fun _ _ _ => rfl

theorem appendThirdPartyCaveatKey_respects (i : Uuid) (entry : ThirdPartyCaveatKey) :
    t.Respects i Eq (SealedStore.appendThirdPartyCaveatKey env.serde entry) :=
  modifyRecord_respects i (fun _ _ => rfl) fun _ _ _ => rfl

theorem renewLease_respects (i : Uuid) (lease now : DateTime) :
    t.Respects i (t.Twin i) (SealedStore.renewLease env.serde lease now) :=
  modifyRecord_respects i (fun _ _ => rfl) fun _ _ h => h

theorem updateShareAssignments_respects (i : Uuid) (assignments : List ShareAssignment) (heldShares : List HeldShare) :
    t.Respects i Eq (SealedStore.updateShareAssignments env.serde assignments heldShares) :=
  respects_update (fun r => { r with shareAssignments := some assignments, heldShares := some heldShares })
    (fun _ => ()) rfl
    (.error _) (fun _ => rfl) (fun _ _ h => t.assign assignments heldShares h) fun _ _ _ => rfl

theorem revoke_respects (i : Uuid) (reason : Option String) (now : DateTime) :
    t.Respects i Eq (SealedStore.revoke env.serde reason now) :=
  respects_rewrite (fun r => { r with
      revoked := true, revokedAt := some now, revocationReason := reason,
      redeemUsed := true, redeemNonce := none, redeemBinding := none }) (fun _ => true) rfl (.ok rfl) (fun _ => rfl)
    (fun _ _ => rfl) fun _ _ _ => rfl

theorem insertWithId_respects (i : Uuid) (record : StoredEnvelopeRecord) :
    t.Respects i Eq (SealedStore.insertWithId record) := fun _ _ _ => ⟨.ok rfl, .some (t.refl i record)⟩

theorem delete_respects (i : Uuid) : t.Respects i Eq SealedStore.delete := by
  intro cell cell' h
  cases h with
  | none => exact ⟨.ok rfl, .none⟩
  | some h => exact ⟨.ok rfl, .none⟩

/-- A claim respects twins if it is alike on twin records. -/
theorem claimCustodianShare_respects {i : Uuid} {custodianId : String} {Q : ClaimResult → ClaimResult → Prop}
    (hclaim : ∀ r r', t.Twin i r r' → Eff.Alike (fun p p' => t.Twin i p.1 p'.1 ∧ Q p.2 p'.2)
      (SealedStore.claim custodianId r) (SealedStore.claim custodianId r')) :
    t.Respects i Q (SealedStore.claimCustodianShare env.serde custodianId) := by
  intro cell cell' h
  cases h with
  | none => exact ⟨.error _, .none⟩
  | @some r r' h =>
      have halike := hclaim _ _ (t.reload h)
      simp only [SealedStore.claimCustodianShare, Op.run]
      revert halike
      generalize SealedStore.claim custodianId (env.serde.reload r) = p,
        SealedStore.claim custodianId (env.serde.reload r') = p'
      intro halike
      cases halike with
      | error e => exact ⟨.error e, .some h⟩
      | ok hp => exact ⟨.ok hp.2, .some hp.1⟩

/-! ### Handlers -/

theorem coupled_checkEq {α : Type} {x x' : Except ServiceError α} (h : x' = x) :
    Eff.Coupled t.Twins Eq (check x) (check x') := by
  rw [h]
  exact Eff.coupled_check _

theorem recordTransparency_coupled {event event' : TransparencyEvent} (h : event' = event) :
    Eff.Coupled t.Twins Eq (recordTransparency env event) (recordTransparency env event') := by
  subst h
  apply Eff.coupled_modify
  intro s s' h
  split_ifs
  · exact ⟨h.records, h.kyberTree, h.keyPairs, h.keyMetadata, congrArg (· ++ [event']) h.log, h.pairs⟩
  · exact h

theorem Twins.recorded {s s' u u' : Broker} (h : t.Twins u u') {event event' : TransparencyEvent} (hevent : event' = event)
    {x x' : Unit} (hlog : recordTransparency env event u = (.ok x, s))
    (hlog' : recordTransparency env event' u' = (.ok x', s')) : t.Twins s s' := by
  have hafter := (recordTransparency_coupled hevent u u' h).2
  rwa [hlog, hlog'] at hafter

theorem loadRecord_coupled (d : LoadDraws) (i : Uuid) :
    Eff.Coupled t.Twins (t.Twin i) (loadRecord env d i) (loadRecord env d i) := by
  refine Eff.coupled_bind (Eff.coupled_mapError (perform_coupled (load_respects i d.accessedAt) d.disk) _) ?_
  intro loaded loaded' h
  cases h with
  | none => exact Eff.coupled_lift (.error _)
  | some h => exact Eff.coupled_lift (.ok h)

theorem loadChecked_coupled (d : LoadDraws) (i : Uuid) {validate : StoredEnvelopeRecord → Except ServiceError Unit}
    (hvalidate : ∀ r r', t.Twin i r r' → validate r' = validate r) (onLoad onCheck : Failure → Failure) :
    Eff.Coupled t.Twins Eq (loadChecked env d i validate onLoad onCheck)
      (loadChecked env d i validate onLoad onCheck) := by
  refine Eff.coupled_bind (Eff.coupled_mapError (perform_coupled (load_respects i d.accessedAt) d.disk) _) ?_
  intro loaded loaded' h
  cases h with
  | none => exact Eff.coupled_mapError (coupled_checkEq rfl) _
  | some h => exact Eff.coupled_mapError (coupled_checkEq (hvalidate _ _ h)) _

theorem storeKyberKeypair_coupled (disk : Disk) {pair : KyberKeyPair} (hfree : t.Free pair.keyId) :
    Eff.Coupled t.Twins Eq (storeKyberKeypair disk pair) (storeKyberKeypair disk pair) := by
  intro s s' h
  cases disk with
  | ok => exact ⟨.ok rfl, h.putKyber hfree⟩
  | failed message => exact ⟨.error _, h⟩
  | unflushed message => exact ⟨.error _, h.putKyber hfree⟩

theorem encryptPqc_coupled (d : EncryptDraws) (data : Bytes) {envelopeKeyId : String} (hfree : t.Free envelopeKeyId) :
    Eff.Coupled t.Twins Eq (encryptPqc env d data envelopeKeyId) (encryptPqc env d data envelopeKeyId) := by
  refine Eff.coupled_bind (Eff.coupled_passed _) fun generated generated' hgenerated => ?_
  obtain ⟨rfl, hgenerated⟩ := hgenerated
  have hid : generated'.2.keyId = envelopeKeyId := by
    simp only [generateMlkemKeypair, Eff.except_mapError_eq_ok, Eff.except_bind_eq_ok] at hgenerated
    obtain ⟨keys, -, hpair⟩ := hgenerated
    cases hpair
    rfl
  refine Eff.coupled_bind_eq (storeKyberKeypair_coupled _ (hid ▸ hfree)) fun _ => ?_
  refine Eff.coupled_bind_eq (Eff.coupled_check _) fun _ =>
    Eff.coupled_bind_eq (Eff.coupled_check _) fun encapsulated => ?_
  exact Eff.coupled_bind_eq (Eff.coupled_check _) fun _ => Eff.coupled_pure rfl

theorem generateKeyPair_coupled (d : KeyPairDraws) (algorithm customerId : String) :
    Eff.Coupled t.Twins Eq (generateKeyPair env d algorithm customerId) (generateKeyPair env d algorithm customerId) := by
  refine Eff.coupled_bind_eq (Eff.coupled_check _) fun _ => Eff.coupled_bind Eff.coupled_read fun s s' hs => ?_
  rw [hs.keyMetadata]
  refine Eff.coupled_bind_eq (Eff.coupled_check _) fun _ => Eff.coupled_bind_eq (Eff.coupled_check _) fun keys => ?_
  refine Eff.coupled_bind_eq (Eff.coupled_check _) fun _ => Eff.coupled_bind_eq (Eff.coupled_check _) fun _ => ?_
  refine Eff.coupled_bind_eq (Eff.coupled_modify fun u u' h => ?_) fun _ => Eff.coupled_pure rfl
  exact ⟨h.records, h.kyberTree, congrArg (insertKeyPair _) h.keyPairs, congrArg (insertKeyMetadata _) h.keyMetadata,
    h.log, h.pairs⟩

theorem signData_coupled (checkNow usageNow : DateTime) (data : Bytes) (keyId : String) :
    Eff.Coupled t.Twins Eq (signData env checkNow usageNow data keyId) (signData env checkNow usageNow data keyId) := by
  refine Eff.coupled_bind Eff.coupled_read fun s s' hs => ?_
  rw [hs.keyPairs]
  refine Eff.coupled_bind_eq (Eff.coupled_check _) fun _ => Eff.coupled_bind_eq (Eff.coupled_check _) fun _ => ?_
  refine Eff.coupled_bind_eq (Eff.coupled_check _) fun _ => Eff.coupled_bind_eq (Eff.coupled_check _) fun _ => ?_
  refine Eff.coupled_bind_eq (Eff.coupled_modify fun u u' h => ?_) fun _ => Eff.coupled_pure rfl
  exact ⟨h.records, h.kyberTree, h.keyPairs, congrArg (updateKeyUsage keyId usageNow) h.keyMetadata, h.log, h.pairs⟩

theorem persist_coupled {d : PersistDraws} (hfree : t.Free d.envelopeKeyId.toString) (context : BrokerClientContext)
    (input : PersistSecretV2Input) :
    Eff.Coupled t.Twins Eq (persistSecretV2WithLifecycle env d context input)
      (persistSecretV2WithLifecycle env d context input) := by
  refine Eff.coupled_bind_eq (Eff.coupled_check _) fun redeemExpiresAt => ?_
  refine Eff.coupled_bind_eq (Eff.coupled_mapError (encryptPqc_coupled _ _ hfree) _) fun encryption => ?_
  refine Eff.coupled_bind_eq (Eff.coupled_mapError (generateKeyPair_coupled _ _ _) _) fun keyPair => ?_
  refine Eff.coupled_bind_eq (Eff.coupled_mapError (signData_coupled _ _ _ _) _) fun signature => ?_
  refine Eff.coupled_bind_eq (Eff.coupled_check _) fun leaseExpiresAt => ?_
  refine Eff.coupled_bind_eq (Eff.coupled_mapError (perform_coupled (insertWithId_respects _ _) _) _) fun _ => ?_
  exact Eff.coupled_pure rfl

theorem wrap_coupled (createdAt : DateTime) {d : PersistDraws} (hfree : t.Free d.envelopeKeyId.toString)
    (context : BrokerClientContext) (request : WrapV2Request) :
    Eff.Coupled t.Twins Eq (wrapSecretV2Impl env createdAt d context request)
      (wrapSecretV2Impl env createdAt d context request) := by
  refine Eff.coupled_bind_eq (Eff.coupled_check _) fun ttl => Eff.coupled_bind_eq (coupled_checkEq rfl) fun principal => ?_
  refine Eff.coupled_bind_eq (persist_coupled hfree _ _) fun outcome => ?_
  exact Eff.coupled_bind_eq (recordTransparency_coupled rfl) fun _ => Eff.coupled_pure rfl

theorem mint_coupled {d : MintDraws} (hfree : t.Free d.persist.envelopeKeyId.toString) (context : BrokerClientContext)
    (request : MintV2Request) :
    Eff.Coupled t.Twins Eq (mintAeadKeyV2Impl env d context request) (mintAeadKeyV2Impl env d context request) := by
  refine Eff.coupled_bind_eq (Eff.coupled_check _) fun ttl => Eff.coupled_bind_eq (coupled_checkEq rfl) fun _ => ?_
  refine Eff.coupled_bind_eq (coupled_checkEq rfl) fun principal => ?_
  refine Eff.coupled_bind_eq (persist_coupled hfree _ _) fun outcome => ?_
  refine Eff.coupled_bind_eq (coupled_checkEq rfl) fun _ => ?_
  refine Eff.coupled_bind_eq (Eff.coupled_ite (Eff.coupled_bind_eq (Eff.coupled_check _) fun split => ?_)
    (Eff.coupled_pure rfl)) fun token => ?_
  · refine Eff.coupled_bind_eq (Eff.coupled_mapError
      (perform_coupled (updateThresholdConfig_respects _ _ _) _) _) fun _ => ?_
    refine Eff.coupled_ite ?_ (Eff.coupled_pure rfl)
    exact Eff.coupled_bind_eq (Eff.coupled_mapError (perform_coupled (updateShareAssignments_respects _ _ _) _) _)
      fun _ => Eff.coupled_pure rfl
  · exact Eff.coupled_bind_eq (recordTransparency_coupled rfl) fun _ => Eff.coupled_pure rfl

theorem rotate_coupled {d : RotateDraws} (hfree : t.Free d.persist.envelopeKeyId.toString) (context : BrokerClientContext)
    (payload : RotateSecretRequest) :
    Eff.Coupled t.Twins Eq (rotateSecretImpl env d context payload) (rotateSecretImpl env d context payload) := by
  refine Eff.coupled_bind_eq (coupled_checkEq rfl) fun oldHandleId => ?_
  refine Eff.coupled_bind (loadRecord_coupled _ _) fun record record' hrecord => ?_
  obtain ⟨ciphertext, signature, held, rfl⟩ := t.hidden hrecord
  refine Eff.coupled_bind_eq (coupled_checkEq rfl) fun _ => ?_
  refine Eff.coupled_bind_eq (Eff.coupled_check _) fun ttl => Eff.coupled_bind_eq (coupled_checkEq rfl) fun _ => ?_
  refine Eff.coupled_bind_eq (coupled_checkEq rfl) fun principal => ?_
  refine Eff.coupled_bind_eq (persist_coupled hfree _ _) fun outcome => ?_
  refine Eff.coupled_bind_eq (Eff.coupled_ite (Eff.coupled_bind_eq (Eff.coupled_check _) fun split => ?_)
    (Eff.coupled_pure rfl)) fun material => ?_
  · exact Eff.coupled_bind_eq (Eff.coupled_mapError (perform_coupled (updateThresholdConfig_respects _ _ _) _) _)
      fun _ => Eff.coupled_pure rfl
  · refine Eff.coupled_bind_eq (Eff.coupled_mapError (perform_coupled (revoke_respects _ _ _) _) _) fun _ => ?_
    exact Eff.coupled_bind_eq (recordTransparency_coupled rfl) fun _ => Eff.coupled_pure rfl

theorem attenuate_coupled (d : AttenuateDraws) (context : BrokerClientContext) (payload : AttenuateV2Request) :
    Eff.Coupled t.Twins Eq (attenuateHandleV2Impl env d context payload)
      (attenuateHandleV2Impl env d context payload) := by
  refine Eff.coupled_bind_eq (coupled_checkEq rfl) fun mac => Eff.coupled_bind_eq (coupled_checkEq rfl) fun _ => ?_
  refine Eff.coupled_bind (loadRecord_coupled _ _) fun record record' hrecord => ?_
  obtain ⟨ciphertext, signature, held, rfl⟩ := t.hidden hrecord
  refine Eff.coupled_bind_eq (coupled_checkEq rfl) fun _ => ?_
  have hthird : Eff.Coupled t.Twins Eq (thirdPartyCaveat env d mac.identifier payload.thirdParty)
      (thirdPartyCaveat env d mac.identifier payload.thirdParty) := by
    cases payload.thirdParty with
    | none => exact Eff.coupled_pure rfl
    | some tp =>
        refine Eff.coupled_bind_eq (Eff.coupled_bind_eq (coupled_checkEq rfl) fun location => ?_) fun caveat =>
          Eff.coupled_pure rfl
        refine Eff.coupled_bind_eq (coupled_checkEq rfl) fun condition => ?_
        exact Eff.coupled_bind_eq (Eff.coupled_mapError
          (perform_coupled (appendThirdPartyCaveatKey_respects _ _) _) _) fun _ => Eff.coupled_pure rfl
  refine Eff.coupled_bind_eq (coupled_checkEq rfl) fun firstParty => Eff.coupled_bind_eq hthird fun thirdParty => ?_
  refine Eff.coupled_bind_eq (coupled_checkEq rfl) fun _ => ?_
  exact Eff.coupled_bind_eq (recordTransparency_coupled rfl) fun _ => Eff.coupled_pure rfl

theorem renewLease_coupled (d : RenewDraws) (context : BrokerClientContext) (payload : RenewLeaseRequest) :
    Eff.Coupled t.Twins Eq (renewLeaseImpl env d context payload) (renewLeaseImpl env d context payload) := by
  refine Eff.coupled_bind_eq (coupled_checkEq rfl) fun _ => Eff.coupled_bind_eq (coupled_checkEq rfl) fun handleId => ?_
  refine Eff.coupled_bind (loadRecord_coupled _ _) fun record record' hrecord => ?_
  obtain ⟨ciphertext, signature, held, rfl⟩ := t.hidden hrecord
  refine Eff.coupled_bind_eq (coupled_checkEq rfl) fun _ => Eff.coupled_bind_eq (coupled_checkEq rfl) fun _ => ?_
  refine Eff.coupled_bind_eq (coupled_checkEq rfl) fun _ => Eff.coupled_bind_eq (coupled_checkEq rfl) fun _ => ?_
  refine Eff.coupled_bind_eq (Eff.coupled_check _) fun newLease => ?_
  refine Eff.coupled_bind (Eff.coupled_mapError (perform_coupled (renewLease_respects _ _ _) _) _) ?_
  intro updated updated' hupdated
  obtain ⟨ciphertext', signature', held', rfl⟩ := t.hidden hupdated
  exact Eff.coupled_bind_eq (recordTransparency_coupled rfl) fun _ => Eff.coupled_pure rfl

theorem revoke_coupled (d : RevokeDraws) (context : BrokerClientContext) (payload : RevokeSecretRequest) :
    Eff.Coupled t.Twins Eq (revokeSecretImpl env d context payload) (revokeSecretImpl env d context payload) := by
  refine Eff.coupled_bind_eq (coupled_checkEq rfl) fun handleId => ?_
  refine Eff.coupled_bind (loadRecord_coupled _ _) fun record record' hrecord => ?_
  obtain ⟨ciphertext, signature, held, rfl⟩ := t.hidden hrecord
  refine Eff.coupled_bind_eq (coupled_checkEq rfl) fun _ => ?_
  refine Eff.coupled_bind_eq (Eff.coupled_mapError (perform_coupled (revoke_respects _ _ _) _) _) fun revoked => ?_
  refine Eff.coupled_ite ?_ (Eff.coupled_pure rfl)
  exact Eff.coupled_bind_eq (recordTransparency_coupled rfl) fun _ => Eff.coupled_pure rfl

theorem mintDischarge_coupled (d : LoadDraws) (now : DateTime) (context : BrokerClientContext)
    (payload : MintDischargeRequest) :
    Eff.Coupled t.Twins Eq (mintDischargeImpl env d now context payload)
      (mintDischargeImpl env d now context payload) := by
  refine Eff.coupled_bind_eq (coupled_checkEq rfl) fun _ => Eff.coupled_bind_eq (coupled_checkEq rfl) fun _ => ?_
  refine Eff.coupled_bind_eq (coupled_checkEq rfl) fun _ => Eff.coupled_bind_eq (coupled_checkEq rfl) fun mac => ?_
  refine Eff.coupled_bind (loadRecord_coupled _ _) fun record record' hrecord => ?_
  obtain ⟨ciphertext, signature, held, rfl⟩ := t.hidden hrecord
  refine Eff.coupled_bind_eq (Eff.coupled_check _) fun discharge => ?_
  exact Eff.coupled_bind_eq (recordTransparency_coupled rfl) fun _ => Eff.coupled_pure rfl

/-- The checks of custody and of management read nothing that is hidden. -/
theorem custody_eq {i : Uuid} {r r' : StoredEnvelopeRecord} (h : t.Twin i r r') (context : BrokerClientContext) :
    validateThresholdCustodyRecordRequirements r' context = validateThresholdCustodyRecordRequirements r context := by
  obtain ⟨ciphertext, signature, held, rfl⟩ := t.hidden h
  rfl

theorem distributeShare_coupled (d : LoadDraws) (context : BrokerClientContext) (req : DistributeShareRequest) :
    Eff.Coupled t.Twins Eq (distributeShareImpl env d context req) (distributeShareImpl env d context req) := by
  refine Eff.coupled_bind_eq (Eff.coupled_check _) fun _ => Eff.coupled_bind_eq (Eff.coupled_check _) fun _ => ?_
  refine Eff.coupled_bind_eq (Eff.coupled_mapError (coupled_checkEq rfl) _) fun handleId => ?_
  refine Eff.coupled_bind_eq (loadChecked_coupled d handleId (fun _ _ h => custody_eq h _) _ _) fun _ => ?_
  refine Eff.coupled_bind_eq (Eff.coupled_check _) fun _ => ?_
  exact Eff.coupled_bind_eq (recordTransparency_coupled rfl) fun _ => Eff.coupled_pure rfl

theorem delete_coupled (d : LoadDraws) (deleteDisk : Disk) (context : BrokerClientContext) (handle : String) :
    Eff.Coupled t.Twins Eq (deleteSecretImpl env d deleteDisk context handle)
      (deleteSecretImpl env d deleteDisk context handle) := by
  refine Eff.coupled_bind_eq (coupled_checkEq rfl) fun handleId => ?_
  refine Eff.coupled_bind_eq (loadChecked_coupled d handleId (fun r r' h => ?_) _ _) fun _ => ?_
  · obtain ⟨ciphertext, signature, held, rfl⟩ := t.hidden h
    rfl
  · refine Eff.coupled_bind_eq (Eff.coupled_mapError (perform_coupled (delete_respects _) _) _) fun removed => ?_
    exact Eff.coupled_bind_eq (recordTransparency_coupled rfl) fun _ => Eff.coupled_pure rfl

/-- A claim is coupled if it is alike on twin records, up to what the log shows of its result. -/
theorem claimShare_coupled {d : LoadDraws} {claimDisk : Disk} {context : BrokerClientContext} {req : ClaimShareRequest}
    {Q : Uuid → ClaimResult → ClaimResult → Prop}
    (hclaim : ∀ i r r', t.Twin i r r' → Eff.Alike (fun p p' => t.Twin i p.1 p'.1 ∧ Q i p.2 p'.2)
      (SealedStore.claim req.custodianId r) (SealedStore.claim req.custodianId r'))
    (hshown : ∀ i p p', Q i p p' → p'.x = p.x ∧ p'.previouslyClaimed = p.previouslyClaimed) :
    Eff.Coupled t.Twins (fun p p' => ∃ i, parseHandleIdentifier env req.handle = .ok i ∧ Q i p p')
      (claimShareImpl env d claimDisk context req) (claimShareImpl env d claimDisk context req) := by
  refine Eff.coupled_bind_eq (Eff.coupled_check _) fun _ => ?_
  refine Eff.coupled_bind (Eff.coupled_mapError (Eff.coupled_passed _) _) fun handleId handleId' hparse => ?_
  obtain ⟨rfl, hparse⟩ := hparse
  refine Eff.coupled_bind_eq (loadChecked_coupled d handleId' (fun _ _ h => custody_eq h _) _ _) fun _ => ?_
  refine Eff.coupled_bind (Eff.coupled_mapError
    (perform_coupled (claimCustodianShare_respects (hclaim handleId')) claimDisk) _) fun p p' hp => ?_
  have hmeta : claimMeta context req.custodianId p' = claimMeta context req.custodianId p := by
    simp only [claimMeta, hshown _ _ _ hp]
  rw [hmeta]
  refine Eff.coupled_bind_eq (recordTransparency_coupled rfl) fun _ => Eff.coupled_pure ⟨handleId', ?_, hp⟩
  exact Eff.except_mapError_eq_ok.mp hparse

/-- An unwrap is coupled if opening the envelopes of twin records is alike. -/
theorem unwrap_coupled {d : UnwrapDraws} {context : BrokerClientContext} {payload : UnwrapV2Request}
    {Q : Uuid → Bytes → Bytes → Prop}
    (hchecks : ∀ mac r r' kyberTree, t.Twin mac.identifier r r' →
      (∀ keyId pair, t.Pair keyId pair → kyberTree keyId = some pair) →
        Eff.Alike (Q mac.identifier) (unwrapChecks env kyberTree d context payload mac r)
          (unwrapChecks env kyberTree d context payload mac r')) :
    Eff.Coupled t.Twins (fun response response' => ∃ mac plaintext plaintext', parseHandleV2 payload.handle = .ok mac ∧
        Q mac.identifier plaintext plaintext' ∧ response = ⟨Base64.standard.encode plaintext⟩ ∧
        response' = ⟨Base64.standard.encode plaintext'⟩)
      (unwrapSecretV2Impl env d context payload) (unwrapSecretV2Impl env d context payload) := by
  refine Eff.coupled_bind (Eff.coupled_passed _) fun mac mac' hmac => ?_
  obtain ⟨rfl, hmac⟩ := hmac
  refine Eff.coupled_bind (loadRecord_coupled _ _) fun record record' hrecord => ?_
  refine Eff.coupled_bind (Q := t.Twins) Eff.coupled_read fun s s' hs => ?_
  rw [hs.kyberTree]
  have halike := hchecks mac' record record' s.kyberTree hrecord hs.pairs
  obtain ⟨ciphertext, signature, held, rfl⟩ := t.hidden hrecord
  refine Eff.coupled_bind (Eff.coupled_lift (halike.mapError _)) fun plaintext plaintext' hplaintext => ?_
  refine Eff.coupled_bind_eq (Eff.coupled_ite (Eff.coupled_pure rfl)
    (Eff.coupled_mapError (perform_coupled (markRedeemUsed_respects _) _) _)) fun _ => ?_
  refine Eff.coupled_bind_eq (recordTransparency_coupled rfl) fun _ => Eff.coupled_pure ?_
  exact ⟨mac', plaintext, plaintext', Eff.except_mapError_eq_ok.mp hmac, hplaintext, rfl, rfl⟩

/-- Combining shares is coupled if the shares are judged alike and the unwrap that follows is coupled. -/
theorem combineShares_coupled {load : LoadDraws} {d : UnwrapDraws} {context : BrokerClientContext}
    {req : CombineSharesRequest} {Q : UnwrapResponse → UnwrapResponse → Prop} {P : Bytes → Bytes → Prop}
    (hvalidate : ∀ i r r', t.Twin i r r' →
      validateCombineSharesCustody env r' req = validateCombineSharesCustody env r req)
    (hunwrap : ∀ payload : UnwrapV2Request, payload.handle = req.handle →
      Eff.Coupled t.Twins Q (unwrapSecretV2Impl env d context payload) (unwrapSecretV2Impl env d context payload))
    (hQ : ∀ x x', Q x x' → x' = x ∨ ∃ p p', Base64.standard.decode x.plaintext = some p ∧
      Base64.standard.decode x'.plaintext = some p' ∧ P p p') :
    Eff.Coupled t.Twins (fun response response' => response' = response ∨ P response.plaintext response'.plaintext)
      (combineSharesImpl env load d context req) (combineSharesImpl env load d context req) := by
  refine Eff.coupled_bind_eq (Eff.coupled_check _) fun _ => Eff.coupled_bind_eq (Eff.coupled_check _) fun _ => ?_
  refine Eff.coupled_bind_eq (Eff.coupled_mapError (coupled_checkEq rfl) _) fun handleId => ?_
  refine Eff.coupled_bind (Eff.coupled_mapError (perform_coupled (load_respects _ _) _) _) ?_
  intro loaded loaded' hloaded
  have hrecord : Eff.Alike (t.Twin handleId) (Eff.okOr loaded (.anyhow "sealed secret handle not found"))
      (Eff.okOr loaded' (Failure.anyhow "sealed secret handle not found")) := by
    cases hloaded with
    | none => exact .error _
    | some h => exact .ok h
  refine Eff.coupled_bind (Eff.coupled_lift hrecord) fun record record' hrecord => ?_
  rw [hvalidate _ _ _ hrecord]
  obtain ⟨ciphertext, signature, held, rfl⟩ := t.hidden hrecord
  refine Eff.coupled_bind_eq (Eff.coupled_check _) fun validated => ?_
  refine Eff.coupled_bind (Eff.coupled_mapError (hunwrap _ rfl) _) fun result result' hresult => ?_
  rcases hQ _ _ hresult with rfl | ⟨p, p', hp, hp', hP⟩
  · refine Eff.coupled_bind_eq (Eff.coupled_check _) fun plaintext => ?_
    exact Eff.coupled_bind_eq (recordTransparency_coupled rfl) fun _ => Eff.coupled_pure (Or.inl rfl)
  · simp only [hp, hp', Eff.okOr_some, Eff.lift_ok_bind]
    exact Eff.coupled_bind_eq (recordTransparency_coupled rfl) fun _ => Eff.coupled_pure (Or.inr hP)

/-- Every request is coupled if the requests that read what is hidden are. -/
theorem exec_coupled {P : Reply → Reply → Prop} (hP : ∀ reply, P reply reply) (call : Call)
    (hfree : ∀ id ∈ call.uuids, t.Free id.toString)
    (hunwrap : ∀ d context payload, call = .unwrap d context payload →
      Eff.Coupled t.Twins (fun x x' => P (.unwrapped x) (.unwrapped x')) (unwrapSecretV2Impl env d context payload)
        (unwrapSecretV2Impl env d context payload))
    (hcombine : ∀ load d context req, call = .combineShares load d context req →
      Eff.Coupled t.Twins (fun x x' => P (.sharesCombined x) (.sharesCombined x'))
        (combineSharesImpl env load d context req) (combineSharesImpl env load d context req))
    (hclaim : ∀ d claimDisk context req, call = .claimShare d claimDisk context req →
      Eff.Coupled t.Twins (fun x x' => P (.shareClaimed x) (.shareClaimed x')) (claimShareImpl env d claimDisk context req)
        (claimShareImpl env d claimDisk context req)) :
    Eff.Coupled t.Twins P (call.exec env) (call.exec env) := by
  have hpersist : ∀ d : PersistDraws, d.envelopeKeyId ∈ d.uuids := fun d => by simp [PersistDraws.uuids]
  have hsame : ∀ {α : Type} {m : Eff Broker Failure α} (reply : α → Reply), Eff.Coupled t.Twins Eq m m →
      Eff.Coupled t.Twins P (m >>= fun x => pure (reply x)) (m >>= fun x => pure (reply x)) :=
    fun _ h => Eff.coupled_bind_eq h fun _ => Eff.coupled_pure (hP _)
  cases call with
  | wrap createdAt d context request => exact hsame _ (wrap_coupled createdAt (hfree _ (hpersist d)) context request)
  | mint d context request => exact hsame _ (mint_coupled (hfree _ (hpersist d.persist)) context request)
  | rotate d context payload => exact hsame _ (rotate_coupled (hfree _ (hpersist d.persist)) context payload)
  | attenuate d context payload => exact hsame _ (attenuate_coupled d context payload)
  | renewLease d context payload => exact hsame _ (renewLease_coupled d context payload)
  | revoke d context payload => exact hsame _ (revoke_coupled d context payload)
  | mintDischarge d now context payload => exact hsame _ (mintDischarge_coupled d now context payload)
  | distributeShare d context req => exact hsame _ (distributeShare_coupled d context req)
  | delete d deleteDisk context handle => exact hsame _ (delete_coupled d deleteDisk context handle)
  | unwrap d context payload => exact Eff.coupled_bind (hunwrap d context payload rfl) fun _ _ h => Eff.coupled_pure h
  | combineShares load d context req =>
      exact Eff.coupled_bind (hcombine load d context req rfl) fun _ _ h => Eff.coupled_pure h
  | claimShare d claimDisk context req =>
      exact Eff.coupled_bind (hclaim d claimDisk context req rfl) fun _ _ h => Eff.coupled_pure h

end RecordTwins

end SecretBroker
