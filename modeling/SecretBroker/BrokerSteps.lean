import SecretBroker.KeyTable
import SecretBroker.Management
import SecretBroker.RecordLifetime
import SecretBroker.RedemptionSpec

/-! The steps of a request, whether it succeeds or fails. Every handler is walked through once here. It takes steps of a
few kinds only, each with what is known where it is taken; and a handler that works on an existing handle makes its one
change in the last part that can fail, so that it has only loaded records when it fails. -/

open Wire Register

namespace SecretBroker

/-- A request that creates a handle: its caller, the lifecycle and the principal asked for. -/
structure Issuance where
  handleId : Uuid
  context : BrokerClientContext
  lifecycle : SecretLifecycle
  requestedPrincipal : Option String

/-- The values of a record that bind it to the identity it was issued under. -/
structure IssuedBy (i : Issuance) (r : StoredEnvelopeRecord) : Prop where
  lifecycle : r.lifecycle = i.lifecycle
  unwrapPrincipalId : v2UnwrapPrincipal i.context i.lifecycle i.requestedPrincipal = .ok r.unwrapPrincipalId
  transport : r.issuedWithAuthenticatedTransport = i.context.authenticatedTransport
  issuer : r.issuedByPrincipalId = normalizedContextPrincipal i.context
  peerCert : r.issuedByPeerCertSha256 = i.context.peerCertSha256.map Base64.standard.encode
  attestation : r.issuedByAttestationDigest = i.context.attestationDigest.map Base64.standard.encode
  exporterBinding : r.envelope.exporterBinding = newExporterBinding i.lifecycle i.context

/-- No operation of the store changes the binding. -/
theorem IssuedBy.advances {serde : Serde} {i : Issuance} {r r' : StoredEnvelopeRecord} (h : IssuedBy i r)
    (hadv : Advances serde r r') : IssuedBy i r' where
  lifecycle := (congrArg (·.lifecycle) hadv.issued).trans h.lifecycle
  unwrapPrincipalId := by
    rw [h.unwrapPrincipalId]
    exact congrArg Except.ok (congrArg (·.unwrapPrincipalId) hadv.issued).symm
  transport := (congrArg (·.issuedWithAuthenticatedTransport) hadv.issued).trans h.transport
  issuer := (congrArg (·.issuedByPrincipalId) hadv.issued).trans h.issuer
  peerCert := (congrArg (·.issuedByPeerCertSha256) hadv.issued).trans h.peerCert
  attestation := (congrArg (·.issuedByAttestationDigest) hadv.issued).trans h.attestation
  exporterBinding := (congrArg (·.envelope.exporterBinding) hadv.issued).trans h.exporterBinding

theorem newRecord_issuedBy (env : Env) {i : Issuance} (d : PersistDraws) {input : PersistSecretV2Input}
    (hlifecycle : input.lifecycle = i.lifecycle)
    (hprincipal : v2UnwrapPrincipal i.context i.lifecycle i.requestedPrincipal = .ok input.unwrapPrincipalId)
    (encryption : EncryptionResult) (keyPair : KeyPair) (signature : Bytes) (redeemExpiresAt : DateTime)
    (leaseExpiresAt : Option DateTime) :
    IssuedBy i (newRecord env d i.context input encryption keyPair signature redeemExpiresAt leaseExpiresAt) :=
  ⟨hlifecycle, hprincipal, rfl, rfl, rfl, rfl, congrArg (newExporterBinding · i.context) hlifecycle⟩

/-- The times that a request asks for the handle that it creates. -/
structure IssueTerms where
  handleId : Uuid
  createdAt : DateTime
  ttlSeconds : Option UInt64
  initialLeaseSeconds : Option UInt64

/-- A record with the times that the request is granted. -/
structure IssueTerms.Grants (env : Env) (i : IssueTerms) (r : StoredEnvelopeRecord) : Prop where
  createdAt : r.envelope.createdAt = i.createdAt
  expiresAt : ∃ ttl, enforceTtl env i.ttlSeconds i.createdAt = .ok (r.expiresAt, ttl)
  lease : initialLease i.createdAt i.initialLeaseSeconds = some r.leaseExpiresAt

/-- What a request that seals a secret asks for. -/
structure NewSecret extends Issuance where
  createdAt : DateTime
  ttlSeconds : Option UInt64
  initialLeaseSeconds : Option UInt64

def NewSecret.terms (p : NewSecret) : IssueTerms := ⟨p.handleId, p.createdAt, p.ttlSeconds, p.initialLeaseSeconds⟩

/-- What the steps of requests depend on: the UUIDs that they draw, the ids of the signing keys that they generate with
their customers, the secrets that they seal, and the handles whose lease they renew with the time of the renewal. -/
structure Scope where
  uuids : List Uuid
  signingKeys : List (Uuid × String)
  newSecrets : List NewSecret
  renewals : List (String × DateTime)

/-- The scope of requests that draw these UUIDs and do none of the rest. -/
def Scope.drawing (uuids : List Uuid) : Scope := ⟨uuids, [], [], []⟩

/-- A step that changes only keys. -/
inductive KeyChange (scope : Scope) : Broker → Broker → Prop
  | storeKey (s : Broker) {pair : KyberKeyPair} (hkey : ∃ id ∈ scope.uuids, id.toString = pair.keyId) :
      KeyChange scope s (s.putKyber pair)
  | addKey (s : Broker) {id : Uuid} {customerId : String} (hkey : (id, customerId) ∈ scope.signingKeys) {pair : KeyPair}
      (hpair : pair.keyId = keyIdOf id) : KeyChange scope s (s.addKey pair customerId)
  | useKey (s : Broker) (keyId : String) (now : DateTime) :
      KeyChange scope s { s with keyMetadata := updateKeyUsage keyId now s.keyMetadata }

/-- A step that does not change the log. A record that exists is rewritten or removed; a new one, which has what was asked
for, is stored under a UUID that was drawn, and is completed there. -/
inductive StoreStep (env : Env) (scope : Scope) : Broker → Broker → Prop
  | key {s s' : Broker} (h : KeyChange scope s s') : StoreStep env scope s s'
  | touch {s : Broker} {id : Uuid} {r r' : StoredEnvelopeRecord} (hr : s.records id = some r)
      (hstep : UnrenewedStep env.serde r r') : StoreStep env scope s (s.putRecord id (some r'))
  | renew {s : Broker} {id : Uuid} {r : StoredEnvelopeRecord} (hr : s.records id = some r) {handle : String}
      {now : DateTime}
      (hrenewal : (handle, now) ∈ scope.renewals) (hid : parseHandleIdentifier env handle = .ok id)
      (hlive : ¬ r.isExpired now = true) {duration : UInt64} (hduration : ¬ (duration = 0 ∨ duration > 86400 * 30))
      {newLease : DateTime} (hlease : now.addSeconds (asI64 duration) = some newLease)
        (storeNow : DateTime) (count : UInt32) :
      StoreStep env scope s (s.putRecord id (some { env.serde.reload r with
        leaseExpiresAt := some (cappedLease r.expiresAt newLease), leaseRenewalCount := count,
        lastAccessed := some storeNow }))
  | remove (s : Broker) (id : Uuid) : StoreStep env scope s (s.putRecord id none)
  | issue (s : Broker) {p : NewSecret} (hp : p ∈ scope.newSecrets) (hid : p.handleId ∈ scope.uuids)
      {r : StoredEnvelopeRecord}
      (hissued : IssuedBy p.toIssuance r) (hgrants : p.terms.Grants env r) :
      StoreStep env scope s (s.putRecord p.handleId (some r))
  | amend {s : Broker} {id : Uuid} {r r' : StoredEnvelopeRecord} (hid : id ∈ scope.uuids) (hr : s.records id = some r)
      (hadv : Advances env.serde r r') (hlease : r'.leaseExpiresAt = r.leaseExpiresAt) :
      StoreStep env scope s (s.putRecord id (some r'))

/-- A step of a request. -/
inductive BrokerStep (env : Env) (scope : Scope) : Broker → Broker → Prop
  | store {s s' : Broker} (h : StoreStep env scope s s') : BrokerStep env scope s s'
  | record (s : Broker) (event : TransparencyEvent) : BrokerStep env scope s { s with log := s.log ++ [event] }

/-- A step of a request that may still fail: a record is loaded. -/
inductive AccessStep (env : Env) : Broker → Broker → Prop
  | load {s : Broker} {id : Uuid} {r : StoredEnvelopeRecord} (hr : s.records id = some r) (d : LoadDraws) :
      AccessStep env s (s.putRecord id (some (accessed env d r)))

abbrev KeyChanges (scope : Scope) : Broker → Broker → Prop := Relation.ReflTransGen (KeyChange scope)

abbrev StoreSteps (env : Env) (scope : Scope) : Broker → Broker → Prop := Relation.ReflTransGen (StoreStep env scope)

abbrev BrokerSteps (env : Env) (scope : Scope) : Broker → Broker → Prop := Relation.ReflTransGen (BrokerStep env scope)

abbrev AccessSteps (env : Env) : Broker → Broker → Prop := Relation.ReflTransGen (AccessStep env)

section

variable {env : Env} {scope : Scope} {s s' : Broker}

theorem KeyChanges.stored (h : KeyChanges scope s s') : StoreSteps env scope s s' := by
  have hle : KeyChange scope ≤ StoreStep env scope := fun _ _ hstep => .key hstep
  exact Relation.ReflTransGen.mono hle _ _ h

theorem StoreSteps.steps (h : StoreSteps env scope s s') : BrokerSteps env scope s s' := by
  have hle : StoreStep env scope ≤ BrokerStep env scope := fun _ _ hstep => .store hstep
  exact Relation.ReflTransGen.mono hle _ _ h

theorem AccessStep.store (h : AccessStep env s s') : StoreStep env scope s s' := by
  cases h with
  | load hr d => exact .touch hr ⟨.load _ d.accessedAt, rfl⟩

theorem AccessSteps.stored (h : AccessSteps env s s') : StoreSteps env scope s s' := by
  have hle : AccessStep env ≤ StoreStep env scope := fun _ _ hstep => hstep.store
  exact Relation.ReflTransGen.mono hle _ _ h

theorem AccessSteps.steps (h : AccessSteps env s s') : BrokerSteps env scope s s' := h.stored.steps

/-- More UUIDs, keys, secrets and renewals allow more. -/
structure Scope.Within (scope scope' : Scope) : Prop where
  uuids : scope.uuids ⊆ scope'.uuids
  signingKeys : scope.signingKeys ⊆ scope'.signingKeys
  newSecrets : scope.newSecrets ⊆ scope'.newSecrets
  renewals : scope.renewals ⊆ scope'.renewals

theorem StoreStep.mono {scope' : Scope} (h : StoreStep env scope s s') (hle : scope.Within scope') :
    StoreStep env scope' s s' := by
  cases h with
  | key h =>
      refine .key ?_
      cases h with
      | storeKey hkey =>
          obtain ⟨id, hid, hpair⟩ := hkey
          exact .storeKey _ ⟨id, hle.uuids hid, hpair⟩
      | addKey hkey hpair => exact .addKey _ (hle.signingKeys hkey) hpair
      | useKey keyId now => exact .useKey _ keyId now
  | touch hr hstep => exact .touch hr hstep
  | renew hr hrenewal hid hlive hduration hlease storeNow count =>
      exact .renew hr (hle.renewals hrenewal) hid hlive hduration hlease storeNow count
  | remove id => exact .remove _ id
  | issue hp hid hissued hgrants => exact .issue _ (hle.newSecrets hp) (hle.uuids hid) hissued hgrants
  | amend hid hr hadv hlease => exact .amend (hle.uuids hid) hr hadv hlease

theorem BrokerSteps.mono {scope' : Scope} (h : BrokerSteps env scope s s') (hle : scope.Within scope') :
    BrokerSteps env scope' s s' := by
  have hstep : BrokerStep env scope ≤ BrokerStep env scope' := by
    intro s s' h
    cases h with
    | store h => exact .store (h.mono hle)
    | record event => exact .record s event
  exact Relation.ReflTransGen.mono hstep _ _ h

theorem keeps_of_stored {α : Type} {m : Eff Broker Failure α} (h : Eff.Keeps (StoreSteps env scope) m) :
    Eff.Keeps (BrokerSteps env scope) m := fun s => (h s).steps

theorem keeps_of_accesses {α : Type} {m : Eff Broker Failure α} (h : Eff.Keeps (AccessSteps env) m) :
    Eff.Keeps (BrokerSteps env scope) m := fun s => (h s).steps

/-- A record is rewritten, or removed. -/
theorem steps_of_within {α : Type} {op : Op StoredEnvelopeRecord (Except String α)}
    (hop : op.Within (UnrenewedSteps env.serde)) (handle : Uuid) (s : Broker) :
    StoreSteps env scope s (s.putRecord handle (op.run (s.records handle)).1) := by
  have h := hop (s.records handle)
  generalize (op.run (s.records handle)).1 = cell at h ⊢
  cases cell with
  | none => exact .single (.remove s handle)
  | some r' =>
      obtain ⟨r, hr, hsteps⟩ := h r' rfl
      induction hsteps with
      | refl => rw [← hr, Broker.putRecord_records]
      | tail hsteps hstep ih =>
          have hlast : StoreStep env scope _ _ := .touch (Broker.putRecord_records_self s handle _) hstep
          rw [Broker.putRecord_putRecord] at hlast
          exact (ih fun _ h' => by cases h'; exact ⟨r, hr, hsteps⟩).tail hlast

/-- What becomes of the broker is what the operation makes of the record, however the disk access ends. -/
theorem rel_perform {α : Type} {R : Broker → Broker → Prop} [IsPreorder Broker R] {disk : Disk} {handle : Uuid}
    {op : Op StoredEnvelopeRecord (Except String α)} (h : R s (s.putRecord handle (op.run (s.records handle)).1)) :
    R s (perform disk handle op s).2 := by
  cases disk with
  | ok => exact h
  | failed message => exact refl_of R s
  | unflushed message => exact h

/-- An operation keeps what its effect on the record keeps. -/
theorem keeps_perform {α : Type} {R : Broker → Broker → Prop} [IsPreorder Broker R] (disk : Disk) (handle : Uuid)
    (op : Op StoredEnvelopeRecord (Except String α))
    (h : ∀ s : Broker, R s (s.putRecord handle (op.run (s.records handle)).1)) : Eff.Keeps R (perform disk handle op) :=
  fun _ => rel_perform (h _)

/-- Where the store cannot have written and then failed. -/
def Disk.Atomic : Disk → Prop
  | .unflushed _ => False
  | _ => True

/-- A store operation that fails has not touched its record. -/
def Clean {α : Type} (op : Op StoredEnvelopeRecord (Except String α)) : Prop :=
  ∀ cell e, (op.run cell).2 = .error e → (op.run cell).1 = cell

theorem modifyRecord_clean {α : Type} (serde : Serde) (f : StoredEnvelopeRecord → StoredEnvelopeRecord)
    (result : StoredEnvelopeRecord → α) : Clean (SealedStore.modifyRecord serde f result) := by
  intro cell e h
  cases cell with
  | none => rfl
  | some r => cases h

theorem revoke_clean (serde : Serde) (reason : Option String) (now : DateTime) :
    Clean (SealedStore.revoke serde reason now) := by
  intro cell e h
  cases cell with
  | none => rfl
  | some r => cases h

theorem delete_clean : Clean SealedStore.delete := by
  intro cell e h
  cases h

theorem insertWithId_clean (record : StoredEnvelopeRecord) : Clean (SealedStore.insertWithId record) := by
  intro cell e h
  cases h

theorem claimCustodianShare_clean (serde : Serde) (custodianId : String) :
    Clean (SealedStore.claimCustodianShare serde custodianId) := by
  intro cell e h
  cases cell with
  | none => rfl
  | some r =>
      simp only [SealedStore.claimCustodianShare, Op.run] at h ⊢
      cases hclaim : SealedStore.claim custodianId (serde.reload r) with
      | error e' => rfl
      | ok p =>
          rw [hclaim] at h
          cases h

/-- An operation that is all or nothing, on a disk that is. -/
theorem perform_unchanged {α : Type} {disk : Disk} (hdisk : disk.Atomic) {id : Uuid}
    {op : Op StoredEnvelopeRecord (Except String α)} (hop : Clean op) {e : Failure}
    (h : perform disk id op s = (.error e, s')) : s' = s := by
  cases disk with
  | unflushed message => exact hdisk.elim
  | failed message =>
      cases h
      rfl
  | ok =>
      cases hresult : (op.run (s.records id)).2 with
      | ok a =>
          rw [perform, hresult] at h
          cases h
      | error e' =>
          have hcell := hop _ _ hresult
          simp only [perform, hresult, hcell, Broker.putRecord_records] at h
          cases h
          rfl

/-- The change of a handler. -/
theorem perform_acts {α : Type} {A R : Broker → Broker → Prop} [IsPreorder Broker A] [IsPreorder Broker R] {disk : Disk}
    {id : Uuid} {op : Op StoredEnvelopeRecord (Except String α)} (hop : Clean op)
    (h : R s (s.putRecord id (op.run (s.records id)).1)) (f : Failure → Failure) :
    Eff.Acts disk.Atomic A R (Eff.mapError f (perform disk id op)) s := by
  refine Eff.acts_mapError ⟨rel_perform h, fun hdisk e s' hfail => ?_⟩ f
  rw [perform_unchanged hdisk hop hfail]
  exact refl_of A s

theorem keeps_check {α : Type} {R : Broker → Broker → Prop} [IsPreorder Broker R] (x : Except ServiceError α) :
    Eff.Keeps R (check x) := Eff.keeps_lift _

end

/-! ### Sealing -/

/-- The UUIDs that sealing a secret draws. -/
def PersistDraws.uuids (d : PersistDraws) : List Uuid := [d.handleId, d.envelopeKeyId, d.keyPair.keyId]

def WrapV2Request.newSecret (createdAt : DateTime) (d : PersistDraws) (context : BrokerClientContext)
    (request : WrapV2Request) : NewSecret where
  handleId := d.handleId
  context := context
  lifecycle := request.lifecycle
  requestedPrincipal := request.unwrapPrincipalId
  createdAt := createdAt
  ttlSeconds := request.ttlSeconds
  initialLeaseSeconds := request.initialLeaseSeconds

def MintV2Request.newSecret (d : MintDraws) (context : BrokerClientContext) (request : MintV2Request) : NewSecret where
  handleId := d.persist.handleId
  context := context
  lifecycle := request.lifecycle
  requestedPrincipal := request.unwrapPrincipalId
  createdAt := d.createdAt
  ttlSeconds := request.ttlSeconds
  initialLeaseSeconds := request.initialLeaseSeconds

/-- A rotation asks for no principal and no lease. -/
def RotateSecretRequest.newSecret (d : RotateDraws) (context : BrokerClientContext) (payload : RotateSecretRequest) :
    NewSecret where
  handleId := d.persist.handleId
  context := context
  lifecycle := payload.lifecycle
  requestedPrincipal := none
  createdAt := d.createdAt
  ttlSeconds := payload.ttlSeconds
  initialLeaseSeconds := none

/-- What the request asks for is what is sealed. -/
structure NewSecret.Agrees (env : Env) (p : NewSecret) (d : PersistDraws) (input : PersistSecretV2Input) : Prop where
  handleId : p.handleId = d.handleId
  lifecycle : input.lifecycle = p.lifecycle
  principal : v2UnwrapPrincipal p.context p.lifecycle p.requestedPrincipal = .ok input.unwrapPrincipalId
  createdAt : input.createdAt = p.createdAt
  expiresAt : ∃ ttl, enforceTtl env p.ttlSeconds p.createdAt = .ok (input.expiresAt, ttl)
  lease : input.initialLeaseSeconds = p.initialLeaseSeconds

section

variable (env : Env) {scope : Scope}

theorem generateMlkemKeypair_keyId {seed : Block 64} {keyId : String} {ek : Block 1184} {pair : KyberKeyPair}
    (h : generateMlkemKeypair env seed keyId = .ok (ek, pair)) : pair.keyId = keyId := by
  simp only [generateMlkemKeypair, Eff.except_bind_eq_ok] at h
  obtain ⟨⟨ek', dk⟩, -, hpair⟩ := h
  cases hpair
  rfl

theorem encryptPqc_steps (d : EncryptDraws) (data : Bytes) {id : Uuid} (hid : id ∈ scope.uuids) :
    Eff.Keeps (KeyChanges scope) (encryptPqc env d data id.toString) := by
  refine Eff.keeps_lift_bind fun generated hgenerated => ?_
  obtain ⟨ek, pair⟩ := generated
  have hkey := generateMlkemKeypair_keyId env (Eff.except_mapError_eq_ok.mp hgenerated)
  have hstore : Eff.Keeps (KeyChanges scope) (storeKyberKeypair d.kyberStore pair) :=
    keeps_storeKyberKeypair (fun s => .single (.storeKey s ⟨id, hid, hkey.symm⟩)) _
  refine Eff.keeps_bind hstore fun _ => Eff.keeps_bind (Eff.keeps_lift _) fun _ => ?_
  refine Eff.keeps_bind (Eff.keeps_lift _) fun encapsulated => ?_
  exact Eff.keeps_bind (Eff.keeps_lift _) fun _ => Eff.keeps_pure _

theorem generateKeyPair_steps {d : KeyPairDraws} {customerId : String} (hkey : (d.keyId, customerId) ∈ scope.signingKeys)
    (algorithm : String) : Eff.Keeps (KeyChanges scope) (generateKeyPair env d algorithm customerId) := by
  intro s
  cases hadmitted : admitKeyPair env d algorithm customerId s.keyMetadata with
  | error e => rw [generateKeyPair_of_error hadmitted]
  | ok pair =>
      have hpair := (newKeyPair_eq_ok (admitKeyPair_eq_ok.mp hadmitted).2.2).1
      rw [generateKeyPair_of_ok hadmitted]
      exact .single (.addKey s hkey hpair)

theorem signData_steps (checkNow usageNow : DateTime) (data : Bytes) (keyId : String) :
    Eff.Keeps (KeyChanges scope) (signData env checkNow usageNow data keyId) := by
  refine Eff.keeps_bind Eff.keeps_read fun s => Eff.keeps_bind (Eff.keeps_lift _) fun _ => ?_
  refine Eff.keeps_bind (Eff.keeps_lift _) fun _ => Eff.keeps_bind (Eff.keeps_lift _) fun _ => ?_
  refine Eff.keeps_bind (Eff.keeps_lift _) fun _ => ?_
  exact Eff.keeps_bind (Eff.keeps_modify fun s => .single (.useKey s keyId usageNow)) fun _ => Eff.keeps_pure _

/-- The record is stored in the last part, and before that only keys are. -/
theorem persist_acts {d : PersistDraws} (hfresh : d.uuids ⊆ scope.uuids) {input : PersistSecretV2Input}
    (hkey : (d.keyPair.keyId, input.customerId) ∈ scope.signingKeys) {context : BrokerClientContext}
    {R : Broker → Broker → Prop} [IsPreorder Broker R] (hR : ∀ {s s'}, KeyChanges scope s s' → R s s')
    (hput : ∀ s encryption keyPair signature redeemExpiresAt leaseExpiresAt,
      initialLease input.createdAt input.initialLeaseSeconds = some leaseExpiresAt → R s (s.putRecord d.handleId
        (some (newRecord env d context input encryption keyPair signature redeemExpiresAt leaseExpiresAt)))) (s : Broker) :
    Eff.Acts d.insertDisk.Atomic (KeyChanges scope) R (persistSecretV2WithLifecycle env d context input) s := by
  have hdrawn : d.envelopeKeyId ∈ scope.uuids := hfresh (by simp [PersistDraws.uuids])
  refine Eff.acts_lift_bind hR fun redeemExpiresAt _ => ?_
  refine Eff.acts_bind hR (Eff.keeps_mapError (encryptPqc_steps env _ _ hdrawn) _ s) fun encryption s₁ _ => ?_
  refine Eff.acts_bind hR (Eff.keeps_mapError (generateKeyPair_steps env hkey _) _ s₁) fun keyPair s₂ _ => ?_
  refine Eff.acts_bind hR (Eff.keeps_mapError (signData_steps env _ _ _ _) _ s₂) fun signature s₃ _ => ?_
  refine Eff.acts_lift_bind hR fun leaseExpiresAt hlease => ?_
  refine Eff.acts_bind_of_finishes (perform_acts (insertWithId_clean _) ?_ _) fun _ _ _ => Eff.finishes_pure _
  exact hput s₃ encryption keyPair signature redeemExpiresAt leaseExpiresAt (Eff.okOr_eq_ok.mp hlease)

theorem persist_steps {d : PersistDraws} (hfresh : d.uuids ⊆ scope.uuids) {p : NewSecret} (hp : p ∈ scope.newSecrets)
    {input : PersistSecretV2Input} (hkey : (d.keyPair.keyId, input.customerId) ∈ scope.signingKeys)
    (hinput : p.Agrees env d input) :
    Eff.Keeps (StoreSteps env scope) (persistSecretV2WithLifecycle env d p.context input) := by
  intro s
  refine (persist_acts env hfresh hkey (R := StoreSteps env scope) KeyChanges.stored ?_ s).steps
  intro s encryption keyPair signature redeemExpiresAt leaseExpiresAt hlease
  have hhandle : p.handleId ∈ scope.uuids := hinput.handleId ▸ hfresh (by simp [PersistDraws.uuids])
  have hissued := newRecord_issuedBy env d hinput.lifecycle hinput.principal encryption keyPair signature redeemExpiresAt
    leaseExpiresAt
  rw [hinput.createdAt, hinput.lease] at hlease
  rw [← hinput.handleId]
  exact .single (.issue s hp hhandle hissued ⟨hinput.createdAt, hinput.expiresAt, hlease⟩)

theorem persist_handleId {d : PersistDraws} {context : BrokerClientContext} {input : PersistSecretV2Input}
    (s : Broker) (outcome : StoredSecretOutcome) (s' : Broker)
    (h : persistSecretV2WithLifecycle env d context input s = (.ok outcome, s')) : outcome.handleId = d.handleId := by
  obtain ⟨_, _, _, _, _, _, _, _, -, -, -, -, rfl⟩ := persist_eq_ok env h
  rfl

end

section

variable (env : Env) {scope : Scope}

/-- Loading a record is an access, however it ends. -/
theorem performLoad_accesses (d : LoadDraws) (id : Uuid) :
    Eff.Keeps (AccessSteps env) (perform d.disk id (SealedStore.load env.serde d.accessedAt)) := by
  refine keeps_perform d.disk id _ fun s => ?_
  cases hr : s.records id with
  | none =>
      have hsame : s.putRecord id none = s := by rw [← hr, Broker.putRecord_records]
      change AccessSteps env s (s.putRecord id none)
      rw [hsame]
  | some r => exact .single (.load hr d)

theorem loadRecord_accesses (d : LoadDraws) (id : Uuid) : Eff.Keeps (AccessSteps env) (loadRecord env d id) :=
  Eff.keeps_bind (Eff.keeps_mapError (performLoad_accesses env d id) _) fun _ => keeps_check _

theorem loadChecked_accesses (d : LoadDraws) (id : Uuid) (validate : StoredEnvelopeRecord → Except ServiceError Unit)
    (onLoad onCheck : Failure → Failure) : Eff.Keeps (AccessSteps env) (loadChecked env d id validate onLoad onCheck) :=
  Eff.keeps_bind (Eff.keeps_mapError (performLoad_accesses env d id) _) fun _ => Eff.keeps_mapError (keeps_check _) _

/-- Writing to the log does not fail. -/
theorem recordTransparency_finishes {α : Type} (event : TransparencyEvent) (a : α) (s : Broker) :
    Eff.Finishes (BrokerSteps env scope) (recordTransparency env event >>= fun _ => pure a) s := by
  refine ⟨a, (recordTransparency env event s).2, rfl, ?_⟩
  rw [recordTransparency, Eff.modify_apply]
  split_ifs
  · exact .single (.record s event)
  · exact .refl

theorem recordTransparency_steps (event : TransparencyEvent) :
    Eff.Keeps (BrokerSteps env scope) (recordTransparency env event) := by
  intro s
  have hfinishes : Eff.Finishes (BrokerSteps env scope) _ s := recordTransparency_finishes env event () s
  have hsteps := hfinishes.steps
  rwa [Eff.bind_snd fun _ => Eff.keeps_pure _] at hsteps

/-- A handler that persists a secret goes on with a handle that it has drawn. -/
theorem persist_bind_steps {α : Type} {d : PersistDraws} (hfresh : d.uuids ⊆ scope.uuids) {p : NewSecret}
    (hp : p ∈ scope.newSecrets) {context : BrokerClientContext} (hcontext : p.context = context)
    {input : PersistSecretV2Input} (hkey : (d.keyPair.keyId, input.customerId) ∈ scope.signingKeys)
    (hinput : p.Agrees env d input) {rest : StoredSecretOutcome → Eff Broker Failure α}
    (hrest : ∀ outcome, outcome.handleId ∈ scope.uuids → Eff.Keeps (BrokerSteps env scope) (rest outcome)) :
    Eff.Keeps (BrokerSteps env scope) (persistSecretV2WithLifecycle env d context input >>= rest) := by
  subst hcontext
  have hpersist := keeps_of_stored (persist_steps env hfresh hp hkey hinput)
  refine Eff.keeps_bind_of_post hpersist (persist_handleId env) fun outcome hid => ?_
  exact hrest outcome (hid ▸ hfresh (by simp [PersistDraws.uuids]))

theorem wrap_steps {createdAt : DateTime} {d : PersistDraws} (hfresh : d.uuids ⊆ scope.uuids)
    {context : BrokerClientContext} {request : WrapV2Request}
    (hkey : (d.keyPair.keyId, requestCustomer env request.customerId) ∈ scope.signingKeys)
    (hp : request.newSecret createdAt d context ∈ scope.newSecrets) :
    Eff.Keeps (BrokerSteps env scope) (wrapSecretV2Impl env createdAt d context request) := by
  refine Eff.keeps_lift_bind fun times httl => Eff.keeps_lift_bind fun principal hprincipal => ?_
  have hbound := Eff.except_mapError_eq_ok.mp hprincipal
  refine persist_bind_steps env hfresh hp rfl hkey ?_ fun _ _ => ?_
  · exact ⟨rfl, rfl, hbound, rfl, ⟨times.2, httl⟩, rfl⟩
  exact Eff.keeps_bind (recordTransparency_steps env _) fun _ => Eff.keeps_pure _

/-- A new record is completed. -/
theorem amend_steps {α : Type} {handle : Uuid} (hhandle : handle ∈ scope.uuids)
    {f : StoredEnvelopeRecord → StoredEnvelopeRecord} (result : StoredEnvelopeRecord → α)
    (hadv : ∀ r, Advances env.serde r (f (env.serde.reload r)))
    (hlease : ∀ r, (f (env.serde.reload r)).leaseExpiresAt = r.leaseExpiresAt) (s : Broker) :
    StoreSteps env scope s
      (s.putRecord handle ((SealedStore.modifyRecord env.serde f result).run (s.records handle)).1) := by
  cases hr : s.records handle with
  | none => exact .single (.remove s handle)
  | some r => exact .single (.amend hhandle hr (hadv r) (hlease r))

theorem updateThresholdConfig_steps {handle : Uuid} (hhandle : handle ∈ scope.uuids) (threshold : UInt8)
    (commitments : List String) (s : Broker) : StoreSteps env scope s (s.putRecord handle
      ((SealedStore.updateThresholdConfig env.serde threshold commitments).run (s.records handle)).1) :=
  amend_steps env hhandle _ (fun _ => ⟨rfl, ⟨1, rfl⟩, id, id, fun _ => ⟨rfl, rfl⟩⟩) (fun _ => rfl) s

theorem updateShareAssignments_steps {handle : Uuid} (hhandle : handle ∈ scope.uuids) (assignments : List ShareAssignment)
    (heldShares : List HeldShare) (s : Broker) : StoreSteps env scope s (s.putRecord handle
      ((SealedStore.updateShareAssignments env.serde assignments heldShares).run (s.records handle)).1) :=
  amend_steps env hhandle _ (fun _ => ⟨rfl, ⟨1, rfl⟩, id, id, fun _ => ⟨rfl, rfl⟩⟩) (fun _ => rfl) s

theorem mintRedeemMaterial_steps (d : MintDraws) (custodianIds : List String) (threshold numShares : UInt8)
    {outcome : StoredSecretOutcome} (hid : outcome.handleId ∈ scope.uuids) :
    Eff.Keeps (StoreSteps env scope) (mintRedeemMaterial env d custodianIds threshold numShares outcome) := by
  refine Eff.keeps_ite (Eff.keeps_bind (Eff.keeps_lift _) fun split => ?_) (Eff.keeps_pure _)
  have hconfig := keeps_perform d.thresholdDisk _ _
    (updateThresholdConfig_steps env hid threshold (encodedCommitments split))
  have hassign := keeps_perform d.assignmentsDisk _ _
    (updateShareAssignments_steps env hid (assignShares custodianIds split) (holdShares split))
  refine Eff.keeps_bind (Eff.keeps_mapError hconfig _) fun _ => Eff.keeps_ite ?_ (Eff.keeps_pure _)
  exact Eff.keeps_bind (Eff.keeps_mapError hassign _) fun _ => Eff.keeps_pure _

theorem mint_steps {d : MintDraws} (hfresh : d.persist.uuids ⊆ scope.uuids) {context : BrokerClientContext}
    {request : MintV2Request} (hkey : (d.persist.keyPair.keyId, env.broker.defaultCustomerId) ∈ scope.signingKeys)
    (hp : request.newSecret d context ∈ scope.newSecrets) :
    Eff.Keeps (BrokerSteps env scope) (mintAeadKeyV2Impl env d context request) := by
  refine Eff.keeps_lift_bind fun times httl => Eff.keeps_bind (keeps_check _) fun _ => ?_
  refine Eff.keeps_lift_bind fun principal hprincipal => ?_
  have hbound := Eff.except_mapError_eq_ok.mp hprincipal
  refine persist_bind_steps env hfresh hp rfl hkey ?_ fun _ hhandle => ?_
  · exact ⟨rfl, rfl, hbound, rfl, ⟨times.2, httl⟩, rfl⟩
  refine Eff.keeps_bind (keeps_check _) fun _ => ?_
  refine Eff.keeps_bind (keeps_of_stored (mintRedeemMaterial_steps env d _ _ _ hhandle)) fun _ => ?_
  exact Eff.keeps_bind (recordTransparency_steps env _) fun _ => Eff.keeps_pure _

theorem rotateRedeemMaterial_acts (d : RotateDraws) (threshold numShares : UInt8) {outcome : StoredSecretOutcome}
    (hid : outcome.handleId ∈ scope.uuids) (s : Broker) :
    Eff.Acts d.thresholdDisk.Atomic Eq (StoreSteps env scope)
      (rotateRedeemMaterial env d threshold numShares outcome) s := by
  unfold rotateRedeemMaterial
  split_ifs
  · refine Eff.acts_lift_bind (fun h => h ▸ .refl) fun split _ => ?_
    have hconfig := updateThresholdConfig_steps env hid threshold (encodedCommitments split) s
    exact Eff.acts_bind_of_finishes (perform_acts (modifyRecord_clean _ _ _) hconfig _) fun _ _ _ => Eff.finishes_pure _
  · exact Eff.acts_pure _

theorem rotate_steps {d : RotateDraws} (hfresh : d.persist.uuids ⊆ scope.uuids) {context : BrokerClientContext}
    {payload : RotateSecretRequest}
    (hkey : (d.persist.keyPair.keyId, requestCustomer env payload.customerId) ∈ scope.signingKeys)
    (hp : payload.newSecret d context ∈ scope.newSecrets) :
    Eff.Keeps (BrokerSteps env scope) (rotateSecretImpl env d context payload) := by
  refine Eff.keeps_bind (keeps_check _) fun oldHandleId => ?_
  refine Eff.keeps_bind (keeps_of_accesses (loadRecord_accesses env _ _)) fun _ =>
    Eff.keeps_bind (keeps_check _) fun _ => ?_
  refine Eff.keeps_lift_bind fun times httl => Eff.keeps_bind (keeps_check _) fun _ => ?_
  refine Eff.keeps_lift_bind fun principal hprincipal => ?_
  have hbound := Eff.except_mapError_eq_ok.mp hprincipal
  refine persist_bind_steps env hfresh hp rfl hkey ?_ fun _ hhandle => ?_
  · exact ⟨rfl, rfl, hbound, rfl, ⟨times.2, httl⟩, rfl⟩
  refine Eff.keeps_bind (fun s => (rotateRedeemMaterial_acts env d _ _ hhandle s).steps.steps) fun material => ?_
  have hrevoke : Eff.Keeps (StoreSteps env scope) _ := keeps_perform d.revokeDisk oldHandleId _
    (steps_of_within (SealedStore.revoke_steps env.serde
      (some (payload.rotationReason.getD "rotated to replacement capability")) d.revokeNow) oldHandleId)
  refine Eff.keeps_bind (Eff.keeps_mapError (keeps_of_stored hrevoke) _) fun _ => ?_
  exact Eff.keeps_bind (recordTransparency_steps env _) fun _ => Eff.keeps_pure _

/-- The token of a renewable record is not consumed. -/
theorem consumeToken_acts {markDisk : Disk} {id : Uuid} {record : StoredEnvelopeRecord} {s : Broker}
    (hr : s.records id = some record) :
    Eff.Acts markDisk.Atomic (AccessSteps env) (BrokerSteps env scope)
      (consumeToken env markDisk id record.lifecycle) s := by
  unfold consumeToken
  split_ifs with hl
  · exact Eff.acts_pure _
  · refine perform_acts (modifyRecord_clean _ _ _) ?_ _
    rw [hr]
    exact .single (.store (.touch hr ⟨.markRedeemUsed record hl, rfl⟩))

theorem unwrap_acts (d : UnwrapDraws) (context : BrokerClientContext) (payload : UnwrapV2Request) (s : Broker) :
    Eff.Acts d.markDisk.Atomic (AccessSteps env) (BrokerSteps env scope) (unwrapSecretV2Impl env d context payload) s := by
  refine Eff.acts_lift_bind AccessSteps.steps fun mac _ => ?_
  refine Eff.acts_bind AccessSteps.steps (loadRecord_accesses env d.load mac.identifier s) fun record s₁ hload => ?_
  -- what was loaded is what is stored, so its lifecycle is the stored one
  have hstored : s₁.records mac.identifier = some record := by
    obtain ⟨-, _, -, -, rfl⟩ := (loadRecord_eq_ok env).mp hload
    exact Broker.putRecord_records_self _ _ _
  refine Eff.acts_bind AccessSteps.steps (Eff.keeps_read s₁) fun _ s₂ hread => ?_
  obtain ⟨-, rfl⟩ := Eff.read_eq_ok.mp hread
  refine Eff.acts_lift_bind AccessSteps.steps fun plaintext _ => ?_
  exact Eff.acts_bind_of_finishes (consumeToken_acts env hstored) fun _ s₃ _ => recordTransparency_finishes env _ _ s₃

theorem combineShares_acts (load : LoadDraws) (d : UnwrapDraws) (context : BrokerClientContext)
    (req : CombineSharesRequest) (s : Broker) :
    Eff.Acts d.markDisk.Atomic (AccessSteps env) (BrokerSteps env scope) (combineSharesImpl env load d context req) s := by
  refine Eff.acts_lift_bind AccessSteps.steps fun _ _ => Eff.acts_lift_bind AccessSteps.steps fun _ _ => ?_
  refine Eff.acts_bind AccessSteps.steps (Eff.keeps_mapError (keeps_check _) _ s) fun id s₁ _ => ?_
  refine Eff.acts_bind AccessSteps.steps (Eff.keeps_mapError (performLoad_accesses env load id) _ s₁) fun loaded s₂ _ => ?_
  refine Eff.acts_lift_bind AccessSteps.steps fun record _ => Eff.acts_lift_bind AccessSteps.steps fun shares _ => ?_
  refine Eff.acts_bind_of_finishes (Eff.acts_mapError (unwrap_acts env d _ _ s₂) _) fun result s₃ hunwrap => ?_
  -- what the unwrap returns is base64, so decoding it cannot fail
  obtain ⟨_, _, plaintext, -, -, -, rfl⟩ := unwrap_eq_ok env (Eff.mapError_eq_ok.mp hunwrap)
  have hdecode := Base64.decode_encode Base64.standard_lawful plaintext
  exact Eff.finishes_lift_bind (Eff.okOr_eq_ok.mpr hdecode) (recordTransparency_finishes env _ _ s₃)

theorem delete_acts (d : LoadDraws) (deleteDisk : Disk) (context : BrokerClientContext) (handle : String) (s : Broker) :
    Eff.Acts deleteDisk.Atomic (AccessSteps env) (BrokerSteps env scope)
      (deleteSecretImpl env d deleteDisk context handle) s := by
  refine Eff.acts_lift_bind AccessSteps.steps fun id _ => ?_
  refine Eff.acts_bind AccessSteps.steps (loadChecked_accesses env _ _ _ _ _ s) fun _ s₁ _ => ?_
  have hremove : BrokerSteps env scope s₁ (s₁.putRecord id none) := .single (.store (.remove s₁ id))
  exact Eff.acts_bind_of_finishes (perform_acts delete_clean hremove _) fun _ s₂ _ =>
    recordTransparency_finishes env _ _ s₂

/-- The key of a new third-party caveat can be used for discharges. -/
theorem newCaveatKey_usable (d : AttenuateDraws) (location condition : String) :
    (newCaveatKey d location condition).Usable :=
  ⟨d.secret.val, Base64.decode_encode Base64.standard_lawful _, d.secret.property, rfl⟩

theorem addThirdParty_acts (d : AttenuateDraws) (id : Uuid) (tp : ThirdPartyCaveatRequest) (s : Broker) :
    Eff.Acts d.appendDisk.Atomic (AccessSteps env) (StoreSteps env scope) (addThirdParty env d id tp) s := by
  refine Eff.acts_lift_bind AccessSteps.stored fun location _ =>
    Eff.acts_lift_bind AccessSteps.stored fun condition _ => ?_
  refine Eff.acts_bind_of_finishes (perform_acts (modifyRecord_clean _ _ _) ?_ _) fun _ _ _ => Eff.finishes_pure _
  exact steps_of_within
    (SealedStore.appendThirdPartyCaveatKey_steps env.serde (newCaveatKey_usable d location condition)) id s

theorem thirdPartyCaveat_acts (d : AttenuateDraws) (id : Uuid) (tp : Option ThirdPartyCaveatRequest) (s : Broker) :
    Eff.Acts d.appendDisk.Atomic (AccessSteps env) (StoreSteps env scope) (thirdPartyCaveat env d id tp) s := by
  cases tp with
  | none => exact Eff.acts_pure _
  | some tp => exact Eff.acts_bind_of_finishes (addThirdParty_acts env d id tp s) fun _ _ _ => Eff.finishes_pure _

theorem attenuate_acts (d : AttenuateDraws) (context : BrokerClientContext) (payload : AttenuateV2Request) (s : Broker) :
    Eff.Acts d.appendDisk.Atomic (AccessSteps env) (BrokerSteps env scope)
      (attenuateHandleV2Impl env d context payload) s := by
  refine Eff.acts_lift_bind AccessSteps.steps fun mac _ => Eff.acts_lift_bind AccessSteps.steps fun _ _ => ?_
  refine Eff.acts_bind AccessSteps.steps (loadRecord_accesses env _ _ s) fun record s₁ _ => ?_
  refine Eff.acts_lift_bind AccessSteps.steps fun _ _ => Eff.acts_lift_bind AccessSteps.steps fun firstParty _ => ?_
  cases payload.thirdParty with
  | none =>
      refine Eff.acts_bind AccessSteps.steps (Eff.keeps_pure _ s₁) fun thirdParty s₂ _ => ?_
      exact Eff.acts_lift_bind AccessSteps.steps fun _ _ => (recordTransparency_finishes env _ _ s₂).acts
  | some tp =>
      -- the key is stored before the last check, which a third-party caveat passes
      refine Eff.acts_bind_of_finishes ((thirdPartyCaveat_acts env d _ (some tp) s₁).mono id StoreSteps.steps)
        fun thirdParty s₂ hthird => ?_
      obtain ⟨caveat, _, -, hcaveats⟩ := Eff.bind_eq_ok.mp hthird
      obtain ⟨rfl, -⟩ := Eff.pure_eq_ok.mp hcaveats
      have hsome : Eff.rejectIf (firstParty ++ [caveat] = [])
          (ServiceError.invalidAttenuation "at least one caveat is required") = .ok () := by
        apply Eff.rejectIf_eq_ok.mpr
        simp
      exact Eff.finishes_lift_bind (Eff.except_mapError_eq_ok.mpr hsome) (recordTransparency_finishes env _ _ s₂)

theorem renewLease_acts {d : RenewDraws} (context : BrokerClientContext) {payload : RenewLeaseRequest}
    (hrenewal : (payload.handle, d.now) ∈ scope.renewals) (s : Broker) :
    Eff.Acts d.renewDisk.Atomic (AccessSteps env) (BrokerSteps env scope) (renewLeaseImpl env d context payload) s := by
  refine Eff.acts_lift_bind AccessSteps.steps fun _ hduration => Eff.acts_lift_bind AccessSteps.steps fun id hid => ?_
  refine Eff.acts_bind AccessSteps.steps (loadRecord_accesses env _ _ s) fun record s₁ hload => ?_
  have hr : s₁.records id = some record := by
    obtain ⟨-, _, -, -, rfl⟩ := (loadRecord_eq_ok env).mp hload
    exact Broker.putRecord_records_self _ _ _
  refine Eff.acts_lift_bind AccessSteps.steps fun _ _ => Eff.acts_lift_bind AccessSteps.steps fun _ _ => ?_
  refine Eff.acts_lift_bind AccessSteps.steps fun _ hlive => Eff.acts_lift_bind AccessSteps.steps fun _ _ => ?_
  refine Eff.acts_lift_bind AccessSteps.steps fun newLease hlease => ?_
  refine Eff.acts_bind_of_finishes (perform_acts (modifyRecord_clean _ _ _) ?_ _) fun _ s₂ _ =>
    recordTransparency_finishes env _ _ s₂
  rw [hr]
  exact .single (.store (.renew hr hrenewal (Eff.except_mapError_eq_ok.mp hid)
    (Eff.rejectIf_eq_ok.mp (Eff.except_mapError_eq_ok.mp hlive))
    (Eff.rejectIf_eq_ok.mp (Eff.except_mapError_eq_ok.mp hduration)) (Eff.okOr_eq_ok.mp hlease) d.storeNow _))

theorem revoke_acts (d : RevokeDraws) (context : BrokerClientContext) (payload : RevokeSecretRequest) (s : Broker) :
    Eff.Acts d.revokeDisk.Atomic (AccessSteps env) (BrokerSteps env scope) (revokeSecretImpl env d context payload) s := by
  refine Eff.acts_lift_bind AccessSteps.steps fun id _ => ?_
  refine Eff.acts_bind AccessSteps.steps (loadRecord_accesses env _ _ s) fun record s₁ _ => ?_
  refine Eff.acts_lift_bind AccessSteps.steps fun _ _ => ?_
  have hrevoke : StoreSteps env scope s₁ _ :=
    steps_of_within (SealedStore.revoke_steps env.serde payload.reason d.storeNow) id s₁
  refine Eff.acts_bind_of_finishes (perform_acts (revoke_clean _ _ _) hrevoke.steps _) fun _ s₂ _ => ?_
  exact Eff.finishes_ite (recordTransparency_finishes env _ _ s₂) (Eff.finishes_pure _)

theorem mintDischarge_acts (d : LoadDraws) (now : DateTime) (context : BrokerClientContext)
    (payload : MintDischargeRequest) (s : Broker) :
    Eff.Acts True (AccessSteps env) (BrokerSteps env scope) (mintDischargeImpl env d now context payload) s := by
  refine Eff.acts_lift_bind AccessSteps.steps fun _ _ => Eff.acts_lift_bind AccessSteps.steps fun _ _ => ?_
  refine Eff.acts_lift_bind AccessSteps.steps fun _ _ => Eff.acts_lift_bind AccessSteps.steps fun mac _ => ?_
  refine Eff.acts_bind AccessSteps.steps (loadRecord_accesses env _ _ s) fun record s₁ _ => ?_
  exact Eff.acts_lift_bind AccessSteps.steps fun discharge _ => (recordTransparency_finishes env _ _ s₁).acts

theorem claimShare_acts (d : LoadDraws) (claimDisk : Disk) (context : BrokerClientContext) (req : ClaimShareRequest)
    (s : Broker) :
    Eff.Acts claimDisk.Atomic (AccessSteps env) (BrokerSteps env scope)
      (claimShareImpl env d claimDisk context req) s := by
  refine Eff.acts_lift_bind AccessSteps.steps fun _ _ => ?_
  refine Eff.acts_bind AccessSteps.steps (Eff.keeps_mapError (keeps_check _) _ s) fun id s₁ _ => ?_
  refine Eff.acts_bind AccessSteps.steps (loadChecked_accesses env _ _ _ _ _ s₁) fun _ s₂ _ => ?_
  have hclaim : StoreSteps env scope s₂ _ :=
    steps_of_within (SealedStore.claimCustodianShare_steps env.serde req.custodianId) id s₂
  exact Eff.acts_bind_of_finishes (perform_acts (claimCustodianShare_clean _ _) hclaim.steps _) fun _ s₃ _ =>
    recordTransparency_finishes env _ _ s₃

theorem distributeShare_acts (d : LoadDraws) (context : BrokerClientContext) (req : DistributeShareRequest) (s : Broker) :
    Eff.Acts True (AccessSteps env) (BrokerSteps env scope) (distributeShareImpl env d context req) s := by
  refine Eff.acts_lift_bind AccessSteps.steps fun _ _ => Eff.acts_lift_bind AccessSteps.steps fun _ _ => ?_
  refine Eff.acts_bind AccessSteps.steps (Eff.keeps_mapError (keeps_check _) _ s) fun id s₁ _ => ?_
  refine Eff.acts_bind AccessSteps.steps (loadChecked_accesses env _ _ _ _ _ s₁) fun _ s₂ _ => ?_
  exact Eff.acts_lift_bind AccessSteps.steps fun _ _ => (recordTransparency_finishes env _ _ s₂).acts

end

end SecretBroker
