import SecretBroker.Broker
import SecretBroker.LibRegisterRefine
import SecretBroker.MasterKeyFile
import SecretBroker.RecordJson

/-! The sealed store as it is on disk: every record encrypted under the master key, with the nonce and the
ciphertext in base64 inside a JSON object. Each operation reads the bytes of a handle, decrypts and parses them,
changes the record, encrypts it under a fresh nonce, writes it and flushes. Over any number of starts and stops of the
process, with requests interleaved, disk accesses that fail and changes that a stop loses before they are flushed, the
tree follows the record-level store: no entry ever becomes unreadable, and every answer other than an error is the
record-level one. -/

open Wire Register

namespace SecretBroker

/-- What is stored under a handle. -/
structure EncryptedRecord where
  nonce : String
  ciphertext : String

def EncryptedRecord.slots (e : EncryptedRecord) : List (String × Option Value) :=
  [field .string "nonce" e.nonce, field .string "ciphertext" e.ciphertext]

def EncryptedRecord.codec : Codec EncryptedRecord :=
  .struct ["nonce", "ciphertext"] EncryptedRecord.slots fun members => do
    let nonce ← required .string "nonce" members
    let ciphertext ← required .string "ciphertext" members
    return { nonce, ciphertext }

/-- What the store is built on. -/
structure StoreEnv where
  serde : Serde
  json : Json serde
  aesGcm : Aead
  /-- The text of the error with which a blocking task that panicked is awaited. -/
  joinError : String

/-- What was encrypted is decrypted with the same key and nonce. -/
structure StoreEnv.Lawful (env : StoreEnv) : Prop where
  decrypt : ∀ {key nonce plaintext ciphertext}, env.aesGcm.encrypt key nonce plaintext = .ok ciphertext →
    env.aesGcm.decrypt key nonce ciphertext = .ok plaintext

section Entry

variable (env : StoreEnv) (key : Block 32)

/-- The message of a failed encryption. -/
def encryptFailed : String := "failed to encrypt sealed envelope payload"

def encryptPayload (nonce : Block 12) (plaintext : Bytes) : Except String Bytes :=
  (env.aesGcm.encrypt key nonce plaintext).mapError fun _ => encryptFailed

/-- `decrypt_payload`. `Nonce::from_slice` panics on a nonce of another length, which ends the blocking task. -/
def decryptPayload (nonce ciphertext : Bytes) : Except String Bytes := do
  let nonce ← Eff.okOr (sized 12 nonce) env.joinError
  (env.aesGcm.decrypt key nonce ciphertext).mapError fun _ => "failed to decrypt sealed envelope payload"

/-- The record in a stored value. -/
def openRecord (value : Bytes) : Except String StoredEnvelopeRecord := do
  let encrypted ← Eff.okOr ((env.json.fromSlice value).bind EncryptedRecord.codec.read) "deserializing encrypted envelope"
  let nonce ← Eff.okOr (Base64.standard.decode encrypted.nonce) "decoding envelope nonce"
  let ciphertext ← Eff.okOr (Base64.standard.decode encrypted.ciphertext) "decoding envelope ciphertext"
  let plaintext ← decryptPayload env key nonce ciphertext
  Eff.okOr (recordFromSlice env.json plaintext) "deserializing sealed envelope"

/-- The stored value of a record. -/
def sealRecord (nonce : Block 12) (record : StoredEnvelopeRecord) : Except String Bytes := do
  let ciphertext ← encryptPayload env key nonce (recordToVec env.json record)
  return env.json.toVec (EncryptedRecord.codec.write
    { nonce := Base64.standard.encode nonce.val, ciphertext := Base64.standard.encode ciphertext })

variable {env key}

theorem EncryptedRecord.exact_codec {serde : Serde} (json : Json serde) : EncryptedRecord.codec.Exact serde := by
  refine Codec.exact_struct json (fun e => by simp [EncryptedRecord.slots, field]) fun e members hcarries => ?_
  refine bind_required hcarries ((Codec.exact_string json).read_write e.nonce) (by simp [EncryptedRecord.slots]) ?_
  refine bind_required hcarries ((Codec.exact_string json).read_write e.ciphertext) (by simp [EncryptedRecord.slots]) ?_
  rfl

/-- What was sealed opens under the same key. -/
theorem openRecord_sealRecord (hlaw : env.Lawful) {nonce : Block 12} {record : StoredEnvelopeRecord} {value : Bytes}
    (h : sealRecord env key nonce record = .ok value) : openRecord env key value = .ok (env.serde.reload record) := by
  simp only [sealRecord, encryptPayload, Eff.except_bind_eq_ok, Eff.except_mapError_eq_ok, pure, Except.pure,
    Except.ok.injEq] at h
  obtain ⟨ciphertext, hencrypt, rfl⟩ := h
  simp only [openRecord, env.json.fromSlice_toVec, Option.bind_some, (EncryptedRecord.exact_codec env.json).read_write,
    Eff.okOr_some, Eff.ok_bind, Base64.decode_encode Base64.standard_lawful, decryptPayload, sized_val,
    hlaw.decrypt hencrypt, Except.mapError, recordFromSlice_recordToVec]

/-- A failed encryption is all that keeps a record from being sealed. -/
theorem sealRecord_eq_error {nonce : Block 12} {record : StoredEnvelopeRecord} {e : String}
    (h : sealRecord env key nonce record = .error e) : e = encryptFailed := by
  rw [sealRecord, encryptPayload] at h
  cases hencrypt : env.aesGcm.encrypt key nonce (recordToVec env.json record) with
  | ok ciphertext =>
      rw [hencrypt] at h
      cases h
  | error e' =>
      rw [hencrypt] at h
      cases h
      rfl

end Entry

/-- What an operation draws, and the errors with which the disk answers its read, its change of the tree and the
flush after it. -/
structure Access where
  nonce : Block 12
  get : Option String
  change : Option String
  flush : Option String

/-- The result of a change that has been made. -/
def Access.flushed {α : Type} (access : Access) (a : α) : Except String α :=
  match access.flush with
  | some e => .error e
  | none => .ok a

namespace SealedDisk

section Operations

variable (env : StoreEnv) (key : Block 32) (access : Access)

/-- The value to be written, or the error that comes before it is. -/
def plan {α : Type} : Except String (Bytes × α) → Plan Bytes (Except String α)
  | .error e => .done (.error e)
  | .ok (value, a) =>
      match access.change with
      | some e => .done (.error e)
      | none => .write value (access.flushed a)

/-- Read the value of a handle, change the record in it and write it back under a fresh nonce. -/
def rewrite {α : Type} (missing : Except String α)
    (change : StoredEnvelopeRecord → Except String (StoredEnvelopeRecord × α)) : Op Bytes (Except String α) :=
  .update fun cell =>
    match access.get, cell with
    | some e, _ => .done (.error e)
    | none, none => .done missing
    | none, some value => plan access do
        let record ← openRecord env key value
        let (record, a) ← change record
        let value ← sealRecord env key access.nonce record
        return (value, a)

def insertWithId (record : StoredEnvelopeRecord) : Op Bytes (Except String Unit) :=
  .update fun _ => plan access do
    let value ← sealRecord env key access.nonce record
    return (value, ())

def load (accessedAt : DateTime) : Op Bytes (Except String (Option StoredEnvelopeRecord)) :=
  rewrite env key access (.ok none) fun record =>
    let record := { record with lastAccessed := some accessedAt }
    .ok (record, some record)

def delete : Op Bytes (Except String Bool) :=
  match access.change with
  | some e => .update fun _ => .done (.error e)
  | none => .remove fun existed => access.flushed existed

/-- The message of the operations that need a record. -/
def notFound : String := "sealed secret handle not found"

def updateThresholdConfig (threshold : UInt8) (commitments : List String) : Op Bytes (Except String Unit) :=
  rewrite env key access (.error notFound) fun record =>
    .ok ({ record with threshold := some threshold, thresholdCommitments := some commitments }, ())

def appendThirdPartyCaveatKey (entry : ThirdPartyCaveatKey) : Op Bytes (Except String Unit) :=
  rewrite env key access (.error notFound) fun record =>
    let entries := record.thirdPartyCaveatKeys.getD []
    let entries := if entries.any fun existing => existing.keyId = entry.keyId then entries else entries ++ [entry]
    .ok ({ record with thirdPartyCaveatKeys := some entries }, ())

def updateShareAssignments (assignments : List ShareAssignment) (heldShares : List HeldShare) :
    Op Bytes (Except String Unit) :=
  rewrite env key access (.error notFound) fun record =>
    .ok ({ record with shareAssignments := some assignments, heldShares := some heldShares }, ())

def claimCustodianShare (custodianId : String) : Op Bytes (Except String ClaimResult) :=
  rewrite env key access (.error notFound) (SealedStore.claim custodianId)

def markRedeemUsed : Op Bytes (Except String Unit) :=
  rewrite env key access (.error notFound) fun record =>
    .ok ({ record with redeemUsed := true, redeemNonce := none, redeemBinding := none }, ())

def renewLease (newLeaseExpiresAt now : DateTime) : Op Bytes (Except String StoredEnvelopeRecord) :=
  rewrite env key access (.error notFound) fun record =>
    let record := { record with
      leaseExpiresAt := some newLeaseExpiresAt
      leaseRenewalCount := SealedStore.saturatingSucc record.leaseRenewalCount
      lastAccessed := some now }
    .ok (record, record)

def revoke (reason : Option String) (now : DateTime) : Op Bytes (Except String Bool) :=
  rewrite env key access (.ok false) fun record =>
    .ok ({ record with
      revoked := true
      revokedAt := some now
      revocationReason := reason
      redeemUsed := true
      redeemNonce := none
      redeemBinding := none }, true)

end Operations

end SealedDisk

/-- The operations of the store, `insert_with_id` included. -/
inductive DiskCall where
  | insertWithId (record : StoredEnvelopeRecord)
  | call (c : StoreCall)

/-- The operation on the record. -/
def DiskCall.recordOp (serde : Serde) : DiskCall → Op StoredEnvelopeRecord StoreResult
  | .insertWithId record => (SealedStore.insertWithId record).map .unit
  | .call c => c.op serde

/-- The operation on the bytes. -/
def DiskCall.diskOp (env : StoreEnv) (key : Block 32) (access : Access) : DiskCall → Op Bytes StoreResult
  | .insertWithId record => (SealedDisk.insertWithId env key access record).map .unit
  | .call (.load accessedAt) => (SealedDisk.load env key access accessedAt).map .record
  | .call .markRedeemUsed => (SealedDisk.markRedeemUsed env key access).map .unit
  | .call (.revoke reason now) => (SealedDisk.revoke env key access reason now).map .flag
  | .call (.renewLease newLeaseExpiresAt now) => (SealedDisk.renewLease env key access newLeaseExpiresAt now).map .renewed
  | .call (.claimCustodianShare custodianId) => (SealedDisk.claimCustodianShare env key access custodianId).map .share
  | .call (.appendThirdPartyCaveatKey entry) => (SealedDisk.appendThirdPartyCaveatKey env key access entry).map .unit
  | .call (.updateThresholdConfig threshold commitments) =>
      (SealedDisk.updateThresholdConfig env key access threshold commitments).map .unit
  | .call (.updateShareAssignments assignments heldShares) =>
      (SealedDisk.updateShareAssignments env key access assignments heldShares).map .unit
  | .call .delete => (SealedDisk.delete access).map .flag

/-- The error in a result. -/
def StoreResult.error? : StoreResult → Option String
  | .record (.error e) => some e
  | .unit (.error e) => some e
  | .flag (.error e) => some e
  | .renewed (.error e) => some e
  | .share (.error e) => some e
  | _ => none

/-- The errors that come from the disk and the cipher, not from what is stored. -/
def Access.Reports (access : Access) (e : String) : Prop :=
  access.get = some e ∨ access.change = some e ∨ access.flush = some e ∨ e = encryptFailed

/-- The disk or the cipher is to blame for a result. -/
def Access.Fails (access : Access) (r : StoreResult) : Prop := ∃ e, r.error? = some e ∧ access.Reports e

/-- The record-level result, or an error in its place. -/
def Access.Answers (access : Access) (r' r : StoreResult) : Prop := r' = r ∨ access.Fails r'

/-- The bytes of a record under a key. -/
def Holds (env : StoreEnv) (key : Block 32) (value : Bytes) (r : StoredEnvelopeRecord) : Prop :=
  openRecord env key value = .ok (env.serde.reload r)

section Refines

variable {env : StoreEnv} {key : Block 32} {access : Access} {α : Type}

/-- A reported error in place of a result. -/
def Reported (access : Access) (r' : Except String α) : Prop := ∃ e, r' = .error e ∧ access.Reports e

theorem flushed_cases (access : Access) (a : α) : access.flushed a = .ok a ∨ Reported access (access.flushed a) := by
  cases hflush : access.flush with
  | none => exact .inl (by rw [Access.flushed, hflush])
  | some e => exact .inr ⟨e, by rw [Access.flushed, hflush], .inr (.inr (.inl hflush))⟩

/-- The plan to write a sealed record. -/
theorem plan_refines (hlaw : env.Lawful) (record : StoredEnvelopeRecord) (a : α) :
    Plan.Refines (Holds env key) (fun r' r => r' = r ∨ Reported access r') (Reported access)
      (SealedDisk.plan access do
        let value ← sealRecord env key access.nonce record
        return (value, a))
      (.write record (.ok a)) := by
  cases hseal : sealRecord env key access.nonce record with
  | error e => exact .fail ⟨e, rfl, .inr (.inr (.inr (sealRecord_eq_error hseal)))⟩
  | ok value =>
      change Plan.Refines _ _ _ (match access.change with
        | some e => .done (.error e)
        | none => .write value (access.flushed a)) _
      cases hchange : access.change with
      | some e => exact .fail ⟨e, rfl, .inr (.inl hchange)⟩
      | none => exact .write (openRecord_sealRecord hlaw hseal) (flushed_cases access a)

/-- Rewriting the bytes of a handle is rewriting its record. -/
theorem rewrite_refines (hlaw : env.Lawful) {missing : Except String α}
    {change : StoredEnvelopeRecord → Except String (StoredEnvelopeRecord × α)}
    {plan : Option StoredEnvelopeRecord → Plan StoredEnvelopeRecord (Except String α)} (hnone : plan none = .done missing)
    (hsome : ∀ stored, plan (some stored) = match change (env.serde.reload stored) with
      | .error e => .done (.error e)
      | .ok (record, a) => .write record (.ok a)) :
    Op.Refines (Holds env key) (fun r' r => r' = r ∨ Reported access r') (Reported access)
      (SealedDisk.rewrite env key access missing change) (.update plan) := by
  refine .update fun cell' cell hcell => ?_
  cases hget : access.get with
  | some e => exact .fail ⟨e, rfl, .inl hget⟩
  | none =>
      cases hcell with
      | none =>
          rw [hnone]
          exact .done (.inl rfl)
      | @some value stored hvalue =>
          have hopen : openRecord env key value = .ok (env.serde.reload stored) := hvalue
          simp only [hopen, hsome, Eff.ok_bind]
          cases change (env.serde.reload stored) with
          | error e => exact .done (.inl rfl)
          | ok result => exact plan_refines hlaw result.1 result.2

theorem fails_of_reported {f : Except String α → StoreResult} (hf : ∀ e, (f (.error e)).error? = some e)
    {r' : Except String α} (h : Reported access r') : access.Fails (f r') := by
  obtain ⟨e, rfl, he⟩ := h
  exact ⟨e, hf e, he⟩

theorem answers_map {f : Except String α → StoreResult} (hf : ∀ e, (f (.error e)).error? = some e)
    {op' : Op Bytes (Except String α)} {op : Op StoredEnvelopeRecord (Except String α)}
    (h : Op.Refines (Holds env key) (fun r' r => r' = r ∨ Reported access r') (Reported access) op' op) :
    Op.Refines (Holds env key) access.Answers access.Fails (op'.map f) (op.map f) := by
  refine h.map (fun r' r hres => ?_) fun r' => fails_of_reported hf
  rcases hres with rfl | hreported
  · exact .inl rfl
  · exact .inr (fails_of_reported hf hreported)

/-- Every operation on the bytes of a handle is the operation on its record, or fails and changes nothing. -/
theorem diskOp_refines (hlaw : env.Lawful) (call : DiskCall) :
    Op.Refines (Holds env key) access.Answers access.Fails (call.diskOp env key access) (call.recordOp env.serde) := by
  cases call with
  | insertWithId record =>
      exact answers_map (fun _ => rfl) (.update fun _ _ _ => plan_refines hlaw record ())
  | call c =>
      cases c with
      | load accessedAt => exact answers_map (fun _ => rfl) (rewrite_refines hlaw rfl fun _ => rfl)
      | markRedeemUsed => exact answers_map (fun _ => rfl) (rewrite_refines hlaw rfl fun _ => rfl)
      | revoke reason now => exact answers_map (fun _ => rfl) (rewrite_refines hlaw rfl fun _ => rfl)
      | renewLease newLeaseExpiresAt now => exact answers_map (fun _ => rfl) (rewrite_refines hlaw rfl fun _ => rfl)
      | claimCustodianShare custodianId =>
          refine answers_map (fun _ => rfl) (rewrite_refines hlaw rfl fun stored => ?_)
          cases hclaim : SealedStore.claim custodianId (env.serde.reload stored) <;> simp only [hclaim]
      | appendThirdPartyCaveatKey entry => exact answers_map (fun _ => rfl) (rewrite_refines hlaw rfl fun _ => rfl)
      | updateThresholdConfig threshold commitments =>
          exact answers_map (fun _ => rfl) (rewrite_refines hlaw rfl fun _ => rfl)
      | updateShareAssignments assignments heldShares =>
          exact answers_map (fun _ => rfl) (rewrite_refines hlaw rfl fun _ => rfl)
      | delete =>
          change Op.Refines _ _ _ ((SealedDisk.delete access).map StoreResult.flag)
            (SealedStore.delete.map StoreResult.flag)
          refine answers_map (fun _ => rfl) ?_
          rw [SealedDisk.delete]
          cases hchange : access.change with
          | some e => exact .fail ⟨e, rfl, .inr (.inl hchange)⟩
          | none => exact .remove fun existed => flushed_cases access existed

end Refines

/-! ### Starts and stops -/

/-- A request to the store. -/
structure StoreRequest where
  handle : Uuid
  call : DiskCall
  access : Access

/-- The process that has the tree open: none, one that is looking for the master key, or one that serves requests. -/
inductive StoreProcess (ι : Type) where
  | stopped (tree : Uuid → Option Bytes)
  | loading (tree : Uuid → Option Bytes) (load : KeyLoad)
  | serving (key : Block 32) (requests : ι → StoreRequest) (store : Buffered Uuid Bytes StoreResult ι)

def StoreProcess.tree {ι : Type} : StoreProcess ι → Uuid → Option Bytes
  | .stopped tree => tree
  | .loading tree _ => tree
  | .serving _ _ store => store.cell

/-- A request that has returned, with its result. -/
def StoreProcess.answer? {ι : Type} : StoreProcess ι → ι → Option (StoreRequest × StoreResult)
  | .serving _ requests store, i => (store.answer? i).map fun r => (requests i, r)
  | _, _ => none

/-- The key file, and the process. Only one process has the tree open at a time. -/
structure StoreMachine (ι : Type) where
  file : Option Bytes
  process : StoreProcess ι

/-- A disk that the store was never opened on. -/
def StoreMachine.fresh {ι : Type} : StoreMachine ι := ⟨none, .stopped fun _ => none⟩

/-- The process is started, looks for the key, takes up the requests it will serve, takes a step or makes the flush of
one of them, or is stopped. A stop loses what the log of the tree did not have on disk: the last changes since a flush
that worked, any number of them. -/
inductive StoreMachine.Step {ι : Type} [DecidableEq ι] (env : StoreEnv) (path : String) :
    StoreMachine ι → StoreMachine ι → Prop
  | start {file : Option Bytes} {tree : Uuid → Option Bytes} :
      Step env path ⟨file, .stopped tree⟩ ⟨file, .loading tree .checking⟩
  | load {file file' : Option Bytes} {tree : Uuid → Option Bytes} {load load' : KeyLoad}
      (h : KeyLoad.Step path file load file' load') :
      Step env path ⟨file, .loading tree load⟩ ⟨file', .loading tree load'⟩
  | serve {file : Option Bytes} {tree : Uuid → Option Bytes} {key : Block 32} (requests : ι → StoreRequest) :
      Step env path ⟨file, .loading tree (.loaded key)⟩ ⟨file, .serving key requests (.opened tree)⟩
  | request {file : Option Bytes} {key : Block 32} {requests : ι → StoreRequest}
      {store : Buffered Uuid Bytes StoreResult ι} (i : ι) :
      Step env path ⟨file, .serving key requests store⟩ ⟨file, .serving key requests
        (store.step (fun i => (requests i).handle) (fun i => (requests i).call.diskOp env key (requests i).access) i)⟩
  | flush {file : Option Bytes} {key : Block 32} {requests : ι → StoreRequest}
      {store : Buffered Uuid Bytes StoreResult ι} (i : ι) (h : store.unflushed i = true) :
      Step env path ⟨file, .serving key requests store⟩
        ⟨file, .serving key requests (store.flush i (requests i).access.flush.isNone)⟩
  | abandon {file : Option Bytes} {tree : Uuid → Option Bytes} {load : KeyLoad} :
      Step env path ⟨file, .loading tree load⟩ ⟨file, .stopped tree⟩
  | stop {file : Option Bytes} {key : Block 32} {requests : ι → StoreRequest} {store : Buffered Uuid Bytes StoreResult ι}
      {tree : Uuid → Option Bytes} (h : store.Survives tree) :
      Step env path ⟨file, .serving key requests store⟩ ⟨file, .stopped tree⟩

abbrev StoreMachine.Steps {ι : Type} [DecidableEq ι] (env : StoreEnv) (path : String) :
    StoreMachine ι → StoreMachine ι → Prop := Relation.ReflTransGen (StoreMachine.Step env path)

/-- The records, alone or with the requests that are being served. -/
inductive RecordMachine (ι : Type) where
  | closed (records : Uuid → Option StoredEnvelopeRecord)
  | serving (requests : ι → StoreRequest) (store : Buffered Uuid StoredEnvelopeRecord StoreResult ι)

def RecordMachine.records {ι : Type} : RecordMachine ι → Uuid → Option StoredEnvelopeRecord
  | .closed records => records
  | .serving _ store => store.cell

def RecordMachine.answer? {ι : Type} : RecordMachine ι → ι → Option (StoreRequest × StoreResult)
  | .closed _, _ => none
  | .serving requests store, i => (store.answer? i).map fun r => (requests i, r)

def RecordMachine.fresh {ι : Type} : RecordMachine ι := .closed fun _ => none

/-- The store is opened for some requests, takes a step or makes the flush of one of them, or is closed, which loses the
last changes since a flush that worked, any number of them. -/
inductive RecordMachine.Step {ι : Type} [DecidableEq ι] (serde : Serde) : RecordMachine ι → RecordMachine ι → Prop
  | serve {records : Uuid → Option StoredEnvelopeRecord} (requests : ι → StoreRequest) :
      Step serde (.closed records) (.serving requests (.opened records))
  | request {requests : ι → StoreRequest} {store : Buffered Uuid StoredEnvelopeRecord StoreResult ι} (i : ι) :
      Step serde (.serving requests store) (.serving requests
        (store.step (fun i => (requests i).handle) (fun i => (requests i).call.recordOp serde) i))
  | flush {requests : ι → StoreRequest} {store : Buffered Uuid StoredEnvelopeRecord StoreResult ι} (i : ι)
      (h : store.unflushed i = true) :
      Step serde (.serving requests store) (.serving requests (store.flush i (requests i).access.flush.isNone))
  | close {requests : ι → StoreRequest} {store : Buffered Uuid StoredEnvelopeRecord StoreResult ι}
      {records : Uuid → Option StoredEnvelopeRecord} (h : store.Survives records) :
      Step serde (.serving requests store) (.closed records)

abbrev RecordMachine.Steps {ι : Type} [DecidableEq ι] (serde : Serde) : RecordMachine ι → RecordMachine ι → Prop :=
  Relation.ReflTransGen (RecordMachine.Step serde)

/-- The tree holds the records, and the requests of both are equally far; a request that failed was not started, or
finished unnoticed. -/
inductive SameProcess {ι : Type} (env : StoreEnv) (key : Block 32) : StoreProcess ι → RecordMachine ι → Prop
  | stopped {tree : Uuid → Option Bytes} {records : Uuid → Option StoredEnvelopeRecord}
      (h : ∀ handle, Option.Rel (Holds env key) (tree handle) (records handle)) :
      SameProcess env key (.stopped tree) (.closed records)
  | loading {tree : Uuid → Option Bytes} {records : Uuid → Option StoredEnvelopeRecord} (load : KeyLoad)
      (h : ∀ handle, Option.Rel (Holds env key) (tree handle) (records handle)) :
      SameProcess env key (.loading tree load) (.closed records)
  | serving {requests : ι → StoreRequest} {store' : Buffered Uuid Bytes StoreResult ι}
      {store : Buffered Uuid StoredEnvelopeRecord StoreResult ι}
      (h : Buffered.Refines (Holds env key) (fun i => (requests i).access.Answers) (fun i => (requests i).access.Fails)
        store' store) :
      SameProcess env key (.serving key requests store') (.serving requests store)

/-- What the key file is to the process: the key it serves under, or what it is loading. -/
def StoreProcess.Fits {ι : Type} (file : Option Bytes) : StoreProcess ι → Prop
  | .stopped _ => True
  | .loading _ load => load.Fits file
  | .serving key _ _ => file = some key.val

/-- The tree holds the records, encrypted under the key that the file holds; it is empty until there is one. -/
structure StoreMachine.Follows {ι : Type} (env : StoreEnv) (key : Block 32) (s : StoreMachine ι)
    (a : RecordMachine ι) : Prop where
  file : ∀ k : Block 32, s.file = some k.val → k = key
  empty : (∀ k : Block 32, s.file ≠ some k.val) → ∀ handle, s.process.tree handle = none
  same : SameProcess env key s.process a
  fits : s.process.Fits s.file

section Machine

variable {ι : Type} {env : StoreEnv} {path : String} {key : Block 32} {s s' : StoreMachine ι} {a : RecordMachine ι}

theorem SameProcess.tree {process : StoreProcess ι} (h : SameProcess env key process a) (handle : Uuid) :
    Option.Rel (Holds env key) (process.tree handle) (a.records handle) := by
  cases h with
  | stopped h => exact h handle
  | loading _ h => exact h handle
  | serving h => exact h.store.cell handle

/-- An answer is the record-level one, unless it reports a failure of the disk or the cipher. -/
theorem SameProcess.answer? {process : StoreProcess ι} (h : SameProcess env key process a) {i : ι} {request : StoreRequest}
    {r : StoreResult} (hr : process.answer? i = some (request, r)) :
    a.answer? i = some (request, r) ∨ request.access.Fails r := by
  cases h with
  | stopped h => cases hr
  | loading _ h => cases hr
  | @serving requests _ _ h =>
      obtain ⟨r', hr', hpair⟩ := Option.map_eq_some_iff.mp hr
      cases hpair
      rcases h.answer? hr' with hfails | ⟨r'', hr'', rfl | hfails⟩
      · exact .inr hfails
      · exact .inl (Option.map_eq_some_iff.mpr ⟨r, hr'', rfl⟩)
      · exact .inr hfails

/-- Without entries any key will do. -/
theorem rel_of_empty {tree : Uuid → Option Bytes} {records : Uuid → Option StoredEnvelopeRecord}
    (h : ∀ handle, Option.Rel (Holds env key) (tree handle) (records handle)) (hempty : ∀ handle, tree handle = none)
    (key' : Block 32) (handle : Uuid) : Option.Rel (Holds env key') (tree handle) (records handle) := by
  have hrel := h handle
  rw [hempty handle] at hrel ⊢
  generalize records handle = cell at hrel ⊢
  cases hrel
  exact .none

/-- Looking for the key settles which one it is. -/
theorem StoreMachine.Follows.load {file file' : Option Bytes} {tree : Uuid → Option Bytes} {load load' : KeyLoad}
    (h : StoreMachine.Follows env key ⟨file, .loading tree load⟩ a) (hstep : KeyLoad.Step path file load file' load') :
    ∃ key', StoreMachine.Follows env key' ⟨file', .loading tree load'⟩ a := by
  obtain ⟨hfile, hempty, hsame, hfits⟩ := h
  dsimp only at hfile hempty hsame hfits
  cases hsame with
  | @loading _ records _ htree =>
      by_cases hcomplete : ∃ k : Block 32, file = some k.val
      · -- the key is there, and stays
        obtain ⟨k, hk⟩ := hcomplete
        have hfile' : file' = some k.val := hstep.file_of_complete hfits hk
        refine ⟨key, fun k' hk' => hfile k' ?_, fun hnone => absurd hfile' (hnone k), .loading load' htree,
          hstep.fits hfits⟩
        exact hk.trans (hfile'.symm.trans hk')
      · have hnone : ∀ handle, tree handle = none := hempty fun k hk => hcomplete ⟨k, hk⟩
        by_cases hcomplete' : ∃ k : Block 32, file' = some k.val
        · obtain ⟨k, rfl⟩ := hcomplete'
          exact ⟨k, fun k' hk' => Subtype.ext (Option.some.inj hk').symm, fun _ => hnone,
            .loading load' (rel_of_empty htree hnone k), hstep.fits hfits⟩
        · exact ⟨key, fun k hk => absurd ⟨k, hk⟩ hcomplete', fun _ => hnone, .loading load' htree, hstep.fits hfits⟩

theorem follows_fresh (key : Block 32) : (StoreMachine.fresh : StoreMachine ι).Follows env key .fresh where
  file _ h := by cases h
  empty _ _ := rfl
  same := .stopped fun _ => .none
  fits := trivial

variable [DecidableEq ι]

/-- Every step on disk is a step on the records or none. -/
theorem StoreMachine.Follows.step (hlaw : env.Lawful) (h : s.Follows env key a) (hstep : Step env path s s') :
    ∃ key' a', RecordMachine.Steps env.serde a a' ∧ s'.Follows env key' a' := by
  cases hstep with
  | start =>
      obtain ⟨hfile, hempty, hsame, -⟩ := h
      cases hsame with
      | stopped htree => exact ⟨key, _, .refl, hfile, hempty, .loading .checking htree, trivial⟩
  | load hload =>
      obtain ⟨key', h'⟩ := h.load hload
      exact ⟨key', _, .refl, h'⟩
  | @serve file tree key' requests =>
      obtain ⟨hfile, hempty, hsame, hfits⟩ := h
      have hkey : key' = key := hfile key' hfits
      subst hkey
      cases hsame with
      | loading _ htree =>
          exact ⟨key', _, .single (.serve requests), hfile, hempty, .serving (Buffered.refines_opened htree), hfits⟩
  | abandon =>
      obtain ⟨hfile, hempty, hsame, -⟩ := h
      cases hsame with
      | loading _ htree => exact ⟨key, _, .refl, hfile, hempty, .stopped htree, trivial⟩
  | @request file key' requests store' i =>
      obtain ⟨hfile, -, hsame, hfits⟩ := h
      cases hsame with
      | @serving _ _ store hrefines =>
          have hkey : file = some key.val := hfits
          rcases hrefines.step (fun i => (requests i).handle)
            (fun i => (requests i).call.diskOp env key (requests i).access)
            (fun i => (requests i).call.recordOp env.serde) i (diskOp_refines hlaw (requests i).call) with hstays | hmoves
          · exact ⟨key, _, .refl, hfile, fun hnone => absurd hkey (hnone key), .serving hstays, hfits⟩
          · exact ⟨key, _, .single (.request i), hfile, fun hnone => absurd hkey (hnone key), .serving hmoves, hfits⟩
  | @flush file key' requests store' i hunflushed =>
      obtain ⟨hfile, hempty, hsame, hfits⟩ := h
      cases hsame with
      | @serving _ _ store hrefines =>
          have hflush : store.unflushed i = true := hrefines.unflushed ▸ hunflushed
          exact ⟨key, _, .single (.flush i hflush), hfile, hempty, .serving (hrefines.flush i _), hfits⟩
  | @stop file key' requests store' tree hsurvives =>
      obtain ⟨hfile, -, hsame, hfits⟩ := h
      cases hsame with
      | @serving _ _ store hrefines =>
          have hkey : file = some key.val := hfits
          obtain ⟨records, hrecords, htree⟩ := hrefines.survives hsurvives
          exact ⟨key, _, .single (.close hrecords), hfile, fun hnone => absurd hkey (hnone key), .stopped htree, trivial⟩

theorem StoreMachine.Steps.follows (hlaw : env.Lawful) (h : StoreMachine.Steps env path .fresh s) :
    ∃ key a, RecordMachine.Steps env.serde .fresh a ∧ s.Follows env key a := by
  induction h with
  | refl => exact ⟨⟨List.replicate 32 0, List.length_replicate⟩, _, .refl, follows_fresh _⟩
  | tail _ hstep ih =>
      obtain ⟨key, a, ha, hfollows⟩ := ih
      obtain ⟨key', a', ha', hfollows'⟩ := hfollows.step hlaw hstep
      exact ⟨key', a', ha.trans ha', hfollows'⟩

/-- **The tree is the record store.** After any starts and stops of the process, with requests interleaved, accesses of
the disk that fail and encryptions that fail, the tree and the requests are where the record-level store can be, which
loses at a stop what the tree loses. Every entry opens under the key in the file, and an answer is the record-level one
unless it reports such a failure. -/
theorem tree_follows_records (hlaw : env.Lawful) (h : StoreMachine.Steps env path .fresh s) :
    ∃ key a, RecordMachine.Steps env.serde .fresh a ∧ s.Follows env key a ∧
      (∀ handle, Option.Rel (Holds env key) (s.process.tree handle) (a.records handle)) ∧
      ∀ i request r, s.process.answer? i = some (request, r) →
        a.answer? i = some (request, r) ∨ request.access.Fails r := by
  obtain ⟨key, a, ha, hfollows⟩ := h.follows hlaw
  exact ⟨key, a, ha, hfollows, hfollows.same.tree, fun _ _ _ => hfollows.same.answer?⟩

/-- Encryption that does nothing. -/
def plainStoreEnv : StoreEnv where
  serde := plainSerde
  json := textJson
  aesGcm := { encrypt _ _ plaintext := .ok plaintext, decrypt _ _ ciphertext := .ok ciphertext }
  joinError := ""

/-- A record is sealed on a disk that works, and deleted when the flush fails. -/
def plainRequests : Bool → StoreRequest
  | true => ⟨Uuid.filled 1, .insertWithId plainRecord, ⟨⟨List.replicate 12 0, List.length_replicate⟩, none, none, none⟩⟩
  | false => ⟨Uuid.filled 1, .call .delete, ⟨⟨List.replicate 12 0, List.length_replicate⟩, none, none, some "disk full"⟩⟩

/-- The next step of a request. -/
def plainStep (store : Buffered Uuid Bytes StoreResult Bool) (i : Bool) : Buffered Uuid Bytes StoreResult Bool :=
  store.step (fun i => (plainRequests i).handle)
    (fun i => (plainRequests i).call.diskOp plainStoreEnv (KeyFile.blankKey 7) (plainRequests i).access) i

/-- The record is sealed and flushed. -/
def plainSealed : Buffered Uuid Bytes StoreResult Bool :=
  (plainStep (plainStep (.opened fun _ => none) true) true).flush true true

/-- A record is sealed and deleted, but the deletion is not flushed, and a stop loses it. -/
theorem tree_follows_records_restarted : ∃ (s₁ s : StoreMachine Bool) (key : Block 32) (a : RecordMachine Bool),
    StoreMachine.Steps plainStoreEnv "sealed.db.master" .fresh s₁ ∧ s₁.process.tree (Uuid.filled 1) = none ∧
      StoreMachine.Steps plainStoreEnv "sealed.db.master" s₁ s ∧ (s.process.tree (Uuid.filled 1)).isSome = true ∧
      RecordMachine.Steps plainSerde .fresh a ∧ s.Follows plainStoreEnv key a := by
  have hlaw : plainStoreEnv.Lawful := ⟨fun h => by cases h; rfl⟩
  have hwrite : KeyLoad.Step "sealed.db.master" (some []) (.writing (KeyFile.blankKey 7) (KeyFile.blankKey 7).val)
      (some (KeyFile.blankKey 7).val) (.writing (KeyFile.blankKey 7) []) :=
    @KeyLoad.Step.write _ [] (KeyFile.blankKey 7).val [] (KeyFile.blankKey 7) (by decide)
  have hs₁ : StoreMachine.Steps plainStoreEnv "sealed.db.master" .fresh
      ⟨some (KeyFile.blankKey 7).val, .serving (KeyFile.blankKey 7) plainRequests (plainStep plainSealed false)⟩ :=
    (((((((((Relation.ReflTransGen.single .start).tail (.load (.missing (KeyFile.blankKey 7)))).tail (.load .create)).tail
      (.load hwrite)).tail (.load .sync)).tail (.serve plainRequests)).tail (.request true)).tail (.request true)).tail
      (.flush true rfl)).tail (.request false)
  have hlost : (plainStep plainSealed false).Survives plainSealed.cell := List.mem_cons_of_mem _ List.mem_cons_self
  have hs : StoreMachine.Steps plainStoreEnv "sealed.db.master"
      ⟨some (KeyFile.blankKey 7).val, .serving (KeyFile.blankKey 7) plainRequests (plainStep plainSealed false)⟩
      ⟨some (KeyFile.blankKey 7).val, .stopped plainSealed.cell⟩ := .single (.stop hlost)
  obtain ⟨key, a, ha, hfollows, -⟩ := tree_follows_records hlaw (hs₁.trans hs)
  exact ⟨_, _, key, a, hs₁, rfl, hs, rfl, ha, hfollows⟩

end Machine

end SecretBroker
