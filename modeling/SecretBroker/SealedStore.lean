import SecretBroker.LibEffect
import SecretBroker.LibRegister
import SecretBroker.Record
import SecretBroker.Threshold

/-! The sealed store. Every operation on a handle reads the whole record and later writes a whole
record back, `load` included; only `delete` is a single step. The operations are given as the read
and the write that the code performs, so that both the handlers and the analysis of interleavings
use them. -/

open Wire Register

namespace SecretBroker

/-- The part of serde_json that the broker uses: the bytes of an envelope, what a JSON document is
after it was written and read back, and the text form of a list of shares. -/
structure Serde where
  envelopeToVec : SecretEnvelope → Bytes
  reparse : Value → Value
  sharesToString : List Threshold.Share → String
  sharesFromStr : String → Option (List Threshold.Share)

/-- A metadata field after it was written and read back; a written `null` is read as absent. -/
def Serde.reloadMetadata (serde : Serde) : Option Value → Option Value
  | none => none
  | some v =>
      match serde.reparse v with
      | .null => none
      | v' => some v'

/-- A record as it is read from the tree. Only free-form metadata can differ from what was written. -/
def Serde.reload (serde : Serde) (r : StoredEnvelopeRecord) : StoredEnvelopeRecord :=
  { r with envelope := { r.envelope with metadata := serde.reloadMetadata r.envelope.metadata } }

/-- What `claim_custodian_share` returns. -/
structure ClaimResult where
  x : UInt8
  y : Bytes
  commitments : List Bytes
  previouslyClaimed : Bool
  deriving DecidableEq, Repr

namespace SealedStore

variable (serde : Serde)

/-- The message of the operations that need a record. -/
def notFound : String := "sealed secret handle not found"

/-- Read the record, change it and write it back. -/
def modifyRecord {α : Type} (f : StoredEnvelopeRecord → StoredEnvelopeRecord)
    (result : StoredEnvelopeRecord → α) : Op StoredEnvelopeRecord (Except String α) :=
  .update fun
    | none => .done (.error notFound)
    | some stored => .write (f (serde.reload stored)) (.ok (result (f (serde.reload stored))))

def insertWithId (record : StoredEnvelopeRecord) : Op StoredEnvelopeRecord (Except String Unit) :=
  .update fun _ => .write record (.ok ())

def load (accessedAt : DateTime) : Op StoredEnvelopeRecord (Except String (Option StoredEnvelopeRecord)) :=
  .update fun
    | none => .done (.ok none)
    | some stored =>
        let record := { serde.reload stored with lastAccessed := some accessedAt }
        .write record (.ok (some record))

def delete : Op StoredEnvelopeRecord (Except String Bool) := .remove .ok

def updateThresholdConfig (threshold : UInt8) (commitments : List String) :
    Op StoredEnvelopeRecord (Except String Unit) :=
  modifyRecord serde
    (fun r => { r with threshold := some threshold, thresholdCommitments := some commitments })
    fun _ => ()

/-- The entries with `entry` added, unless its key id is there. -/
def pushCaveatKey (entry : ThirdPartyCaveatKey) (entries : List ThirdPartyCaveatKey) :
    List ThirdPartyCaveatKey :=
  if entries.any fun existing => existing.keyId = entry.keyId then entries else entries ++ [entry]

def appendThirdPartyCaveatKey (entry : ThirdPartyCaveatKey) : Op StoredEnvelopeRecord (Except String Unit) :=
  modifyRecord serde
    (fun r => { r with thirdPartyCaveatKeys := some (pushCaveatKey entry (r.thirdPartyCaveatKeys.getD [])) })
    fun _ => ()

def updateShareAssignments (assignments : List ShareAssignment) (heldShares : List HeldShare) :
    Op StoredEnvelopeRecord (Except String Unit) :=
  modifyRecord serde
    (fun r => { r with shareAssignments := some assignments, heldShares := some heldShares })
    fun _ => ()

/-- The assignments with the first one of the custodian claimed. -/
def markClaimed (custodianId : String) : List ShareAssignment → List ShareAssignment
  | [] => []
  | a :: rest =>
      if a.custodianId = custodianId then { a with claimed := true } :: rest
      else a :: markClaimed custodianId rest

/-- The share of a custodian, and the record with the share marked as claimed. -/
def claim (custodianId : String) (r : StoredEnvelopeRecord) :
    Except String (StoredEnvelopeRecord × ClaimResult) := do
  let assignments ← Eff.okOr r.shareAssignments "no share assignments for this handle"
  let held ← Eff.okOr r.heldShares "no held shares for this handle"
  let commitments ← Eff.okOr r.thresholdCommitments "no threshold commitments for this handle"
  let assignment ← Eff.okOr (assignments.find? fun a => a.custodianId = custodianId)
    ("custodian_id '" ++ custodianId ++ "' not assigned to this handle")
  let share ← Eff.okOr (held.find? fun h => h.x = assignment.shareIndex)
    ("share index " ++ toString assignment.shareIndex.toNat ++ " not found in held shares")
  let y ← Eff.okOr (Base64.standard.decode share.yB64) "decoding held share y-value"
  -- a commitment that does not decode is returned as no bytes at all
  let commitmentBytes := commitments.map fun c => (Base64.standard.decode c).getD []
  .ok ({ r with shareAssignments := some (markClaimed custodianId assignments) },
    { x := share.x, y, commitments := commitmentBytes, previouslyClaimed := assignment.claimed })

def claimCustodianShare (custodianId : String) : Op StoredEnvelopeRecord (Except String ClaimResult) :=
  .update fun
    | none => .done (.error notFound)
    | some stored =>
        match claim custodianId (serde.reload stored) with
        | .error e => .done (.error e)
        | .ok (record, result) => .write record (.ok result)

def markRedeemUsed : Op StoredEnvelopeRecord (Except String Unit) :=
  modifyRecord serde
    (fun r => { r with redeemUsed := true, redeemNonce := none, redeemBinding := none })
    fun _ => ()

/-- `u32::saturating_add(1)`. -/
def saturatingSucc (n : UInt32) : UInt32 := if n.toNat + 1 < UInt32.size then n + 1 else n

def renewLease (newLeaseExpiresAt now : DateTime) :
    Op StoredEnvelopeRecord (Except String StoredEnvelopeRecord) :=
  modifyRecord serde
    (fun r => { r with
      leaseExpiresAt := some newLeaseExpiresAt
      leaseRenewalCount := saturatingSucc r.leaseRenewalCount
      lastAccessed := some now })
    id

def revoke (reason : Option String) (now : DateTime) : Op StoredEnvelopeRecord (Except String Bool) :=
  .update fun
    | none => .done (.ok false)
    | some stored =>
        .write { serde.reload stored with
          revoked := true
          revokedAt := some now
          revocationReason := reason
          redeemUsed := true
          redeemNonce := none
          redeemBinding := none } (.ok true)

end SealedStore

end SecretBroker
