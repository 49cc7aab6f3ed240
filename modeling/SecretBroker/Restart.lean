import SecretBroker.Completeness

/-! Restarts of the broker. The sealed records, the keys they are encrypted under and the transparency log are on
disk, and the key behind the handles is read from a file. The signing keys, the table of their owners and the key
that protects them are in memory only and are gone after a restart, and the configuration can be another one. A stop
may come in the middle of a request, and it loses changes that were not flushed. What was wrapped in one life can be
unwrapped in any later one. -/

open Wire

namespace SecretBroker

/-- What a start of the broker draws, and what it reads from its environment. -/
structure Startup where
  masterKey : Block 32
  crypto : CryptoConfig
  requireAttestedDischargeMint : Bool
  allowedDischargePrincipalIds : List String

/-- The access with number `k` of a request of which `m` accesses are kept. -/
def Disk.keep (m k : ℕ) (disk : Disk) : Disk := if k < m then disk else .failed "stopped"

def LoadDraws.keep (m k : ℕ) (d : LoadDraws) : LoadDraws := { d with disk := d.disk.keep m k }

def UnwrapDraws.keep (m k : ℕ) (d : UnwrapDraws) : UnwrapDraws :=
  { d with load := d.load.keep m k, markDisk := d.markDisk.keep m (k + 1) }

/-- The key is stored before the record. -/
def PersistDraws.keep (m k : ℕ) (d : PersistDraws) : PersistDraws :=
  { d with
    encryption := { d.encryption with kyberStore := d.encryption.kyberStore.keep m k }
    insertDisk := d.insertDisk.keep m (k + 1) }

/-- A request of which the first `m` accesses of the disk are kept, in the order in which it makes them. -/
def Call.keep (m : ℕ) : Call → Call
  | .wrap createdAt d context request => .wrap createdAt (d.keep m 0) context request
  | .mint d context request =>
      .mint { d with
        persist := d.persist.keep m 0
        thresholdDisk := d.thresholdDisk.keep m 2
        assignmentsDisk := d.assignmentsDisk.keep m 3 } context request
  | .unwrap d context payload => .unwrap (d.keep m 0) context payload
  | .attenuate d context payload =>
      .attenuate { d with load := d.load.keep m 0, appendDisk := d.appendDisk.keep m 1 } context payload
  | .renewLease d context payload =>
      .renewLease { d with load := d.load.keep m 0, renewDisk := d.renewDisk.keep m 1 } context payload
  | .revoke d context payload =>
      .revoke { d with load := d.load.keep m 0, revokeDisk := d.revokeDisk.keep m 1 } context payload
  | .rotate d context payload =>
      .rotate { d with
        load := d.load.keep m 0
        persist := d.persist.keep m 1
        thresholdDisk := d.thresholdDisk.keep m 3
        revokeDisk := d.revokeDisk.keep m 4 } context payload
  | .mintDischarge d now context payload => .mintDischarge (d.keep m 0) now context payload
  | .claimShare d claimDisk context req => .claimShare (d.keep m 0) (claimDisk.keep m 1) context req
  | .distributeShare d context req => .distributeShare (d.keep m 0) context req
  | .combineShares load d context req => .combineShares (load.keep m 0) (d.keep m 1) context req
  | .delete d deleteDisk context handle => .delete (d.keep m 0) (deleteDisk.keep m 1) context handle

/-- How much of some requests is kept: a number of requests, and a number of accesses of the next one. -/
abbrev Extent := ℕ × ℕ

def Extent.keep (extent : Extent) (calls : List Call) : List Call :=
  calls.take extent.1 ++ (calls[extent.1]?.map (Call.keep extent.2)).toList

/-- How much of the requests of a life each file has when the broker stops. They are flushed one by one, so each file
may have lost other requests. -/
structure Stop where
  records : Extent
  keys : Extent
  log : Extent

/-- What a stop leaves after some requests, for a broker that opens the files again. The key manager is new. -/
def Broker.stopped (env : Env) (s : Broker) (calls : List Call) (stop : Stop) : Broker where
  records := (s.after env (stop.records.keep calls)).records
  kyberTree := (s.after env (stop.keys.keep calls)).kyberTree
  keyPairs := []
  keyMetadata := []
  log := (s.after env (stop.log.keep calls)).log

/-- The requests that are handled between a start and the next stop. -/
structure Life where
  start : Startup
  calls : List Call
  stop : Stop

/-- All requests of some lives. -/
def requests (lives : List Life) : List Call := lives.flatMap Life.calls

variable {env : Env}

/-- A request that draws no other UUIDs and issues no other handles than these. -/
def Call.Within (fresh : List Uuid) (issuances : List Issuance) (call : Call) : Prop :=
  call.uuids ⊆ fresh ∧ ∀ i, call.issuance = some i → i ∈ issuances

section

variable (env) {fresh : List Uuid} {issuances : List Issuance}

end

section

variable {createdAt : DateTime} {d : PersistDraws} {context : BrokerClientContext} {request : WrapV2Request}
  {start : Startup} {outcome : WrapSecretOutcome} {s s₁ s₂ : Broker} {r : StoredEnvelopeRecord}

end

section

variable {d : RevokeDraws} {context : BrokerClientContext} {payload : RevokeSecretRequest} {id : Uuid}
  {r : StoredEnvelopeRecord} {s : Broker}

end

end SecretBroker
