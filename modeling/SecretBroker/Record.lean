import SecretBroker.LibBase64
import SecretBroker.Values

/-! The sealed record of a secret, and the errors of the service. -/

open Wire

namespace SecretBroker

inductive SecretLifecycle where
  | singleUseUnwrap
  | renewableLease
  | serviceBootstrap
  deriving DecidableEq, Repr

structure SecretEnvelope where
  envelopeKeyId : String
  algorithm : String
  ciphertext : String
  kyberCiphertext : String
  customerId : String
  exporterBinding : Option String
  metadata : Option Value
  createdAt : DateTime

/-- A custodian and the index of the share assigned to it. -/
structure ShareAssignment where
  custodianId : String
  shareIndex : UInt8
  claimed : Bool
  deriving DecidableEq, Repr

/-- A share that the broker holds. -/
structure HeldShare where
  x : UInt8
  yB64 : String
  deriving DecidableEq, Repr

/-- The discharge secret and the predicate of one third-party caveat. -/
structure ThirdPartyCaveatKey where
  location : String
  keyId : String
  condition : Option String
  secretB64 : String
  createdAt : DateTime
  deriving DecidableEq, Repr

structure StoredEnvelopeRecord where
  envelope : SecretEnvelope
  signature : String
  signingKeyId : String
  signingPublicKey : String
  signingKeyExpiresAt : Option DateTime
  expiresAt : Option DateTime
  lastAccessed : Option DateTime
  redeemNonce : Option String
  redeemBinding : Option String
  unwrapPrincipalId : Option String
  issuedWithAuthenticatedTransport : Bool
  issuedByPrincipalId : Option String
  issuedByPeerCertSha256 : Option String
  issuedByAttestationDigest : Option String
  thirdPartyCaveatKeys : Option (List ThirdPartyCaveatKey)
  redeemExpiresAt : Option DateTime
  redeemUsed : Bool
  threshold : Option UInt8
  thresholdCommitments : Option (List String)
  lifecycle : SecretLifecycle
  leaseExpiresAt : Option DateTime
  leaseRenewalCount : UInt32
  revoked : Bool
  revokedAt : Option DateTime
  revocationReason : Option String
  shareAssignments : Option (List ShareAssignment)
  heldShares : Option (List HeldShare)

inductive ServiceError where
  | serialization (message : String)
  | signatureInvalid
  | crypto (message : String)
  | handleNotFound
  | invalidHandle
  | expiredHandle
  | storage (message : String)
  | invalidTtl
  | exporterBindingMismatch
  | redeemTokenInvalid
  | redeemTokenExpired
  | redeemTokenUsed
  | revokedHandle
  | invalidAttenuation (message : String)
  | unauthenticatedTransport
  | authenticatedPrincipalRequired
  | principalMismatch
  | peerCertMismatch
  | attestationMismatch
  | missingLineage (what : String)
  | unauthorizedDischargePrincipal
  deriving DecidableEq, Repr

/-- The error's text. -/
def ServiceError.message : ServiceError → String
  | .serialization message => "serialization error: " ++ message
  | .signatureInvalid => "signature verification failed"
  | .crypto message => "crypto error: " ++ message
  | .handleNotFound => "sealed secret handle not found"
  | .invalidHandle => "invalid handle format"
  | .expiredHandle => "sealed secret expired"
  | .storage message => "sealed store error: " ++ message
  | .invalidTtl => "invalid ttl request"
  | .exporterBindingMismatch => "tls exporter binding mismatch"
  | .redeemTokenInvalid => "redeem token invalid or mismatched"
  | .redeemTokenExpired => "redeem token expired"
  | .redeemTokenUsed => "redeem token already used"
  | .revokedHandle => "secret is revoked"
  | .invalidAttenuation message => "invalid attenuation request: " ++ message
  | .unauthenticatedTransport => "unauthenticated transport for lifecycle-bound secret"
  | .authenticatedPrincipalRequired => "authenticated principal required for lifecycle-bound secret"
  | .principalMismatch => "principal identity mismatch for lifecycle-bound secret"
  | .peerCertMismatch => "peer certificate mismatch for lifecycle-bound secret"
  | .attestationMismatch => "attestation digest mismatch for lifecycle-bound secret"
  | .missingLineage what => "lifecycle-bound secret missing required lineage: " ++ what
  | .unauthorizedDischargePrincipal => "authenticated principal is not authorized for discharge minting"

/-- How a handler ends without a response. The custody handlers report plain messages, and the
arithmetic on times can panic. -/
inductive Failure where
  | service (e : ServiceError)
  | anyhow (message : String)
  | panic
  deriving DecidableEq, Repr

/-- Decode a stored base64 field, or report what the caller says about it. -/
def decodeStored (context s : String) : Except ServiceError Bytes :=
  match Base64.standard.decode s with
  | some b => .ok b
  | none => .error (.storage context)

@[simp] theorem decodeStored_encode (context : String) (b : Bytes) :
    decodeStored context (Base64.standard.encode b) = .ok b := by
  rw [decodeStored, Base64.decode_encode Base64.standard_lawful]

namespace StoredEnvelopeRecord

def isExpired (r : StoredEnvelopeRecord) (now : DateTime) : Bool :=
  match r.expiresAt with
  | some expiry => now > expiry
  | none => false

def ciphertextBytes (r : StoredEnvelopeRecord) : Except ServiceError Bytes :=
  decodeStored "failed to decode ciphertext from base64" r.envelope.ciphertext

def kemCiphertextBytes (r : StoredEnvelopeRecord) : Except ServiceError Bytes :=
  decodeStored "failed to decode Kyber ciphertext from base64" r.envelope.kyberCiphertext

def signatureBytes (r : StoredEnvelopeRecord) : Except ServiceError Bytes :=
  decodeStored "failed to decode signature from base64" r.signature

def exporterBindingBytes (r : StoredEnvelopeRecord) : Except ServiceError (Option Bytes) :=
  match r.envelope.exporterBinding with
  | some binding => (decodeStored "failed to decode exporter binding from base64" binding).map some
  | none => .ok none

theorem not_isExpired_iff {r : StoredEnvelopeRecord} {now : DateTime} :
    ¬ r.isExpired now = true ↔ ∀ expiry, r.expiresAt = some expiry → now ≤ expiry := by
  rw [isExpired]
  cases r.expiresAt with
  | none => simp
  | some expiry => simp

end StoredEnvelopeRecord

end SecretBroker
