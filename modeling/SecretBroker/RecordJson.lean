import SecretBroker.ConcurrencyStore
import SecretBroker.JsonText

/-! The JSON form of the sealed records, as the `Serialize` and `Deserialize` derived for them write and read
it. A field without a value is not written at all, a field that may be missing has a default, a name that is
not known is skipped and one that stands there twice is refused. The fields in their order, without names, are
read too. What is read is what was written, except for the free-form metadata of an envelope. -/

open Wire

namespace SecretBroker

/-- serde_json and the text form that chrono gives to times in it. Reading a document changes at most the
fractional numbers in it. -/
structure Json (serde : Serde) where
  toVec : Value → Bytes
  fromSlice : Bytes → Option Value
  timeToString : DateTime → String
  timeFromStr : String → Option DateTime
  fromSlice_toVec : ∀ v, fromSlice (toVec v) = some (serde.reparse v)
  timeFromStr_timeToString : ∀ t, timeFromStr (timeToString t) = some t
  reparse_noFraction : ∀ v, v.NoFraction → serde.reparse v = v
  reparse_array : ∀ items, serde.reparse (.array items) = .array (items.map serde.reparse)
  reparse_object : ∀ members,
    serde.reparse (.object members) = .object (members.map fun m => (m.1, serde.reparse m.2))

/-- How the values of a type are written and read. -/
structure Codec (α : Type) where
  write : α → Value
  read : Value → Option α

namespace Codec

def string : Codec String where
  write := .string
  read
    | .string s => some s
    | _ => none

def bool : Codec Bool where
  write := .bool
  read
    | .bool b => some b
    | _ => none

/-- An unsigned integer below a bound; a number out of range is refused. -/
def unsigned {α : Type} (size : ℕ) (toNat : α → ℕ) (ofNat : ℕ → α) : Codec α where
  write n := .integer (toNat n)
  read
    | .integer n => if 0 ≤ n ∧ n < size then some (ofNat n.toNat) else none
    | _ => none

def u8 : Codec UInt8 := unsigned UInt8.size UInt8.toNat UInt8.ofNat

def u32 : Codec UInt32 := unsigned UInt32.size UInt32.toNat UInt32.ofNat

def value : Codec Value where
  write := id
  read := some

def time {serde : Serde} (json : Json serde) : Codec DateTime where
  write t := .string (json.timeToString t)
  read
    | .string s => json.timeFromStr s
    | _ => none

def vec {α : Type} (c : Codec α) : Codec (List α) where
  write l := .array (l.map c.write)
  read
    | .array items => items.mapM c.read
    | _ => none

/-- A unit variant is its name; a reader also takes an object with that one member and no content. -/
def lifecycle : Codec SecretLifecycle where
  write
    | .singleUseUnwrap => .string "SingleUseUnwrap"
    | .renewableLease => .string "RenewableLease"
    | .serviceBootstrap => .string "ServiceBootstrap"
  read
    | .string name => variant name
    | .object [(name, .null)] => variant name
    | _ => none
where
  variant (name : String) : Option SecretLifecycle :=
    if name = "SingleUseUnwrap" then some .singleUseUnwrap
    else if name = "RenewableLease" then some .renewableLease
    else if name = "ServiceBootstrap" then some .serviceBootstrap
    else none

end Codec

/-- A field that is always written. -/
def field {α : Type} (c : Codec α) (name : String) (a : α) : String × Option Value := (name, some (c.write a))

/-- A field with `skip_serializing_if = "Option::is_none"`. -/
def skipField {α : Type} (c : Codec α) (name : String) (o : Option α) : String × Option Value := (name, o.map c.write)

/-- An object with the fields that have a value. -/
def writeObject (slots : List (String × Option Value)) : Value :=
  .object (slots.filterMap fun slot => slot.2.map fun v => (slot.1, v))

/-- What stands under a name, if anything; the same name twice is an error. -/
def fieldOf (name : String) (members : List (String × Value)) : Option (Option Value) :=
  match members.filter fun m => m.1 = name with
  | [] => some none
  | [m] => some (some m.2)
  | _ => none

/-- A field without `#[serde(default)]`. -/
def required {α : Type} (c : Codec α) (name : String) (members : List (String × Value)) : Option α :=
  match fieldOf name members with
  | some (some v) => c.read v
  | _ => none

/-- An `Option` with `#[serde(default)]`; a `null` is read as no value. -/
def optional {α : Type} (c : Codec α) (name : String) (members : List (String × Value)) : Option (Option α) :=
  match fieldOf name members with
  | some none => some none
  | some (some .null) => some none
  | some (some v) => (c.read v).map some
  | none => none

/-- Another type with `#[serde(default)]`. -/
def defaulted {α : Type} (c : Codec α) (default : α) (name : String) (members : List (String × Value)) : Option α :=
  match fieldOf name members with
  | some none => some default
  | some (some v) => c.read v
  | none => none

/-- A structure by its fields. It is written as an object; a reader also takes an array with the first fields in the order
of their declaration. -/
def Codec.struct {α : Type} (names : List String) (slots : α → List (String × Option Value))
    (fields : List (String × Value) → Option α) : Codec α where
  write a := writeObject (slots a)
  read
    | .object members => fields members
    | .array items => if items.length ≤ names.length then fields (names.zip items) else none
    | _ => none

def HeldShare.slots (h : HeldShare) : List (String × Option Value) := [field .u8 "x" h.x, field .string "y_b64" h.yB64]

def HeldShare.fieldNames : List String := ["x", "y_b64"]

def HeldShare.codec : Codec HeldShare :=
  .struct HeldShare.fieldNames HeldShare.slots fun members => do
    let x ← required .u8 "x" members
    let yB64 ← required .string "y_b64" members
    return { x, yB64 }

def ShareAssignment.slots (a : ShareAssignment) : List (String × Option Value) :=
  [field .string "custodian_id" a.custodianId, field .u8 "share_index" a.shareIndex, field .bool "claimed" a.claimed]

def ShareAssignment.fieldNames : List String := ["custodian_id", "share_index", "claimed"]

def ShareAssignment.codec : Codec ShareAssignment :=
  .struct ShareAssignment.fieldNames ShareAssignment.slots fun members => do
    let custodianId ← required .string "custodian_id" members
    let shareIndex ← required .u8 "share_index" members
    let claimed ← defaulted .bool false "claimed" members
    return { custodianId, shareIndex, claimed }

section Times

variable {serde : Serde} (json : Json serde)

def ThirdPartyCaveatKey.slots (k : ThirdPartyCaveatKey) : List (String × Option Value) :=
  [field .string "location" k.location,
    field .string "key_id" k.keyId,
    skipField .string "condition" k.condition,
    field .string "secret_b64" k.secretB64,
    field (.time json) "created_at" k.createdAt]

def ThirdPartyCaveatKey.fieldNames : List String := ["location", "key_id", "condition", "secret_b64", "created_at"]

def ThirdPartyCaveatKey.codec : Codec ThirdPartyCaveatKey :=
  .struct ThirdPartyCaveatKey.fieldNames (ThirdPartyCaveatKey.slots json) fun members => do
    let location ← required .string "location" members
    let keyId ← required .string "key_id" members
    let condition ← optional .string "condition" members
    let secretB64 ← required .string "secret_b64" members
    let createdAt ← required (.time json) "created_at" members
    return { location, keyId, condition, secretB64, createdAt }

def SecretEnvelope.slots (e : SecretEnvelope) : List (String × Option Value) :=
  [field .string "envelope_key_id" e.envelopeKeyId,
    field .string "algorithm" e.algorithm,
    field .string "ciphertext" e.ciphertext,
    field .string "kyber_ciphertext" e.kyberCiphertext,
    field .string "customer_id" e.customerId,
    skipField .string "exporter_binding" e.exporterBinding,
    skipField .value "metadata" e.metadata,
    field (.time json) "created_at" e.createdAt]

def SecretEnvelope.fieldNames : List String :=
  ["envelope_key_id", "algorithm", "ciphertext", "kyber_ciphertext", "customer_id", "exporter_binding", "metadata",
    "created_at"]

def SecretEnvelope.codec : Codec SecretEnvelope :=
  .struct SecretEnvelope.fieldNames (SecretEnvelope.slots json) fun members => do
    let envelopeKeyId ← required .string "envelope_key_id" members
    let algorithm ← required .string "algorithm" members
    let ciphertext ← required .string "ciphertext" members
    let kyberCiphertext ← required .string "kyber_ciphertext" members
    let customerId ← required .string "customer_id" members
    let exporterBinding ← optional .string "exporter_binding" members
    let metadata ← optional .value "metadata" members
    let createdAt ← required (.time json) "created_at" members
    return { envelopeKeyId, algorithm, ciphertext, kyberCiphertext, customerId, exporterBinding, metadata, createdAt }

def StoredEnvelopeRecord.slots (r : StoredEnvelopeRecord) : List (String × Option Value) :=
  [field (SecretEnvelope.codec json) "envelope" r.envelope,
    field .string "signature" r.signature,
    field .string "signing_key_id" r.signingKeyId,
    field .string "signing_public_key" r.signingPublicKey,
    skipField (.time json) "signing_key_expires_at" r.signingKeyExpiresAt,
    skipField (.time json) "expires_at" r.expiresAt,
    skipField (.time json) "last_accessed" r.lastAccessed,
    skipField .string "redeem_nonce" r.redeemNonce,
    skipField .string "redeem_binding" r.redeemBinding,
    skipField .string "unwrap_principal_id" r.unwrapPrincipalId,
    field .bool "issued_with_authenticated_transport" r.issuedWithAuthenticatedTransport,
    skipField .string "issued_by_principal_id" r.issuedByPrincipalId,
    skipField .string "issued_by_peer_cert_sha256" r.issuedByPeerCertSha256,
    skipField .string "issued_by_attestation_digest" r.issuedByAttestationDigest,
    skipField (.vec (ThirdPartyCaveatKey.codec json)) "third_party_caveat_keys" r.thirdPartyCaveatKeys,
    skipField (.time json) "redeem_expires_at" r.redeemExpiresAt,
    field .bool "redeem_used" r.redeemUsed,
    skipField .u8 "threshold" r.threshold,
    skipField (.vec .string) "threshold_commitments" r.thresholdCommitments,
    field .lifecycle "lifecycle" r.lifecycle,
    skipField (.time json) "lease_expires_at" r.leaseExpiresAt,
    field .u32 "lease_renewal_count" r.leaseRenewalCount,
    field .bool "revoked" r.revoked,
    skipField (.time json) "revoked_at" r.revokedAt,
    skipField .string "revocation_reason" r.revocationReason,
    skipField (.vec ShareAssignment.codec) "share_assignments" r.shareAssignments,
    skipField (.vec HeldShare.codec) "held_shares" r.heldShares]

def StoredEnvelopeRecord.fieldNames : List String :=
  ["envelope", "signature", "signing_key_id", "signing_public_key", "signing_key_expires_at", "expires_at",
    "last_accessed", "redeem_nonce", "redeem_binding", "unwrap_principal_id", "issued_with_authenticated_transport",
    "issued_by_principal_id", "issued_by_peer_cert_sha256", "issued_by_attestation_digest",
    "third_party_caveat_keys", "redeem_expires_at", "redeem_used", "threshold", "threshold_commitments", "lifecycle",
    "lease_expires_at", "lease_renewal_count", "revoked", "revoked_at", "revocation_reason", "share_assignments",
    "held_shares"]

def StoredEnvelopeRecord.codec : Codec StoredEnvelopeRecord :=
  .struct StoredEnvelopeRecord.fieldNames (StoredEnvelopeRecord.slots json) fun members => do
    let envelope ← required (SecretEnvelope.codec json) "envelope" members
    let signature ← required .string "signature" members
    let signingKeyId ← required .string "signing_key_id" members
    let signingPublicKey ← required .string "signing_public_key" members
    let signingKeyExpiresAt ← optional (.time json) "signing_key_expires_at" members
    let expiresAt ← optional (.time json) "expires_at" members
    let lastAccessed ← optional (.time json) "last_accessed" members
    let redeemNonce ← optional .string "redeem_nonce" members
    let redeemBinding ← optional .string "redeem_binding" members
    let unwrapPrincipalId ← optional .string "unwrap_principal_id" members
    let issuedWithAuthenticatedTransport ← defaulted .bool false "issued_with_authenticated_transport" members
    let issuedByPrincipalId ← optional .string "issued_by_principal_id" members
    let issuedByPeerCertSha256 ← optional .string "issued_by_peer_cert_sha256" members
    let issuedByAttestationDigest ← optional .string "issued_by_attestation_digest" members
    let thirdPartyCaveatKeys ← optional (.vec (ThirdPartyCaveatKey.codec json)) "third_party_caveat_keys" members
    let redeemExpiresAt ← optional (.time json) "redeem_expires_at" members
    let redeemUsed ← defaulted .bool false "redeem_used" members
    let threshold ← optional .u8 "threshold" members
    let thresholdCommitments ← optional (.vec .string) "threshold_commitments" members
    let lifecycle ← required .lifecycle "lifecycle" members
    let leaseExpiresAt ← optional (.time json) "lease_expires_at" members
    let leaseRenewalCount ← defaulted .u32 0 "lease_renewal_count" members
    let revoked ← defaulted .bool false "revoked" members
    let revokedAt ← optional (.time json) "revoked_at" members
    let revocationReason ← optional .string "revocation_reason" members
    let shareAssignments ← optional (.vec ShareAssignment.codec) "share_assignments" members
    let heldShares ← optional (.vec HeldShare.codec) "held_shares" members
    return {
      envelope, signature, signingKeyId, signingPublicKey, signingKeyExpiresAt, expiresAt, lastAccessed, redeemNonce,
      redeemBinding, unwrapPrincipalId, issuedWithAuthenticatedTransport, issuedByPrincipalId, issuedByPeerCertSha256,
      issuedByAttestationDigest, thirdPartyCaveatKeys, redeemExpiresAt, redeemUsed, threshold, thresholdCommitments,
      lifecycle, leaseExpiresAt, leaseRenewalCount, revoked, revokedAt, revocationReason, shareAssignments, heldShares }

end Times

section ReadBack

variable {serde : Serde}

/-- What the fields of a written object are when it is read. -/
def readBack (serde : Serde) (slots : List (String × Option Value)) : List (String × Value) :=
  slots.filterMap fun slot => slot.2.map fun v => (slot.1, serde.reparse v)

theorem reparse_writeObject (json : Json serde) (slots : List (String × Option Value)) :
    serde.reparse (writeObject slots) = .object (readBack serde slots) := by
  rw [writeObject, json.reparse_object, List.map_filterMap]
  congr 1
  apply List.filterMap_congr
  rintro ⟨name, _ | v⟩ _
  · rfl
  · rfl

theorem readBack_cons_some (name : String) (v : Value) (slots : List (String × Option Value)) :
    readBack serde ((name, some v) :: slots) = (name, serde.reparse v) :: readBack serde slots := rfl

/-- Nothing stands under a name that no field has. -/
theorem filter_readBack_eq_nil {name : String} {slots : List (String × Option Value)} (h : name ∉ slots.map Prod.fst) :
    (readBack serde slots).filter (fun m => m.1 = name) = [] := by
  rw [List.filter_eq_nil_iff]
  intro m hm hname
  obtain ⟨⟨slot, v⟩, hslot, hv⟩ := List.mem_filterMap.mp hm
  obtain ⟨_, -, rfl⟩ := Option.map_eq_some_iff.mp hv
  exact h (List.mem_map.mpr ⟨_, hslot, of_decide_eq_true hname⟩)

/-- Fields with distinct names are found under them. -/
theorem fieldOf_readBack {slots : List (String × Option Value)} (hnames : (slots.map Prod.fst).Nodup) {name : String}
    {o : Option Value} (hmem : (name, o) ∈ slots) : fieldOf name (readBack serde slots) = some (o.map serde.reparse) := by
  have hfilter : (readBack serde slots).filter (fun m => m.1 = name) =
    (o.map fun v => (name, serde.reparse v)).toList := by
    induction slots with
    | nil => cases hmem
    | cons slot slots ih =>
        rw [List.map_cons, List.nodup_cons] at hnames
        rcases List.mem_cons.mp hmem with rfl | hrest
        · have hrest : (readBack serde slots).filter (fun m => m.1 = name) = [] := filter_readBack_eq_nil hnames.1
          cases o with
          | none => exact hrest
          | some v =>
              rw [readBack_cons_some, List.filter_cons_of_pos (by simp), hrest]
              rfl
        · obtain ⟨other, w⟩ := slot
          have hne : other ≠ name := by
            rintro rfl
            exact hnames.1 (List.mem_map.mpr ⟨_, hrest, rfl⟩)
          cases w with
          | none => exact ih hnames.2 hrest
          | some w =>
              rw [readBack_cons_some, List.filter_cons_of_neg (by simpa using hne)]
              exact ih hnames.2 hrest
  rw [fieldOf, hfilter]
  cases o with
  | none => rfl
  | some v => rfl

/-- What is written for the fields, without their names; for a field without a value, a `null`. -/
def inOrder (serde : Serde) (slots : List (String × Option Value)) : List Value :=
  slots.map fun slot => (slot.2.map serde.reparse).getD .null

theorem fieldOf_of_mem {members : List (String × Value)} (hnames : (members.map Prod.fst).Nodup) {name : String}
    {v : Value} (hmem : (name, v) ∈ members) : fieldOf name members = some (some v) := by
  have hfilter : members.filter (fun m => m.1 = name) = [(name, v)] := by
    have hnodup := hnames.of_map.filter fun m => m.1 = name
    refine List.perm_singleton.mp ((List.perm_ext_iff_of_nodup hnodup (List.nodup_singleton _)).mpr fun m => ?_)
    rw [List.mem_filter, List.mem_singleton, decide_eq_true_iff]
    constructor
    · rintro ⟨hm, hname⟩
      exact List.inj_on_of_nodup_map hnames hm hmem hname
    · rintro rfl
      exact ⟨hmem, rfl⟩
  rw [fieldOf, hfilter]

/-- Under the name of every field, the members have what was written for it; a field without a value may also be `null`. -/
def Carries (serde : Serde) (slots : List (String × Option Value)) (members : List (String × Value)) : Prop :=
  ∀ name o, (name, o) ∈ slots →
    fieldOf name members = some (o.map serde.reparse) ∨ o = none ∧ fieldOf name members = some (some .null)

theorem carries_readBack {slots : List (String × Option Value)} (hnames : (slots.map Prod.fst).Nodup) :
    Carries serde slots (readBack serde slots) := fun _ _ hmem => Or.inl (fieldOf_readBack hnames hmem)

theorem carries_zip_inOrder {slots : List (String × Option Value)} (hnames : (slots.map Prod.fst).Nodup) :
    Carries serde slots ((slots.map Prod.fst).zip (inOrder serde slots)) := by
  intro name o hmem
  rw [inOrder, List.zip_map']
  have hmembers : (name, (o.map serde.reparse).getD .null) ∈
      slots.map fun slot => (slot.1, (slot.2.map serde.reparse).getD .null) := List.mem_map.mpr ⟨_, hmem, rfl⟩
  have hfield := fieldOf_of_mem (by rwa [List.map_map]) hmembers
  cases o with
  | none => exact Or.inr ⟨rfl, hfield⟩
  | some v => exact Or.inl hfield

theorem Carries.of_some {slots : List (String × Option Value)} {members : List (String × Value)}
    (h : Carries serde slots members) {name : String} {v : Value} (hmem : (name, some v) ∈ slots) :
    fieldOf name members = some (some (serde.reparse v)) := by
  rcases h _ _ hmem with hfield | ⟨hnone, -⟩
  · exact hfield
  · cases hnone

/-- The order of the members does not matter. -/
theorem fieldOf_perm {name : String} {members members' : List (String × Value)} (h : members.Perm members') :
    fieldOf name members = fieldOf name members' := by
  have hfilter := h.filter fun m => m.1 = name
  rw [fieldOf, fieldOf]
  generalize members.filter (fun m => m.1 = name) = l at hfilter ⊢
  generalize members'.filter (fun m => m.1 = name) = l' at hfilter ⊢
  match l, l', hfilter with
  | [], _, hfilter => rw [List.nil_perm.mp hfilter]
  | [m], _, hfilter => rw [List.singleton_perm.mp hfilter]
  | _ :: _ :: _, [], hfilter => cases List.perm_nil.mp hfilter
  | _ :: _ :: _, [_], hfilter => cases List.perm_singleton.mp hfilter
  | _ :: _ :: _, _ :: _ :: _, _ => rfl

/-- Members under other names do not matter. -/
theorem fieldOf_append_of_ne {name : String} (members : List (String × Value)) {others : List (String × Value)}
    (h : ∀ m ∈ others, m.1 ≠ name) : fieldOf name (members ++ others) = fieldOf name members := by
  have hothers : others.filter (fun m => m.1 = name) = [] := by
    rw [List.filter_eq_nil_iff]
    intro m hm
    simpa using h m hm
  rw [fieldOf, fieldOf, List.filter_append, hothers, List.append_nil]

theorem Carries.of_perm_append {slots : List (String × Option Value)} {members others members' : List (String × Value)}
    (h : Carries serde slots members) (hperm : members'.Perm (members ++ others))
    (hothers : ∀ m ∈ others, m.1 ∉ slots.map Prod.fst) : Carries serde slots members' := by
  intro name o hmem
  have hne : ∀ m ∈ others, m.1 ≠ name := by
    rintro m hm rfl
    exact hothers m hm (List.mem_map.mpr ⟨_, hmem, rfl⟩)
  rw [fieldOf_perm hperm, fieldOf_append_of_ne members hne]
  exact h name o hmem

/-! ### Types that are read as they were written -/

/-- A value is read as it was written, and what is written is not `null`. -/
structure Codec.Exact {α : Type} (serde : Serde) (c : Codec α) : Prop where
  read_write : ∀ a, c.read (serde.reparse (c.write a)) = some a
  ne_null : ∀ a, serde.reparse (c.write a) ≠ .null

section Fields

variable {slots : List (String × Option Value)} {members : List (String × Value)} (h : Carries serde slots members)
  {name : String} {α β : Type} {c : Codec α} {next : α → Option β} {b : β}

include h

theorem bind_required {a a' : α} (hread : c.read (serde.reparse (c.write a)) = some a') (hmem : field c name a ∈ slots)
    (hnext : next a' = some b) : (required c name members >>= next) = some b := by
  have hfield : required c name members = some a' := by
    rw [required, h.of_some hmem]
    exact hread
  rw [hfield]
  exact hnext

theorem bind_defaulted (hc : c.Exact serde) {default : α} (a : α) (hmem : field c name a ∈ slots)
    (hnext : next a = some b) : (defaulted c default name members >>= next) = some b := by
  have hfield : defaulted c default name members = some a := by
    rw [defaulted, h.of_some hmem]
    exact hc.read_write a
  rw [hfield]
  exact hnext

theorem bind_optional (hc : c.Exact serde) (o : Option α) {next : Option α → Option β} (hmem : skipField c name o ∈ slots)
    (hnext : next o = some b) : (optional c name members >>= next) = some b := by
  have hfield : optional c name members = some o := by
    cases o with
    | none =>
        rcases h _ _ hmem with hfield | ⟨-, hfield⟩
        · rw [optional, hfield]
          rfl
        · rw [optional, hfield]
    | some a =>
        have hread := hc.read_write a
        have hnull := hc.ne_null a
        rw [optional, h.of_some hmem]
        simp only [hread, Option.map_some]
  rw [hfield]
  exact hnext

/-- Metadata is rewritten on the way, and may come back as none at all. -/
theorem bind_metadata (o : Option Value) {next : Option Value → Option β} (hmem : skipField .value name o ∈ slots)
    (hnext : next (serde.reloadMetadata o) = some b) :
    (optional .value name members >>= next) = some b := by
  have hfield : optional .value name members = some (serde.reloadMetadata o) := by
    cases o with
    | none =>
        rcases h _ _ hmem with hfield | ⟨-, hfield⟩
        · rw [optional, hfield]
          rfl
        · rw [optional, hfield]
          rfl
    | some v =>
        rw [optional, h.of_some hmem]
        change (match some (some (serde.reparse v)) with
          | some none => some none
          | some (some .null) => some none
          | some (some v) => (Codec.value.read v).map some
          | none => none) = some (serde.reloadMetadata (some v))
        rw [Serde.reloadMetadata]
        cases serde.reparse v <;> rfl
  rw [hfield]
  exact hnext

end Fields

namespace Codec

variable (json : Json serde)

include json

theorem exact_string : string.Exact serde where
  read_write s := by
    change string.read (serde.reparse (.string s)) = some s
    rw [json.reparse_noFraction _ (.string s)]
    rfl
  ne_null s := by
    change serde.reparse (.string s) ≠ .null
    rw [json.reparse_noFraction _ (.string s)]
    exact Value.noConfusion

theorem exact_bool : bool.Exact serde where
  read_write b := by
    change bool.read (serde.reparse (.bool b)) = some b
    rw [json.reparse_noFraction _ (.bool b)]
    rfl
  ne_null b := by
    change serde.reparse (.bool b) ≠ .null
    rw [json.reparse_noFraction _ (.bool b)]
    exact Value.noConfusion

theorem exact_unsigned {α : Type} {size : ℕ} {toNat : α → ℕ} {ofNat : ℕ → α} (hlt : ∀ n, toNat n < size)
    (hback : ∀ n, ofNat (toNat n) = n) : (unsigned size toNat ofNat).Exact serde where
  read_write n := by
    have hrange : 0 ≤ (toNat n : Int) ∧ (toNat n : Int) < size := ⟨Int.natCast_nonneg _, Int.ofNat_lt.mpr (hlt n)⟩
    change (unsigned size toNat ofNat).read (serde.reparse (.integer (toNat n))) = some n
    rw [json.reparse_noFraction _ (.integer _)]
    simp only [unsigned, if_pos hrange, Int.toNat_natCast, hback]
  ne_null n := by
    change serde.reparse (.integer (toNat n)) ≠ .null
    rw [json.reparse_noFraction _ (.integer _)]
    exact Value.noConfusion

theorem exact_u8 : u8.Exact serde := exact_unsigned json (fun n => n.toNat_lt_size) fun _ => UInt8.ofNat_toNat

theorem exact_u32 : u32.Exact serde := exact_unsigned json (fun n => n.toNat_lt_size) fun _ => UInt32.ofNat_toNat

theorem exact_time : (time json).Exact serde where
  read_write t := by
    change (time json).read (serde.reparse (.string _)) = some t
    rw [json.reparse_noFraction _ (.string _)]
    exact json.timeFromStr_timeToString t
  ne_null t := (exact_string json).ne_null _

theorem exact_lifecycle : lifecycle.Exact serde where
  read_write l := by
    cases l with
    | singleUseUnwrap =>
        change lifecycle.read (serde.reparse (.string "SingleUseUnwrap")) = _
        rw [json.reparse_noFraction _ (.string _)]
        rfl
    | renewableLease =>
        change lifecycle.read (serde.reparse (.string "RenewableLease")) = _
        rw [json.reparse_noFraction _ (.string _)]
        rfl
    | serviceBootstrap =>
        change lifecycle.read (serde.reparse (.string "ServiceBootstrap")) = _
        rw [json.reparse_noFraction _ (.string _)]
        rfl
  ne_null l := by
    cases l with
    | singleUseUnwrap => exact (exact_string json).ne_null _
    | renewableLease => exact (exact_string json).ne_null _
    | serviceBootstrap => exact (exact_string json).ne_null _

theorem exact_vec {α : Type} {c : Codec α} (hc : c.Exact serde) : (vec c).Exact serde where
  read_write l := by
    change (vec c).read (serde.reparse (.array _)) = some l
    rw [json.reparse_array, List.map_map]
    change (l.map (serde.reparse ∘ c.write)).mapM c.read = some l
    induction l with
    | nil => rfl
    | cons a l ih =>
        rw [List.map_cons, List.mapM_cons, Function.comp_apply, hc.read_write, ih]
        rfl
  ne_null l := by
    change serde.reparse (.array _) ≠ .null
    rw [json.reparse_array]
    exact Value.noConfusion

omit json in
theorem read_struct_array {α : Type} {names : List String} {slots : α → List (String × Option Value)}
    {fields : List (String × Value) → Option α} {items : List Value} (h : items.length ≤ names.length) :
    (struct names slots fields).read (.array items) =
    (struct names slots fields).read (.object (names.zip items)) := if_pos h

theorem exact_struct {α : Type} {names : List String} {slots : α → List (String × Option Value)}
    {fields : List (String × Value) → Option α} (hnames : ∀ a, ((slots a).map Prod.fst).Nodup)
    (hfields : ∀ a members, Carries serde (slots a) members → fields members = some a) :
    (struct names slots fields).Exact serde where
  read_write a := by
    change (struct names slots fields).read (serde.reparse (writeObject _)) = some a
    rw [reparse_writeObject json]
    exact hfields a _ (carries_readBack (hnames a))
  ne_null a := by
    change serde.reparse (writeObject _) ≠ .null
    rw [reparse_writeObject json]
    exact Value.noConfusion

end Codec

section Exact

variable (json : Json serde)

include json

theorem HeldShare.exact_codec : HeldShare.codec.Exact serde := by
  refine Codec.exact_struct json (fun h => by simp [HeldShare.slots, field]) fun h members hcarries => ?_
  refine bind_required hcarries ((Codec.exact_u8 json).read_write h.x) (by simp [HeldShare.slots]) ?_
  refine bind_required hcarries ((Codec.exact_string json).read_write h.yB64) (by simp [HeldShare.slots]) ?_
  rfl

theorem ShareAssignment.exact_codec : ShareAssignment.codec.Exact serde := by
  refine Codec.exact_struct json (fun a => by simp [ShareAssignment.slots, field]) fun a members hcarries => ?_
  refine bind_required hcarries ((Codec.exact_string json).read_write a.custodianId) (by simp [ShareAssignment.slots]) ?_
  refine bind_required hcarries ((Codec.exact_u8 json).read_write a.shareIndex) (by simp [ShareAssignment.slots]) ?_
  refine bind_defaulted hcarries (Codec.exact_bool json) a.claimed (by simp [ShareAssignment.slots]) ?_
  rfl

theorem ThirdPartyCaveatKey.exact_codec : (ThirdPartyCaveatKey.codec json).Exact serde := by
  have hstring := Codec.exact_string json
  refine Codec.exact_struct json (fun k => by simp [ThirdPartyCaveatKey.slots, field, skipField])
    fun k members hcarries => ?_
  refine bind_required hcarries (hstring.read_write k.location) (by simp [ThirdPartyCaveatKey.slots]) ?_
  refine bind_required hcarries (hstring.read_write k.keyId) (by simp [ThirdPartyCaveatKey.slots]) ?_
  refine bind_optional hcarries hstring k.condition (by simp [ThirdPartyCaveatKey.slots]) ?_
  refine bind_required hcarries (hstring.read_write k.secretB64) (by simp [ThirdPartyCaveatKey.slots]) ?_
  refine bind_required hcarries ((Codec.exact_time json).read_write k.createdAt) (by simp [ThirdPartyCaveatKey.slots]) ?_
  rfl

/-- Only the metadata of an envelope can come back as something else. -/
theorem SecretEnvelope.read_codec {e : SecretEnvelope} {members : List (String × Value)}
    (hcarries : Carries serde (e.slots json) members) :
    (SecretEnvelope.codec json).read (.object members) = some { e with metadata := serde.reloadMetadata e.metadata } := by
  have hstring := Codec.exact_string json
  refine bind_required hcarries (hstring.read_write e.envelopeKeyId) (by simp [SecretEnvelope.slots]) ?_
  refine bind_required hcarries (hstring.read_write e.algorithm) (by simp [SecretEnvelope.slots]) ?_
  refine bind_required hcarries (hstring.read_write e.ciphertext) (by simp [SecretEnvelope.slots]) ?_
  refine bind_required hcarries (hstring.read_write e.kyberCiphertext) (by simp [SecretEnvelope.slots]) ?_
  refine bind_required hcarries (hstring.read_write e.customerId) (by simp [SecretEnvelope.slots]) ?_
  refine bind_optional hcarries hstring e.exporterBinding (by simp [SecretEnvelope.slots]) ?_
  refine bind_metadata hcarries e.metadata (by simp [SecretEnvelope.slots]) ?_
  refine bind_required hcarries ((Codec.exact_time json).read_write e.createdAt) (by simp [SecretEnvelope.slots]) ?_
  rfl

theorem SecretEnvelope.read_write_codec (e : SecretEnvelope) :
    (SecretEnvelope.codec json).read (serde.reparse ((SecretEnvelope.codec json).write e)) =
      some { e with metadata := serde.reloadMetadata e.metadata } := by
  change (SecretEnvelope.codec json).read (serde.reparse (writeObject _)) = _
  rw [reparse_writeObject json]
  exact SecretEnvelope.read_codec json (carries_readBack (by simp [SecretEnvelope.slots, field, skipField]))

theorem StoredEnvelopeRecord.read_codec {r : StoredEnvelopeRecord} {members : List (String × Value)}
    (hcarries : Carries serde (r.slots json) members) :
    (StoredEnvelopeRecord.codec json).read (.object members) = some (serde.reload r) := by
  have hstring := Codec.exact_string json
  have hbool := Codec.exact_bool json
  have hu8 := Codec.exact_u8 json
  have hu32 := Codec.exact_u32 json
  have htime := Codec.exact_time json
  have hlifecycle := Codec.exact_lifecycle json
  have hstrings := Codec.exact_vec json hstring
  have hkeys := Codec.exact_vec json (ThirdPartyCaveatKey.exact_codec json)
  have hassignments := Codec.exact_vec json (ShareAssignment.exact_codec json)
  have hshares := Codec.exact_vec json (HeldShare.exact_codec json)
  refine bind_required hcarries (SecretEnvelope.read_write_codec json r.envelope) (by simp [StoredEnvelopeRecord.slots]) ?_
  refine bind_required hcarries (hstring.read_write r.signature) (by simp [StoredEnvelopeRecord.slots]) ?_
  refine bind_required hcarries (hstring.read_write r.signingKeyId) (by simp [StoredEnvelopeRecord.slots]) ?_
  refine bind_required hcarries (hstring.read_write r.signingPublicKey) (by simp [StoredEnvelopeRecord.slots]) ?_
  refine bind_optional hcarries htime r.signingKeyExpiresAt (by simp [StoredEnvelopeRecord.slots]) ?_
  refine bind_optional hcarries htime r.expiresAt (by simp [StoredEnvelopeRecord.slots]) ?_
  refine bind_optional hcarries htime r.lastAccessed (by simp [StoredEnvelopeRecord.slots]) ?_
  refine bind_optional hcarries hstring r.redeemNonce (by simp [StoredEnvelopeRecord.slots]) ?_
  refine bind_optional hcarries hstring r.redeemBinding (by simp [StoredEnvelopeRecord.slots]) ?_
  refine bind_optional hcarries hstring r.unwrapPrincipalId (by simp [StoredEnvelopeRecord.slots]) ?_
  refine bind_defaulted hcarries hbool r.issuedWithAuthenticatedTransport (by simp [StoredEnvelopeRecord.slots]) ?_
  refine bind_optional hcarries hstring r.issuedByPrincipalId (by simp [StoredEnvelopeRecord.slots]) ?_
  refine bind_optional hcarries hstring r.issuedByPeerCertSha256 (by simp [StoredEnvelopeRecord.slots]) ?_
  refine bind_optional hcarries hstring r.issuedByAttestationDigest (by simp [StoredEnvelopeRecord.slots]) ?_
  refine bind_optional hcarries hkeys r.thirdPartyCaveatKeys (by simp [StoredEnvelopeRecord.slots]) ?_
  refine bind_optional hcarries htime r.redeemExpiresAt (by simp [StoredEnvelopeRecord.slots]) ?_
  refine bind_defaulted hcarries hbool r.redeemUsed (by simp [StoredEnvelopeRecord.slots]) ?_
  refine bind_optional hcarries hu8 r.threshold (by simp [StoredEnvelopeRecord.slots]) ?_
  refine bind_optional hcarries hstrings r.thresholdCommitments (by simp [StoredEnvelopeRecord.slots]) ?_
  refine bind_required hcarries (hlifecycle.read_write r.lifecycle) (by simp [StoredEnvelopeRecord.slots]) ?_
  refine bind_optional hcarries htime r.leaseExpiresAt (by simp [StoredEnvelopeRecord.slots]) ?_
  refine bind_defaulted hcarries hu32 r.leaseRenewalCount (by simp [StoredEnvelopeRecord.slots]) ?_
  refine bind_defaulted hcarries hbool r.revoked (by simp [StoredEnvelopeRecord.slots]) ?_
  refine bind_optional hcarries htime r.revokedAt (by simp [StoredEnvelopeRecord.slots]) ?_
  refine bind_optional hcarries hstring r.revocationReason (by simp [StoredEnvelopeRecord.slots]) ?_
  refine bind_optional hcarries hassignments r.shareAssignments (by simp [StoredEnvelopeRecord.slots]) ?_
  refine bind_optional hcarries hshares r.heldShares (by simp [StoredEnvelopeRecord.slots]) ?_
  rfl

end Exact

end ReadBack

/-- Documents and times as plain text. -/
def textJson : Json plainSerde where
  toVec := JsonText.toVec
  fromSlice := JsonText.fromSlice
  timeToString := JsonText.timeToString
  timeFromStr := JsonText.timeFromStr
  fromSlice_toVec := JsonText.fromSlice_toVec
  timeFromStr_timeToString := JsonText.timeFromStr_timeToString
  reparse_noFraction _ _ := rfl
  reparse_array items := by
    have hsame : items.map plainSerde.reparse = items := List.map_id _
    rw [hsame]
    rfl
  reparse_object members := by
    have hsame : members.map (fun m => (m.1, plainSerde.reparse m.2)) = members := List.map_id' _
    rw [hsame]
    rfl

section Text

variable {serde : Serde}

def recordToVec (json : Json serde) (r : StoredEnvelopeRecord) : Bytes :=
  json.toVec ((StoredEnvelopeRecord.codec json).write r)

def recordFromSlice (json : Json serde) (b : Bytes) : Option StoredEnvelopeRecord :=
  (json.fromSlice b).bind (StoredEnvelopeRecord.codec json).read

theorem nodup_recordNames (json : Json serde) (r : StoredEnvelopeRecord) : ((r.slots json).map Prod.fst).Nodup := by
  simp [StoredEnvelopeRecord.slots, field, skipField]

theorem recordFromSlice_recordToVec (json : Json serde) (r : StoredEnvelopeRecord) :
    recordFromSlice json (recordToVec json r) = some (serde.reload r) := by
  rw [recordFromSlice, recordToVec, json.fromSlice_toVec, Option.bind_some]
  change (StoredEnvelopeRecord.codec json).read (serde.reparse (writeObject _)) = _
  rw [reparse_writeObject json]
  exact StoredEnvelopeRecord.read_codec json (carries_readBack (nodup_recordNames json r))

/-- **Records survive their text.** A text with the members that are written for a record, in any order and among any
members under other names, is read as that record with its metadata rewritten. So is an array of what is written for the
fields, in the order of their declaration. The text that the store writes is one of the first kind. -/
theorem record_reads_back (json : Json serde) (r : StoredEnvelopeRecord) :
    (∀ (text : Bytes) (members others : List (String × Value)), json.fromSlice text = some (.object members) →
      members.Perm (readBack serde (r.slots json) ++ others) → (∀ m ∈ others, m.1 ∉ (r.slots json).map Prod.fst) →
      recordFromSlice json text = some (serde.reload r)) ∧
    (∀ text : Bytes, json.fromSlice text = some (.array (inOrder serde (r.slots json))) →
      recordFromSlice json text = some (serde.reload r)) ∧
    recordFromSlice json (recordToVec json r) = some (serde.reload r) := by
  refine ⟨fun text members others htext hmembers hothers => ?_, fun text htext => ?_, recordFromSlice_recordToVec json r⟩
  · have hcarries := (carries_readBack (nodup_recordNames json r)).of_perm_append hmembers hothers
    rw [recordFromSlice, htext, Option.bind_some]
    exact StoredEnvelopeRecord.read_codec json hcarries
  · have hlength : (inOrder serde (r.slots json)).length ≤ StoredEnvelopeRecord.fieldNames.length := by
      simp [inOrder, StoredEnvelopeRecord.slots, StoredEnvelopeRecord.fieldNames]
    have hcarries : Carries serde (r.slots json) (StoredEnvelopeRecord.fieldNames.zip (inOrder serde (r.slots json))) :=
      carries_zip_inOrder (nodup_recordNames json r)
    rw [recordFromSlice, htext, Option.bind_some]
    exact (Codec.read_struct_array hlength).trans (StoredEnvelopeRecord.read_codec json hcarries)

/-- The members of a plain record the other way round, with a member that this version does not know; and its fields as an
array. -/
theorem record_reads_back_plain :
    recordFromSlice textJson (textJson.toVec
      (.object (readBack plainSerde (plainRecord.slots textJson) ++ [("compression", Value.null)]).reverse)) =
      some plainRecord ∧
    recordFromSlice textJson (textJson.toVec (.array (inOrder plainSerde (plainRecord.slots textJson)))) =
      some plainRecord := by
  obtain ⟨hobject, harray, -⟩ := record_reads_back textJson plainRecord
  refine ⟨?_, harray _ (textJson.fromSlice_toVec _)⟩
  refine hobject _ _ [("compression", Value.null)] (textJson.fromSlice_toVec _) (List.reverse_perm _) ?_
  intro m hm
  obtain rfl := List.mem_singleton.mp hm
  simp [StoredEnvelopeRecord.slots, field, skipField]

end Text

end SecretBroker
