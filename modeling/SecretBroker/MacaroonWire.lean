import SecretBroker.Macaroon

/-! The wire formats: a macaroon as the base64 of its identifier, its length-prefixed caveats and its
signature, and a discharge as the base64 of its texts, an optional expiry and its two tags. -/

open Wire

namespace SecretBroker

/-- A `u16` length, little-endian; longer lengths wrap. -/
def lengthPrefix (n : ℕ) : Bytes := natLE 2 n

/-- A length and a text of that length. -/
def prefixed (s : String) : Bytes := lengthPrefix (asBytes s).length ++ asBytes s

theorem ofLE_lengthPrefix {n : ℕ} (hn : n < 65536) : ofLE (lengthPrefix n) = n := ofLE_natLE_of_lt hn

@[simp] theorem length_lengthPrefix (n : ℕ) : (lengthPrefix n).length = 2 := length_natLE 2 n

/-- A length and as many bytes of UTF-8. -/
def takePrefixed (b : Bytes) : Option (String × Bytes) := do
  let (len, b) ← takeBytes 2 b
  let (text, b) ← takeBytes (ofLE len) b
  let text ← fromUtf8 text
  some (text, b)

theorem takePrefixed_prefixed {s : String} (hs : (asBytes s).length < 65536) (b : Bytes) :
    takePrefixed (prefixed s ++ b) = some (s, b) := by
  have htext : takeBytes (ofLE (lengthPrefix (asBytes s).length)) (asBytes s ++ b) =
      some (asBytes s, b) := by
    rw [ofLE_lengthPrefix hs]
    exact takeBytes_append rfl b
  rw [takePrefixed, prefixed, List.append_assoc, takeBytes_append (length_lengthPrefix _)]
  simp [htext]

/-- What is taken is the text with its length, and the length fits. -/
theorem takePrefixed_eq_some {b rest : Bytes} {s : String} :
    takePrefixed b = some (s, rest) ↔ b = prefixed s ++ rest ∧ (asBytes s).length < 65536 := by
  constructor
  · intro h
    simp only [takePrefixed, Option.bind_eq_bind, Option.bind_eq_some_iff, Prod.exists, Option.some.injEq,
      Prod.mk.injEq] at h
    obtain ⟨len, b', hlen, text, _, htext, _, hutf8, rfl, rfl⟩ := h
    obtain ⟨rfl, htwo⟩ := takeBytes_eq_some.mp hlen
    obtain ⟨rfl, hlength⟩ := takeBytes_eq_some.mp htext
    have hbytes := asBytes_of_fromUtf8 hutf8
    have hlen' : lengthPrefix text.length = len := by
      rw [lengthPrefix, hlength, ← htwo, natLE_ofLE]
    refine ⟨?_, ?_⟩
    · rw [prefixed, hbytes, hlen', List.append_assoc]
    · rw [hbytes, hlength]
      have hlt := ofLE_lt len
      rwa [htwo] at hlt
  · rintro ⟨rfl, hs⟩
    exact takePrefixed_prefixed hs rest

/-- The base64 text of some bytes is longer than they are. -/
theorem length_lt_asBytes_encode {b : Bytes} (hb : b ≠ []) : b.length < (asBytes (Base64.standard.encode b)).length := by
  have hascii : ∀ c ∈ Base64.standard.encodeChars b, c.utf8Size = 1 :=
    Base64.encodeChars_all (by decide) (by decide) b
  rw [Base64.encode, length_asBytes_ofList hascii]
  exact Base64.length_lt_encodeChars _ hb

namespace Macaroon

/-- The bytes under the base64 of `Macaroon::serialize`. -/
def toBytes (m : Macaroon String (Block 32)) : Bytes :=
  m.identifier.bytes.val ++ (lengthPrefix m.caveats.length ++
    (m.caveats.flatMap prefixed ++ m.signature.val))

/-- `Macaroon::serialize`. -/
def serialize (m : Macaroon String (Block 32)) : String := Base64.standard.encode m.toBytes

/-- The caveat loop of `deserialize`. -/
def takeCaveats : ℕ → Bytes → Option (List String × Bytes)
  | 0, b => some ([], b)
  | n + 1, b => do
      let (text, b) ← takePrefixed b
      let (texts, b) ← takeCaveats n b
      some (text :: texts, b)

/-- The bytes of a macaroon; at least the identifier, the count and the signature must be there. -/
def fromBytes (b : Bytes) : Option (Macaroon String (Block 32)) :=
  if b.length < 16 + 2 + 32 then none
  else do
    let (identifier, b) ← takeBytes 16 b
    let (count, b) ← takeBytes 2 b
    let (caveats, b) ← takeCaveats (ofLE count) b
    let signature ← sized 32 b
    if h : identifier.length = 16 then some { identifier := ⟨⟨identifier, h⟩⟩, caveats, signature }
    else none

/-- `Macaroon::deserialize`. -/
def deserialize (s : String) : Except MacaroonError (Macaroon String (Block 32)) :=
  match (Base64.standard.decode s).bind fromBytes with
  | some m => .ok m
  | none => .error .invalidFormat

/-- The macaroons whose lengths fit their prefixes. -/
def Fits (m : Macaroon String (Block 32)) : Prop :=
  m.caveats.length < 65536 ∧ ∀ c ∈ m.caveats, (asBytes c).length < 65536

theorem takeCaveats_flatMap {cs : List String} (hcs : ∀ c ∈ cs, (asBytes c).length < 65536) (b : Bytes) :
    takeCaveats cs.length (cs.flatMap prefixed ++ b) = some (cs, b) := by
  induction cs with
  | nil => rfl
  | cons c cs ih =>
      have hc := hcs c List.mem_cons_self
      have hrest := ih fun c' hc' => hcs c' (List.mem_cons_of_mem _ hc')
      rw [List.flatMap_cons, List.append_assoc, List.length_cons, takeCaveats, takePrefixed_prefixed hc]
      simp [hrest]

theorem fromBytes_toBytes {m : Macaroon String (Block 32)} (hm : m.Fits) : fromBytes m.toBytes = some m := by
  have hid : m.identifier.bytes.val.length = 16 := m.identifier.bytes.property
  have hlong : ¬ m.toBytes.length < 16 + 2 + 32 := by
    have hsig : m.signature.val.length = 32 := m.signature.property
    simp only [toBytes, List.length_append, hid, length_lengthPrefix, hsig]
    omega
  have hcaveats : takeCaveats (ofLE (lengthPrefix m.caveats.length))
      (m.caveats.flatMap prefixed ++ m.signature.val) = some (m.caveats, m.signature.val) := by
    rw [ofLE_lengthPrefix hm.1]
    exact takeCaveats_flatMap hm.2 _
  rw [fromBytes, if_neg hlong, toBytes, takeBytes_append hid]
  simp only [Option.bind_eq_bind, Option.bind_some, takeBytes_append (length_lengthPrefix _), hcaveats,
    sized_val, hid, dif_pos]

theorem takeCaveats_eq_some {n : ℕ} {b rest : Bytes} {cs : List String} :
    takeCaveats n b = some (cs, rest) ↔
      cs.length = n ∧ (∀ c ∈ cs, (asBytes c).length < 65536) ∧ b = cs.flatMap prefixed ++ rest := by
  constructor
  · intro h
    induction n generalizing b cs with
    | zero =>
        cases h
        exact ⟨rfl, List.forall_mem_nil _, rfl⟩
    | succ n ih =>
        simp only [takeCaveats, Option.bind_eq_bind, Option.bind_eq_some_iff, Prod.exists, Option.some.injEq,
          Prod.mk.injEq] at h
        obtain ⟨c, b', hc, cs', _, hcs, rfl, rfl⟩ := h
        obtain ⟨rfl, hfits⟩ := takePrefixed_eq_some.mp hc
        obtain ⟨rfl, hall, rfl⟩ := ih hcs
        exact ⟨rfl, List.forall_mem_cons.mpr ⟨hfits, hall⟩, by rw [List.flatMap_cons, List.append_assoc]⟩
  · rintro ⟨rfl, hcs, rfl⟩
    exact takeCaveats_flatMap hcs rest

/-- Exactly the bytes of macaroons whose lengths fit are read, each as its own. -/
theorem fromBytes_eq_some {b : Bytes} {m : Macaroon String (Block 32)} :
    fromBytes b = some m ↔ b = m.toBytes ∧ m.Fits := by
  constructor
  · intro h
    unfold fromBytes at h
    split_ifs at h
    simp only [Option.bind_eq_bind, Option.bind_eq_some_iff, Prod.exists] at h
    obtain ⟨identifier, _, hidentifier, count, _, hcount, caveats, _, hcaveats, signature, hsignature, h⟩ := h
    obtain ⟨rfl, hid⟩ := takeBytes_eq_some.mp hidentifier
    obtain ⟨rfl, htwo⟩ := takeBytes_eq_some.mp hcount
    obtain ⟨hlength, hall, rfl⟩ := takeCaveats_eq_some.mp hcaveats
    obtain rfl := sized_eq_some.mp hsignature
    rw [dif_pos hid, Option.some.injEq] at h
    subst h
    have hpre : lengthPrefix caveats.length = count := by
      rw [lengthPrefix, hlength, ← htwo, natLE_ofLE]
    refine ⟨by rw [toBytes, hpre], ?_, hall⟩
    have hlt := ofLE_lt count
    rwa [htwo, ← hlength] at hlt
  · rintro ⟨rfl, hm⟩
    exact fromBytes_toBytes hm

/-- The identifier comes first, so it is read also if a length does not fit. -/
theorem identifier_eq_of_toBytes_eq {m m' : Macaroon String (Block 32)} (h : m.toBytes = m'.toBytes) :
    m.identifier = m'.identifier := by
  have hlength : m.identifier.bytes.val.length = m'.identifier.bytes.val.length :=
    m.identifier.bytes.property.trans m'.identifier.bytes.property.symm
  exact Uuid.bytes_injective (List.append_inj_left h hlength)

/-- A macaroon whose lengths fit is read back from its text. -/
theorem deserialize_serialize {m : Macaroon String (Block 32)} (hm : m.Fits) :
    deserialize m.serialize = .ok m := by
  rw [deserialize, serialize, Base64.decode_encode Base64.standard_lawful, Option.bind_some,
    fromBytes_toBytes hm]

/-- A text is read as a macaroon exactly if it is the text of that macaroon, and its lengths fit. -/
theorem deserialize_eq_ok {s : String} {m : Macaroon String (Block 32)} :
    deserialize s = .ok m ↔ s = m.serialize ∧ m.Fits := by
  constructor
  · intro h
    unfold deserialize at h
    split at h
    · next m' hm' =>
        cases h
        obtain ⟨b, hb, hread⟩ := Option.bind_eq_some_iff.mp hm'
        obtain ⟨rfl, hfits⟩ := fromBytes_eq_some.mp hread
        exact ⟨(Base64.encode_decode hb).symm, hfits⟩
    · cases h
  · rintro ⟨rfl, hfits⟩
    exact deserialize_serialize hfits

end Macaroon

namespace DischargeMacaroon

/-- `i64::to_le_bytes`. -/
def i64Bytes (n : Int) : Bytes := natLE 8 (n % 2 ^ 64).toNat

/-- The bytes under the base64 of `DischargeMacaroon::serialize`; an expiry is cut to the second. -/
def toBytes (d : DischargeMacaroon (Block 32)) : Bytes :=
  prefixed d.location ++ (prefixed d.condition ++
    ((match d.expiresAt with
      | some expiresAt => i64Bytes expiresAt.secs
      | none => []) ++ (d.dischargeSignature.val ++ d.binding.val)))

/-- `DischargeMacaroon::serialize`. -/
def serialize (d : DischargeMacaroon (Block 32)) : String := Base64.standard.encode d.toBytes

/-- The expiry and the two tags, which have 64 or 72 bytes together. An expiry that chrono cannot
represent is read as none. -/
def takeTail (b : Bytes) : Option (Option DateTime × Block 32 × Block 32) :=
  if b.length = 72 then do
    let (expiry, b) ← takeBytes 8 b
    let (sig, binding) ← takeBytes 32 b
    let expiresAt := DateTime.fromTimestamp (asI64 (UInt64.ofNat (ofLE expiry)))
    some (expiresAt, ← sized 32 sig, ← sized 32 binding)
  else if b.length = 64 then do
    let (sig, binding) ← takeBytes 32 b
    some (none, ← sized 32 sig, ← sized 32 binding)
  else none

/-- The bytes of a discharge. -/
def fromBytes (b : Bytes) : Option (DischargeMacaroon (Block 32)) :=
  if b.length < 4 + 64 then none
  else do
    let (len, b') ← takeBytes 2 b
    if 2 + ofLE len + 2 + 64 > b.length then none
    else
      let (location, b') ← takeBytes (ofLE len) b'
      let location ← fromUtf8 location
      let (len, b') ← takeBytes 2 b'
      let (condition, tail) ← takeBytes (ofLE len) b'
      let (expiresAt, dischargeSignature, binding) ← takeTail tail
      let condition ← fromUtf8 condition
      some { location, condition, expiresAt, dischargeSignature, binding }

/-- `DischargeMacaroon::deserialize`. -/
def deserialize (s : String) : Except MacaroonError (DischargeMacaroon (Block 32)) :=
  match (Base64.standard.decode s).bind fromBytes with
  | some d => .ok d
  | none => .error .invalidFormat

/-- The discharges that the wire format carries exactly. -/
def Fits (d : DischargeMacaroon (Block 32)) : Prop :=
  (asBytes d.location).length < 65536 ∧ (asBytes d.condition).length < 65536 ∧
    ∀ t, d.expiresAt = some t → t.nanos = 0 ∧ DateTime.minSecs ≤ t.secs ∧ t.secs ≤ DateTime.maxSecs

theorem asI64_i64Bytes {n : Int} (hmin : -2 ^ 63 ≤ n) (hmax : n < 2 ^ 63) :
    asI64 (UInt64.ofNat (ofLE (i64Bytes n))) = n := by
  have hmod : (n % 2 ^ 64).toNat < 256 ^ 8 := by
    have hlt : n % 2 ^ 64 < 2 ^ 64 := Int.emod_lt_of_pos n (by norm_num)
    omega
  rw [i64Bytes, ofLE_natLE_of_lt hmod, asI64]
  have hbits : (UInt64.ofNat (n % 2 ^ 64).toNat).toInt64 = Int64.ofInt n := by
    apply Int64.toBitVec_inj.mp
    apply BitVec.eq_of_toNat_eq
    simp
    omega
  rw [hbits, Int64.toInt_ofInt_of_le hmin hmax]

/-- The tail with an expiry field. -/
theorem takeTail_field {field : Bytes} (hfield : field.length = 8) (sig binding : Block 32) :
    takeTail (field ++ (sig.val ++ binding.val)) =
      some (DateTime.fromTimestamp (asI64 (UInt64.ofNat (ofLE field))), sig, binding) := by
  have hsig : sig.val.length = 32 := sig.property
  have hbinding : binding.val.length = 32 := binding.property
  rw [takeTail, if_pos (by simp [hfield, hsig, hbinding]), takeBytes_append hfield]
  simp [takeBytes_append hsig]

/-- The tail without one. -/
theorem takeTail_bare (sig binding : Block 32) : takeTail (sig.val ++ binding.val) = some (none, sig, binding) := by
  have hsig : sig.val.length = 32 := sig.property
  have hbinding : binding.val.length = 32 := binding.property
  rw [takeTail, if_neg (by simp [hsig, hbinding]), if_pos (by simp [hsig, hbinding]), takeBytes_append hsig]
  simp

theorem takeTail_toBytes {d : DischargeMacaroon (Block 32)} (hd : d.Fits) :
    takeTail ((match d.expiresAt with
      | some expiresAt => i64Bytes expiresAt.secs
      | none => []) ++ (d.dischargeSignature.val ++ d.binding.val)) =
      some (d.expiresAt, d.dischargeSignature, d.binding) := by
  cases hexpiry : d.expiresAt with
  | none => exact takeTail_bare d.dischargeSignature d.binding
  | some t =>
      obtain ⟨hnanos, hmin, hmax⟩ := hd.2.2 t hexpiry
      have hsecs : asI64 (UInt64.ofNat (ofLE (i64Bytes t.secs))) = t.secs := by
        unfold DateTime.minSecs at hmin
        unfold DateTime.maxSecs at hmax
        exact asI64_i64Bytes (by omega) (by omega)
      have htime : DateTime.fromTimestamp t.secs = some t := by
        rw [DateTime.fromTimestamp, if_neg (by omega)]
        cases t
        simp only at hnanos
        rw [hnanos]
      have hread := takeTail_field (length_natLE 8 (t.secs % 2 ^ 64).toNat) d.dischargeSignature d.binding
      rwa [← i64Bytes, hsecs, htime] at hread

/-- Two texts that fit and a tail are read. -/
theorem fromBytes_append {location condition : String} (hlocation : (asBytes location).length < 65536)
    (hcondition : (asBytes condition).length < 65536) {tail : Bytes} (hlong : 64 ≤ tail.length)
    {expiresAt : Option DateTime} {sig binding : Block 32} (htail : takeTail tail = some (expiresAt, sig, binding)) :
    fromBytes (prefixed location ++ (prefixed condition ++ tail)) =
      some ⟨location, condition, expiresAt, sig, binding⟩ := by
  have hlength : (prefixed location ++ (prefixed condition ++ tail)).length =
      2 + (asBytes location).length + (2 + (asBytes condition).length + tail.length) := by
    simp only [prefixed, List.length_append, length_lengthPrefix]
  have henough : ¬ 2 + (asBytes location).length + 2 + 64 >
    (prefixed location ++ (prefixed condition ++ tail)).length := by
    omega
  rw [fromBytes, if_neg (by omega)]
  simp only [prefixed, List.append_assoc] at henough ⊢
  simp only [takeBytes_append (length_lengthPrefix _), Option.bind_eq_bind, Option.bind_some, ofLE_lengthPrefix hlocation,
    if_neg henough, takeBytes_append rfl, fromUtf8_asBytes, ofLE_lengthPrefix hcondition, htail]

theorem fromBytes_toBytes {d : DischargeMacaroon (Block 32)} (hd : d.Fits) : fromBytes d.toBytes = some d := by
  have hsig : d.dischargeSignature.val.length = 32 := d.dischargeSignature.property
  have hbinding : d.binding.val.length = 32 := d.binding.property
  refine fromBytes_append hd.1 hd.2.1 ?_ (takeTail_toBytes hd)
  simp only [List.length_append, hsig, hbinding]
  omega

/-- A discharge that the format carries is read back from its text. -/
theorem deserialize_serialize {d : DischargeMacaroon (Block 32)} (hd : d.Fits) :
    deserialize d.serialize = .ok d := by
  rw [deserialize, serialize, Base64.decode_encode Base64.standard_lawful, Option.bind_some,
    fromBytes_toBytes hd]

end DischargeMacaroon

end SecretBroker
