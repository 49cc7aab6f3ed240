import SecretBroker.LibBase64
import SecretBroker.Values

/-! The caveats of a macaroon: their text form and its parser. -/

open Wire

namespace SecretBroker

/-- The part of chrono that reads and writes times as text; `display` is the `Display` and `debug` the
`Debug` form. -/
structure Chrono where
  toRfc3339 : DateTime → String
  parseFromRfc3339 : String → Option DateTime
  display : DateTime → String
  debug : DateTime → String

/-- What chrono promises about RFC 3339: a time reads back from its text, which has at most 35 bytes. -/
structure Chrono.Lawful (chrono : Chrono) : Prop where
  parse_toRfc3339 : ∀ {t : DateTime}, t.Rfc3339 → chrono.parseFromRfc3339 (chrono.toRfc3339 t) = some t
  length_toRfc3339 : ∀ {t : DateTime}, t.Rfc3339 → (asBytes (chrono.toRfc3339 t)).length ≤ 35

/-- Times packed into sixteen characters: a text form that keeps these promises. -/
def Chrono.packed : Chrono where
  toRfc3339 t := Base64.standard.encode (natLE 8 t.secs.toNat ++ natLE 4 t.nanos)
  parseFromRfc3339 s := do
    let (secs, nanos) ← takeBytes 8 (← Base64.standard.decode s)
    some ⟨ofLE secs, ofLE nanos⟩
  display _ := ""
  debug _ := ""

theorem Chrono.packed_parse {t : DateTime} (hsecs : 0 ≤ t.secs) (hbound : t.secs < 256 ^ 8) (hnanos : t.nanos < 256 ^ 4) :
    packed.parseFromRfc3339 (packed.toRfc3339 t) = some t := by
  have hback : ofLE (natLE 8 t.secs.toNat) = t.secs.toNat := ofLE_natLE_of_lt (by omega)
  have hback' : ofLE (natLE 4 t.nanos) = t.nanos := ofLE_natLE_of_lt hnanos
  simp only [packed, Base64.decode_encode Base64.standard_lawful, Option.bind_eq_bind, Option.bind_some,
    takeBytes_append (length_natLE _ _), hback, hback', Int.toNat_of_nonneg hsecs]

theorem Chrono.packed_lawful : packed.Lawful where
  parse_toRfc3339 := by
    intro t ht
    obtain ⟨hsecs, hbound, hnanos⟩ := ht
    exact packed_parse hsecs (by omega) (by omega)
  length_toRfc3339 := by
    intro t _
    have hlength := Base64.standard.length_encodeChars_le (natLE 8 t.secs.toNat ++ natLE 4 t.nanos)
    rw [List.length_append, length_natLE, length_natLE] at hlength
    have hascii := length_asBytes_ofList (Base64.encodeChars_all (e := Base64.standard)
      (P := fun c => c.utf8Size = 1) (by decide) (by decide) (natLE 8 t.secs.toNat ++ natLE 4 t.nanos))
    change (asBytes (String.ofList _)).length ≤ 35
    omega

inductive MacaroonError where
  | invalidFormat
  | signatureInvalid
  | caveatFailed (message : String)
  | expired
  | unknownCaveat (key : String)
  deriving DecidableEq, Repr

/-- The error's text. -/
def MacaroonError.message : MacaroonError → String
  | .invalidFormat => "invalid macaroon format"
  | .signatureInvalid => "HMAC chain verification failed"
  | .caveatFailed message => "caveat check failed: " ++ message
  | .expired => "macaroon expired"
  | .unknownCaveat key => "unknown caveat key: " ++ key

inductive Caveat where
  | tenantId (v : String)
  | provider (v : String)
  | expires (v : DateTime)
  | circuitId (v : String)
  | nodeId (v : String)
  | action (v : String)
  | maxUses
  | thirdParty (location keyId : String)
  deriving DecidableEq, Repr

namespace Caveat

/-- `format!("{key} = {value}")`. -/
def labelled (key value : String) : String := key ++ " = " ++ value

theorem length_asBytes_labelled (key value : String) :
    (asBytes (labelled key value)).length = (asBytes key).length + 3 + (asBytes value).length := by
  rw [labelled, asBytes_append, asBytes_append, List.length_append, List.length_append]
  rfl

/-- `Caveat::encode`. -/
def encode (chrono : Chrono) : Caveat → String
  | .tenantId v => labelled "tenant_id" v
  | .provider v => labelled "provider" v
  | .expires v => labelled "expires" (chrono.toRfc3339 v)
  | .circuitId v => labelled "circuit_id" v
  | .nodeId v => labelled "node_id" v
  | .action v => labelled "action" v
  | .maxUses => labelled "max_uses" "1"
  | .thirdParty location keyId =>
      labelled "3p" ("v3:" ++ (Base64.urlSafeNoPad.encode (asBytes location) ++ ":" ++
        Base64.urlSafeNoPad.encode (asBytes keyId)))

/-- The URL-safe base64 of a UTF-8 text. -/
def parseSegment (s : String) : Except MacaroonError String :=
  match (Base64.urlSafeNoPad.decode s).bind fromUtf8 with
  | some text => .ok text
  | none => .error .invalidFormat

/-- The value of a `3p` caveat. -/
def parseThirdParty (value : String) : Except MacaroonError Caveat :=
  match (stripHead "v3:" value).bind (splitOnce ":") with
  | none => .error .invalidFormat
  | some (location, keyId) =>
      if ':' ∈ keyId.toList then .error .invalidFormat
      else do
        let location ← parseSegment location
        let keyId ← parseSegment keyId
        if location = "" ∨ keyId = "" then .error .invalidFormat
        else .ok (.thirdParty location keyId)

/-- The value of a `max_uses` caveat. -/
def parseMaxUses (value : String) : Except MacaroonError Caveat :=
  match parseU32 value with
  | none => .error .invalidFormat
  | some n =>
      if n ≠ 1 then
        .error (.caveatFailed ("max_uses only supports value 1, got " ++ toString n))
      else .ok .maxUses

/-- `Caveat::parse`. -/
def parse (chrono : Chrono) (s : String) : Except MacaroonError Caveat :=
  match splitOnce " = " s with
  | none => .error .invalidFormat
  | some (key, value) =>
      if key = "tenant_id" then .ok (.tenantId value)
      else if key = "provider" then .ok (.provider value)
      else if key = "expires" then
        match chrono.parseFromRfc3339 value with
        | some time => .ok (.expires time)
        | none => .error .invalidFormat
      else if key = "circuit_id" then .ok (.circuitId value)
      else if key = "node_id" then .ok (.nodeId value)
      else if key = "action" then .ok (.action value)
      else if key = "max_uses" then parseMaxUses value
      else if key = "3p" then parseThirdParty value
      else .error (.unknownCaveat key)

theorem splitOnce_labelled {key : String} (hkey : ' ' ∉ key.toList) (value : String) :
    splitOnce " = " (labelled key value) = some (key, value) := by
  have hsep : " = ".toList = ' ' :: ['=', ' '] := rfl
  exact splitOnce_append hsep hkey value

theorem parseSegment_encode (s : String) :
    parseSegment (Base64.urlSafeNoPad.encode (asBytes s)) = .ok s := by
  rw [parseSegment, Base64.decode_encode Base64.urlSafeNoPad_lawful, Option.bind_some, fromUtf8_asBytes]

/-- The caveats whose text the parser reads back: a time must survive its text form, and a
third-party caveat must name its location and its key. -/
def Readable (chrono : Chrono) : Caveat → Prop
  | .expires v => chrono.parseFromRfc3339 (chrono.toRfc3339 v) = some v
  | .thirdParty location keyId => location ≠ "" ∧ keyId ≠ ""
  | _ => True

theorem colon_notMem_encode (b : Bytes) : ':' ∉ (Base64.urlSafeNoPad.encode b).toList := by
  rw [Base64.encode, String.toList_ofList]
  intro h
  exact Base64.encodeChars_all (e := Base64.urlSafeNoPad) (P := fun c => c ≠ ':') (by decide)
    (by decide) b ':' h rfl

theorem parseThirdParty_encode {location keyId : String} (hlocation : location ≠ "") (hkeyId : keyId ≠ "") :
    parseThirdParty ("v3:" ++ (Base64.urlSafeNoPad.encode (asBytes location) ++ ":" ++
      Base64.urlSafeNoPad.encode (asBytes keyId))) = .ok (.thirdParty location keyId) := by
  have hsep : ":".toList = ':' :: [] := rfl
  have hsplit := splitOnce_append hsep (colon_notMem_encode (asBytes location))
    (Base64.urlSafeNoPad.encode (asBytes keyId))
  rw [parseThirdParty, stripHead_append, Option.bind_some, hsplit]
  simp only [colon_notMem_encode, if_false, parseSegment_encode, bind, Except.bind, hlocation, hkeyId,
    or_self]

/-- The parser reads back what `encode` wrote. -/
theorem parse_encode (chrono : Chrono) {c : Caveat} (hc : c.Readable chrono) :
    parse chrono (c.encode chrono) = .ok c := by
  cases c with
  | tenantId v => rw [encode, parse, splitOnce_labelled (by decide)]; simp
  | provider v => rw [encode, parse, splitOnce_labelled (by decide)]; simp
  | expires v =>
      have hread : chrono.parseFromRfc3339 (chrono.toRfc3339 v) = some v := hc
      rw [encode, parse, splitOnce_labelled (by decide)]
      simp [hread]
  | circuitId v => rw [encode, parse, splitOnce_labelled (by decide)]; simp
  | nodeId v => rw [encode, parse, splitOnce_labelled (by decide)]; simp
  | action v => rw [encode, parse, splitOnce_labelled (by decide)]; simp
  | maxUses =>
      have hone : parseMaxUses "1" = .ok .maxUses := by decide
      rw [encode, parse, splitOnce_labelled (by decide)]
      simp [hone]
  | thirdParty location keyId =>
      rw [encode, parse, splitOnce_labelled (by decide)]
      simp [parseThirdParty_encode hc.1 hc.2]

end Caveat

end SecretBroker
