import SecretBroker.PlainBroker
import SecretBroker.SecurityMaxUses

/-! The texts that the broker reads and writes have one spelling each. A handle is read back as the macaroon that was
signed if its lengths fit their 16-bit fields, a text that is read is the text of what it is read as, and caveats are
read back as they were asked for. A discharge is the exception: an expiry that cannot be represented is dropped. -/

open Wire

namespace SecretBroker

namespace Macaroon

/-- The caveat loop of `deserialize`, with its position in the buffer. -/
def readCaveats (buf : Bytes) : ℕ → ℕ → Except Fault (List String × ℕ)
  | 0, pos => .ok ([], pos)
  | n + 1, pos =>
      if pos + 2 > buf.length then .error .refused
      else do
        let low ← byteAt buf pos
        let high ← byteAt buf (pos + 1)
        let len := ofLE [low, high]
        if pos + 2 + len > buf.length then .error .refused
        else do
          let bytes ← slice buf (pos + 2) (pos + 2 + len)
          let text ← Eff.okOr (fromUtf8 bytes) .refused
          let (texts, pos) ← readCaveats buf n (pos + 2 + len)
          return (text :: texts, pos)

/-- `Macaroon::deserialize` after the base64, with every access to the buffer. -/
def readBytes (buf : Bytes) : Except Fault (Macaroon String (Block 32)) :=
  if buf.length < 16 + 2 + 32 then .error .refused
  else do
    let identifier ← slice buf 0 16
    let identifier ← Eff.okOr (sized 16 identifier) .refused
    let low ← byteAt buf 16
    let high ← byteAt buf 17
    let (caveats, pos) ← readCaveats buf (ofLE [low, high]) 18
    if pos + 32 ≠ buf.length then .error .refused
    else do
      let signature ← slice buf pos (pos + 32)
      -- `copy_from_slice` panics if the lengths differ
      let signature ← Eff.okOr (sized 32 signature) .outOfBounds
      return { identifier := ⟨identifier⟩, caveats, signature }

/-- The loop stays in the buffer and reads what the loop without a cursor reads. -/
theorem readCaveats_cases (buf : Bytes) (n : ℕ) {pos : ℕ} (hpos : pos ≤ buf.length) :
    (∃ texts pos', readCaveats buf n pos = .ok (texts, pos') ∧ pos' ≤ buf.length ∧
      takeCaveats n (buf.drop pos) = some (texts, buf.drop pos')) ∨
    readCaveats buf n pos = .error .refused ∧ takeCaveats n (buf.drop pos) = none := by
  induction n generalizing pos with
  | zero => exact Or.inl ⟨[], pos, rfl, hpos, rfl⟩
  | succ n ih =>
      rw [readCaveats, takeCaveats, takePrefixed]
      by_cases hlen : pos + 2 > buf.length
      · right
        rw [if_pos hlen, takeBytes_drop_of_lt hpos hlen]
        exact ⟨rfl, rfl⟩
      have hlen' : pos + 2 ≤ buf.length := not_lt.mp hlen
      rw [if_neg hlen, takeBytes_drop hlen', take_two_drop hlen', byteAt_of_lt (by omega), byteAt_of_lt (by omega)]
      simp only [Eff.ok_bind, Option.bind_eq_bind, Option.bind_some]
      generalize ofLE [buf[pos], buf[pos + 1]] = len
      by_cases htext : pos + 2 + len > buf.length
      · right
        rw [if_pos htext, takeBytes_drop_of_lt hlen' htext]
        exact ⟨rfl, rfl⟩
      have htext' : pos + 2 + len ≤ buf.length := not_lt.mp htext
      rw [if_neg htext, takeBytes_drop htext', slice_of_le htext', Eff.ok_bind, Option.bind_some]
      cases fromUtf8 ((buf.drop (pos + 2)).take len) with
      | none => exact Or.inr ⟨rfl, rfl⟩
      | some text =>
          rw [Eff.okOr_some, Eff.ok_bind, Option.bind_some, Option.bind_some]
          rcases ih htext' with ⟨texts, pos', hread, hle, htake⟩ | ⟨hread, htake⟩
          · left
            rw [hread, htake]
            exact ⟨text :: texts, pos', rfl, hle, rfl⟩
          · right
            rw [hread, htake]
            exact ⟨rfl, rfl⟩

/-- The reader stays in the buffer and reads what the reader without a cursor reads. -/
theorem readBytes_eq (buf : Bytes) : readBytes buf = Eff.okOr (fromBytes buf) .refused := by
  rw [readBytes, fromBytes]
  by_cases hshort : buf.length < 16 + 2 + 32
  · rw [if_pos hshort, if_pos hshort]
    rfl
  have hid : 0 + 16 ≤ buf.length := by omega
  have hcount : 16 + 2 ≤ buf.length := by omega
  have htakeId : takeBytes 16 buf = some (buf.take 16, buf.drop 16) := takeBytes_drop hid
  have hlength : (buf.take 16).length = 16 := List.length_take_of_le (by omega)
  have hsized : sized 16 (buf.take 16) = some ⟨buf.take 16, hlength⟩ := dif_pos hlength
  have hslice : slice buf 0 16 = .ok (buf.take 16) := slice_of_le hid
  rw [if_neg hshort, if_neg hshort, hslice, byteAt_of_lt (by omega), byteAt_of_lt (by omega), htakeId]
  simp only [Eff.ok_bind, Option.bind_eq_bind, Option.bind_some, hsized, Eff.okOr_some, takeBytes_drop hcount,
    take_two_drop hcount, dif_pos hlength]
  rcases readCaveats_cases buf (ofLE [buf[16], buf[16 + 1]]) hcount with ⟨texts, pos, hread, hpos, htake⟩ | ⟨hread, htake⟩
  · rw [hread, htake, Eff.ok_bind, Option.bind_some]
    -- the exact-length check is what makes the rest of the buffer a signature
    by_cases hrest : pos + 32 = buf.length
    · have hsig : (buf.drop pos).length = 32 := by rw [List.length_drop]; omega
      have hsized' : sized 32 (buf.drop pos) = some ⟨buf.drop pos, hsig⟩ := dif_pos hsig
      have hslice' : slice buf pos (pos + 32) = .ok (buf.drop pos) := by
        rw [slice_of_le (by omega), List.take_of_length_le (by omega)]
      rw [if_neg (not_not_intro hrest), hslice', Eff.ok_bind, hsized']
      rfl
    · have hsig : sized 32 (buf.drop pos) = none := dif_neg (by rw [List.length_drop]; omega)
      rw [if_pos hrest, hsig]
      rfl
  · rw [hread, htake]
    rfl

/-- `Macaroon::deserialize`, with every access to the buffer. -/
def read (s : String) : Except Fault (Macaroon String (Block 32)) := do
  let buf ← Eff.okOr (Base64.standard.decode s) .refused
  readBytes buf

/-- The reader with a cursor and the one without read every text alike; it never leaves the buffer. -/
theorem read_eq (s : String) :
    read s ≠ .error .outOfBounds ∧ deserialize s = (read s).mapError fun _ => .invalidFormat := by
  rw [read, deserialize]
  cases Base64.standard.decode s with
  | none => exact ⟨by simp [Eff.okOr, bind, Except.bind], rfl⟩
  | some buf =>
      rw [Eff.okOr_some, Eff.ok_bind, readBytes_eq, Option.bind_some]
      cases fromBytes buf with
      | none => exact ⟨by simp [Eff.okOr], rfl⟩
      | some m => exact ⟨by simp [Eff.okOr], rfl⟩

end Macaroon

/-- Handles have one spelling. Reading a text never leaves its bytes; a text that is read is the text of the macaroon it is
read as; and two handles that are read as the same macaroon differ in the white space around them only, so they have the
same fingerprint in the log. -/
theorem handle_one_spelling (env : Env) :
    (∀ s, Macaroon.read s ≠ .error .outOfBounds ∧
      Macaroon.deserialize s = (Macaroon.read s).mapError fun _ => .invalidFormat) ∧
    (∀ s m, Macaroon.deserialize s = .ok m → m.serialize = s) ∧
    ∀ raw raw' m, parseHandleV2 raw = .ok m → parseHandleV2 raw' = .ok m →
      trim raw = trim raw' ∧ handleFingerprint env raw = handleFingerprint env raw' := by
  refine ⟨Macaroon.read_eq, fun s m h => (Macaroon.deserialize_eq_ok.mp h).1.symm, fun raw raw' m h h' => ?_⟩
  have htrim : trim raw = trim raw' :=
    (parseHandleV2_eq_ok.mp h).1.trans (parseHandleV2_eq_ok.mp h').1.symm
  exact ⟨htrim, by rw [handleFingerprint, handleFingerprint, htrim]⟩

theorem handle_one_spelling_space :
    parseHandleV2 (" " ++ handleV2 (plainMac .renewableLease)) = .ok (plainMac .renewableLease) ∧
    handleFingerprint plainEnv (" " ++ handleV2 (plainMac .renewableLease)) =
      handleFingerprint plainEnv (handleV2 (plainMac .renewableLease)) := by
  have htrim : trim (" " ++ handleV2 (plainMac .renewableLease)) = handleV2 (plainMac .renewableLease) := by
    rw [trim_space, trim_handleV2]
  have hspace : parseHandleV2 (" " ++ handleV2 (plainMac .renewableLease)) = .ok (plainMac .renewableLease) :=
    parseHandleV2_eq_ok.mpr ⟨htrim, (plainMac_fits .renewableLease).1⟩
  have hparse : parseHandleV2 (handleV2 (plainMac .renewableLease)) = .ok (plainMac .renewableLease) :=
    parseHandleV2_handleV2 (plainMac_fits .renewableLease).1
  exact ⟨hspace, ((handle_one_spelling plainEnv).2.2 _ _ _ hspace hparse).2⟩

/-- The handle that a handler has returned. -/
def Reply.newHandle : Reply → Option String
  | .wrapped outcome => some outcome.handle
  | .minted response => some response.handle
  | .attenuated response => some response.handle
  | .rotated response => some response.newHandle
  | _ => none

/-- The macaroon that a request asks to be signed: a new one with the caveats of its fields, or the one of its handle with
more caveats. -/
inductive Call.Signs (env : Env) : Call → Macaroon String (Block 32) → Prop
  | wrap {createdAt : DateTime} {d : PersistDraws} {context : BrokerClientContext} {request : WrapV2Request}
      {expiresAt : Option DateTime} {ttl : Option UInt64}
        (h : enforceTtl env request.ttlSeconds createdAt = .ok (expiresAt, ttl)) :
      Signs env (.wrap createdAt d context request)
        (Macaroon.mint env.mac (env.rootKey d.handleId) d.handleId (wrapCaveats request expiresAt))
  | mint {d : MintDraws} {context : BrokerClientContext} {request : MintV2Request}
      {expiresAt : Option DateTime} {ttl : Option UInt64}
        (h : enforceTtl env request.ttlSeconds d.createdAt = .ok (expiresAt, ttl)) :
      Signs env (.mint d context request)
        (Macaroon.mint env.mac (env.rootKey d.persist.handleId) d.persist.handleId (mintCaveats request expiresAt))
  | rotate {d : RotateDraws} {context : BrokerClientContext} {payload : RotateSecretRequest}
      {expiresAt : Option DateTime} {ttl : Option UInt64}
        (h : enforceTtl env payload.ttlSeconds d.createdAt = .ok (expiresAt, ttl)) :
      Signs env (.rotate d context payload)
        (Macaroon.mint env.mac (env.rootKey d.persist.handleId) d.persist.handleId
          ((expiresAt.map Caveat.expires).toList ++ [.action "unwrap", .maxUses]))
  | attenuate {d : AttenuateDraws} {context : BrokerClientContext} {payload : AttenuateV2Request}
      {mac : Macaroon String (Block 32)} {firstParty : List Caveat} (hmac : parseHandleV2 payload.handle = .ok mac)
      (hfirst : firstPartyCaveats payload = .ok firstParty) :
      Signs env (.attenuate d context payload) (mac.attenuate env.mac (firstParty ++ thirdPartyCaveats d payload))

/-- Every handle that a handler returns is the one of the macaroon that was asked for. -/
theorem Call.signs_newHandle {env : Env} {call : Call} {reply : Reply} {s s' : Broker} {handle : String}
    (h : call.exec env s = (.ok reply, s')) (hhandle : reply.newHandle = some handle) :
    ∃ m, call.Signs env m ∧ handle = handleV2 m := by
  cases call <;> simp only [Call.exec, Eff.bind_eq_ok, Eff.pure_eq_ok] at h <;>
    obtain ⟨response, _, hcall, rfl, -⟩ := h <;>
    cases hhandle
  case wrap.refl =>
    obtain ⟨expiresAt, ttl, _, _, _, httl, -, -, -, houtcome, -⟩ := wrap_eq_ok env hcall
    exact ⟨_, .wrap httl, houtcome⟩
  case mint.refl =>
    obtain ⟨expiresAt, ttl, _, outcome, _, _, httl, -, -, hpersist, -, -, -, -, hresponse⟩ := mint_eq_ok env hcall
    obtain ⟨_, _, _, _, _, _, _, _, -, -, -, -, rfl⟩ := persist_eq_ok env hpersist
    exact ⟨_, .mint httl, hresponse⟩
  case attenuate.refl =>
    obtain ⟨mac, _, firstParty, hmac, -, hfirst, hresponse⟩ := attenuate_eq_ok hcall
    exact ⟨_, .attenuate hmac hfirst, hresponse⟩
  case rotate.refl =>
    obtain ⟨expiresAt, ttl, _, outcome, _, _, _, httl, hpersist, -, hresponse⟩ := rotate_eq_ok env hcall
    obtain ⟨_, _, _, _, _, _, _, _, -, -, -, -, rfl⟩ := persist_eq_ok env hpersist
    exact ⟨_, .rotate httl, hresponse⟩

theorem Call.Signs.caveats_wrap {env : Env} {createdAt : DateTime} {d : PersistDraws} {context : BrokerClientContext}
    {request : WrapV2Request} {m : Macaroon String (Block 32)} (h : (Call.wrap createdAt d context request).Signs env m) :
    ∃ expiresAt, m.caveats = (wrapCaveats request expiresAt).map (Caveat.encode env.chrono) := by
  cases h with
  | wrap httl => exact ⟨_, rfl⟩

/-- A text is read back as the macaroon it was made of exactly if the lengths fit. -/
theorem Macaroon.deserialize_serialize_iff (m : Macaroon String (Block 32)) :
    Macaroon.deserialize m.serialize = .ok m ↔ m.Fits := by
  rw [Macaroon.deserialize_eq_ok, eq_self, true_and]

theorem parseHandleV2_handleV2_iff (m : Macaroon String (Block 32)) : parseHandleV2 (handleV2 m) = .ok m ↔ m.Fits := by
  rw [parseHandleV2_eq_ok, trim_handleV2, eq_self, true_and]

/-- A handle can be read back exactly if it has fewer than 65536 caveats, and each has fewer than 65536 bytes: the lengths
are cut to 16 bits. The caveats are those that the handle was minted with and those that were added. -/
theorem handle_readable_iff (env : Env) :
    (∀ (rootKey : Block 32) (identifier : Uuid) (caveats added : List Caveat),
      let m := (Macaroon.mint env.mac rootKey identifier caveats).attenuate env.mac added
      (Macaroon.deserialize m.serialize = .ok m ∧ parseHandleV2 (handleV2 m) = .ok m) ↔
        (caveats ++ added).length < 65536 ∧ ∀ c ∈ caveats ++ added, (asBytes (c.encode env.chrono)).length < 65536) ∧
    ∀ (call : Call) (reply : Reply) (s s' : Broker) (handle : String), call.exec env s = (.ok reply, s') →
      reply.newHandle = some handle → ∃ m, call.Signs env m ∧ (parseHandleV2 handle = .ok m ↔
        m.caveats.length < 65536 ∧ ∀ text ∈ m.caveats, (asBytes text).length < 65536) := by
  refine ⟨fun rootKey identifier caveats added => ?_, fun call reply s s' handle hexec hhandle => ?_⟩
  · intro m
    have htexts : m.caveats = (caveats ++ added).map (Caveat.encode env.chrono) := by
      rw [Macaroon.attenuate_caveats, List.map_append]
      rfl
    rw [m.deserialize_serialize_iff, parseHandleV2_handleV2_iff, and_self, Macaroon.Fits, htexts, List.length_map,
      List.forall_mem_map]
  · obtain ⟨m, hsigns, rfl⟩ := Call.signs_newHandle hexec hhandle
    exact ⟨m, hsigns, parseHandleV2_handleV2_iff m⟩

theorem handle_readable_iff_plain : ∃ reply s' handle m,
    (plainWrap .renewableLease).exec plainEnv Broker.empty = (.ok reply, s') ∧ reply.newHandle = some handle ∧
      (plainWrap .renewableLease).Signs plainEnv m ∧ parseHandleV2 handle = .ok m := by
  obtain ⟨outcome, r, s', hwrap, -⟩ :=
    plain_wrap (.filled 1) (.filled 2) (.filled 3) .renewableLease (s := Broker.empty) (by decide)
  have hexec : (plainWrap .renewableLease).exec plainEnv Broker.empty = (.ok (.wrapped outcome), s') := by
    rw [plainWrap, Call.exec, Eff.bind_of_ok hwrap]
    rfl
  obtain ⟨m, hsigns, hparse⟩ := (handle_readable_iff plainEnv).2 _ _ _ _ _ hexec rfl
  refine ⟨_, s', _, m, hexec, rfl, hsigns, hparse.mpr ?_⟩
  cases hsigns with
  | wrap httl =>
      cases httl
      exact (plainMac_fits .renewableLease).1

/-- A name of so many letters. -/
def longName (n : ℕ) : String := String.ofList (List.replicate n 'a')

theorem trim_longName (n : ℕ) : trim (longName n) = longName n := by
  apply trim_of_trimmed
  apply trimmed_of_all
  intro c hc
  rw [longName, String.toList_ofList] at hc
  rw [List.eq_of_mem_replicate hc]
  rfl

theorem length_asBytes_longName (n : ℕ) : (asBytes (longName n)).length = n := by
  have hascii : ∀ c ∈ List.replicate n 'a', c.utf8Size = 1 := by
    intro c hc
    rw [List.eq_of_mem_replicate hc]
    rfl
  rw [longName, length_asBytes_ofList hascii, List.length_replicate]

/-- A request to wrap for a tenant with such a name. -/
def longRequest (n : ℕ) : WrapV2Request := { plainRequest .renewableLease with tenantId := some (longName n) }

/-- The request, as a call. -/
def longWrap (n : ℕ) : Call := .wrap ⟨0, 0⟩ (plainDraws (.filled 1) (.filled 2) (.filled 3)) plainContext (longRequest n)

/-- The name is in a caveat of the handle. -/
theorem mem_wrapCaveats_longRequest {n : ℕ} (hn : 0 < n) (expiresAt : Option DateTime) :
    Caveat.tenantId (longName n) ∈ wrapCaveats (longRequest n) expiresAt := by
  have hne : longName n ≠ "" := by
    intro h
    have hlength := length_asBytes_longName n
    rw [h, show (asBytes "").length = 0 from rfl] at hlength
    omega
  have hnormal : normalizeOptionalString (longName n) = some (longName n) :=
    normalizeOptionalString_eq_some.mpr ⟨trim_longName n, hne⟩
  have hfield : fieldCaveat .tenantId (longRequest n).tenantId = [.tenantId (longName n)] := by
    rw [fieldCaveat, longRequest, Option.bind_some, hnormal]
    rfl
  rw [wrapCaveats, hfield]
  simp only [List.mem_append, List.mem_singleton, true_or]

/-- Wrapping for a tenant with a name of so many letters succeeds, and the handle is not read as the macaroon that
was signed if its length does not fit. -/
theorem longWrap_unreadable {n : ℕ} (hn : 65536 ≤ n) : ∃ outcome s' m,
    (longWrap n).exec plainEnv Broker.empty = (.ok (.wrapped outcome), s') ∧ (longWrap n).Signs plainEnv m ∧
    outcome.handle = handleV2 m ∧ parseHandleV2 outcome.handle ≠ .ok m ∧ Macaroon.deserialize m.serialize ≠ .ok m := by
  obtain ⟨outcome, r, s', hwrap, -⟩ :=
    plain_wrap_tenant (.filled 1) (.filled 2) (.filled 3) .renewableLease (some (longName n))
      (s := Broker.empty) (by decide)
  have hexec : (longWrap n).exec plainEnv Broker.empty = (.ok (.wrapped outcome), s') := by
    rw [longWrap, longRequest, Call.exec, Eff.bind_of_ok hwrap]
    rfl
  obtain ⟨m, hsigns, hhandle⟩ := Call.signs_newHandle hexec
    (show (Reply.wrapped outcome).newHandle = some outcome.handle from rfl)
  have hlong : ¬ m.Fits := by
    intro hfits
    obtain ⟨expiresAt, hcaveats⟩ := Call.Signs.caveats_wrap hsigns
    have hmem : Caveat.encode plainEnv.chrono (.tenantId (longName n)) ∈ m.caveats := by
      rw [hcaveats]
      exact List.mem_map_of_mem (mem_wrapCaveats_longRequest (by omega) expiresAt)
    have htext := hfits.2 _ hmem
    rw [Caveat.encode, Caveat.length_asBytes_labelled, length_asBytes_longName] at htext
    omega
  refine ⟨outcome, s', m, hexec, hsigns, hhandle, ?_, ?_⟩
  · rw [hhandle]
    exact fun h => hlong ((parseHandleV2_handleV2_iff m).mp h)
  · exact fun h => hlong (m.deserialize_serialize_iff.mp h)

/-- So a handle for a tenant with a name of 65536 letters cannot be read. -/
theorem handle_of_long_tenant : ∃ outcome s' m,
    (longWrap 65536).exec plainEnv Broker.empty = (.ok (.wrapped outcome), s') ∧ (longWrap 65536).Signs plainEnv m ∧
    outcome.handle = handleV2 m ∧ parseHandleV2 outcome.handle ≠ .ok m ∧ Macaroon.deserialize m.serialize ≠ .ok m :=
  longWrap_unreadable le_rfl

/-! ### Discharges -/

namespace DischargeMacaroon

/-- The seconds in the expiry field that a text carries, if there is one: the field is there exactly if 72 bytes are left
after the location and the condition. -/
def expiryField (s : String) : Option Int := do
  let b ← Base64.standard.decode s
  let (_, b) ← takePrefixed b
  let (_, tail) ← takePrefixed b
  if tail.length = 72 then some (asI64 (UInt64.ofNat (ofLE (tail.take 8)))) else none

/-- Eight bytes are those of the number they denote. -/
theorem i64Bytes_asI64 {b : Bytes} (hb : b.length = 8) : i64Bytes (asI64 (UInt64.ofNat (ofLE b))) = b := by
  have hlt : ofLE b < 2 ^ 64 := by
    have h := ofLE_lt b
    rwa [hb] at h
  have hnat : (UInt64.ofNat (ofLE b)).toNat = ofLE b := UInt64.toNat_ofNat_of_lt' hlt
  have hmod : asI64 (UInt64.ofNat (ofLE b)) % 2 ^ 64 = ofLE b := by
    calc asI64 (UInt64.ofNat (ofLE b)) % 2 ^ 64
        = Int.bmod (UInt64.ofNat (ofLE b)).toNat (2 ^ 64) % ((2 ^ 64 : ℕ) : Int) := by
          rw [asI64, ← Int64.toInt_toBitVec, UInt64.toBitVec_toInt64, BitVec.toInt_eq_toNat_bmod]
          rfl
      _ = ofLE b := by
          rw [Int.bmod_emod, hnat]
          omega
  rw [i64Bytes, hmod, Int.toNat_natCast, ← hb, natLE_ofLE]

/-- The two ways in which the tail is read. -/
theorem takeTail_eq_some {b : Bytes} {expiresAt : Option DateTime} {sig binding : Block 32}
    (h : takeTail b = some (expiresAt, sig, binding)) :
      (∃ field, field.length = 8 ∧ b = field ++ (sig.val ++ binding.val) ∧
        expiresAt = DateTime.fromTimestamp (asI64 (UInt64.ofNat (ofLE field)))) ∨
      (b = sig.val ++ binding.val ∧ expiresAt = none) := by
  unfold takeTail at h
  split_ifs at h with hlong hshort
  · left
    simp only [Option.bind_eq_bind, Option.bind_eq_some_iff, Prod.exists, Option.some.injEq, Prod.mk.injEq] at h
    obtain ⟨field, rest, hfield, sigBytes, bindingBytes, hsplit, _, hsig, _, hbinding, rfl, rfl, rfl⟩ := h
    obtain ⟨rfl, hlength⟩ := takeBytes_eq_some.mp hfield
    obtain ⟨rfl, -⟩ := takeBytes_eq_some.mp hsplit
    obtain rfl := sized_eq_some.mp hsig
    obtain rfl := sized_eq_some.mp hbinding
    exact ⟨field, hlength, rfl, rfl⟩
  · right
    simp only [Option.bind_eq_bind, Option.bind_eq_some_iff, Prod.exists, Option.some.injEq, Prod.mk.injEq] at h
    obtain ⟨sigBytes, bindingBytes, hsplit, _, hsig, _, hbinding, rfl, rfl, rfl⟩ := h
    obtain ⟨rfl, -⟩ := takeBytes_eq_some.mp hsplit
    obtain rfl := sized_eq_some.mp hsig
    obtain rfl := sized_eq_some.mp hbinding
    exact ⟨rfl, rfl⟩

/-- The bytes of a discharge are its two texts and its tail. -/
theorem fromBytes_eq_some {b : Bytes} {d : DischargeMacaroon (Block 32)} (h : fromBytes b = some d) :
    ∃ tail, b = prefixed d.location ++ (prefixed d.condition ++ tail) ∧ (asBytes d.location).length < 65536 ∧
      (asBytes d.condition).length < 65536 ∧ takeTail tail = some (d.expiresAt, d.dischargeSignature, d.binding) := by
  unfold fromBytes at h
  split_ifs at h with hshort
  simp only [Option.bind_eq_bind, Option.bind_eq_some_iff, Prod.exists] at h
  obtain ⟨len, b₁, hlen, h⟩ := h
  split_ifs at h with hlocation
  simp only [Option.bind_eq_some_iff, Prod.exists, Option.some.injEq] at h
  obtain ⟨_, b₂, htext, location, hutf8, len', b₃, hlen', _, tail, htext', expiresAt, sig, binding, htail, condition,
    hutf8', rfl⟩ := h
  have hfirst : takePrefixed b = some (location, b₂) := by
    simp only [takePrefixed, Option.bind_eq_bind, hlen, Option.bind_some, htext, hutf8]
  have hsecond : takePrefixed b₂ = some (condition, tail) := by
    simp only [takePrefixed, Option.bind_eq_bind, hlen', Option.bind_some, htext', hutf8']
  obtain ⟨rfl, hfits⟩ := takePrefixed_eq_some.mp hfirst
  obtain ⟨rfl, hfits'⟩ := takePrefixed_eq_some.mp hsecond
  exact ⟨tail, rfl, hfits, hfits', htail⟩

/-- The bytes of a discharge with this expiry field. -/
def bytesWith (d : DischargeMacaroon (Block 32)) (field : Bytes) : Bytes :=
  prefixed d.location ++ (prefixed d.condition ++ (field ++ (d.dischargeSignature.val ++ d.binding.val)))

theorem bytesWith_length (d : DischargeMacaroon (Block 32)) (field : Bytes) :
    (d.bytesWith field).length = (d.bytesWith []).length + field.length := by
  simp only [bytesWith, List.length_append, List.length_nil]
  omega

/-- A text that is read carries an expiry field, which is what the expiry is made of, or it is the text of a discharge
without an expiry. -/
theorem deserialize_cases {s : String} {d : DischargeMacaroon (Block 32)} (h : deserialize s = .ok d) :
    (∃ secs, expiryField s = some secs ∧ s = Base64.standard.encode (d.bytesWith (i64Bytes secs)) ∧
      d.expiresAt = DateTime.fromTimestamp secs) ∨
    (expiryField s = none ∧ s = Base64.standard.encode (d.bytesWith []) ∧ d.expiresAt = none) := by
  unfold deserialize at h
  split at h
  · next d' hread =>
      cases h
      obtain ⟨b, hb, hbytes⟩ := Option.bind_eq_some_iff.mp hread
      obtain ⟨tail, rfl, hlocation, hcondition, htail⟩ := fromBytes_eq_some hbytes
      have hfield : expiryField s =
          if tail.length = 72 then some (asI64 (UInt64.ofNat (ofLE (tail.take 8)))) else none := by
        simp only [expiryField, Option.bind_eq_bind, hb, Option.bind_some, takePrefixed_prefixed hlocation,
          takePrefixed_prefixed hcondition]
      have hsig : d.dischargeSignature.val.length = 32 := d.dischargeSignature.property
      have hbinding : d.binding.val.length = 32 := d.binding.property
      rcases takeTail_eq_some htail with ⟨field, hlength, rfl, hexpires⟩ | ⟨rfl, hexpires⟩
      · left
        refine ⟨asI64 (UInt64.ofNat (ofLE field)), ?_, ?_, hexpires⟩
        · rw [hfield, if_pos (by simp [hlength, hsig, hbinding]), List.take_left' hlength]
        · rw [i64Bytes_asI64 hlength]
          exact (Base64.encode_decode hb).symm
      · right
        refine ⟨?_, (Base64.encode_decode hb).symm, hexpires⟩
        rw [hfield, if_neg (by simp [hsig, hbinding])]
  · cases h

theorem serialize_of_none {d : DischargeMacaroon (Block 32)} (h : d.expiresAt = none) :
    d.serialize = Base64.standard.encode (d.bytesWith []) := by
  rw [serialize, toBytes, h, bytesWith]

theorem serialize_of_some {d : DischargeMacaroon (Block 32)} {t : DateTime} (h : d.expiresAt = some t) :
    d.serialize = Base64.standard.encode (d.bytesWith (i64Bytes t.secs)) := by
  rw [serialize, toBytes, h, bytesWith]

/-- The discharge format loses nothing exactly if an expiry that is there can be represented: an expiry field with other
seconds is read as no expiry at all. -/
theorem discharge_lossless_iff {s : String} {d : DischargeMacaroon (Block 32)} (h : deserialize s = .ok d) :
    (d.serialize = s ↔ ∀ secs, expiryField s = some secs → DateTime.minSecs ≤ secs ∧ secs ≤ DateTime.maxSecs) ∧
    ((∀ secs, expiryField s = some secs → d.expiresAt ≠ none) ↔
      ∀ secs, expiryField s = some secs → DateTime.minSecs ≤ secs ∧ secs ≤ DateTime.maxSecs) := by
  rcases deserialize_cases h with ⟨secs, hfield, hs, hexpires⟩ | ⟨hfield, hs, hexpires⟩
  · have hall (P : Int → Prop) : (∀ secs', expiryField s = some secs' → P secs') ↔ P secs := by
      rw [hfield]
      exact ⟨fun hP => hP secs rfl, fun hP secs' heq => Option.some.inj heq ▸ hP⟩
    rw [hall, hall]
    by_cases hrange : DateTime.minSecs ≤ secs ∧ secs ≤ DateTime.maxSecs
    · have hsome : d.expiresAt = some ⟨secs, 0⟩ := by
        rw [hexpires, DateTime.fromTimestamp, if_neg (by omega)]
      have hsame : d.serialize = s := by rw [serialize_of_some hsome, hs]
      simp only [hsame, hsome, hrange, and_self, ne_eq, reduceCtorEq, not_false_eq_true]
    · have hnone : d.expiresAt = none := by
        rw [hexpires, DateTime.fromTimestamp, if_pos (by omega)]
      have hother : d.serialize ≠ s := by
        intro hsame
        rw [serialize_of_none hnone, hs] at hsame
        have hlength := congrArg List.length (Base64.encode_injective Base64.standard_lawful hsame)
        rw [bytesWith_length d (i64Bytes secs), i64Bytes, length_natLE] at hlength
        omega
      simp only [hother, hnone, hrange, ne_eq, not_true_eq_false, and_self]
  · have hnothing (P : Int → Prop) : ∀ secs, expiryField s = some secs → P secs := by
      intro secs heq
      rw [hfield] at heq
      cases heq
    have hsame : d.serialize = s := by rw [serialize_of_none hexpires, hs]
    exact ⟨⟨fun _ => hnothing _, fun _ => hsame⟩, ⟨fun _ => hnothing _, fun _ => hnothing _⟩⟩

/-- A discharge with this expiry field, as a text. -/
def expiringText (secs : Int) : String :=
  Base64.standard.encode (bytesWith ⟨"auth", "mfa", none, blank 32, blank 32⟩ (i64Bytes secs))

theorem expiryField_expiringText {secs : Int} (hmin : -2 ^ 63 ≤ secs) (hmax : secs < 2 ^ 63) :
    expiryField (expiringText secs) = some secs := by
  have hlength : (i64Bytes secs).length = 8 := length_natLE 8 _
  have hauth : (asBytes "auth").length < 65536 := by decide
  have hmfa : (asBytes "mfa").length < 65536 := by decide
  rw [expiryField, expiringText, Base64.decode_encode Base64.standard_lawful, bytesWith]
  simp only [Option.bind_eq_bind, Option.bind_some, takePrefixed_prefixed hauth, takePrefixed_prefixed hmfa]
  rw [if_pos (by simp [hlength, blank]), List.take_left' hlength, asI64_i64Bytes hmin hmax]

theorem deserialize_expiringText {secs : Int} (hmin : -2 ^ 63 ≤ secs) (hmax : secs < 2 ^ 63) :
    deserialize (expiringText secs) = .ok ⟨"auth", "mfa", DateTime.fromTimestamp secs, blank 32, blank 32⟩ := by
  have htail := takeTail_field (length_natLE 8 (secs % 2 ^ 64).toNat) (blank 32) (blank 32)
  rw [← i64Bytes, asI64_i64Bytes hmin hmax] at htail
  have hauth : (asBytes "auth").length < 65536 := by decide
  have hmfa : (asBytes "mfa").length < 65536 := by decide
  have hbytes := fromBytes_append hauth hmfa (by simp [i64Bytes, blank]) htail
  rw [deserialize, expiringText, Base64.decode_encode Base64.standard_lawful, Option.bind_some, bytesWith, hbytes]

theorem discharge_lossless_iff_hour :
    deserialize (expiringText 3600) = .ok ⟨"auth", "mfa", some ⟨3600, 0⟩, blank 32, blank 32⟩ ∧
    serialize ⟨"auth", "mfa", some ⟨3600, 0⟩, blank 32, blank 32⟩ = expiringText 3600 := by
  have hread := deserialize_expiringText (show -2 ^ 63 ≤ (3600 : Int) by decide) (by decide)
  refine ⟨hread, (discharge_lossless_iff hread).1.mpr fun secs hsecs => ?_⟩
  rw [expiryField_expiringText (by decide) (by decide), Option.some.injEq] at hsecs
  subst hsecs
  decide

/-- The largest expiry that the field can hold is read as no expiry, and the text that is written for it is another one. -/
theorem discharge_expiry_dropped : ∃ d, deserialize (expiringText (2 ^ 63 - 1)) = .ok d ∧
    expiryField (expiringText (2 ^ 63 - 1)) = some (2 ^ 63 - 1) ∧ d.expiresAt = none ∧
    d.serialize ≠ expiringText (2 ^ 63 - 1) := by
  have hread := deserialize_expiringText (show -2 ^ 63 ≤ (2 ^ 63 - 1 : Int) by decide) (by decide)
  refine ⟨_, hread, expiryField_expiringText (by decide) (by decide), rfl, fun hsame => ?_⟩
  rw [serialize_of_none rfl] at hsame
  have hlength := congrArg List.length (Base64.encode_injective Base64.standard_lawful hsame)
  rw [bytesWith_length _ (i64Bytes _)] at hlength
  have hfield : (i64Bytes (2 ^ 63 - 1)).length = 8 := length_natLE 8 _
  rw [hfield] at hlength
  exact absurd hlength (by decide)

end DischargeMacaroon

/-- The times of the years 0 to 9999. A leap second is a time past the end of a minute's last second. -/
def DateTime.FourDigitYear (t : DateTime) : Prop :=
  -62167219200 ≤ t.secs ∧ t.secs < 253402300800 ∧
    (t.nanos < 1000000000 ∨ t.secs % 60 = 59 ∧ t.nanos < 2000000000)

/-- The caveats that the handlers can construct. -/
def Caveat.Constructible : Caveat → Prop
  | .expires t => t.FourDigitYear
  | .thirdParty location keyId => location ≠ "" ∧ keyId ≠ ""
  | _ => True

theorem Caveat.Constructible.readable {chrono : Chrono}
    (hchrono : ∀ t : DateTime, t.FourDigitYear → chrono.parseFromRfc3339 (chrono.toRfc3339 t) = some t) {c : Caveat}
    (hc : c.Constructible) : c.Readable chrono := by
  cases c with
  | expires t => exact hchrono t hc
  | thirdParty location keyId => exact hc
  | tenantId _ => trivial
  | provider _ => trivial
  | circuitId _ => trivial
  | nodeId _ => trivial
  | action _ => trivial
  | maxUses => trivial

/-- A caveat is read back from its text as it was, whatever its texts are; so no two caveats have the same text, and
none is read as another kind or with another value. Times are printed and parsed by chrono. -/
theorem caveat_read_back {chrono : Chrono}
    (hchrono : ∀ t : DateTime, t.FourDigitYear → chrono.parseFromRfc3339 (chrono.toRfc3339 t) = some t) :
    (∀ c : Caveat, c.Constructible → Caveat.parse chrono (c.encode chrono) = .ok c) ∧
    (∀ c c' : Caveat, c.Constructible → c'.Constructible → c.encode chrono = c'.encode chrono → c = c') ∧
    ∀ c c' : Caveat, c.Constructible → Caveat.parse chrono (c.encode chrono) = .ok c' → c' = c := by
  have hread (c : Caveat) (hc : c.Constructible) : Caveat.parse chrono (c.encode chrono) = .ok c :=
    Caveat.parse_encode chrono (hc.readable hchrono)
  refine ⟨hread, fun c c' hc hc' hsame => ?_, fun c c' hc hparse => ?_⟩
  · have hboth := hread c hc
    rw [hsame, hread c' hc'] at hboth
    exact (Except.ok.inj hboth).symm
  · rw [hread c hc] at hparse
    exact (Except.ok.inj hparse).symm

/-- Packed times, counted from the year 0. -/
def Chrono.packedAnnoDomini : Chrono where
  toRfc3339 t := packed.toRfc3339 ⟨t.secs + 62167219200, t.nanos⟩
  parseFromRfc3339 s := (packed.parseFromRfc3339 s).map fun t => ⟨t.secs - 62167219200, t.nanos⟩
  display _ := ""
  debug _ := ""

theorem Chrono.packedAnnoDomini_parse {t : DateTime} (ht : t.FourDigitYear) :
    packedAnnoDomini.parseFromRfc3339 (packedAnnoDomini.toRfc3339 t) = some t := by
  obtain ⟨hfirst, hlast, hnanos⟩ := ht
  have hpacked : packed.parseFromRfc3339 (packed.toRfc3339 ⟨t.secs + 62167219200, t.nanos⟩) =
      some ⟨t.secs + 62167219200, t.nanos⟩ :=
    packed_parse (by simp only; omega) (by simp only; omega) (by simp only; omega)
  rw [packedAnnoDomini]
  simp only [hpacked, Option.map_some, Int.add_sub_cancel]

theorem caveat_read_back_separators :
    Caveat.parse Chrono.packedAnnoDomini ((Caveat.tenantId "a = b:c\nd").encode Chrono.packedAnnoDomini) =
      .ok (.tenantId "a = b:c\nd") ∧
    Caveat.parse Chrono.packedAnnoDomini ((Caveat.expires ⟨-62167219200, 0⟩).encode Chrono.packedAnnoDomini) =
      .ok (.expires ⟨-62167219200, 0⟩) := by
  have hread := caveat_read_back fun t ht => Chrono.packedAnnoDomini_parse ht
  refine ⟨hread.1 _ trivial, hread.1 _ ?_⟩
  have hzero : (⟨-62167219200, 0⟩ : DateTime).FourDigitYear := by
    unfold DateTime.FourDigitYear
    decide
  exact hzero

end SecretBroker
