import SecretBroker.BrokerFrame
import SecretBroker.PlainBroker
import SecretBroker.Server

/-! Decryption after encryption. A hybrid ciphertext needs the key pair that was stored for it, and a later
encryption under the same key id replaces the pair; a ciphertext of the symmetric engine comes back only for the
algorithms whose nonce has twelve bytes, and only if there is room for the nonce and the tag. -/

open Wire

namespace SecretBroker

/-- The primitives of the server undo themselves, and a tag has sixteen bytes. -/
structure ServerEnv.Lawful (env : ServerEnv) : Prop extends env.toEnv.Lawful where
  aesGcm_length : ∀ {key nonce plaintext ciphertext}, env.aesGcm.encrypt key nonce plaintext = .ok ciphertext →
    ciphertext.length = plaintext.length + 16
  chaCha_length : ∀ {key nonce plaintext ciphertext},
    env.chaCha20Poly1305.encrypt key nonce plaintext = .ok ciphertext → ciphertext.length = plaintext.length + 16
  xChaCha_decrypt : ∀ {key nonce plaintext ciphertext},
    env.xChaCha20Poly1305.encrypt key nonce plaintext = .ok ciphertext →
    env.xChaCha20Poly1305.decrypt key nonce ciphertext = .ok plaintext

/-- A call that encrypts: the handlers seal secrets with `encrypt_pqc`, and callers send `CryptoEncrypt`. -/
inductive EncryptCall where
  | encryptPqc (d : EncryptDraws) (data : Bytes) (envelopeKeyId : String)
  | cryptoEncrypt (d : CryptoDraws) (context : Option BrokerClientContext) (req : Proto.CryptoEncryptRequest)

/-- A hybrid ciphertext that was returned, with its plaintext. -/
structure Sealing where
  plaintext : Bytes
  ciphertext : Bytes
  kemCiphertext : Bytes
  keyId : String
  deriving DecidableEq, Repr

namespace EncryptCall

/-- The id under which the call stores an ML-KEM key pair, if it is a hybrid encryption. -/
def storageKeyId : EncryptCall → Option String
  | .encryptPqc _ _ envelopeKeyId => some envelopeKeyId
  | .cryptoEncrypt d _ req =>
      if parseCryptoAlgorithm req.algorithm = .ok .kyber768 then some (mlkemKeyId (emptyToNone req.keyId) d.mlkemUuid)
      else none

/-- The id under which the call caches a key if it needs a new one. -/
def cacheKeyId : EncryptCall → Option String
  | .encryptPqc .. => none
  | .cryptoEncrypt d _ _ => some (generatedKeyId d.engine.keyId)

variable (env : ServerEnv)

/-- The hybrid ciphertext that the call returns, if any, and the state that it leaves. -/
def exec : EncryptCall → ServerState → Option Sealing × ServerState
  | .encryptPqc d data envelopeKeyId, s =>
      let result := SecretBroker.encryptPqc env.toEnv d data envelopeKeyId s.broker
      (result.1.toOption.map fun r => ⟨data, r.ciphertext, r.nonce, envelopeKeyId⟩, { s with broker := result.2 })
  | .cryptoEncrypt d context req, s =>
      let result := SecretBroker.cryptoEncrypt env d context req s
      (if parseCryptoAlgorithm req.algorithm = .ok .kyber768 then
        result.1.toOption.map fun r => ⟨req.plaintext, r.ciphertext, r.nonce, r.keyId⟩ else none, result.2)

/-- The state after some calls, with the hybrid ciphertexts that they returned. -/
def run (s : ServerState) (calls : List EncryptCall) : ServerState × List Sealing :=
  calls.foldl (fun p call => ((call.exec env p.1).2, p.2 ++ (call.exec env p.1).1.toList)) (s, [])

variable {env}

@[simp] theorem run_nil (s : ServerState) : run env s [] = (s, []) := rfl

theorem run_concat (s : ServerState) (calls : List EncryptCall) (call : EncryptCall) :
    run env s (calls ++ [call]) = ((call.exec env (run env s calls).1).2,
      (run env s calls).2 ++ (call.exec env (run env s calls).1).1.toList) := by
  rw [run, List.foldl_concat]
  rfl

/-- What every allowed call keeps holds after an allowed run. -/
theorem run_invariant {P : ServerState × List Sealing → Prop} {A : ServerState × List Sealing → EncryptCall → Prop}
    {s : ServerState} {calls : List EncryptCall} (hs : P (s, []))
    (hstep : ∀ p call, P p → A p call → P ((call.exec env p.1).2, p.2 ++ (call.exec env p.1).1.toList))
    (hcalls : ∀ before call, before ++ [call] <+: calls → A (run env s before) call) : P (run env s calls) := by
  induction calls using List.reverseRecOn with
  | nil => exact hs
  | append_singleton calls call ih =>
      rw [run_concat]
      refine hstep _ _ (ih fun before call' hpre => ?_) (hcalls calls call List.prefix_rfl)
      exact hcalls before call' (hpre.trans (List.prefix_append _ _))

end EncryptCall

variable {env : ServerEnv}

/-- The ciphertext opens with the key pair that is stored under its id. -/
def Sealing.Opens (env : Env) (kyberTree : String → Option KyberKeyPair) (c : Sealing) : Prop :=
  decryptPqc env kyberTree false c.ciphertext c.kemCiphertext c.keyId = .ok c.plaintext

/-- Only the pair under its own id matters. -/
theorem Sealing.Opens.of_eq {env : Env} {kyberTree kyberTree' : String → Option KyberKeyPair} {c : Sealing}
    (h : c.Opens env kyberTree) (hkey : kyberTree' c.keyId = kyberTree c.keyId) : c.Opens env kyberTree' := by
  unfold Opens decryptPqc at h ⊢
  rwa [hkey]

/-- Every key pair but one is the same. -/
def KeysKeptBut (keyId : String) (s s' : Broker) : Prop := ∀ k ≠ keyId, s'.kyberTree k = s.kyberTree k

instance (keyId : String) : IsPreorder Broker (KeysKeptBut keyId) where
  refl _ _ _ := rfl
  trans _ _ _ h h' k hk := (h' k hk).trans (h k hk)

theorem encryptPqc_keysKept (env : Env) (d : EncryptDraws) (data : Bytes) (keyId : String) :
    Eff.Keeps (KeysKeptBut keyId) (encryptPqc env d data keyId) := by
  refine Eff.keeps_lift_bind fun generated hgenerated => ?_
  obtain ⟨ek, pair⟩ := generated
  have hkey := generateMlkemKeypair_keyId env (Eff.except_mapError_eq_ok.mp hgenerated)
  have hstore : Eff.Keeps (KeysKeptBut keyId) (storeKyberKeypair d.kyberStore pair) :=
    keeps_storeKyberKeypair (fun s k hk => Function.update_of_ne (hkey ▸ hk) ..) _
  refine Eff.keeps_bind hstore fun _ => Eff.keeps_bind (Eff.keeps_lift _) fun _ => ?_
  refine Eff.keeps_bind (Eff.keeps_lift _) fun encapsulated => ?_
  exact Eff.keeps_bind (Eff.keeps_lift _) fun _ => Eff.keeps_pure _

/-- What was just encrypted opens. -/
theorem encryptPqc_opens {env : Env} (hlaw : env.Lawful) {d : EncryptDraws} {data : Bytes} {keyId : String}
    {result : EncryptionResult} {s s' : Broker} (h : encryptPqc env d data keyId s = (.ok result, s')) :
    Sealing.Opens env s'.kyberTree ⟨data, result.ciphertext, result.nonce, keyId⟩ := by
  obtain ⟨ek, dk, sharedSecret, ct, ciphertext, hkeygen, hencaps, hencrypt, rfl, rfl⟩ := encryptPqc_eq_ok h
  exact decryptPqc_encrypted hlaw hkeygen hencaps hencrypt (Function.update_self ..) rfl

/-- Every ML-KEM pair but one and every cached key but one are the same. -/
structure Kept (mlkem cache : Option String) (s s' : ServerState) : Prop where
  kyberTree : ∀ k, mlkem ≠ some k → s'.broker.kyberTree k = s.broker.kyberTree k
  keyCache : ∀ k, cache ≠ some k → s'.keyCache.get k = s.keyCache.get k

instance (mlkem cache : Option String) : IsPreorder ServerState (Kept mlkem cache) where
  refl _ := ⟨fun _ _ => rfl, fun _ _ => rfl⟩
  trans _ _ _ h h' := ⟨fun k hk => (h'.kyberTree k hk).trans (h.kyberTree k hk),
    fun k hk => (h'.keyCache k hk).trans (h.keyCache k hk)⟩

theorem getOrGenerateKey_kept (mlkem : Option String) (d : EngineDraws) (keyId : Option String)
    (algorithm : EncryptionAlgorithm) :
    Eff.Keeps (Kept mlkem (some (generatedKeyId d.keyId))) (getOrGenerateKey d keyId algorithm) := by
  refine Eff.keeps_bind Eff.keeps_read fun s => ?_
  cases keyId.bind s.keyCache.get with
  | some key => exact Eff.keeps_pure key
  | none =>
      refine Eff.keeps_bind (Eff.keeps_lift _) fun name => Eff.keeps_bind (Eff.keeps_modify fun s' => ?_) fun _ =>
        Eff.keeps_pure _
      refine ⟨fun _ _ => rfl, fun k hk => KeyCache.insert_get_of_ne _ (fun heq => hk ?_) _⟩
      rw [heq]

theorem processEncryptionRequest_kept (mlkem : Option String) (d : EngineDraws) (request : EncryptionRequest) :
    Eff.Keeps (Kept mlkem (some (generatedKeyId d.keyId))) (processEncryptionRequest env d request) := by
  refine Eff.keeps_bind (Eff.keeps_lift _) fun _ => Eff.keeps_bind (Eff.keeps_lift _) fun _ => ?_
  exact Eff.keeps_bind (getOrGenerateKey_kept mlkem d _ _) fun _ => Eff.keeps_lift _

theorem encryptDataWithKey_kept (d : CryptoDraws) (data : Bytes) (algorithm : EncryptionAlgorithm)
    (keyId : Option String) : Eff.Keeps (Kept (if algorithm = .kyber768 then some (mlkemKeyId keyId d.mlkemUuid) else none)
      (some (generatedKeyId d.engine.keyId))) (encryptDataWithKey env d data algorithm keyId) := by
  cases algorithm with
  | kyber768 =>
      have hbroker : Eff.Keeps (KeysKeptBut (mlkemKeyId keyId d.mlkemUuid))
          (encryptWithMlkem env d.mlkem d.mlkemUuid data keyId) :=
        Eff.keeps_bind (encryptPqc_keysKept env.toEnv _ _ _) fun _ => Eff.keeps_pure _
      refine Eff.keeps_zoom hbroker fun s broker hkept => ⟨fun k hk => hkept k fun heq => hk ?_, fun _ _ => rfl⟩
      rw [if_pos rfl, heq]
  | aes256Gcm => exact processEncryptionRequest_kept _ _ _
  | chaCha20Poly1305 => exact processEncryptionRequest_kept _ _ _
  | xChaCha20Poly1305 => exact processEncryptionRequest_kept _ _ _

/-- A call changes at most the pair and the cached key that it is going to use. -/
theorem EncryptCall.exec_kept (call : EncryptCall) (s : ServerState) :
    Kept call.storageKeyId call.cacheKeyId s (call.exec env s).2 := by
  cases call with
  | encryptPqc d data envelopeKeyId =>
      refine ⟨fun k hk => encryptPqc_keysKept env.toEnv d data envelopeKeyId s.broker k fun heq => hk ?_, fun _ _ => rfl⟩
      rw [storageKeyId, heq]
  | cryptoEncrypt d context req =>
      have hkept : Eff.Keeps (Kept (EncryptCall.cryptoEncrypt d context req).storageKeyId
          (some (generatedKeyId d.engine.keyId))) (SecretBroker.cryptoEncrypt env d context req) := by
        refine Eff.keeps_bind (Eff.keeps_lift _) fun _ => Eff.keeps_lift_bind fun algorithm halgorithm => ?_
        have hkept := @encryptDataWithKey_kept env d req.plaintext algorithm (emptyToNone req.keyId)
        refine Eff.keeps_bind (Eff.keeps_mapError ?_ _) fun _ => Eff.keeps_pure _
        simpa only [storageKeyId, halgorithm, Except.ok.injEq] using hkept
      exact hkept s

theorem cryptoEncrypt_eq_ok {d : CryptoDraws} {context : Option BrokerClientContext} {req : Proto.CryptoEncryptRequest}
    {response : Proto.CryptoEncryptResponse} {s s' : ServerState}
    (h : cryptoEncrypt env d context req s = (.ok response, s')) :
    ∃ algorithm result, parseCryptoAlgorithm req.algorithm = .ok algorithm ∧
      encryptDataWithKey env d req.plaintext algorithm (emptyToNone req.keyId) s = (.ok result, s') ∧
      response = ⟨result.ciphertext, result.keyId.getD "", result.nonce⟩ := by
  simp only [cryptoEncrypt, Eff.bind_eq_ok, Eff.lift_eq_ok, Eff.mapError_eq_ok, Eff.pure_eq_ok] at h
  obtain ⟨_, _, ⟨-, rfl⟩, algorithm, _, ⟨halgorithm, rfl⟩, result, _, hresult, rfl, rfl⟩ := h
  exact ⟨algorithm, result, halgorithm, hresult, rfl⟩

/-- A returned hybrid ciphertext was made by `encrypt_pqc` under the id that the call stores a key pair under. -/
theorem EncryptCall.exec_eq_some {call : EncryptCall} {s s' : ServerState} {c : Sealing}
    (h : call.exec env s = (some c, s')) :
    call.storageKeyId = some c.keyId ∧ ∃ d encryption,
      SecretBroker.encryptPqc env.toEnv d c.plaintext c.keyId s.broker = (.ok encryption, s'.broker) ∧
      c.ciphertext = encryption.ciphertext ∧ c.kemCiphertext = encryption.nonce := by
  cases call with
  | encryptPqc d data envelopeKeyId =>
      simp only [exec, Prod.mk.injEq, Option.map_eq_some_iff] at h
      obtain ⟨⟨encryption, hencrypt, rfl⟩, rfl⟩ := h
      exact ⟨rfl, d, encryption, Prod.ext (Eff.except_toOption_eq_some.mp hencrypt) rfl, rfl, rfl⟩
  | cryptoEncrypt d context req =>
      simp only [exec, Prod.mk.injEq] at h
      obtain ⟨hreturned, hstate⟩ := h
      split_ifs at hreturned with hkyber
      simp only [Option.map_eq_some_iff] at hreturned
      obtain ⟨response, hresponse, rfl⟩ := hreturned
      have hok : SecretBroker.cryptoEncrypt env d context req s = (.ok response, s') :=
        Prod.ext (Eff.except_toOption_eq_some.mp hresponse) hstate
      obtain ⟨algorithm, result, halgorithm, hresult, rfl⟩ := cryptoEncrypt_eq_ok hok
      rw [hkyber] at halgorithm
      cases halgorithm
      simp only [encryptDataWithKey, Eff.zoom_eq_ok, encryptWithMlkem, Eff.bind_eq_ok, Eff.pure_eq_ok] at hresult
      obtain ⟨broker, ⟨encryption, _, hencrypt, rfl, rfl⟩, rfl⟩ := hresult
      simp only [storageKeyId, hkyber, if_true, Option.getD_some, true_and]
      exact ⟨d.mlkem, encryption, hencrypt, rfl, rfl⟩

/-- So it opens in the state that the call leaves. -/
theorem EncryptCall.exec_opens (hlaw : env.toEnv.Lawful) {call : EncryptCall} {s s' : ServerState} {c : Sealing}
    (h : call.exec env s = (some c, s')) : c.Opens env.toEnv s'.broker.kyberTree := by
  obtain ⟨-, d, encryption, hencrypt, hciphertext, hkem⟩ := exec_eq_some h
  have hopens := encryptPqc_opens hlaw hencrypt
  rwa [← hciphertext, ← hkem] at hopens

/-- Every returned ciphertext has the id of one of the calls. -/
theorem EncryptCall.run_keyId (s : ServerState) (calls : List EncryptCall) :
    ∀ c ∈ (run env s calls).2, c.keyId ∈ calls.filterMap storageKeyId := by
  induction calls using List.reverseRecOn with
  | nil =>
      intro c hc
      cases hc
  | append_singleton calls call ih =>
      intro c hc
      rw [run_concat] at hc
      rw [List.filterMap_append, List.mem_append]
      rcases List.mem_append.mp hc with hc | hc
      · exact Or.inl (ih c hc)
      · rw [Option.mem_toList] at hc
        obtain ⟨hid, -⟩ := exec_eq_some (Prod.ext hc rfl)
        right
        rw [List.filterMap_cons_some hid]
        exact List.mem_cons_self

/-- If all ids differ, no call stores a key pair under the id of an earlier ciphertext. -/
theorem EncryptCall.storageKeyId_ne_of_nodup {calls : List EncryptCall} (hnodup : (calls.filterMap storageKeyId).Nodup)
    (s : ServerState) {before : List EncryptCall} {call : EncryptCall} (hpre : before ++ [call] <+: calls) :
    ∀ c ∈ (run env s before).2, call.storageKeyId ≠ some c.keyId := by
  intro c hc hid
  have hpart := hnodup.sublist (hpre.filterMap storageKeyId).sublist
  rw [List.filterMap_append, List.filterMap_cons_some hid] at hpart
  exact List.disjoint_of_nodup_append hpart (run_keyId s before c hc) List.mem_cons_self

/-- The byte that stands for a key. -/
def keyByte {n : ℕ} (key : Block n) : UInt8 := key.val.headD 0

theorem keyByte_filledBlock {n : ℕ} (hn : n ≠ 0) (b : UInt8) : keyByte (filledBlock n b) = b := by
  cases n with
  | zero => exact absurd rfl hn
  | succ n => rfl

def encryptTagged (key : Block 32) (plaintext : Bytes) : Except String Bytes :=
  .ok (List.replicate 16 (keyByte key) ++ plaintext)

def decryptTagged (key : Block 32) (ciphertext : Bytes) : Except String Bytes :=
  match takeBytes 16 ciphertext with
  | some (tag, plaintext) => if tag = List.replicate 16 (keyByte key) then .ok plaintext else .error "aead::Error"
  | none => .error "aead::Error"

theorem decryptTagged_encryptTagged {key : Block 32} {plaintext ciphertext : Bytes}
    (h : encryptTagged key plaintext = .ok ciphertext) : decryptTagged key ciphertext = .ok plaintext := by
  cases h
  rw [decryptTagged, takeBytes_append List.length_replicate]
  exact if_pos rfl

theorem length_encryptTagged {key : Block 32} {plaintext ciphertext : Bytes}
    (h : encryptTagged key plaintext = .ok ciphertext) : ciphertext.length = plaintext.length + 16 := by
  cases h
  rw [List.length_append, List.length_replicate, Nat.add_comm]

/-- A server whose ciphertexts open only with the key they were made with. -/
def taggedServer : ServerEnv where
  toEnv := { plainEnv with
    mlKem := {
      keygen seed := .ok (filledBlock 1184 (keyByte seed), filledBlock 2400 (keyByte seed))
      checkEncapsKey _ := .ok ()
      encaps ek _ := .ok (filledBlock 32 (keyByte ek), blank 1088)
      checkDecapsKey _ := .ok ()
      checkCiphertext _ := .ok ()
      decaps dk _ := .ok (filledBlock 32 (keyByte dk)) }
    aesGcm := { encrypt key _ := encryptTagged key, decrypt key _ := decryptTagged key }
    chaCha20Poly1305 := { encrypt key _ := encryptTagged key, decrypt key _ := decryptTagged key }
    crypto := { plainEnv.crypto with
      allowedAlgorithms := ["aes-256-gcm", "chacha20-poly1305", "xchacha20-poly1305", "dilithium5"] } }
  xChaCha20Poly1305 := { encrypt key _ := encryptTagged key, decrypt key _ := decryptTagged key }
  maxDataSizeMb := 100
  debugError message := message
  sharesError _ := ""

theorem taggedServer_lawful : taggedServer.Lawful where
  decaps_encaps := by
    intro seed ek dk coins sharedSecret ct hkeygen hencaps
    cases hkeygen
    cases hencaps
    refine ⟨rfl, rfl, ?_⟩
    show Except.ok (filledBlock 32 (keyByte (filledBlock 2400 (keyByte seed)))) = _
    rw [keyByte_filledBlock (by decide), keyByte_filledBlock (by decide)]
  aesGcm_decrypt := decryptTagged_encryptTagged
  chaCha_decrypt := decryptTagged_encryptTagged
  verify_sign _ := ⟨rfl, rfl⟩
  reparse _ := rfl
  aesGcm_length := length_encryptTagged
  chaCha_length := length_encryptTagged
  xChaCha_decrypt := decryptTagged_encryptTagged

/-- The draws of an encryption whose key is told by a byte. -/
def taggedDraws (b : UInt8) : EncryptDraws := ⟨filledBlock 64 b, blank 32, blank 12, .ok, false⟩

def taggedCryptoDraws (b : UInt8) : CryptoDraws :=
  ⟨⟨.filled b, filledBlock 32 b, ⟨0, 0⟩, blank 12, blank 24⟩, taggedDraws b, .filled b⟩

/-- A secret is sealed, and a caller encrypts under some key id. -/
def taggedCalls (keyId : String) : List EncryptCall :=
  [.encryptPqc (taggedDraws 1) [1, 2, 3] "envelope",
    .cryptoEncrypt (taggedCryptoDraws 2) (some plainContext) ⟨[4], "kyber768", keyId⟩]

/-- A caller encrypts with some algorithm under no key id. -/
def taggedEncrypt (algorithm : String) : Except RpcError Proto.CryptoEncryptResponse × ServerState :=
  cryptoEncrypt taggedServer (taggedCryptoDraws 1) (some plainContext) ⟨[1, 2, 3], algorithm, ""⟩ (.start Broker.empty)

/-- What the symmetric engine makes of it with a nonce of `n` bytes. -/
def taggedResponse (n : ℕ) : Proto.CryptoEncryptResponse :=
  ⟨(blank n).val ++ (List.replicate 16 1 ++ [1, 2, 3]), generatedKeyId (.filled 1), (blank n).val⟩

/-- An encryption after that. -/
def taggedLater : EncryptCall := .cryptoEncrypt (taggedCryptoDraws 2) (some plainContext) ⟨[4], "", ""⟩

/-! ### Runs of hybrid encryptions -/

/-- **Earlier ciphertexts stay decryptable** in a run of encryptions, as long as no call stores a key pair under
the id of a ciphertext that was already returned. -/
theorem sealed_stay_open (hlaw : env.toEnv.Lawful) (s : ServerState) (calls : List EncryptCall)
    (hcalls : ∀ before call, before ++ [call] <+: calls →
      ∀ c ∈ (EncryptCall.run env s before).2, call.storageKeyId ≠ some c.keyId) :
    ∀ earlier, earlier <+: calls → ∀ c ∈ (EncryptCall.run env s earlier).2,
      decryptPqc env.toEnv (EncryptCall.run env s earlier).1.broker.kyberTree false c.ciphertext c.kemCiphertext c.keyId =
        .ok c.plaintext := by
  intro earlier hearlier
  refine EncryptCall.run_invariant (P := fun p => ∀ c ∈ p.2, c.Opens env.toEnv p.1.broker.kyberTree)
    (A := fun p call => ∀ c ∈ p.2, call.storageKeyId ≠ some c.keyId) ?_ ?_
    fun before call hpre => hcalls before call (hpre.trans hearlier)
  · intro c hc
    cases hc
  · intro p call hopen hallowed c hc
    rcases List.mem_append.mp hc with hc | hc
    · -- an earlier ciphertext: its key pair is not the one that the call replaces
      exact (hopen c hc).of_eq ((call.exec_kept p.1).kyberTree _ (hallowed c hc))
    · rw [Option.mem_toList] at hc
      exact EncryptCall.exec_opens hlaw (Prod.ext hc rfl)

theorem sealed_stay_open_distinct :
    (EncryptCall.run taggedServer (.start Broker.empty) (taggedCalls "other")).2.map (·.plaintext) = [[1, 2, 3], [4]] ∧
    ∀ c ∈ (EncryptCall.run taggedServer (.start Broker.empty) (taggedCalls "other")).2,
      decryptPqc taggedServer.toEnv
        (EncryptCall.run taggedServer (.start Broker.empty) (taggedCalls "other")).1.broker.kyberTree false
        c.ciphertext c.kemCiphertext c.keyId = .ok c.plaintext := by
  have hnodup : ((taggedCalls "other").filterMap EncryptCall.storageKeyId).Nodup := by decide +kernel
  refine ⟨by decide +kernel, sealed_stay_open taggedServer_lawful.toLawful _ _ (fun before call hpre =>
    ?_) _ List.prefix_rfl⟩
  exact EncryptCall.storageKeyId_ne_of_nodup hnodup _ hpre

/-- A caller who encrypts under the id of an envelope key makes the sealed secret unreadable. -/
theorem key_overwritten : ∃ c ∈ (EncryptCall.run taggedServer (.start Broker.empty) (taggedCalls "envelope")).2,
    decryptPqc taggedServer.toEnv
      (EncryptCall.run taggedServer (.start Broker.empty) (taggedCalls "envelope")).1.broker.kyberTree false
      c.ciphertext c.kemCiphertext c.keyId ≠ .ok c.plaintext := by
  decide +kernel

theorem trim_generatedKeyId (u : Uuid) : trim (generatedKeyId u) = generatedKeyId u ∧ generatedKeyId u ≠ "" := by
  have hchars : (generatedKeyId u).toList = 'k' :: 'e' :: 'y' :: '_' :: u.toString.toList := String.toList_append
  constructor
  · apply trim_of_trimmed
    apply trimmed_of_all
    have hall := Uuid.toString_all (P := fun c => isWhiteSpace c = false) (by decide) (by decide) u
    rw [hchars]
    simp only [List.forall_mem_cons]
    exact ⟨by decide, by decide, by decide, by decide, hall⟩
  · intro hempty
    rw [hempty] at hchars
    cases hchars

/-- The key that an encryption uses is in the cache when it returns. -/
theorem getOrGenerateKey_cached {d : EngineDraws} {keyId : Option String} {algorithm : EncryptionAlgorithm}
    {key : EncryptionKey} {s s' : ServerState} (h : getOrGenerateKey d keyId algorithm s = (.ok key, s')) :
    s'.keyCache.get key.keyId = some key := by
  simp only [getOrGenerateKey, Eff.bind_eq_ok, Eff.read_eq_ok] at h
  obtain ⟨read, t, ⟨hread, ht⟩, h⟩ := h
  rw [hread, ht] at h
  cases hfound : keyId.bind s.keyCache.get with
  | some found =>
      rw [hfound, Eff.pure_eq_ok] at h
      obtain ⟨rfl, rfl⟩ := h
      obtain ⟨k, -, hk⟩ := Option.bind_eq_some_iff.mp hfound
      rwa [s'.keyCache.keyId_eq hk]
  | none =>
      rw [hfound] at h
      simp only [generateKey, Eff.bind_eq_ok, Eff.lift_eq_ok, Eff.modify_eq_ok, Eff.pure_eq_ok] at h
      obtain ⟨name, _, ⟨-, rfl⟩, _, _, rfl, rfl, rfl⟩ := h
      exact KeyCache.insert_get_self ..

theorem processEncryptionRequest_eq_ok {d : EngineDraws} {request : EncryptionRequest} {result : KeyedEncryptionResult}
    {s s' : ServerState} (h : processEncryptionRequest env d request s = (.ok result, s')) :
    (∀ name, request.algorithm.classicalName = some name → name ∈ env.crypto.allowedAlgorithms) ∧
    ∃ key, s'.keyCache.get key.keyId = some key ∧
      encryptWithKey env d request.algorithm request.data key = .ok result := by
  simp only [processEncryptionRequest, validateEncryptionRequest, validateClassicalRequest, Eff.bind_eq_ok, Eff.lift_eq_ok,
    Eff.except_mapError_eq_ok, Eff.except_bind_eq_ok, Eff.okOr_eq_ok, Eff.rejectIf_eq_ok, not_not] at h
  obtain ⟨_, _, ⟨-, rfl⟩, _, _, ⟨⟨_, -, name, hname, hallowed⟩, rfl⟩, key, _, hkey, hencrypt, rfl⟩ := h
  refine ⟨fun name' hname' => ?_, key, getOrGenerateKey_cached hkey, hencrypt⟩
  rw [hname] at hname'
  cases hname'
  exact hallowed

/-- A cached key never expires, so only the size, the algorithm and the cipher decide. -/
theorem processDecryptionRequest_eq_ok {now : DateTime} {cache : KeyCache} {key : EncryptionKey}
    (hkey : cache.get key.keyId = some key) {data : Bytes} {algorithm : EncryptionAlgorithm} {name : String}
    (hname : algorithm.classicalName = some name) (hallowed : name ∈ env.crypto.allowedAlgorithms)
    {result : DecryptionResult} :
    processDecryptionRequest env now cache ⟨data, none, algorithm, key.keyId⟩ = .ok result ↔
      data.length ≤ env.maxDataSize ∧ ∃ nonce ciphertext, takeBytes 12 data = some (nonce, ciphertext) ∧
        decryptWithKey env algorithm ciphertext nonce key = .ok result := by
  have hlive : key.expiresAt = none := by
    obtain ⟨d, algorithm, rfl, -⟩ := cache.generated _ _ hkey
    rfl
  have hnamed : (∃ name', algorithm.classicalName = some name' ∧ name' ∈ env.crypto.allowedAlgorithms) ↔ True :=
    iff_true_intro ⟨name, hname, hallowed⟩
  simp only [processDecryptionRequest, validateDecryptionRequest, validateClassicalRequest, Eff.except_bind_eq_ok,
    Eff.rejectIf_eq_ok, Eff.okOr_eq_ok, hkey, hlive, Option.some.injEq, exists_eq_left', Prod.exists, not_not,
    not_lt, hnamed, Unique.exists_iff, gt_iff_lt, and_true, true_and]

theorem decryptClassical_encrypted {n : ℕ} {encrypt : Block 32 → Block n → Bytes → Except String Bytes}
    (decrypt : Block 32 → Block n → Bytes → Except String Bytes)
    {sizeError failure algorithm : String} {nonce : Block n} {plaintext : Bytes} {key : EncryptionKey}
    {result : KeyedEncryptionResult}
    (h : encryptClassical encrypt sizeError failure algorithm nonce plaintext key = .ok result)
    (hinv : ∀ key nonce plaintext ciphertext, encrypt key nonce plaintext = .ok ciphertext →
      decrypt key nonce ciphertext = .ok plaintext) :
    ∃ cipherKey ciphertext, encrypt cipherKey nonce plaintext = .ok ciphertext ∧
      result.ciphertext = nonce.val ++ ciphertext ∧ result.keyId = some key.keyId ∧
      ∀ sizeError nonceError failure label,
        decryptClassical decrypt sizeError nonceError failure label ciphertext nonce.val key =
          .ok ⟨plaintext, label, true⟩ := by
  simp only [encryptClassical, Eff.except_bind_eq_ok, Eff.okOr_eq_ok, Eff.except_mapError_eq_ok, pure, Except.pure,
    Except.ok.injEq] at h
  obtain ⟨cipherKey, hkey, ciphertext, hencrypt, rfl⟩ := h
  refine ⟨cipherKey, ciphertext, hencrypt, rfl, rfl, fun _ _ _ label => ?_⟩
  rw [decryptClassical, hkey, sized_val]
  simp only [Eff.okOr_some, Eff.ok_bind, hinv _ _ _ _ hencrypt]
  rfl

/-- A nonce of another length is refused. -/
theorem decryptClassical_ne_ok {n : ℕ} {decrypt : Block 32 → Block n → Bytes → Except String Bytes}
    {sizeError nonceError failure algorithm : String} {ciphertext nonce : Bytes} {key : EncryptionKey}
    (hnonce : nonce.length ≠ n) (result : DecryptionResult) :
    decryptClassical decrypt sizeError nonceError failure algorithm ciphertext nonce key ≠ .ok result := by
  intro h
  simp only [decryptClassical, Eff.except_bind_eq_ok, Eff.okOr_eq_ok] at h
  obtain ⟨cipherKey, -, block, hblock, -⟩ := h
  rw [sized, dif_neg hnonce] at hblock
  cases hblock

/-- `CryptoDecrypt` of data for an algorithm of the symmetric engine, under the id of a key of the cache. -/
theorem cryptoDecrypt_eq_ok {now : DateTime} {loadFails : Bool} {c : BrokerClientContext} {s : ServerState}
    {key : EncryptionKey} (hkey : s.keyCache.get key.keyId = some key) {data : Bytes} {value name : String}
    {algorithm : EncryptionAlgorithm} (halgorithm : parseCryptoAlgorithm value = .ok algorithm)
    (hname : algorithm.classicalName = some name) (hallowed : name ∈ env.crypto.allowedAlgorithms) {plaintext : Bytes} :
    cryptoDecrypt env now loadFails (some c) ⟨data, value, key.keyId⟩ s = .ok ⟨plaintext, true⟩ ↔
      data.length ≤ env.maxDataSize ∧ ∃ nonce ciphertext, takeBytes 12 data = some (nonce, ciphertext) ∧
        ∃ label, decryptWithKey env algorithm ciphertext nonce key = .ok ⟨plaintext, label, true⟩ := by
  have hid : trim key.keyId = key.keyId ∧ key.keyId ≠ "" := by
    obtain ⟨d, algorithm, -, hid⟩ := s.keyCache.generated _ _ hkey
    rw [hid]
    exact trim_generatedKeyId d.keyId
  have hclassical : decryptData env now loadFails s data algorithm key.keyId =
      processDecryptionRequest env now s.keyCache ⟨data, none, algorithm, key.keyId⟩ := by
    cases algorithm with
    | kyber768 => cases hname
    | _ => rfl
  have hresult : ∀ result : DecryptionResult, (⟨result.plaintext, result.verified⟩ : Proto.CryptoDecryptResponse) =
      ⟨plaintext, true⟩ ↔ result = ⟨plaintext, result.algorithm, true⟩ := by
    rintro ⟨_, label, _⟩
    simp only [Proto.CryptoDecryptResponse.mk.injEq, DecryptionResult.mk.injEq, true_and]
  have hpresent : Eff.rejectIf (key.keyId = "") (RpcError.status .invalidArgument "key_id is required") = .ok () :=
    Eff.rejectIf_eq_ok.mpr hid.2
  simp only [cryptoDecrypt, brokerContext, Eff.okOr_some, hid.1, hpresent, halgorithm, Eff.ok_bind, hclassical,
    Eff.except_bind_eq_ok, Eff.except_mapError_eq_ok, processDecryptionRequest_eq_ok hkey hname hallowed, pure,
      Except.pure, Except.ok.injEq,
    hresult]
  constructor
  · rintro ⟨result, ⟨hsize, nonce, ciphertext, htake, hdecrypt⟩, hplain⟩
    exact ⟨hsize, nonce, ciphertext, htake, result.algorithm, hplain ▸ hdecrypt⟩
  · rintro ⟨hsize, nonce, ciphertext, htake, label, hdecrypt⟩
    exact ⟨_, ⟨hsize, nonce, ciphertext, htake, hdecrypt⟩, rfl⟩

/-- A cached key stays while no call caches another under its id. -/
theorem EncryptCall.run_keyCache {s : ServerState} {calls : List EncryptCall}
    (hcalls : ∀ before call, before ++ [call] <+: calls →
      ∀ k, call.cacheKeyId = some k → (run env s before).1.keyCache.get k = none)
    {key : EncryptionKey} (hkey : s.keyCache.get key.keyId = some key) :
    (run env s calls).1.keyCache.get key.keyId = some key := by
  refine run_invariant (P := fun p => p.1.keyCache.get key.keyId = some key)
    (A := fun p call => ∀ k, call.cacheKeyId = some k → p.1.keyCache.get k = none) hkey ?_ hcalls
  intro p call hcached hunused
  refine ((call.exec_kept p.1).keyCache key.keyId fun heq => ?_).trans hcached
  rw [hunused _ heq] at hcached
  cases hcached

/-- What a cipher with a nonce of twelve bytes has made comes back if there is room for the nonce and the tag. -/
theorem cryptoDecrypt_opens {now : DateTime} {loadFails : Bool} {c : BrokerClientContext} {s : ServerState}
    {key : EncryptionKey} (hkey : s.keyCache.get key.keyId = some key) {value name label : String}
    {algorithm : EncryptionAlgorithm} (halgorithm : parseCryptoAlgorithm value = .ok algorithm)
    (hname : algorithm.classicalName = some name) (hallowed : name ∈ env.crypto.allowedAlgorithms)
    {nonce : Block 12} {plaintext ciphertext : Bytes} (hlength : ciphertext.length = plaintext.length + 16)
    (hopen : decryptWithKey env algorithm ciphertext nonce.val key = .ok ⟨plaintext, label, true⟩) :
    cryptoDecrypt env now loadFails (some c) ⟨nonce.val ++ ciphertext, value, key.keyId⟩ s = .ok ⟨plaintext, true⟩ ↔
      plaintext.length + 28 ≤ env.maxDataSize := by
  have hsize : (nonce.val ++ ciphertext).length = plaintext.length + 28 := by
    rw [List.length_append, nonce.property, hlength]
    omega
  rw [cryptoDecrypt_eq_ok hkey halgorithm hname hallowed, hsize, takeBytes_append nonce.property]
  constructor
  · exact And.left
  · intro hroom
    exact ⟨hroom, _, _, rfl, label, hopen⟩

/-- **`CryptoDecrypt` undoes `CryptoEncrypt`** exactly for AES-256-GCM and ChaCha20-Poly1305 with a plaintext that
leaves room for the nonce and the tag, however many encryptions come in between. -/
theorem crypto_round_trip_iff (hlaw : env.Lawful) {d : CryptoDraws} {context : Option BrokerClientContext}
    {req : Proto.CryptoEncryptRequest} {response : Proto.CryptoEncryptResponse} {s s₁ : ServerState}
    (hencrypt : cryptoEncrypt env d context req s = (.ok response, s₁)) (later : List EncryptCall)
    (hlater : ∀ before call, before ++ [call] <+: later →
      ∀ k, call.cacheKeyId = some k → (EncryptCall.run env s₁ before).1.keyCache.get k = none)
    (c : BrokerClientContext) (now : DateTime) (loadFails : Bool) :
    cryptoDecrypt env now loadFails (some c) ⟨response.ciphertext, req.algorithm, response.keyId⟩
        (EncryptCall.run env s₁ later).1 = .ok ⟨req.plaintext, true⟩ ↔
      (parseCryptoAlgorithm req.algorithm = .ok .aes256Gcm ∨
        parseCryptoAlgorithm req.algorithm = .ok .chaCha20Poly1305) ∧
      req.plaintext.length + 28 ≤ env.maxDataSize := by
  obtain ⟨algorithm, result, halgorithm, hresult, rfl⟩ := cryptoEncrypt_eq_ok hencrypt
  cases algorithm with
  | kyber768 =>
      -- the request carries no KEM ciphertext
      simp only [cryptoDecrypt, halgorithm, decryptData, processQuantumDecryption, Eff.except_bind_eq_ok,
        Eff.except_mapError_eq_ok, Eff.okOr_none, reduceCtorEq, false_and, and_false, exists_false, Except.ok.injEq,
        exists_eq_left', or_self]
  | xChaCha20Poly1305 =>
      obtain ⟨hallowed, key, hkey, hcipher⟩ := processEncryptionRequest_eq_ok hresult
      obtain ⟨-, -, -, -, hid, -⟩ := decryptClassical_encrypted env.xChaCha20Poly1305.decrypt hcipher
        fun _ _ _ _ => hlaw.xChaCha_decrypt
      rw [hid, Option.getD_some, cryptoDecrypt_eq_ok (EncryptCall.run_keyCache hlater hkey) halgorithm rfl
        (hallowed _ rfl)]
      simp only [halgorithm, Except.ok.injEq, reduceCtorEq, or_self, false_and, iff_false, not_and, not_exists]
      intro hroom nonce ciphertext htake label
      -- twelve bytes are cut off, and the cipher wants twenty-four
      have hnonce : nonce.length ≠ 24 := by
        rw [(takeBytes_eq_some.mp htake).2]
        decide
      exact decryptClassical_ne_ok hnonce _
  | aes256Gcm =>
      obtain ⟨hallowed, key, hkey, hcipher⟩ := processEncryptionRequest_eq_ok hresult
      obtain ⟨_, ciphertext, hmade, hbytes, hid, hopen⟩ := decryptClassical_encrypted env.aesGcm.decrypt hcipher
        fun _ _ _ _ => hlaw.aesGcm_decrypt
      rw [hid, hbytes, Option.getD_some, cryptoDecrypt_opens (EncryptCall.run_keyCache hlater hkey) halgorithm rfl
        (hallowed _ rfl) (hlaw.aesGcm_length hmade) (hopen _ _ _ _)]
      simp only [halgorithm, true_or, true_and]
  | chaCha20Poly1305 =>
      obtain ⟨hallowed, key, hkey, hcipher⟩ := processEncryptionRequest_eq_ok hresult
      obtain ⟨_, ciphertext, hmade, hbytes, hid, hopen⟩ := decryptClassical_encrypted env.chaCha20Poly1305.decrypt hcipher
        fun _ _ _ _ => hlaw.chaCha_decrypt
      rw [hid, hbytes, Option.getD_some, cryptoDecrypt_opens (EncryptCall.run_keyCache hlater hkey) halgorithm rfl
        (hallowed _ rfl) (hlaw.chaCha_length hmade) (hopen _ _ _ _)]
      simp only [halgorithm, or_true, true_and]

theorem crypto_round_trip_iff_plain :
    (taggedEncrypt "").1 = .ok (taggedResponse 12) ∧
    cryptoDecrypt taggedServer ⟨0, 0⟩ false (some plainContext)
        ⟨(taggedResponse 12).ciphertext, "", (taggedResponse 12).keyId⟩
        (EncryptCall.run taggedServer (taggedEncrypt "").2 [taggedLater]).1 = .ok ⟨[1, 2, 3], true⟩ := by
  have hencrypt : (taggedEncrypt "").1 = .ok (taggedResponse 12) := by decide +kernel
  have hunused : (taggedEncrypt "").2.keyCache.get (generatedKeyId (.filled 2)) = none := by decide +kernel
  have hsize : [1, 2, 3].length + 28 ≤ taggedServer.maxDataSize := by decide
  have hpair : taggedEncrypt "" = (.ok (taggedResponse 12), (taggedEncrypt "").2) := by rw [← hencrypt]
  refine ⟨hencrypt, (crypto_round_trip_iff taggedServer_lawful hpair [taggedLater] ?_ plainContext ⟨0, 0⟩ false).mpr
    ⟨Or.inl (by decide), hsize⟩⟩
  intro before call hpre k hk
  -- the only later call is the first one
  obtain ⟨rfl, rfl⟩ : before = [] ∧ call = taggedLater := by
    cases before with
    | nil => exact ⟨rfl, (List.cons_prefix_cons.mp hpre).1⟩
    | cons first rest =>
        have hlength := hpre.length_le
        simp only [List.length_append, List.length_cons, List.length_nil] at hlength
        omega
  cases hk
  exact hunused

/-- The nonce of an XChaCha20-Poly1305 ciphertext is cut in the middle. -/
theorem xchacha_not_decrypted :
    (taggedEncrypt "xchacha20-poly1305").1 = .ok (taggedResponse 24) ∧
    cryptoDecrypt taggedServer ⟨0, 0⟩ false (some plainContext)
        ⟨(taggedResponse 24).ciphertext, "xchacha20-poly1305", (taggedResponse 24).keyId⟩
        (taggedEncrypt "xchacha20-poly1305").2 =
      .error (svcErr taggedServer (.anyhow "Invalid nonce size for XChaCha20-Poly1305")) :=
  ⟨by decide +kernel, by decide +kernel⟩

end SecretBroker
