import SecretBroker.LibSymbolic
import SecretBroker.Macaroon

/-! Caveats cannot be removed. The macaroon code is run on messages with a free HMAC, and the attacker
knows issued macaroons, redeem tokens and discharges. Every macaroon that it can build and that
verifies extends an issued one. -/

open Wire Symbolic

namespace SecretBroker

/-- The secrets that the broker keeps: its HMAC key, and the keys of third-party caveats. -/
inductive Secret where
  | handleHmacKey
  | dischargeKey (n : ℕ)
  deriving DecidableEq

/-- A parser of caveats over messages. On public bytes it is the parser of the program, and it accepts
no bare HMAC output. -/
structure SymbolicParser (chrono : Chrono) where
  parse : List (Sym Secret) → Except MacaroonError Caveat
  parse_literal : ∀ s : String, parse (literal (asBytes s)) = Caveat.parse chrono s
  parse_mac : ∀ key data, ∃ err, parse [.mac key data] = .error err

namespace SymbolicParser

variable {chrono : Chrono}

/-- The macaroon code over messages: a tag is one symbol, and caveats are arbitrary messages. -/
def ops (parser : SymbolicParser chrono) : MacOps (List (Sym Secret)) (List (Sym Secret)) (Sym Secret) where
  hmacCompute := Sym.mac
  ofBytes := literal
  ofText := id
  ofTag tag := [tag]
  encode c := literal (asBytes (c.encode chrono))
  parse := parser.parse

variable (parser : SymbolicParser chrono)

/-- The root key of a handle. -/
def rootKey (id : Uuid) : Sym Secret := macaroonRootKey parser.ops [.atom .handleHmacKey] id

/-- The chain of a handle over a list of caveats. -/
def handleChain (id : Uuid) (cs : List (List (Sym Secret))) : Sym Secret :=
  parser.ops.chain (parser.ops.start (parser.rootKey id) id) cs

/-- A macaroon that was minted by the broker and attenuated any number of times. -/
def Issued (m : Macaroon (List (Sym Secret)) (Sym Secret)) : Prop :=
  ∃ (id : Uuid) (caveats added : List Caveat),
    m = added.foldl (Macaroon.addCaveat parser.ops) (Macaroon.mint parser.ops (parser.rootKey id) id caveats)

/-- A discharge that the broker minted for a third-party caveat of `m`, under a caveat key of its own. -/
def DischargeFor (m : Macaroon (List (Sym Secret)) (Sym Secret)) (d : DischargeMacaroon (Sym Secret)) : Prop :=
  ∃ (location keyId condition : String) (n : ℕ) (primarySignature : Sym Secret) (expiresAt : Option DateTime),
    m.thirdPartyBindingInfoByKeyId parser.ops (parser.rootKey m.identifier) location keyId =
      .ok primarySignature ∧
    d = DischargeMacaroon.mintWithExpiry parser.ops location condition [.atom (.dischargeKey n)]
      primarySignature expiresAt

/-- What the attacker was given: macaroons, redeem tokens and discharges. -/
structure Knowledge where
  macaroons : List (Macaroon (List (Sym Secret)) (Sym Secret))
  redeemTokens : List (Sym Secret)
  discharges : List (DischargeMacaroon (Sym Secret))
  issued : ∀ m ∈ macaroons, parser.Issued m
  tokens : ∀ t ∈ redeemTokens, ∃ (id : Uuid) (binding : Bytes) (nonce : Block 16),
    (binding.length = 0 ∨ binding.length = 32) ∧
      t = computeRedeemToken parser.ops [.atom .handleHmacKey] id binding nonce.val
  minted : ∀ d ∈ discharges, ∃ m ∈ macaroons, parser.DischargeFor m d

variable {parser}

/-- The tags that the attacker was given. Everything else in what it was given is public bytes. -/
def Knowledge.Known (k : parser.Knowledge) (s : Sym Secret) : Prop :=
  (∃ m ∈ k.macaroons, s = m.signature) ∨ s ∈ k.redeemTokens ∨
    ∃ d ∈ k.discharges, s = d.dischargeSignature ∨ s = d.binding

/-- The macaroons that the attacker can build: any identifier, with caveats and a signature it derives. -/
def Knowledge.Builds (k : parser.Knowledge) (m : Macaroon (List (Sym Secret)) (Sym Secret)) : Prop :=
  (∀ c ∈ m.caveats, ∀ s ∈ c, Derives k.Known s) ∧ Derives k.Known m.signature

theorem link_eq (sig : Sym Secret) (c : List (Sym Secret)) : parser.ops.link sig c = .mac [sig] c := rfl

theorem handleChain_nil (id : Uuid) :
    parser.handleChain id [] = .mac [parser.rootKey id] (literal id.bytes.val) := rfl

theorem handleChain_snoc (id : Uuid) (cs : List (List (Sym Secret))) (c : List (Sym Secret)) :
    parser.handleChain id (cs ++ [c]) = .mac [parser.handleChain id cs] c := by
  rw [handleChain, MacOps.chain_append]
  rfl

theorem rootKey_eq (id : Uuid) :
    parser.rootKey id =
      .mac [.atom .handleHmacKey] (literal (asBytes "macaroon-root-v1:" ++ id.bytes.val)) := rfl

/-- A chain is a tag, and no secret. -/
theorem handleChain_ne_atom (id : Uuid) (cs : List (List (Sym Secret))) (a : Secret) :
    parser.handleChain id cs ≠ .atom a := by
  cases cs using List.reverseRecOn with
  | nil => simp [handleChain_nil]
  | append_singleton cs c => simp [handleChain_snoc]

/-- The key of a chain is a tag, and no secret. -/
theorem handleChain_ne_mac_atom (id : Uuid) (cs : List (List (Sym Secret))) (a : Secret)
    (data : List (Sym Secret)) : parser.handleChain id cs ≠ .mac [.atom a] data := by
  cases cs using List.reverseRecOn with
  | nil => simp [handleChain_nil, rootKey_eq]
  | append_singleton cs c =>
      rw [handleChain_snoc]
      intro h
      exact handleChain_ne_atom id cs a (by simpa using (Sym.mac.inj h).1)

theorem handleChain_ne_rootKey (id id' : Uuid) (cs : List (List (Sym Secret))) :
    parser.handleChain id cs ≠ parser.rootKey id' := handleChain_ne_mac_atom id cs _ _

theorem ops_injective : parser.ops.Injective where
  hmac := Sym.mac.inj
  ofBytes := literal_injective
  ofText := Function.injective_id
  ofTag _ _ h := List.singleton_injective h

/-- A chain determines the handle and the caveats. -/
theorem handleChain_injective {id id' : Uuid} {cs cs' : List (List (Sym Secret))}
    (h : parser.handleChain id cs = parser.handleChain id' cs') : id = id' ∧ cs = cs' :=
  ops_injective.chain (fun ds => (handleChain_ne_rootKey id' id ds).symm)
    (fun ds => (handleChain_ne_rootKey id id' ds).symm) h

theorem issued_signature {m : Macaroon (List (Sym Secret)) (Sym Secret)} (hm : parser.Issued m) :
    m.signature = parser.handleChain m.identifier m.caveats := by
  obtain ⟨id, caveats, added, rfl⟩ := hm
  generalize hbase : Macaroon.mint parser.ops (parser.rootKey id) id caveats = base
  have hsig : base.signature = parser.handleChain base.identifier base.caveats := by
    rw [← hbase]
    rfl
  clear hbase
  induction added generalizing base with
  | nil => exact hsig
  | cons c added ih =>
      apply ih (base.addCaveat parser.ops c)
      change parser.ops.link base.signature _ = parser.handleChain base.identifier (base.caveats ++ [_])
      rw [handleChain_snoc, hsig, link_eq]

/-- Each tag the attacker was given is the chain of an issued macaroon, or a redeem token, or has a
caveat key as its key, or has a single tag as its message. -/
theorem known_cases (k : parser.Knowledge) {s : Sym Secret} (hs : k.Known s) :
    (∃ m ∈ k.macaroons, s = parser.handleChain m.identifier m.caveats) ∨
    (∃ b : Bytes, (b.length = 32 ∨ b.length = 64) ∧ s = .mac [.atom .handleHmacKey] (literal b)) ∨
    (∃ n data, s = .mac [.atom (.dischargeKey n)] data) ∨
    ∃ tag key data, s = .mac [tag] [.mac key data] := by
  rcases hs with ⟨m, hm, rfl⟩ | htoken | ⟨d, hd, htag⟩
  · exact Or.inl ⟨m, hm, issued_signature (k.issued m hm)⟩
  · obtain ⟨id, binding, nonce, hbinding, rfl⟩ := k.tokens s htoken
    refine Or.inr (Or.inl ⟨id.bytes.val ++ (binding ++ nonce.val), ?_, rfl⟩)
    have hid : id.bytes.val.length = 16 := id.bytes.property
    have hnonce : nonce.val.length = 16 := nonce.property
    simp only [List.length_append, hid, hnonce]
    omega
  · obtain ⟨m, -, location, keyId, condition, n, primarySignature, expiresAt, -, rfl⟩ := k.minted d hd
    rcases htag with rfl | rfl
    · exact Or.inr (Or.inr (Or.inl ⟨n, _, rfl⟩))
    · exact Or.inr (Or.inr (Or.inr ⟨primarySignature, _, _, rfl⟩))

/-- The attacker was not given the broker's key. -/
theorem not_known_handleHmacKey (k : parser.Knowledge) : ¬ k.Known (.atom .handleHmacKey) := by
  intro h
  rcases known_cases k h with ⟨m, -, heq⟩ | ⟨b, -, heq⟩ | ⟨n, data, heq⟩ | ⟨tag, key, data, heq⟩
  · exact handleChain_ne_atom _ _ _ heq.symm
  · cases heq
  · cases heq
  · cases heq

/-- The attacker derives no root key: redeem tokens are under the same key, but over messages of other
lengths. -/
theorem not_derives_rootKey (k : parser.Knowledge) (id : Uuid) : ¬ Derives k.Known (parser.rootKey id) := by
  intro h
  have hlen : (asBytes "macaroon-root-v1:" ++ id.bytes.val).length = 33 := by
    have hid : id.bytes.val.length = 16 := id.bytes.property
    rw [List.length_append, hid]
    rfl
  rw [rootKey_eq] at h
  rcases derives_mac h with hknown | hkey
  · rcases known_cases k hknown with ⟨m, -, heq⟩ | ⟨b, hb, heq⟩ | ⟨n, data, heq⟩ | ⟨tag, key, data, heq⟩
    · rw [← rootKey_eq] at heq
      exact handleChain_ne_rootKey _ _ _ heq.symm
    · rw [← literal_injective (Sym.mac.inj heq).2, hlen] at hb
      omega
    · simp at heq
    · have hdata := congrArg List.length (Sym.mac.inj heq).2
      rw [length_literal, hlen] at hdata
      simp at hdata
  · exact not_known_handleHmacKey k (derives_atom (hkey _ List.mem_cons_self))

/-- A derived chain over caveats that parse extends an issued macaroon. -/
theorem derives_handleChain (k : parser.Knowledge) {id : Uuid} {cs : List (List (Sym Secret))}
    (hparse : ∀ c ∈ cs, ∃ caveat, parser.parse c = .ok caveat)
    (h : Derives k.Known (parser.handleChain id cs)) :
    ∃ m ∈ k.macaroons, m.identifier = id ∧ m.caveats <+: cs := by
  have hissued : ∀ cs, ∀ m ∈ k.macaroons,
      parser.handleChain id cs = parser.handleChain m.identifier m.caveats →
        ∃ m ∈ k.macaroons, m.identifier = id ∧ m.caveats <+: cs := by
    intro cs m hm heq
    obtain ⟨hid, hcs⟩ := handleChain_injective heq
    exact ⟨m, hm, hid.symm, hcs ▸ List.prefix_refl _⟩
  -- the last caveat first: a chain that was not given was built from the chain before it
  induction cs using List.reverseRecOn with
  | nil =>
      rw [handleChain_nil] at h
      rcases derives_mac h with hknown | hkey
      · rcases known_cases k hknown with ⟨m, hm, heq⟩ | ⟨b, -, heq⟩ | ⟨n, data, heq⟩ | ⟨tag, key, data, heq⟩
        · exact hissued [] m hm heq
        · simp [rootKey_eq] at heq
        · simp [rootKey_eq] at heq
        · have hdata := congrArg List.length (Sym.mac.inj heq).2
          rw [length_literal, id.bytes.property] at hdata
          simp at hdata
      · exact absurd (hkey _ List.mem_cons_self) (not_derives_rootKey k id)
  | append_singleton cs c ih =>
      rw [handleChain_snoc] at h
      rcases derives_mac h with hknown | hkey
      · rcases known_cases k hknown with ⟨m, hm, heq⟩ | ⟨b, -, heq⟩ | ⟨n, data, heq⟩ | ⟨tag, key, data, heq⟩
        · exact hissued (cs ++ [c]) m hm (by rw [handleChain_snoc, heq])
        · exact absurd (by rw [handleChain_snoc, heq]) (handleChain_ne_mac_atom id (cs ++ [c]) _ _)
        · exact absurd (by rw [handleChain_snoc, heq]) (handleChain_ne_mac_atom id (cs ++ [c]) _ _)
        · -- the caveat would be a bare HMAC output, which does not parse
          obtain ⟨caveat, hcaveat⟩ := hparse c (List.mem_append_right _ List.mem_cons_self)
          obtain ⟨err, herr⟩ := parser.parse_mac key data
          rw [(Sym.mac.inj heq).2, herr] at hcaveat
          cases hcaveat
      · obtain ⟨m, hm, hid, hpre⟩ := ih (fun c' hc' => hparse c' (List.mem_append_left _ hc'))
          (hkey _ List.mem_cons_self)
        exact ⟨m, hm, hid, hpre.trans (List.prefix_append _ _)⟩

/-- **Caveats cannot be removed.** Whatever macaroon the attacker builds, if it verifies under the root
key of its identifier, then it has the identifier of a macaroon the attacker was given, and its
caveats extend that macaroon's. -/
theorem verified_extends_issued (k : parser.Knowledge) (m : Macaroon (List (Sym Secret)) (Sym Secret))
    (hbuilds : k.Builds m) (verifier : CaveatVerifier (List (Sym Secret)) (Sym Secret))
    (hverify : m.verify parser.ops (parser.rootKey m.identifier) verifier = .ok ()) :
    ∃ given ∈ k.macaroons, given.identifier = m.identifier ∧ given.caveats <+: m.caveats := by
  obtain ⟨hsig, hcaveats⟩ := (Macaroon.verify_eq_ok parser.ops).mp hverify
  apply derives_handleChain k
  · intro c hc
    obtain ⟨before, after, hsplit⟩ := List.append_of_mem hc
    obtain ⟨caveat, hparse, -⟩ := hcaveats before c after hsplit
    exact ⟨caveat, hparse⟩
  · have hderives := hbuilds.2
    rwa [hsig] at hderives

/-- The bytes of a message of public bytes. -/
def publicBytes : List (Sym Secret) → Option Bytes
  | [] => some []
  | .byte b :: rest => (publicBytes rest).map (b :: ·)
  | _ :: _ => none

theorem publicBytes_literal (b : Bytes) : publicBytes (literal b) = some b := by
  induction b with
  | nil => rfl
  | cons x b ih =>
      change (publicBytes (literal b)).map (x :: ·) = some (x :: b)
      rw [ih, Option.map_some]

/-- The parser that accepts public bytes only. -/
def publicOnly (chrono : Chrono) : SymbolicParser chrono where
  parse msg :=
    match (publicBytes msg).bind fromUtf8 with
    | some s => Caveat.parse chrono s
    | none => .error .invalidFormat
  parse_literal s := by rw [publicBytes_literal, Option.bind_some, fromUtf8_asBytes]
  parse_mac key data := ⟨.invalidFormat, rfl⟩

/-- A handle for unwrapping, as it was issued. -/
def unwrapHandle : Macaroon (List (Sym Secret)) (Sym Secret) :=
  Macaroon.mint (publicOnly Chrono.packed).ops ((publicOnly Chrono.packed).rootKey (Uuid.filled 1)) (Uuid.filled 1)
    [.action "unwrap"]

/-- An attacker that was given the handle and nothing else. -/
def unwrapKnowledge : (publicOnly Chrono.packed).Knowledge where
  macaroons := [unwrapHandle]
  redeemTokens := []
  discharges := []
  issued m hm := ⟨Uuid.filled 1, [.action "unwrap"], [], List.mem_singleton.mp hm⟩
  tokens t ht := by cases ht
  minted d hd := by cases hd

theorem derives_literal {known : Sym Secret → Prop} (b : Bytes) : ∀ s ∈ literal b, Derives known s := by
  intro s hs
  obtain ⟨x, -, rfl⟩ := List.mem_map.mp hs
  exact Derives.byte x

/-- It can add a caveat, and what it builds extends the handle. -/
theorem verified_extends_issued_attenuated :
    ∃ given ∈ unwrapKnowledge.macaroons,
      given.identifier = (unwrapHandle.addCaveat (publicOnly Chrono.packed).ops (.tenantId "acme")).identifier ∧
      given.caveats <+: (unwrapHandle.addCaveat (publicOnly Chrono.packed).ops (.tenantId "acme")).caveats := by
  refine verified_extends_issued unwrapKnowledge _ ⟨?_, ?_⟩
    ⟨some "acme", none, none, none, some "unwrap", 1, ⟨0, 0⟩, [], []⟩ ?_
  · intro c hc
    have hcases : c = (publicOnly Chrono.packed).ops.encode (.action "unwrap") ∨
        c = (publicOnly Chrono.packed).ops.encode (.tenantId "acme") := by
      change c ∈ [_, _] at hc
      simpa using hc
    rcases hcases with rfl | rfl
    · exact derives_literal _
    · exact derives_literal _
  · refine Derives.mac ?_ (derives_literal _)
    intro s hs
    obtain rfl := List.mem_singleton.mp hs
    exact Derives.known (Or.inl ⟨unwrapHandle, List.mem_singleton.mpr rfl, rfl⟩)
  · rw [Macaroon.verify_eq_ok]
    refine ⟨rfl, fun before raw after hsplit => ?_⟩
    have hraw : raw ∈ [(publicOnly Chrono.packed).ops.encode (.action "unwrap"),
        (publicOnly Chrono.packed).ops.encode (.tenantId "acme")] := by
      change [_, _] = before ++ raw :: after at hsplit
      rw [hsplit]
      exact List.mem_append_right _ List.mem_cons_self
    have hparse : ∀ c : Caveat, c.Readable Chrono.packed →
        (publicOnly Chrono.packed).ops.parse ((publicOnly Chrono.packed).ops.encode c) = .ok c := by
      intro c hc
      exact ((publicOnly Chrono.packed).parse_literal _).trans (Caveat.parse_encode _ hc)
    rcases List.mem_cons.mp hraw with rfl | hraw
    · exact ⟨_, hparse (.action "unwrap") trivial, rfl⟩
    · obtain rfl := List.mem_singleton.mp hraw
      exact ⟨_, hparse (.tenantId "acme") trivial, rfl⟩

end SymbolicParser

end SecretBroker
