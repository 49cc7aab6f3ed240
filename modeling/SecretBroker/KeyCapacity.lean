import SecretBroker.Completeness
import SecretBroker.Custody
import SecretBroker.KeyTable

/-! The signing keys that a broker process has left. Every sealed secret takes a key of its customer, and no
request gives one back: not the deletion of the secret, its revocation or its rotation. So the number of
secrets that a customer can wrap is bounded over the whole run of the process, not at any one time. -/

open Wire Register

namespace SecretBroker

/-- What the limit depends on: the id, the customer and the status of every key. -/
def Broker.standings (s : Broker) : List (String × String × KeyStatus) :=
  s.keyMetadata.map fun m => (m.keyId, m.customerId, m.status)

theorem customerKeyCount_eq_countP (s : Broker) (c : String) : customerKeyCount s.keyMetadata c =
    s.standings.countP fun e => e.2.1 = c ∧ (e.2.2 = .active ∨ e.2.2 = .rotating) := by
  rw [Broker.standings, List.countP_map]
  rfl

theorem unused_iff {keyId : String} {s : Broker} : Unused keyId s.keyMetadata ↔ ∀ e ∈ s.standings, e.1 ≠ keyId := by
  rw [Broker.standings, List.forall_mem_map]
  rfl

/-- The keys stand as before. -/
def SameStandings (s t : Broker) : Prop := t.standings = s.standings

instance : IsPreorder Broker SameStandings where
  refl _ := rfl
  trans _ _ _ h h' := h'.trans h

/-- The keys stand as before, or there is an active key of the customer under the given id. -/
def AddsKey (id : Uuid) (c : String) (s t : Broker) : Prop :=
  t.standings = s.standings ∨
    t.standings = (keyIdOf id, c, .active) :: s.standings.filter fun e => e.1 ≠ keyIdOf id

instance {id : Uuid} {c : String} : IsPreorder Broker (AddsKey id c) where
  refl _ := Or.inl rfl
  trans s t u h h' := by
    rcases h' with h' | h'
    · rcases h with h | h
      · exact Or.inl (h'.trans h)
      · exact Or.inr (h'.trans h)
    · refine Or.inr ?_
      rcases h with h | h
      · rw [h', h]
      · rw [h', h, List.filter_cons_of_neg (by simp), List.filter_filter]
        simp

/-- Only the usage of a key changes when it is used. -/
theorem standings_useKey (s : Broker) (keyId : String) (now : DateTime) :
    SameStandings s { s with keyMetadata := updateKeyUsage keyId now s.keyMetadata } := by
  rw [SameStandings, Broker.standings, updateKeyUsage, List.map_map, Broker.standings]
  apply List.map_congr_left
  intro m _
  rw [Function.comp_apply]
  split_ifs
  · rfl
  · rfl

theorem standings_addKey (s : Broker) {id : Uuid} {pair : KeyPair} (hpair : pair.keyId = keyIdOf id) (c : String) :
    AddsKey id c s (s.addKey pair c) := by
  refine Or.inr ?_
  rw [Broker.standings, Broker.addKey, insertKeyMetadata, List.map_cons, Broker.standings, List.filter_map]
  simp only [newKeyMetadata, hpair]
  rfl

/-- A step leaves the keys as they stand, or adds one that was asked for. -/
theorem BrokerStep.standings {env : Env} {scope : Scope} {s s' : Broker} (h : BrokerStep env scope s s') :
    SameStandings s s' ∨ ∃ id c, (id, c) ∈ scope.signingKeys ∧ AddsKey id c s s' := by
  cases h with
  | record event => exact Or.inl rfl
  | store h =>
      cases h with
      | key h =>
          cases h with
          | storeKey hkey => exact Or.inl rfl
          | useKey keyId now => exact Or.inl (standings_useKey s keyId now)
          | addKey hkey hpair => exact Or.inr ⟨_, _, hkey, standings_addKey s hpair _⟩
      | _ => exact Or.inl rfl

namespace Call

theorem signingKey_mem_uuids {env : Env} {call : Call} {id : Uuid} {c : String} (h : call.signingKey env = some (id, c)) :
    id ∈ call.uuids := by
  cases call <;> cases h <;> simp [uuids, PersistDraws.uuids]

/-- A request that seals no secret leaves the keys as they stand. -/
theorem exec_standings {env : Env} {call : Call} (h : call.signingKey env = none) (s : Broker) :
    SameStandings s (call.exec env s).2 := by
  have hsteps := call.exec_steps env s
  generalize (call.exec env s).2 = s' at hsteps ⊢
  induction hsteps with
  | refl => rfl
  | tail _ hstep ih =>
      rcases hstep.standings with hsame | ⟨id, c, hkey, -⟩
      · exact trans_of SameStandings ih hsame
      · simp [scopeOf, h] at hkey

theorem exec_addsKey {env : Env} {call : Call} {id : Uuid} {c : String} (h : call.signingKey env = some (id, c))
    (s : Broker) : AddsKey id c s (call.exec env s).2 := by
  have hsteps := call.exec_steps env s
  generalize (call.exec env s).2 = s' at hsteps ⊢
  induction hsteps with
  | refl => exact Or.inl rfl
  | tail _ hstep ih =>
      rcases hstep.standings with hsame | ⟨id', c', hkey, hadds⟩
      · exact trans_of (AddsKey id c) ih (Or.inl hsame)
      · simp only [scopeOf, List.filterMap_cons, h, List.filterMap_nil, List.mem_singleton, Prod.mk.injEq] at hkey
        obtain ⟨rfl, rfl⟩ := hkey
        exact trans_of (AddsKey id' c') ih hadds

/-- The request leaves a signing key of the customer in the table. -/
def leavesKey (env : Env) (c : String) (s : Broker) (call : Call) : Bool :=
  (call.signingKey env).any fun key => key.2 = c ∧ ∃ e ∈ (call.exec env s).2.standings, e.1 = keyIdOf key.1

/-- Whatever its outcome, a request adds to the count of a customer exactly if it leaves a key. -/
theorem customerKeyCount_exec {env : Env} {call : Call} {s : Broker}
    (hunused : ∀ id c, call.signingKey env = some (id, c) → Unused (keyIdOf id) s.keyMetadata) (c : String) :
    customerKeyCount (call.exec env s).2.keyMetadata c =
      customerKeyCount s.keyMetadata c + if call.leavesKey env c s then 1 else 0 := by
  rw [customerKeyCount_eq_countP, customerKeyCount_eq_countP, leavesKey]
  cases hkey : call.signingKey env with
  | none =>
      rw [exec_standings hkey s]
      rfl
  | some key =>
      obtain ⟨id, c'⟩ := key
      have hnew := unused_iff.mp (hunused id c' hkey)
      rcases exec_addsKey hkey s with hsame | hadds
      · rw [hsame]
        have hnone : ¬ ∃ e ∈ s.standings, e.1 = keyIdOf id := fun ⟨e, he, heq⟩ => hnew e he heq
        simp [hnone]
      · have hfilter : s.standings.filter (fun e => e.1 ≠ keyIdOf id) = s.standings := by
          apply List.filter_eq_self.mpr
          intro e he
          exact decide_eq_true (hnew e he)
        rw [hadds, hfilter, List.countP_cons]
        simp

/-- An id that the request does not draw stays unused. -/
theorem unused_exec {env : Env} {call : Call} {id : Uuid} (hid : id ∉ call.uuids) {s : Broker}
    (h : Unused (keyIdOf id) s.keyMetadata) : Unused (keyIdOf id) (call.exec env s).2.keyMetadata := by
  rw [unused_iff] at h ⊢
  cases hkey : call.signingKey env with
  | none =>
      rw [exec_standings hkey s]
      exact h
  | some key =>
      rcases exec_addsKey hkey s with hsame | hadds
      · rw [hsame]
        exact h
      · rw [hadds, List.forall_mem_cons]
        refine ⟨fun heq => ?_, fun e he => h e (List.mem_of_mem_filter he)⟩
        exact hid (keyIdOf_injective heq ▸ signingKey_mem_uuids hkey)

end Call

/-- How many requests of a run leave a signing key of the customer. -/
def keysTaken (env : Env) (c : String) : Broker → List Call → ℕ
  | _, [] => 0
  | s, call :: calls => (if call.leavesKey env c s then 1 else 0) + keysTaken env c (call.exec env s).2 calls

/-- Over a run, the keys that count against the limit are those that its requests have left. -/
theorem customerKeyCount_after (env : Env) {calls : List Call} (hfresh : FreshUuids calls) {s : Broker}
    (hunused : ∀ call ∈ calls, ∀ id c, call.signingKey env = some (id, c) → Unused (keyIdOf id) s.keyMetadata)
    (c : String) : customerKeyCount (s.after env calls).keyMetadata c =
      customerKeyCount s.keyMetadata c + keysTaken env c s calls := by
  induction calls generalizing s with
  | nil => rfl
  | cons call calls ih =>
      have hfirst := Call.customerKeyCount_exec (hunused call List.mem_cons_self) c
      unfold FreshUuids at hfresh
      rw [List.flatMap_cons] at hfresh
      have hrest : FreshUuids calls := (List.nodup_append.mp hfresh).2.1
      rw [Broker.after_cons, ih hrest fun call' hcall' id c' hkey => ?_, hfirst, keysTaken, Nat.add_assoc]
      have hlater : id ∈ calls.flatMap Call.uuids := List.mem_flatMap.mpr ⟨call', hcall', Call.signingKey_mem_uuids hkey⟩
      refine Call.unused_exec (fun hdrawn => ?_) (hunused call' (List.mem_cons_of_mem _ hcall') id c' hkey)
      exact List.disjoint_of_nodup_append hfresh hdrawn hlater

/-- The handles under which the store holds a secret of the customer. -/
def customerRecords (s : Broker) (c : String) : Set Uuid := {id | ∃ r, s.records id = some r ∧ r.envelope.customerId = c}

/-- The plain broker with room for some keys of each customer. -/
def roomyEnv (limit : UInt32) : Env := { plainEnv with crypto := { plainEnv.crypto with maxKeysPerCustomer := limit } }

/-- A secret is wrapped, and deleted. -/
def wrapAndDelete (limit : UInt32) : List Call :=
  [plainWrap .singleUseUnwrap, .delete ⟨.ok, ⟨0, 0⟩, ⟨0, 0⟩⟩ .ok plainContext
    ((roomyEnv limit).mintHandle (.filled 1) (wrapCaveats (plainRequest .singleUseUnwrap) none))]

/-- The deletion finds the secret that the wrap has stored. -/
theorem wrapAndDelete_after {limit : UInt32}
    (hstored : ((Broker.empty.after (roomyEnv limit) [plainWrap .singleUseUnwrap]).records (.filled 1)).isSome = true) :
    ∃ event, Broker.empty.after (roomyEnv limit) (wrapAndDelete limit) =
      ((Broker.empty.after (roomyEnv limit) [plainWrap .singleUseUnwrap]).putRecord (.filled 1) none).recorded
      (roomyEnv limit) event := by
  obtain ⟨r, hr⟩ := Option.isSome_iff_exists.mp hstored
  have hfresh : FreshUuids ([] ++ [plainWrap .singleUseUnwrap]) := plain_fresh .singleUseUnwrap rfl
  have hissued : IssuedBy ⟨.filled 1, plainContext, .singleUseUnwrap, none⟩ r := wrapped_issuedBy hfresh hr
  have hvalid := management_of_identity ((plain_admitted (.filled 1) .singleUseUnwrap).identity
    (hissued.advances (accessed_evolves (roomyEnv limit) ⟨.ok, ⟨0, 0⟩, ⟨0, 0⟩⟩ r).toAdvances))
  have hparsed : parseHandleV2 ((roomyEnv limit).mintHandle (.filled 1)
    (wrapCaveats (plainRequest .singleUseUnwrap) none)) =
      .ok (Macaroon.mint (roomyEnv limit).mac ((roomyEnv limit).rootKey (.filled 1)) (.filled 1)
        (wrapCaveats (plainRequest .singleUseUnwrap) none)) :=
    parse_wrapHandle Chrono.packed_lawful (plainRequest_short _) (fun t ht => by cases ht) (.filled 1)
  have hhandle : parseHandleIdentifier (roomyEnv limit)
      ((roomyEnv limit).mintHandle (.filled 1) (wrapCaveats (plainRequest .singleUseUnwrap) none)) = .ok (.filled 1) :=
    parseHandleIdentifier_eq_ok.mpr ⟨_, hparsed, (Macaroon.verifySignature_eq_ok _).mpr rfl, rfl⟩
  have hdelete := deleteSecret_ok (d := ⟨.ok, ⟨0, 0⟩, ⟨0, 0⟩⟩) hhandle rfl hr hvalid
  refine ⟨transparencyEvent (roomyEnv limit) .delete "removed"
    ((roomyEnv limit).mintHandle (.filled 1) (wrapCaveats (plainRequest .singleUseUnwrap) none)) none none plainContext
    ⟨0, 0⟩ (contextMeta plainContext), ?_⟩
  rw [wrapAndDelete, ← List.singleton_append, Broker.after_append, Broker.after_cons _ _ (.delete ..), Broker.after_nil,
    Call.exec, Eff.bind_of_ok hdelete]
  rfl

/-- So nothing is left in the store. -/
theorem wrapAndDelete_empty {limit : UInt32}
    (hstored : ((Broker.empty.after (roomyEnv limit) [plainWrap .singleUseUnwrap]).records (.filled 1)).isSome = true)
    (c : String) : customerRecords (Broker.empty.after (roomyEnv limit) (wrapAndDelete limit)) c = ∅ := by
  apply Set.eq_empty_of_forall_notMem
  rintro id ⟨r, hr, -⟩
  obtain ⟨call, hcall, i, hi, rfl, -⟩ := stored_issued (roomyEnv limit) _ hr
  obtain ⟨event, hafter⟩ := wrapAndDelete_after hstored
  rw [hafter, Broker.recorded_records] at hr
  simp only [wrapAndDelete, List.mem_cons, List.not_mem_nil, or_false] at hcall
  obtain rfl | rfl := hcall
  · cases hi
    have hnone := Broker.putRecord_records_self (Broker.empty.after (roomyEnv limit) [plainWrap .singleUseUnwrap])
      (.filled 1) none
    exact absurd (hnone.symm.trans hr) (Option.some_ne_none r).symm
  · cases hi

/-- After a run, a customer with fewer records than the limit is admitted exactly if the requests of the whole run
have left fewer keys than that. -/
theorem wrap_admitted_iff (env : Env) (calls : List Call) (hfresh : FreshUuids calls) (c : String) :
    ((customerRecords (Broker.empty.after env calls) c).encard < env.crypto.maxKeysPerCustomer.toNat →
      checkKeyLimits env (Broker.empty.after env calls).keyMetadata c = .ok ()) ↔
    keysTaken env c Broker.empty calls < env.crypto.maxKeysPerCustomer.toNat ∨
      env.crypto.maxKeysPerCustomer.toNat ≤ (customerRecords (Broker.empty.after env calls) c).encard := by
  have hcount := customerKeyCount_after env hfresh (s := Broker.empty) (fun _ _ _ _ _ m hm => by cases hm) c
  have hadmitted : checkKeyLimits env (Broker.empty.after env calls).keyMetadata c = .ok () ↔
      keysTaken env c Broker.empty calls < env.crypto.maxKeysPerCustomer.toNat := by
    rw [checkKeyLimits, Eff.rejectIf_eq_ok, not_le, hcount]
    simp [Broker.empty, customerKeyCount]
  rw [hadmitted, imp_iff_or_not, not_lt]

theorem wrap_admitted_after_delete :
    customerRecords (Broker.empty.after (roomyEnv 2) (wrapAndDelete 2)) "customer" = ∅ ∧
    checkKeyLimits (roomyEnv 2) (Broker.empty.after (roomyEnv 2) (wrapAndDelete 2)).keyMetadata "customer" = .ok () := by
  have hempty : customerRecords (Broker.empty.after (roomyEnv 2) (wrapAndDelete 2)) "customer" = ∅ :=
    wrapAndDelete_empty (by decide +kernel) "customer"
  have htaken : keysTaken (roomyEnv 2) "customer" Broker.empty (wrapAndDelete 2) <
    (roomyEnv 2).crypto.maxKeysPerCustomer.toNat := by
    decide +kernel
  refine ⟨hempty, (wrap_admitted_iff (roomyEnv 2) (wrapAndDelete 2) (by decide) "customer").mpr (Or.inl htaken) ?_⟩
  rw [hempty, Set.encard_empty]
  decide

/-- With room for one key, the store is empty after the deletion of the only secret, and the next one is refused. -/
theorem wrap_refused_after_delete :
    FreshUuids (wrapAndDelete 1) ∧
    customerRecords (Broker.empty.after (roomyEnv 1) (wrapAndDelete 1)) "customer" = ∅ ∧
    (wrapSecretV2Impl (roomyEnv 1) ⟨0, 0⟩ (plainDraws (.filled 4) (.filled 5) (.filled 6)) plainContext
      (plainRequest .singleUseUnwrap) (Broker.empty.after (roomyEnv 1) (wrapAndDelete 1))).1 =
        .error (.service (.crypto "Maximum key limit reached for customer: customer")) := by
  have hstored : ((Broker.empty.after (roomyEnv 1) [plainWrap .singleUseUnwrap]).records (.filled 1)).isSome = true := by
    decide +kernel
  obtain ⟨event, hafter⟩ := wrapAndDelete_after hstored
  refine ⟨by decide, wrapAndDelete_empty hstored "customer", ?_⟩
  rw [hafter]
  rfl

end SecretBroker
