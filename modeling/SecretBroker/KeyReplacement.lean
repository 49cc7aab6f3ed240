import SecretBroker.KeyRotation

/-! What the rotation does to the tables when every lock is granted. The new key is stored before the old one
is retired, so both count against the limit of their customer for a moment: a key whose customer is at the
limit is not replaced and stays active. -/

open Wire Lock

namespace SecretBroker.KeyManager

variable {env : Env} {d : KeyPairDraws} {keyId : String} {s t : Broker}

/-- With its locks granted, the generation is the one of the crypto engine. -/
theorem toEff_generateKeyPair (env : Env) (d : KeyPairDraws) (algorithm customerId : String) :
    (generateKeyPair env d algorithm customerId).toEff = SecretBroker.generateKeyPair env d algorithm customerId := by
  simp only [generateKeyPair, checkKeyLimits, encryptPrivateKey, storeKeyPair, SecretBroker.generateKeyPair,
    Routine.toEff_bind, Routine.toEff_lift, Routine.toEff_holding, Routine.toEff_look, Routine.toEff_update,
    Routine.toEff_pure, bind_assoc, Broker.addKey, newKeyMetadata]

/-- The entry of a key that replaces another one. -/
def successorOf (keyId : String) (newPair : KeyPair) (customerId : String) : KeyMetadata :=
  { newKeyMetadata newPair customerId with metadata := [("rotated_from", keyId)] }

/-- The broker with a key replaced by a new one. -/
def replaceKey (s : Broker) (keyId : String) (newPair : KeyPair) (customerId : String) : Broker :=
  { s with
    keyPairs := insertKeyPair newPair s.keyPairs
    keyMetadata := successorOf keyId newPair customerId :: retire keyId s.keyMetadata }

theorem retire_cons_of_ne {m : KeyMetadata} (h : m.keyId ≠ keyId) (keyMetadata : List KeyMetadata) :
    retire keyId (m :: keyMetadata) = m :: retire keyId keyMetadata := by
  rw [retire, List.map_cons, if_neg h]
  rfl

theorem unused_retire {newKeyId : String} {keyMetadata : List KeyMetadata} (h : Unused newKeyId keyMetadata) :
    Unused newKeyId (retire keyId keyMetadata) := by
  intro m hm
  obtain ⟨m', hm', rfl⟩ := List.mem_map.mp hm
  have hne := h m' hm'
  split_ifs
  · exact hne
  · exact hne

theorem noteRotatedFrom_of_unused {newKeyId : String} {keyMetadata : List KeyMetadata} (h : Unused newKeyId keyMetadata) :
    noteRotatedFrom newKeyId keyId keyMetadata = keyMetadata := by
  calc noteRotatedFrom newKeyId keyId keyMetadata
      = keyMetadata.map id := List.map_congr_left fun m hm => if_neg (h m hm)
    _ = keyMetadata := List.map_id _

section

variable {pair newPair : KeyPair} {metadata : KeyMetadata}
  (hpair : s.keyPairs.find? (fun p => p.keyId = keyId) = some pair)
  (hmetadata : s.keyMetadata.find? (fun m => m.keyId = keyId) = some metadata)

include hpair hmetadata

theorem rotateKey_toEff : (rotateKey env d keyId).toEff s = (do
    let newPair ← SecretBroker.generateKeyPair env d pair.algorithm metadata.customerId
    Eff.modify fun s => { s with keyMetadata := retire keyId s.keyMetadata }
    let s ← Eff.read
    Eff.lift (Eff.rejectIf (∀ m ∈ s.keyMetadata, m.keyId ≠ newPair.keyId) .panic)
    Eff.modify fun s => { s with keyMetadata := noteRotatedFrom newPair.keyId keyId s.keyMetadata } :
      Eff Broker Failure Unit) s := by
  rw [rotateKey]
  simp only [Routine.toEff_bind, Routine.toEff_holding, Routine.toEff_look]
  rw [Eff.bind_of_ok (Eff.read_apply s), hpair, hmetadata]
  simp only [Routine.toEff_bind, Routine.toEff_lift, Routine.toEff_holding, Routine.toEff_look, Routine.toEff_update,
    toEff_generateKeyPair]

/-- A key whose replacement is refused stays as it is. -/
theorem rotateKey_of_error {e : Failure}
    (h : admitKeyPair env d pair.algorithm metadata.customerId s.keyMetadata = .error e) :
    (rotateKey env d keyId).toEff s = (.error e, s) := by
  rw [rotateKey_toEff hpair hmetadata, Eff.bind_of_error (generateKeyPair_of_error h)]

/-- Otherwise it is replaced. -/
theorem rotateKey_of_ok (h : admitKeyPair env d pair.algorithm metadata.customerId s.keyMetadata = .ok newPair)
    (hunused : Unused newPair.keyId s.keyMetadata) :
    (rotateKey env d keyId).toEff s = (.ok (), replaceKey s keyId newPair metadata.customerId) := by
  have hne : newPair.keyId ≠ keyId := by
    have hfound := List.find?_some hmetadata
    intro heq
    exact hunused metadata (List.mem_of_find?_eq_some hmetadata) (heq ▸ of_decide_eq_true hfound)
  have hretired : retire keyId (s.addKey newPair metadata.customerId).keyMetadata =
      newKeyMetadata newPair metadata.customerId :: retire keyId s.keyMetadata := by
    rw [Broker.addKey, insertKeyMetadata_of_unused hunused]
    exact retire_cons_of_ne hne _
  have hnoted : noteRotatedFrom newPair.keyId keyId
      (newKeyMetadata newPair metadata.customerId :: retire keyId s.keyMetadata) =
        successorOf keyId newPair metadata.customerId :: retire keyId s.keyMetadata :=
    congrArg₂ List.cons (if_pos rfl) (noteRotatedFrom_of_unused (unused_retire hunused))
  have hpresent : Eff.rejectIf (∀ m ∈ newKeyMetadata newPair metadata.customerId :: retire keyId s.keyMetadata,
      m.keyId ≠ newPair.keyId) Failure.panic = .ok () := by
    apply Eff.rejectIf_eq_ok.mpr
    intro hnone
    exact hnone _ List.mem_cons_self rfl
  rw [rotateKey_toEff hpair hmetadata, Eff.bind_of_ok (generateKeyPair_of_ok h), Eff.bind_of_ok (Eff.modify_apply _ _),
    Eff.bind_of_ok (Eff.read_apply _), hretired, Eff.bind_of_ok (Eff.lift_eq_ok.mpr ⟨hpresent, rfl⟩), Eff.modify_apply,
    hnoted]
  rfl

end

structure GenerateCall where
  d : KeyPairDraws
  algorithm : String
  customerId : String

/-- The broker after some generations. -/
def generated (env : Env) (s : Broker) (calls : List GenerateCall) : Broker :=
  calls.foldl (fun s call => (SecretBroker.generateKeyPair env call.d call.algorithm call.customerId s).2) s

/-- Every entry of the table is that of an active key, whose pair is there too, under an id drawn for it. -/
structure Tabled (env : Env) (drawn : Set Uuid) (s : Broker) : Prop where
  nodup : (s.keyMetadata.map (·.keyId)).Nodup
  drawn : ∀ m ∈ s.keyMetadata, ∃ id ∈ drawn, m.keyId = keyIdOf id
  active : ∀ m ∈ s.keyMetadata, m.status = .active
  unmarked : ∀ m ∈ s.keyMetadata, m.metadata = []
  allowed : ∀ m ∈ s.keyMetadata, validatePostQuantumAlgorithm env m.algorithm = .ok ()
  paired : ∀ m ∈ s.keyMetadata, ∃ pair, s.keyPairs.find? (fun p => p.keyId = m.keyId) = some pair ∧
    pair.algorithm = m.algorithm

theorem Tabled.mono {drawn drawn' : Set Uuid} (h : Tabled env drawn s) (hsub : drawn ⊆ drawn') : Tabled env drawn' s where
  nodup := h.nodup
  drawn m hm := by
    obtain ⟨id, hid, hm⟩ := h.drawn m hm
    exact ⟨id, hsub hid, hm⟩
  active := h.active
  unmarked := h.unmarked
  allowed := h.allowed
  paired := h.paired

theorem tabled_empty (env : Env) : Tabled env ∅ Broker.empty := by
  constructor <;> simp [Broker.empty]

/-- A new id occurs in no entry. -/
theorem Tabled.unused {drawn : Set Uuid} (h : Tabled env drawn s) {id : Uuid} (hid : id ∉ drawn) :
    Unused (keyIdOf id) s.keyMetadata := by
  intro m hm heq
  obtain ⟨id', hid', hm'⟩ := h.drawn m hm
  rw [heq] at hm'
  exact hid (keyIdOf_injective hm' ▸ hid')

/-- A generation under a new id keeps the table so. -/
theorem Tabled.generate {drawn : Set Uuid} (h : Tabled env drawn s) {call : GenerateCall} (hnew : call.d.keyId ∉ drawn) :
    Tabled env (insert call.d.keyId drawn)
      (SecretBroker.generateKeyPair env call.d call.algorithm call.customerId s).2 := by
  cases hadmitted : admitKeyPair env call.d call.algorithm call.customerId s.keyMetadata with
  | error e =>
      rw [generateKeyPair_of_error hadmitted]
      exact h.mono (Set.subset_insert _ _)
  | ok pair =>
      obtain ⟨hvalid, -, hpair⟩ := admitKeyPair_eq_ok.mp hadmitted
      obtain ⟨hid, halgorithm⟩ := newKeyPair_eq_ok hpair
      have hunused : Unused pair.keyId s.keyMetadata := by
        rw [hid]
        exact h.unused hnew
      have htable : (s.addKey pair call.customerId).keyMetadata = newKeyMetadata pair call.customerId :: s.keyMetadata :=
        insertKeyMetadata_of_unused hunused
      rw [generateKeyPair_of_ok hadmitted]
      constructor
      · rw [htable, List.map_cons, List.nodup_cons]
        refine ⟨fun hmem => ?_, h.nodup⟩
        obtain ⟨m, hm, heq⟩ := List.mem_map.mp hmem
        exact hunused m hm heq
      all_goals
        rw [htable]
        intro m hm
        rcases List.mem_cons.mp hm with rfl | hm
      · exact ⟨call.d.keyId, Set.mem_insert _ _, hid⟩
      · obtain ⟨id, hid, hm⟩ := h.drawn m hm
        exact ⟨id, Set.mem_insert_of_mem _ hid, hm⟩
      · rfl
      · exact h.active m hm
      · rfl
      · exact h.unmarked m hm
      · exact (congrArg (validatePostQuantumAlgorithm env) halgorithm).trans hvalid
      · exact h.allowed m hm
      · exact ⟨pair, find?_insertKeyPair_self pair s.keyPairs, rfl⟩
      · obtain ⟨pair', hfound, halgorithm'⟩ := h.paired m hm
        exact ⟨pair', (find?_insertKeyPair_of_ne (hunused m hm) _).trans hfound, halgorithm'⟩

theorem Tabled.generated {drawn : Set Uuid} (h : Tabled env drawn s) {calls : List GenerateCall}
    (hnew : ∀ call ∈ calls, call.d.keyId ∉ drawn) (hnodup : (calls.map (·.d.keyId)).Nodup) :
    Tabled env (drawn ∪ {id | id ∈ calls.map (·.d.keyId)}) (generated env s calls) := by
  induction calls generalizing drawn s with
  | nil => exact h.mono Set.subset_union_left
  | cons call calls ih =>
      rw [List.map_cons, List.nodup_cons] at hnodup
      have hfirst := h.generate (hnew call List.mem_cons_self)
      refine (ih hfirst (fun call' hcall' => ?_) hnodup.2).mono ?_
      · rw [Set.mem_insert_iff, not_or]
        refine ⟨fun heq => hnodup.1 (heq ▸ List.mem_map_of_mem hcall'), hnew call' (List.mem_cons_of_mem _ hcall')⟩
      · intro id hid
        simp only [Set.mem_union, Set.mem_insert_iff, Set.mem_ofPred_eq, List.map_cons, List.mem_cons] at hid ⊢
        tauto

theorem tabled_generated (env : Env) (calls : List GenerateCall) (hnodup : (calls.map (·.d.keyId)).Nodup) :
    Tabled env {id | id ∈ calls.map (·.d.keyId)} (generated env Broker.empty calls) := by
  have hrun := (tabled_empty env).generated (fun _ _ => Set.notMem_empty _) hnodup
  rwa [Set.empty_union] at hrun

/-! ### The loop -/

/-- An entry after the keys `done` have been replaced. -/
def marked (done : List String) (m : KeyMetadata) : KeyMetadata :=
  if m.keyId ∈ done then { m with status := .rotated } else m

theorem marked_of_mem {done : List String} {m : KeyMetadata} (h : m.keyId ∈ done) :
    marked done m = { m with status := .rotated } := if_pos h

theorem marked_of_notMem {done : List String} {m : KeyMetadata} (h : m.keyId ∉ done) : marked done m = m := if_neg h

@[simp] theorem marked_keyId (done : List String) (m : KeyMetadata) : (marked done m).keyId = m.keyId := by
  rw [marked]
  split_ifs
  · rfl
  · rfl

/-- The entry of the key that replaces a given one. -/
structure Successor (draws : String → KeyPairDraws) (m n : KeyMetadata) : Prop where
  keyId : n.keyId = keyIdOf (draws m.keyId).keyId
  status : n.status = .active
  algorithm : n.algorithm = m.algorithm
  customerId : n.customerId = m.customerId
  metadata : n.metadata = [("rotated_from", m.keyId)]

/-- From `s`, the keys `done` have been replaced. -/
structure Progress (draws : String → KeyPairDraws) (s : Broker) (done : List String) (t : Broker) : Prop where
  known : ∀ keyId ∈ done, ∃ m ∈ s.keyMetadata, m.keyId = keyId
  table : ∃ successor : String → KeyMetadata,
    t.keyMetadata = done.map successor ++ s.keyMetadata.map (marked done) ∧
    ∀ m ∈ s.keyMetadata, m.keyId ∈ done → Successor draws m (successor m.keyId)
  pairs : ∀ m ∈ s.keyMetadata,
    t.keyPairs.find? (fun p => p.keyId = m.keyId) = s.keyPairs.find? fun p => p.keyId = m.keyId
  counts : ∀ c, customerKeyCount t.keyMetadata c = customerKeyCount s.keyMetadata c

theorem progress_refl (draws : String → KeyPairDraws) (s : Broker) : Progress draws s [] s where
  known _ h := absurd h List.not_mem_nil
  table := by
    refine ⟨fun _ => newKeyMetadata ⟨"", [], [], "", ⟨0, 0⟩, none⟩ "", ?_, fun _ _ h => absurd h List.not_mem_nil⟩
    have hmarked : marked [] = id := by
      funext m
      exact marked_of_notMem List.not_mem_nil
    rw [hmarked, List.map_id, List.map_nil, List.nil_append]
  pairs _ _ := rfl
  counts _ := rfl

theorem retire_marked {done : List String} (m : KeyMetadata) :
    (if (marked done m).keyId = keyId then { marked done m with status := .rotated } else marked done m) =
      marked (keyId :: done) m := by
  by_cases hdone : m.keyId ∈ done
  · rw [marked_of_mem hdone, marked_of_mem (List.mem_cons_of_mem _ hdone)]
    exact ite_self _
  · rw [marked_of_notMem hdone]
    simp only [marked, List.mem_cons, hdone, or_false]

theorem retire_map_marked (done : List String) (keyMetadata : List KeyMetadata) :
    retire keyId (keyMetadata.map (marked done)) = keyMetadata.map (marked (keyId :: done)) := by
  rw [retire, List.map_map]
  exact List.map_congr_left fun m _ => retire_marked m

theorem customerKeyCount_append (l l' : List KeyMetadata) (c : String) :
    customerKeyCount (l ++ l') c = customerKeyCount l c + customerKeyCount l' c := List.countP_append

theorem customerKeyCount_cons (m : KeyMetadata) (l : List KeyMetadata) (c : String) :
    customerKeyCount (m :: l) c =
      customerKeyCount l c + if m.customerId = c ∧ (m.status = .active ∨ m.status = .rotating) then 1 else 0 := by
  rw [customerKeyCount, List.countP_cons]
  simp only [decide_eq_true_eq, customerKeyCount]

/-- Marking one more active key takes it from the count of its customer. -/
theorem customerKeyCount_marked {l : List KeyMetadata} (hnodup : (l.map (·.keyId)).Nodup) {m : KeyMetadata} (hm : m ∈ l)
    (hactive : m.status = .active) {done : List String} (hdone : m.keyId ∉ done) (c : String) :
    customerKeyCount (l.map (marked (m.keyId :: done))) c + (if m.customerId = c then 1 else 0) =
      customerKeyCount (l.map (marked done)) c := by
  have hother : ∀ m' : KeyMetadata, m'.keyId ≠ m.keyId → marked (m.keyId :: done) m' = marked done m' := by
    intro m' hne
    simp [marked, hne]
  induction l with
  | nil => cases hm
  | cons first rest ih =>
      rw [List.map_cons, List.nodup_cons] at hnodup
      rw [List.map_cons, List.map_cons, customerKeyCount_cons, customerKeyCount_cons]
      rcases List.mem_cons.mp hm with rfl | hrest
      · have htail : rest.map (marked (m.keyId :: done)) = rest.map (marked done) := by
          apply List.map_congr_left
          intro m' hm'
          exact hother m' fun heq => hnodup.1 (heq ▸ List.mem_map_of_mem hm')
        rw [htail, marked_of_mem List.mem_cons_self, marked_of_notMem hdone, hactive]
        simp
      · have hne : first.keyId ≠ m.keyId := fun heq => hnodup.1 (heq ▸ List.mem_map_of_mem hrest)
        rw [hother first hne, ← ih hnodup.2 hrest]
        omega

/-- The ids drawn for the new keys are new. -/
structure FreshDraws (draws : String → KeyPairDraws) (drawn : Set Uuid) (s : Broker) : Prop where
  new : ∀ m ∈ s.keyMetadata, (draws m.keyId).keyId ∉ drawn
  distinct : ∀ m ∈ s.keyMetadata, ∀ m' ∈ s.keyMetadata, (draws m.keyId).keyId = (draws m'.keyId).keyId → m.keyId = m'.keyId

section

variable {draws : String → KeyPairDraws} {drawn : Set Uuid} {done : List String} {m : KeyMetadata}
  (htabled : Tabled env drawn s) (hfresh : FreshDraws draws drawn s) (hprogress : Progress draws s done t)

include htabled hfresh

/-- No entry has the id of a replacement. -/
theorem keyId_ne_drawn {m' : KeyMetadata} (hm : m ∈ s.keyMetadata) (hm' : m' ∈ s.keyMetadata) :
    m.keyId ≠ keyIdOf (draws m'.keyId).keyId := htabled.unused (hfresh.new m' hm') m hm

include hprogress

/-- The id drawn for a key that is still to be replaced does not occur. -/
theorem unused_drawn (hm : m ∈ s.keyMetadata) (hdone : m.keyId ∉ done) :
    Unused (keyIdOf (draws m.keyId).keyId) t.keyMetadata := by
  obtain ⟨successor, htable, hsuccessor⟩ := hprogress.table
  intro n hn heq
  rw [htable, List.mem_append] at hn
  rcases hn with hn | hn
  · obtain ⟨keyId', hkeyId', rfl⟩ := List.mem_map.mp hn
    obtain ⟨m', hm', rfl⟩ := hprogress.known keyId' hkeyId'
    rw [(hsuccessor m' hm' hkeyId').keyId] at heq
    have hsame := hfresh.distinct m' hm' m hm (keyIdOf_injective heq)
    exact hdone (hsame ▸ hkeyId')
  · obtain ⟨m', hm', rfl⟩ := List.mem_map.mp hn
    rw [marked_keyId] at heq
    exact keyId_ne_drawn htabled hfresh hm' hm heq

/-- A key that is still to be replaced is found in the table as it was. -/
theorem find?_of_progress (hm : m ∈ s.keyMetadata) (hdone : m.keyId ∉ done) :
    t.keyMetadata.find? (fun m' => m'.keyId = m.keyId) = some m := by
  obtain ⟨successor, htable, hsuccessor⟩ := hprogress.table
  have hnew : (done.map successor).find? (fun m' => m'.keyId = m.keyId) = none := by
    apply List.find?_eq_none.mpr
    intro n hn
    obtain ⟨keyId', hkeyId', rfl⟩ := List.mem_map.mp hn
    obtain ⟨m', hm', rfl⟩ := hprogress.known keyId' hkeyId'
    rw [(hsuccessor m' hm' hkeyId').keyId]
    simpa using (keyId_ne_drawn htabled hfresh hm hm').symm
  have hold : (fun m' : KeyMetadata => decide (m'.keyId = m.keyId)) ∘ marked done =
      fun m' : KeyMetadata => decide (m'.keyId = m.keyId) := by
    funext m'
    rw [Function.comp_apply, marked_keyId]
  rw [htable, List.find?_append, hnew, Option.none_or, List.find?_map, hold, find?_keyId htabled.nodup hm,
    Option.map_some, marked_of_notMem hdone]

theorem progress_replace (hm : m ∈ s.keyMetadata) (hdone : m.keyId ∉ done) {newPair : KeyPair}
    (hnew : newKeyPair env (draws m.keyId) m.algorithm = .ok newPair) :
    Progress draws s (m.keyId :: done) (replaceKey t m.keyId newPair m.customerId) := by
  obtain ⟨successor, htable, hsuccessor⟩ := hprogress.table
  obtain ⟨hid, halgorithm⟩ := newKeyPair_eq_ok hnew
  -- the replacements made before are not touched
  have hretire : retire m.keyId (done.map successor) = done.map successor := by
    rw [retire, List.map_map]
    apply List.map_congr_left
    intro keyId' hkeyId'
    obtain ⟨m', hm', rfl⟩ := hprogress.known keyId' hkeyId'
    apply if_neg
    rw [(hsuccessor m' hm' hkeyId').keyId]
    exact (keyId_ne_drawn htabled hfresh hm hm').symm
  have hretired : retire m.keyId t.keyMetadata =
      done.map successor ++ s.keyMetadata.map (marked (m.keyId :: done)) := by
    rw [htable, retire, List.map_append, ← retire, ← retire, hretire, retire_map_marked]
  have hcount : ∀ c, customerKeyCount (successorOf m.keyId newPair m.customerId :: retire m.keyId t.keyMetadata) c =
      customerKeyCount t.keyMetadata c := by
    intro c
    have hmarked := customerKeyCount_marked htabled.nodup hm (htabled.active m hm) hdone c
    rw [customerKeyCount_cons, hretired, htable, customerKeyCount_append, customerKeyCount_append, ← hmarked]
    simp only [successorOf, newKeyMetadata, true_or, and_true]
    omega
  refine ⟨?_, ⟨Function.update successor m.keyId (successorOf m.keyId newPair m.customerId), ?_, ?_⟩, ?_, ?_⟩
  · intro keyId' hkeyId'
    rcases List.mem_cons.mp hkeyId' with rfl | hkeyId'
    · exact ⟨m, hm, rfl⟩
    · exact hprogress.known keyId' hkeyId'
  · have hbefore : done.map (Function.update successor m.keyId (successorOf m.keyId newPair m.customerId)) =
        done.map successor := by
      apply List.map_congr_left
      intro keyId' hkeyId'
      apply Function.update_of_ne
      rintro rfl
      exact hdone hkeyId'
    rw [List.map_cons, Function.update_self, hbefore, List.cons_append, ← hretired]
    rfl
  · intro m' hm' hmem
    by_cases hsame : m'.keyId = m.keyId
    · obtain rfl : m' = m := List.inj_on_of_nodup_map htabled.nodup hm' hm hsame
      rw [Function.update_self]
      exact ⟨hid, rfl, halgorithm, rfl, rfl⟩
    · rw [Function.update_of_ne hsame]
      exact hsuccessor m' hm' ((List.mem_cons.mp hmem).resolve_left hsame)
  · intro m' hm'
    refine (find?_insertKeyPair_of_ne ?_ _).trans (hprogress.pairs m' hm')
    rw [hid]
    exact keyId_ne_drawn htabled hfresh hm' hm
  · intro c
    exact (hcount c).trans (hprogress.counts c)

/-- An attempt to rotate a key replaces it, or is refused for a reason that the table had from the start. -/
theorem rotateKey_of_progress (hm : m ∈ s.keyMetadata) (hdone : m.keyId ∉ done) :
    (∃ newPair, admitKeyPair env (draws m.keyId) m.algorithm m.customerId s.keyMetadata = .ok newPair ∧
      (rotateKey env (draws m.keyId) m.keyId).toEff t = (.ok (), replaceKey t m.keyId newPair m.customerId)) ∨
    ∃ e, admitKeyPair env (draws m.keyId) m.algorithm m.customerId s.keyMetadata = .error e ∧
      (rotateKey env (draws m.keyId) m.keyId).toEff t = (.error e, t) := by
  obtain ⟨pair, hpair, halgorithm⟩ := htabled.paired m hm
  have hfound : t.keyPairs.find? (fun p => p.keyId = m.keyId) = some pair := (hprogress.pairs m hm).trans hpair
  have hmetadata := find?_of_progress htabled hfresh hprogress hm hdone
  have hsame : admitKeyPair env (draws m.keyId) pair.algorithm m.customerId t.keyMetadata =
      admitKeyPair env (draws m.keyId) m.algorithm m.customerId s.keyMetadata := by
    rw [halgorithm, admitKeyPair, admitKeyPair, SecretBroker.checkKeyLimits, SecretBroker.checkKeyLimits,
      hprogress.counts]
  cases hadmitted : admitKeyPair env (draws m.keyId) m.algorithm m.customerId s.keyMetadata with
  | error e => exact Or.inr ⟨e, rfl, rotateKey_of_error hfound hmetadata (hsame.trans hadmitted)⟩
  | ok newPair =>
      refine Or.inl ⟨newPair, rfl, rotateKey_of_ok hfound hmetadata (hsame.trans hadmitted) ?_⟩
      rw [(newKeyPair_eq_ok (admitKeyPair_eq_ok.mp hadmitted).2.2).1]
      exact unused_drawn htabled hfresh hprogress hm hdone

end

/-- The loop goes on after everything but a panic. -/
theorem toEff_rotateKeys_cons {draws : String → KeyPairDraws} {keyIds : List String} {r : Except Failure Unit}
    (h : (rotateKey env (draws keyId) keyId).toEff s = (r, t)) (hr : r ≠ .error .panic) :
    (rotateKeys env draws (keyId :: keyIds)).toEff s = (rotateKeys env draws keyIds).toEff t := by
  refine (Routine.toEff_handle _ _ s).trans ?_
  rw [h]
  cases r with
  | ok u => rfl
  | error e =>
      cases e with
      | panic => exact absurd rfl hr
      | service e => rfl
      | anyhow message => rfl

theorem toEff_rotateKeys_panic {draws : String → KeyPairDraws} (keyIds : List String)
    (h : (rotateKey env (draws keyId) keyId).toEff s = (.error .panic, t)) :
    (rotateKeys env draws (keyId :: keyIds)).toEff s = (.error .panic, t) := by
  refine (Routine.toEff_handle _ _ s).trans ?_
  rw [h]
  rfl

/-- A new key can be made for this one, next to all the keys of the table. -/
def Replaceable (env : Env) (draws : String → KeyPairDraws) (s : Broker) (m : KeyMetadata) : Prop :=
  ∃ newPair, admitKeyPair env (draws m.keyId) m.algorithm m.customerId s.keyMetadata = .ok newPair

/-- The loop replaces the keys that can be replaced. -/
theorem rotateKeys_of_progress {draws : String → KeyPairDraws} {drawn : Set Uuid} (htabled : Tabled env drawn s)
    (hfresh : FreshDraws draws drawn s) {keyIds : List String} (hnodup : keyIds.Nodup) {done : List String}
    (hprogress : Progress draws s done t)
    (hknown : ∀ keyId ∈ keyIds, keyId ∉ done ∧ ∃ m ∈ s.keyMetadata, m.keyId = keyId) :
    ∃ r t', (rotateKeys env draws keyIds).toEff t = (r, t') ∧
      ((∀ m ∈ s.keyMetadata, m.keyId ∈ keyIds → Replaceable env draws s m) → r = .ok ()) ∧
      (r = .ok () → ∃ done', Progress draws s done' t' ∧
        ∀ m ∈ s.keyMetadata, m.keyId ∈ done' ↔ m.keyId ∈ done ∨ m.keyId ∈ keyIds ∧ Replaceable env draws s m) := by
  induction keyIds generalizing t done with
  | nil =>
      refine ⟨.ok (), t, rfl, fun _ => rfl, fun _ => ⟨done, hprogress, fun m _ => ?_⟩⟩
      simp
  | cons keyId keyIds ih =>
      rw [List.nodup_cons] at hnodup
      obtain ⟨hdone, m, hm, rfl⟩ := hknown keyId List.mem_cons_self
      have hrest : ∀ keyId ∈ keyIds, keyId ∉ done ∧ ∃ m ∈ s.keyMetadata, m.keyId = keyId := fun keyId hkeyId =>
        hknown keyId (List.mem_cons_of_mem _ hkeyId)
      rcases rotateKey_of_progress htabled hfresh hprogress hm hdone with ⟨newPair, hadmitted, hrotate⟩ |
        ⟨e, hadmitted, hrotate⟩
      · have hstep := progress_replace htabled hfresh hprogress hm hdone (admitKeyPair_eq_ok.mp hadmitted).2.2
        have hrest' : ∀ keyId ∈ keyIds, keyId ∉ m.keyId :: done ∧ ∃ m ∈ s.keyMetadata, m.keyId = keyId := by
          intro keyId hkeyId
          refine ⟨?_, (hrest keyId hkeyId).2⟩
          rw [List.mem_cons, not_or]
          exact ⟨fun heq => hnodup.1 (heq ▸ hkeyId), (hrest keyId hkeyId).1⟩
        obtain ⟨r, t', hrun, hall, hok⟩ := ih hnodup.2 hstep hrest'
        refine ⟨r, t', (toEff_rotateKeys_cons hrotate (by simp)).trans hrun, fun h => ?_, fun hr => ?_⟩
        · exact hall fun m' hm' hmem => h m' hm' (List.mem_cons_of_mem _ hmem)
        · obtain ⟨done', hprogress', hdone'⟩ := hok hr
          refine ⟨done', hprogress', fun m' hm' => ?_⟩
          rw [hdone' m' hm', List.mem_cons, List.mem_cons]
          by_cases hsame : m'.keyId = m.keyId
          · obtain rfl : m' = m := List.inj_on_of_nodup_map htabled.nodup hm' hm hsame
            have hreplaceable : Replaceable env draws s m' := ⟨newPair, hadmitted⟩
            simp [hreplaceable]
          · simp [hsame]
      · have hrefused : ¬ Replaceable env draws s m := by
          intro ⟨newPair, hok⟩
          rw [hadmitted] at hok
          cases hok
        by_cases hpanic : e = .panic
        · subst hpanic
          refine ⟨.error .panic, t, toEff_rotateKeys_panic keyIds hrotate, fun h => ?_, fun hr => by cases hr⟩
          exact absurd (h m hm List.mem_cons_self) hrefused
        · obtain ⟨r, t', hrun, hall, hok⟩ := ih hnodup.2 hprogress hrest
          refine ⟨r, t', (toEff_rotateKeys_cons hrotate (by simpa using hpanic)).trans hrun, fun h => ?_, fun hr => ?_⟩
          · exact absurd (h m hm List.mem_cons_self) hrefused
          · obtain ⟨done', hprogress', hdone'⟩ := hok hr
            refine ⟨done', hprogress', fun m' hm' => ?_⟩
            rw [hdone' m' hm', List.mem_cons]
            by_cases hsame : m'.keyId = m.keyId
            · obtain rfl : m' = m := List.inj_on_of_nodup_map htabled.nodup hm' hm hsame
              simp [hrefused]
            · simp [hsame]

/-- The customer's active keys. -/
def activeKeyCount (keyMetadata : List KeyMetadata) (customerId : String) : ℕ :=
  keyMetadata.countP fun m => m.customerId = customerId ∧ m.status = .active

theorem activeKeyCount_eq {keyMetadata : List KeyMetadata} (h : ∀ m ∈ keyMetadata, m.status ≠ .rotating) (c : String) :
    activeKeyCount keyMetadata c = customerKeyCount keyMetadata c := by
  apply List.countP_congr
  intro m hm
  simp [h m hm]

/-- Every key that was active and expired has been replaced by one new key, and no customer has more or fewer
active keys than before. -/
structure Replaced (now : DateTime) (s t : Broker) : Prop where
  retired : ∀ m ∈ s.keyMetadata, ExpiredAt now m → (∃ m' ∈ t.keyMetadata, m'.keyId = m.keyId) ∧
    ∀ m' ∈ t.keyMetadata, m'.keyId = m.keyId → m'.status = .rotated
  succeeded : ∀ m ∈ s.keyMetadata, ExpiredAt now m → ∃! m', m' ∈ t.keyMetadata ∧ m'.status = .active ∧
    m'.algorithm = m.algorithm ∧ m'.customerId = m.customerId ∧ ("rotated_from", m.keyId) ∈ m'.metadata
  counted : ∀ c, activeKeyCount t.keyMetadata c = activeKeyCount s.keyMetadata c

theorem replaced_of_progress {draws : String → KeyPairDraws} {drawn : Set Uuid} {done : List String} {now : DateTime}
    (htabled : Tabled env drawn s) (hfresh : FreshDraws draws drawn s) (hprogress : Progress draws s done t)
    (hdone : ∀ m ∈ s.keyMetadata, ExpiredAt now m → m.keyId ∈ done) : Replaced now s t := by
  obtain ⟨successor, htable, hsuccessor⟩ := hprogress.table
  have horigin : ∀ m' ∈ t.keyMetadata, (∃ m₀ ∈ s.keyMetadata, m₀.keyId ∈ done ∧ m' = successor m₀.keyId) ∨
      ∃ m₀ ∈ s.keyMetadata, m' = marked done m₀ := by
    intro m' hm'
    rw [htable, List.mem_append, List.mem_map, List.mem_map] at hm'
    rcases hm' with ⟨keyId', hkeyId', rfl⟩ | ⟨m₀, hm₀, rfl⟩
    · obtain ⟨m₀, hm₀, rfl⟩ := hprogress.known keyId' hkeyId'
      exact Or.inl ⟨m₀, hm₀, hkeyId', rfl⟩
    · exact Or.inr ⟨m₀, hm₀, rfl⟩
  constructor
  · intro m hm hexpired
    constructor
    · refine ⟨marked done m, ?_, marked_keyId done m⟩
      rw [htable]
      exact List.mem_append_right _ (List.mem_map_of_mem hm)
    · intro m' hm' heq
      rcases horigin m' hm' with ⟨m₀, hm₀, hmem, rfl⟩ | ⟨m₀, hm₀, rfl⟩
      · rw [(hsuccessor m₀ hm₀ hmem).keyId] at heq
        exact absurd heq.symm (keyId_ne_drawn htabled hfresh hm hm₀)
      · rw [marked_keyId] at heq
        rw [marked_of_mem (heq ▸ hdone m hm hexpired)]
  · intro m hm hexpired
    have hnew := hsuccessor m hm (hdone m hm hexpired)
    refine ⟨successor m.keyId, ⟨?_, hnew.status, hnew.algorithm, hnew.customerId, ?_⟩, ?_⟩
    · rw [htable]
      exact List.mem_append_left _ (List.mem_map_of_mem (hdone m hm hexpired))
    · rw [hnew.metadata]
      exact List.mem_cons_self
    · rintro m' ⟨hm', -, -, -, hnote⟩
      rcases horigin m' hm' with ⟨m₀, hm₀, hmem, rfl⟩ | ⟨m₀, hm₀, rfl⟩
      · rw [(hsuccessor m₀ hm₀ hmem).metadata, List.mem_singleton, Prod.mk.injEq] at hnote
        rw [hnote.2]
      · have hunmarked : (marked done m₀).metadata = [] := by
          rw [marked]
          split_ifs
          · exact htabled.unmarked m₀ hm₀
          · exact htabled.unmarked m₀ hm₀
        rw [hunmarked] at hnote
        cases hnote
  · intro c
    rw [activeKeyCount_eq, activeKeyCount_eq, hprogress.counts c]
    · intro m hm
      rw [htabled.active m hm]
      decide
    · intro m' hm'
      rcases horigin m' hm' with ⟨m₀, hm₀, hmem, rfl⟩ | ⟨m₀, hm₀, rfl⟩
      · rw [(hsuccessor m₀ hm₀ hmem).status]
        decide
      · rw [marked]
        split_ifs
        · exact fun h => by cases h
        · rw [htabled.active m₀ hm₀]
          decide

theorem mem_expiredKeys {now : DateTime} {keyMetadata : List KeyMetadata} :
    keyId ∈ expiredKeys now keyMetadata ↔ ∃ m ∈ keyMetadata, ExpiredAt now m ∧ m.keyId = keyId := by
  simp [expiredKeys, and_assoc]

theorem Tabled.keyId_mem_expiredKeys {drawn : Set Uuid} (htabled : Tabled env drawn s) {now : DateTime} {m : KeyMetadata}
    (hm : m ∈ s.keyMetadata) : m.keyId ∈ expiredKeys now s.keyMetadata ↔ ExpiredAt now m := by
  rw [mem_expiredKeys]
  constructor
  · intro ⟨m', hm', hexpired, hsame⟩
    exact List.inj_on_of_nodup_map htabled.nodup hm' hm hsame ▸ hexpired
  · intro hexpired
    exact ⟨m, hm, hexpired, rfl⟩

/-- With its locks granted, the rotation is its loop over the keys that it finds expired. -/
theorem toEff_rotateExpiredKeys (env : Env) (draws : String → KeyPairDraws) (order : List String → List String)
    (now : DateTime) (s : Broker) : (rotateExpiredKeys env draws order now).toEff s =
      (rotateKeys env draws (order (expiredKeys now s.keyMetadata))).toEff s := by
  simp only [rotateExpiredKeys, Routine.toEff_bind, Routine.toEff_holding, Routine.toEff_look, Routine.toEff_pure,
    bind_assoc, pure_bind]
  rw [Eff.bind_of_ok (Eff.read_apply s)]

/-- On every table that generations have made, the rotation replaces every expired key exactly if no customer of
one is at the limit and the new keys can be made. -/
theorem rotateExpiredKeys_replaces_iff (env : Env) (calls : List GenerateCall)
    (hcalls : (calls.map (·.d.keyId)).Nodup) (draws : String → KeyPairDraws)
    (hfresh : FreshDraws draws {id | id ∈ calls.map (·.d.keyId)} (generated env Broker.empty calls))
    (order : List String → List String) (horder : ∀ l, (order l).Perm l) (now : DateTime) :
    (∃ t, (rotateExpiredKeys env draws order now).toEff (generated env Broker.empty calls) = (.ok (), t) ∧
        Replaced now (generated env Broker.empty calls) t) ↔
      ∀ m ∈ (generated env Broker.empty calls).keyMetadata, ExpiredAt now m →
        customerKeyCount (generated env Broker.empty calls).keyMetadata m.customerId <
          env.crypto.maxKeysPerCustomer.toNat ∧
        ∃ pair, newKeyPair env (draws m.keyId) m.algorithm = .ok pair := by
  have htabled := tabled_generated env calls hcalls
  generalize generated env Broker.empty calls = s at htabled hfresh ⊢
  have hmem : ∀ m ∈ s.keyMetadata, m.keyId ∈ order (expiredKeys now s.keyMetadata) ↔ ExpiredAt now m := fun m hm =>
    (horder _).mem_iff.trans (htabled.keyId_mem_expiredKeys hm)
  have hnodup : (order (expiredKeys now s.keyMetadata)).Nodup := by
    rw [(horder _).nodup_iff]
    exact htabled.nodup.sublist (List.filter_sublist.map _)
  have hknown : ∀ keyId ∈ order (expiredKeys now s.keyMetadata), keyId ∉ [] ∧ ∃ m ∈ s.keyMetadata, m.keyId = keyId := by
    intro keyId hkeyId
    obtain ⟨m, hm, -, rfl⟩ := mem_expiredKeys.mp ((horder _).mem_iff.mp hkeyId)
    exact ⟨List.not_mem_nil, m, hm, rfl⟩
  have hreplaceable : ∀ m ∈ s.keyMetadata, Replaceable env draws s m ↔
      customerKeyCount s.keyMetadata m.customerId < env.crypto.maxKeysPerCustomer.toNat ∧
        ∃ pair, newKeyPair env (draws m.keyId) m.algorithm = .ok pair := by
    intro m hm
    simp only [Replaceable, admitKeyPair_eq_ok, htabled.allowed m hm, true_and, exists_and_left]
  obtain ⟨r, t, hloop, hall, hok⟩ := rotateKeys_of_progress htabled hfresh hnodup (progress_refl draws s) hknown
  rw [toEff_rotateExpiredKeys, hloop]
  constructor
  · rintro ⟨_, hresult, hreplaced⟩ m hm hexpired
    cases hresult
    obtain ⟨done, hprogress, hdone⟩ := hok rfl
    rw [← hreplaceable m hm]
    -- a key that is not done is still there as it was
    by_contra hrefused
    have hnot : m.keyId ∉ done := fun h => hrefused (((hdone m hm).mp h).resolve_left List.not_mem_nil).2
    have hfound := find?_of_progress htabled hfresh hprogress hm hnot
    have hstatus := (hreplaced.retired m hm hexpired).2 m (List.mem_of_find?_eq_some hfound) rfl
    rw [hexpired.1] at hstatus
    cases hstatus
  · intro h
    have hevery : ∀ m ∈ s.keyMetadata, ExpiredAt now m → Replaceable env draws s m := fun m hm hexpired =>
      (hreplaceable m hm).mpr (h m hm hexpired)
    have hr := hall fun m hm hmem' => hevery m hm ((hmem m hm).mp hmem')
    obtain ⟨done, hprogress, hdone⟩ := hok hr
    refine ⟨t, by rw [hr], replaced_of_progress htabled hfresh hprogress fun m hm hexpired => ?_⟩
    exact (hdone m hm).mpr (Or.inr ⟨(hmem m hm).mpr hexpired, hevery m hm hexpired⟩)

/-- The generation of the one key. -/
def oneCall : GenerateCall := ⟨drawsOf (.filled 1), "dilithium5", "customer"⟩

theorem freshDraws_oneCall (limit : UInt32) : FreshDraws (fun _ => drawsOf (.filled 2))
    {id | id ∈ [oneCall].map (·.d.keyId)} (generated (rotatingEnv limit) Broker.empty [oneCall]) := by
  have hnew : Uuid.filled 2 ∉ [oneCall].map (·.d.keyId) := by decide
  have htabled := (tabled_generated (rotatingEnv limit) [oneCall] (by decide)).drawn
  refine ⟨fun _ _ => hnew, fun m hm m' hm' _ => ?_⟩
  obtain ⟨id, hid, hm⟩ := htabled m hm
  obtain ⟨id', hid', hm'⟩ := htabled m' hm'
  rw [hm, hm', List.mem_singleton.mp hid, List.mem_singleton.mp hid']

theorem rotateExpiredKeys_replaces_below_limit :
    (∃ m ∈ (generated (rotatingEnv 100) Broker.empty [oneCall]).keyMetadata, ExpiredAt twoDays m) ∧
    ∃ t, (rotateExpiredKeys (rotatingEnv 100) (fun _ => drawsOf (.filled 2)) id twoDays).toEff
        (generated (rotatingEnv 100) Broker.empty [oneCall]) = (.ok (), t) ∧
      Replaced twoDays (generated (rotatingEnv 100) Broker.empty [oneCall]) t := by
  refine ⟨by decide +kernel, (rotateExpiredKeys_replaces_iff (rotatingEnv 100) [oneCall] (by decide) _
    (freshDraws_oneCall 100) id List.Perm.refl twoDays).mpr ?_⟩
  intro m hm _
  have halgorithm : ∀ m ∈ (generated (rotatingEnv 100) Broker.empty [oneCall]).keyMetadata,
    m.algorithm = "dilithium5" := by
    decide +kernel
  have hcount : ∀ m ∈ (generated (rotatingEnv 100) Broker.empty [oneCall]).keyMetadata,
      customerKeyCount (generated (rotatingEnv 100) Broker.empty [oneCall]).keyMetadata m.customerId <
        (rotatingEnv 100).crypto.maxKeysPerCustomer.toNat := by
    decide +kernel
  rw [halgorithm m hm]
  exact ⟨hcount m hm, _, rfl⟩

/-- At the limit, the rotation returns and the expired key is active as before. -/
theorem rotateExpiredKeys_keeps_expired :
    (∃ m ∈ (generated (rotatingEnv 1) Broker.empty [oneCall]).keyMetadata, ExpiredAt twoDays m) ∧
    ((rotateExpiredKeys (rotatingEnv 1) (fun _ => drawsOf (.filled 2)) id twoDays).toEff
      (generated (rotatingEnv 1) Broker.empty [oneCall])).1 = .ok () ∧
    ∃ m ∈ ((rotateExpiredKeys (rotatingEnv 1) (fun _ => drawsOf (.filled 2)) id twoDays).toEff
      (generated (rotatingEnv 1) Broker.empty [oneCall])).2.keyMetadata, ExpiredAt twoDays m :=
  ⟨by decide +kernel, by decide +kernel, by decide +kernel⟩

end SecretBroker.KeyManager
