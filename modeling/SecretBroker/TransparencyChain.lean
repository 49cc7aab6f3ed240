import SecretBroker.ConcurrencyTransparency

/-! The log of calls of `record` that run one after the other: over restarts of the process, with calls that fail, and
after a crash in the middle of a write; and what the head of a chain says about the file. -/

open Wire

namespace SecretBroker

variable (sha256 : Bytes → Block 32) (json : LogJson)

/-- An entry with the number and the hash that the logger gives it. -/
def LogState.numbered (s : LogState) (entry : LogEntry) : LogEntry :=
  { entry with sequence := s.sequence, prevHash := s.prevHash }

/-- The file can be opened, so that the line gets into it. -/
def RecordCall.writes (call : RecordCall) : Bool :=
  match call.disk with
  | .failed _ => false
  | .ok | .unflushed _ => true

/-- What a call leaves: the number and the hash are those of its entry, whether that was written or not. -/
theorem record_snd (call : RecordCall) (s : LogState) :
    (record sha256 json call s).2 =
      { sequence := s.sequence + 1
        prevHash := entryHash sha256 json (s.numbered call.entry)
        file := s.file ++ if call.writes then asBytes (json.toString (s.numbered call.entry)) ++
          [Log.newline] else [] } := by
  have hnewline : asBytes "\n" = [Log.newline] := by decide
  cases hdisk : call.disk with
  | ok =>
      have hwrites : call.writes = true := by rw [RecordCall.writes, hdisk]
      rw [record, hdisk, hwrites, if_pos rfl, ← hnewline, ← List.append_assoc]
      rfl
  | failed message =>
      have hwrites : call.writes = false := by rw [RecordCall.writes, hdisk]
      rw [record, hdisk, hwrites, if_neg Bool.false_ne_true, List.append_nil]
      rfl
  | unflushed message =>
      have hwrites : call.writes = true := by rw [RecordCall.writes, hdisk]
      rw [record, hdisk, hwrites, if_pos rfl, ← hnewline, ← List.append_assoc]
      rfl

theorem record_prevHash (call : RecordCall) (s : LogState) :
    (record sha256 json call s).2.prevHash = entryHash sha256 json (s.numbered call.entry) := by
  rw [record_snd]

/-- The calls on one logger. The broker only logs a warning when a call fails, and goes on. -/
def recordAll (calls : List RecordCall) (s : LogState) : LogState :=
  calls.foldl (fun s call => (record sha256 json call s).2) s

/-- The entries that the calls make, with whether they are written. -/
def attempts : List RecordCall → LogState → List (LogEntry × Bool)
  | [], _ => []
  | call :: calls, s => (s.numbered call.entry, call.writes) :: attempts calls (record sha256 json call s).2

variable {sha256 json}

@[simp] theorem recordAll_nil (s : LogState) : recordAll sha256 json [] s = s := rfl

@[simp] theorem recordAll_cons (call : RecordCall) (calls : List RecordCall) (s : LogState) :
    recordAll sha256 json (call :: calls) s = recordAll sha256 json calls (record sha256 json call s).2 := rfl

theorem attempts_map_snd (calls : List RecordCall) (s : LogState) :
    (attempts sha256 json calls s).map Prod.snd = calls.map RecordCall.writes := by
  induction calls generalizing s with
  | nil => rfl
  | cons call calls ih => rw [attempts, List.map_cons, ih, List.map_cons]

variable (sha256 json) in
/-- The entries are a chain, also those that are not written. -/
theorem attempts_linked (calls : List RecordCall) (s : LogState) :
    Log.Linked (entryHash sha256 json) LogEntry.prevHash s.prevHash ((attempts sha256 json calls s).map (·.1)) := by
  induction calls generalizing s with
  | nil => trivial
  | cons call calls ih =>
      refine ⟨rfl, ?_⟩
      have hrest := ih (record sha256 json call s).2
      rwa [record_prevHash] at hrest

variable (sha256 json) in
/-- What is in the file are the entries that were written. -/
theorem recordAll_file (calls : List RecordCall) (s : LogState) :
    (recordAll sha256 json calls s).file = s.file ++ entriesText json (Log.written (attempts sha256 json calls s)) := by
  induction calls generalizing s with
  | nil => simp [attempts, entriesText]
  | cons call calls ih =>
      rw [recordAll_cons, ih, attempts]
      cases hwrites : call.writes with
      | false =>
          rw [Log.written_cons_false, record_snd, hwrites, if_neg Bool.false_ne_true, List.append_nil]
      | true =>
          rw [Log.written_cons_true, record_snd, hwrites, if_pos rfl, entriesText, entriesText, List.map_cons,
            Log.text_cons]
          simp

/-- The logger has written `entries`, numbered from zero, and nothing else. -/
structure LogState.Holds (sha256 : Bytes → Block 32) (json : LogJson) (s : LogState) (entries : List LogEntry) : Prop where
  sequence : s.sequence = UInt64.ofNat entries.length
  prevHash : s.prevHash = Log.head (entryHash sha256 json) genesisHash entries
  file : s.file = entriesText json entries
  linked : Log.Linked (entryHash sha256 json) LogEntry.prevHash genesisHash entries
  numbered : entries.map LogEntry.sequence = (List.range entries.length).map UInt64.ofNat

variable (sha256 json) in
theorem holds_start : logStart.Holds sha256 json [] := ⟨rfl, rfl, rfl, trivial, rfl⟩

variable {s : LogState} {entries : List LogEntry}

/-- A call that writes adds its entry. -/
theorem LogState.Holds.record (h : s.Holds sha256 json entries) (call : RecordCall) (hcall : call.writes = true) :
    (record sha256 json call s).2.Holds sha256 json (entries ++ [s.numbered call.entry]) where
  sequence := by
    rw [record_snd, List.length_append, List.length_singleton, UInt64.ofNat_add, ← h.sequence]
    rfl
  prevHash := by rw [record_snd, Log.head_append_singleton]
  file := by rw [record_snd, hcall, if_pos rfl, entriesText_append, ← h.file, List.append_assoc]
  linked := Log.linked_concat.mpr ⟨h.linked, h.prevHash⟩
  numbered := by
    rw [List.map_append, h.numbered, List.length_append, List.length_singleton, List.range_succ, List.map_append,
      List.map_singleton, List.map_singleton, ← h.sequence]
    rfl

theorem LogState.Holds.recordAll (h : s.Holds sha256 json entries) {calls : List RecordCall}
    (hcalls : ∀ call ∈ calls, call.writes = true) :
    ∃ entries', entries'.length = calls.length ∧
      (recordAll sha256 json calls s).Holds sha256 json (entries ++ entries') := by
  induction calls generalizing s entries with
  | nil => exact ⟨[], rfl, by rwa [List.append_nil]⟩
  | cons call calls ih =>
      obtain ⟨hcall, hcalls⟩ := List.forall_mem_cons.mp hcalls
      obtain ⟨entries', hlength, hrest⟩ := ih (h.record call hcall) hcalls
      refine ⟨s.numbered call.entry :: entries', by rw [List.length_cons, hlength, List.length_cons], ?_⟩
      rwa [List.append_assoc] at hrest

theorem LogState.Holds.verifyChain (hjson : json.Lawful) (h : s.Holds sha256 json entries) :
    verifyChain sha256 json s.file = .ok ⟨entries.length, s.prevHash⟩ := by
  rw [h.file, h.prevHash]
  exact (verifyChain_entriesText hjson).mpr ⟨h.linked, rfl⟩

theorem LogState.Holds.lineSequences (hjson : json.Lawful) (h : s.Holds sha256 json entries) :
    lineSequences json s.file = (List.range entries.length).map fun k => some (UInt64.ofNat k) := by
  have hsome : (entries.map LogEntry.sequence).map some = ((List.range entries.length).map UInt64.ofNat).map some := by
    rw [h.numbered]
  rw [List.map_map, List.map_map] at hsome
  rw [h.file, lineSequences_entriesText hjson]
  exact hsome

/-- The loop over entries ends with the last of them. -/
theorem recoverLines_entries (hjson : json.Lawful) (entries : List LogEntry) (lastSeq : UInt64) (lastLine : Option String)
    (rest : List (Option String)) :
    recoverLines json lastSeq lastLine ((entries.map fun e => some (json.toString e)) ++ rest) =
      recoverLines json ((entries.getLast?.map LogEntry.sequence).getD lastSeq)
        ((entries.getLast?.map json.toString).or lastLine) rest := by
  induction entries generalizing lastSeq lastLine with
  | nil => rfl
  | cons e entries ih =>
      obtain ⟨v, hv, hseq, -⟩ := hjson.fromStr_toString e
      have hnumber : v.sequence = some e.sequence := by
        rw [Value.sequence, hseq, Option.bind_some, Value.asU64_integer]
      rw [List.map_cons, List.cons_append, recoverLines, Eff.okOr_some, Eff.ok_bind, if_neg (trim_entry_ne hjson e), hv,
        Option.bind_some, hnumber, ih]
      cases hlast : entries.getLast? with
      | none => simp [List.getLast?_cons, hlast]
      | some e' => simp [List.getLast?_cons, hlast]

/-- A logger that is opened on the file has the number and the hash that the last one had. -/
theorem LogState.Holds.newLogger (hjson : json.Lawful) (h : s.Holds sha256 json entries) :
    newLogger sha256 json s.file = .ok s := by
  have hlines := recoverLines_entries hjson entries 0 none []
  rw [List.append_nil, ← fileLines_entriesText hjson, ← h.file] at hlines
  rcases List.eq_nil_or_concat' entries with rfl | ⟨before, last, rfl⟩
  · have hs : s = logStart := by
      obtain ⟨hsequence, hprevHash, hfile, -, -⟩ := h
      cases s
      cases hsequence
      cases hprevHash
      cases hfile
      rfl
    rw [hs]
    exact newLogger_nil _ _
  · have hnumber : last.sequence + 1 = s.sequence := by
      have hnumbered := h.numbered
      rw [List.map_append, List.length_append, List.length_singleton, List.range_succ, List.map_append] at hnumbered
      have hlast := (List.append_inj' hnumbered rfl).2
      rw [List.map_singleton, List.map_singleton, List.singleton_inj] at hlast
      rw [hlast, h.sequence, List.length_append, List.length_singleton, UInt64.ofNat_add]
      rfl
    rw [List.getLast?_concat] at hlines
    have hhash := h.prevHash
    rw [Log.head_append_singleton] at hhash
    simp only [SecretBroker.newLogger, recoverChainState, hlines, recoverLines, Eff.ok_bind, Option.map_some,
      Option.some_or, Option.getD_some, Option.isSome_some, or_true, if_true, hnumber]
    rw [← entryHash, ← hhash]
    rfl

/-- What happens to a log: an entry is recorded, or the process ends and a new one opens the file. -/
inductive LogAction where
  | record (entry : LogEntry)
  | restart

namespace LogAction

/-- The call that an action makes, with a file that can be written. -/
def call : LogAction → Option RecordCall
  | .record entry => some ⟨entry, .ok⟩
  | .restart => none

variable (sha256 json) in
def exec : LogAction → LogState → Except String LogState
  | .record entry, s => (SecretBroker.record sha256 json ⟨entry, .ok⟩ s).1.map fun _ =>
      (SecretBroker.record sha256 json ⟨entry, .ok⟩ s).2
  | .restart, s => newLogger sha256 json s.file

end LogAction

variable (sha256 json) in
/-- A log from the empty file on. -/
def runLog (actions : List LogAction) : Except String LogState := do
  let s ← newLogger sha256 json []
  actions.foldlM (fun s action => action.exec sha256 json s) s

/-- A restart changes nothing, so that only the calls count. -/
theorem LogState.Holds.foldlM (hjson : json.Lawful) (h : s.Holds sha256 json entries) (actions : List LogAction) :
    actions.foldlM (fun s action => action.exec sha256 json s) s =
      .ok (SecretBroker.recordAll sha256 json (actions.filterMap LogAction.call) s) := by
  induction actions generalizing s entries with
  | nil => rfl
  | cons action actions ih =>
      cases action with
      | record entry =>
          rw [List.foldlM_cons]
          exact ih (h.record ⟨entry, .ok⟩ rfl)
      | restart =>
          have hrestart : LogAction.restart.exec sha256 json s = .ok s := h.newLogger hjson
          rw [List.foldlM_cons, hrestart]
          exact ih h

theorem writes_of_mem_calls (actions : List LogAction) :
    ∀ call ∈ actions.filterMap LogAction.call, call.writes = true := by
  intro call hcall
  obtain ⟨action, -, haction⟩ := List.mem_filterMap.mp hcall
  cases action with
  | record entry =>
      cases haction
      rfl
  | restart => cases haction

variable (sha256) in
/-- **The chain survives restarts.** However the calls are interleaved with restarts, the logger ends as one that was
never restarted, file included; opening the file again gives the same number and hash; and the log verifies, with one
entry for each call, numbered from zero, and the logger's hash as its head. The numbers are those of a 64-bit counter. -/
theorem chain_survives_restarts (hjson : json.Lawful) (actions : List LogAction) :
    ∃ s, runLog sha256 json actions = .ok s ∧
      s = recordAll sha256 json (actions.filterMap LogAction.call) logStart ∧
      newLogger sha256 json s.file = .ok s ∧
      verifyChain sha256 json s.file = .ok ⟨(actions.filterMap LogAction.call).length, s.prevHash⟩ ∧
      lineSequences json s.file =
        (List.range (actions.filterMap LogAction.call).length).map fun k => some (UInt64.ofNat k) := by
  obtain ⟨entries, hlength, hholds⟩ := (holds_start sha256 json).recordAll (writes_of_mem_calls actions)
  rw [List.nil_append] at hholds
  refine ⟨_, (holds_start sha256 json).foldlM hjson actions, rfl, hholds.newLogger hjson, ?_, ?_⟩
  · rw [hholds.verifyChain hjson, hlength]
  · rw [hholds.lineSequences hjson, hlength]

theorem chain_survives_restarts_once :
    ∃ s, runLog onesHash plainJson [.record (plainEntry 0), .restart, .record (plainEntry 0)] = .ok s ∧
      newLogger onesHash plainJson s.file = .ok s ∧
      verifyChain onesHash plainJson s.file = .ok ⟨2, s.prevHash⟩ := by
  obtain ⟨s, hrun, -, hopen, hverify, -⟩ := chain_survives_restarts onesHash plainJson_lawful
    [.record (plainEntry 0), .restart, .record (plainEntry 0)]
  exact ⟨s, hrun, hopen, hverify⟩

/-- No call writes after one that could not open the file. -/
def NoLossBefore (calls : List RecordCall) : Prop := calls.Pairwise fun a b => b.writes = true → a.writes = true

theorem noGap_attempts {calls : List RecordCall} {s : LogState} :
    Log.NoGap (attempts sha256 json calls s) ↔ NoLossBefore calls :=
  calc Log.NoGap (attempts sha256 json calls s)
      ↔ ((attempts sha256 json calls s).map Prod.snd).Pairwise fun a b => b = true → a = true := by
        rw [Log.NoGap, List.pairwise_map]
    _ ↔ (calls.map RecordCall.writes).Pairwise fun a b => b = true → a = true := by rw [attempts_map_snd]
    _ ↔ NoLossBefore calls := by rw [NoLossBefore, List.pairwise_map]

theorem length_written_attempts (calls : List RecordCall) (s : LogState) :
    (Log.written (attempts sha256 json calls s)).length = (calls.filter RecordCall.writes).length := by
  induction calls generalizing s with
  | nil => rfl
  | cons call calls ih =>
      rw [attempts]
      cases hwrites : call.writes with
      | false => rw [Log.written_cons_false, ih, List.filter_cons_of_neg (by rw [hwrites]; decide)]
      | true => rw [Log.written_cons_true, List.length_cons, ih, List.filter_cons_of_pos hwrites, List.length_cons]

/-- The log verifies exactly if the entries that were written are a chain. -/
theorem verifyChain_recordAll (hjson : json.Lawful) (calls : List RecordCall) :
    (∃ headHash, verifyChain sha256 json (recordAll sha256 json calls logStart).file =
        .ok ⟨(calls.filter RecordCall.writes).length, headHash⟩) ↔
      Log.Linked (entryHash sha256 json) LogEntry.prevHash genesisHash
        (Log.written (attempts sha256 json calls logStart)) := by
  have hfile := recordAll_file sha256 json calls logStart
  rw [hfile, logStart, List.nil_append]
  constructor
  · rintro ⟨headHash, hverify⟩
    exact ((verifyChain_entriesText hjson).mp hverify).1
  · intro hlinked
    exact ⟨_, (verifyChain_entriesText hjson).mpr ⟨hlinked, by rw [← length_written_attempts]⟩⟩

/-- **A failed call breaks the chain unless nothing is written after it.** The number and the hash are advanced before the
file is opened. If no call writes after one that could not open the file, the log verifies with one entry for each call
that wrote; and if all the entries have different hashes, that is needed. -/
theorem failed_append_chain_iff (hjson : json.Lawful) (calls : List RecordCall) :
    (NoLossBefore calls → ∃ headHash, verifyChain sha256 json (recordAll sha256 json calls logStart).file =
      .ok ⟨(calls.filter RecordCall.writes).length, headHash⟩) ∧
    ((genesisHash :: (attempts sha256 json calls logStart).map fun a => entryHash sha256 json a.1).Nodup →
      (∃ headHash, verifyChain sha256 json (recordAll sha256 json calls logStart).file =
        .ok ⟨(calls.filter RecordCall.writes).length, headHash⟩) → NoLossBefore calls) := by
  have hlinked := attempts_linked sha256 json calls logStart
  rw [verifyChain_recordAll hjson]
  constructor
  · intro hcalls
    exact Log.linked_written hlinked (noGap_attempts.mpr hcalls)
  · intro hnodup hwritten
    exact noGap_attempts.mp ((Log.linked_written_iff hlinked hnodup).mp hwritten)

/-- Two calls of which only the first writes. -/
theorem failed_append_chain_iff_last : ∃ headHash, verifyChain onesHash plainJson
    (recordAll onesHash plainJson [⟨plainEntry 0, .ok⟩, ⟨plainEntry 0, .failed "no such file"⟩] logStart).file =
      .ok ⟨1, headHash⟩ :=
  (failed_append_chain_iff plainJson_lawful [⟨plainEntry 0, .ok⟩, ⟨plainEntry 0, .failed "no such file"⟩]).1
    (List.pairwise_pair.mpr fun _ => rfl)

/-- Two calls of which only the second writes: its entry carries the hash of a line that is not there. -/
theorem lost_append_breaks_chain : ¬ ∃ result, verifyChain onesHash plainJson
    (recordAll onesHash plainJson [⟨plainEntry 0, .failed "no such file"⟩, ⟨plainEntry 0, .ok⟩] logStart).file =
      .ok result := by
  rintro ⟨result, hresult⟩
  rw [recordAll_file, logStart, List.nil_append] at hresult
  obtain ⟨⟨hprev, -⟩, -⟩ := (verifyChain_entriesText plainJson_lawful).mp hresult
  exact absurd hprev (by decide)

/-! ### What the head says about the file -/

/-- The lines that are not blank; one that cannot be read counts among them. -/
def nonBlankLines (file : Bytes) : List (Option String) := (fileLines file).filter fun raw => raw.map trim ≠ some ""

variable (json) in
/-- The hash that a line carries. -/
def linePrev (line : String) : Option String := ((json.fromStr line).bind (·.get "prev_hash")).bind Value.asStr

theorem lineHash_eq_iff {line line' : String} :
    lineHash sha256 line = lineHash sha256 line' ↔ sha256 (asBytes line) = sha256 (asBytes line') := by
  rw [lineHash, lineHash, String.ofList_inj, Uuid.hexChars_injective.eq_iff, Subtype.ext_iff]

theorem lineHash_eq_genesisHash_iff {line : String} :
    lineHash sha256 line = genesisHash ↔ (sha256 (asBytes line)).val = List.replicate 32 0 := by
  have hgenesis : genesisHash = String.ofList (Uuid.hexChars (List.replicate 32 0)) := by decide
  rw [lineHash, hgenesis, String.ofList_inj, Uuid.hexChars_injective.eq_iff]

/-- What the loop of `verify_chain` accepts: all lines can be read, and those that are not blank are a chain. -/
theorem verifyLines_eq_ok {lineno count : ℕ} {expectedPrev : String} {raws : List (Option String)} {result : VerifyResult}
    (h : verifyLines sha256 json lineno expectedPrev count raws = .ok result) :
    ∃ lines : List String, (raws.filter fun raw => raw.map trim ≠ some "") = lines.map some ∧
      Log.Linked (fun line => some (lineHash sha256 line)) (linePrev json) (some expectedPrev) lines ∧
      some result.headHash = Log.head (fun line => some (lineHash sha256 line)) (some expectedPrev) lines := by
  induction raws generalizing lineno count expectedPrev with
  | nil =>
      cases h
      exact ⟨[], rfl, trivial, rfl⟩
  | cons raw raws ih =>
      obtain ⟨line, hline, hrest⟩ := Eff.except_bind_eq_ok.mp h
      rw [Eff.okOr_eq_ok] at hline
      subst hline
      by_cases hblank : trim line = ""
      · rw [if_pos hblank] at hrest
        obtain ⟨lines, hlines, hchain⟩ := ih hrest
        exact ⟨lines, by simpa [hblank] using hlines, hchain⟩
      · simp only [if_neg hblank, Eff.except_bind_eq_ok, Eff.okOr_eq_ok, Eff.rejectIf_eq_ok, not_not] at hrest
        obtain ⟨value, hvalue, prev, hprev, _, rfl, hrest⟩ := hrest
        obtain ⟨lines, hlines, hlinked, hhead⟩ := ih hrest
        refine ⟨line :: lines, by simpa [hblank] using hlines, ⟨?_, hlinked⟩, hhead⟩
        rw [linePrev, hvalue, Option.bind_some, hprev]

/-- Entries are not blank. -/
theorem filter_entries (hjson : json.Lawful) (entries : List LogEntry) :
    (entries.map fun e => some (json.toString e)).filter (fun raw => raw.map trim ≠ some "") =
      entries.map fun e => some (json.toString e) := by
  rw [List.filter_eq_self]
  intro raw hraw
  obtain ⟨e, -, rfl⟩ := List.mem_map.mp hraw
  simpa using trim_entry_ne hjson e

theorem nonBlankLines_entriesText (hjson : json.Lawful) (entries : List LogEntry) :
    nonBlankLines (entriesText json entries) = entries.map fun e => some (json.toString e) := by
  rw [nonBlankLines, fileLines_entriesText hjson, filter_entries hjson]

/-- The lines of a log with a blank one in it. -/
theorem fileLines_blank (hjson : json.Lawful) (entries later : List LogEntry) :
    fileLines (entriesText json entries ++ Log.newline :: entriesText json later) =
      (entries.map fun e => some (json.toString e)) ++ some "" :: later.map fun e => some (json.toString e) := by
  have hempty : fromUtf8 (Log.stripReturn []) = some "" := fromUtf8_asBytes ""
  have hlines : Log.lines (Log.newline :: entriesText json later) =
      Log.stripReturn [] :: Log.lines (entriesText json later) := Log.lines_append List.not_mem_nil _
  have hblank : fileLines (Log.newline :: entriesText json later) = some "" :: fileLines (entriesText json later) := by
    rw [fileLines, hlines, List.map_cons, hempty, ← fileLines]
  rw [fileLines_entriesText_append hjson, hblank, fileLines_entriesText hjson]

theorem nonBlankLines_blank (hjson : json.Lawful) (entries later : List LogEntry) :
    nonBlankLines (entriesText json entries ++ Log.newline :: entriesText json later) =
      (entries ++ later).map fun e => some (json.toString e) := by
  rw [nonBlankLines, fileLines_blank hjson, List.filter_append, List.filter_cons_of_neg (by decide), filter_entries hjson,
    filter_entries hjson, List.map_append]

/-- A hash that tells one line from all others. -/
def firstLineHash (b : Bytes) : Block 32 :=
  if b = asBytes (plainJson.toString (plainEntry 0)) then ⟨List.replicate 32 1, length_ones⟩
  else ⟨List.replicate 32 2, List.length_replicate⟩

def secondEntry : LogEntry := { plainEntry 1 with prevHash := entryHash firstLineHash plainJson (plainEntry 0) }

theorem plainJson_second_ne : plainJson.toString secondEntry ≠ plainJson.toString (plainEntry 0) := by
  intro heq
  obtain ⟨v, hv, hseq, -⟩ := plainJson_lawful.fromStr_toString secondEntry
  obtain ⟨v', hv', hseq', -⟩ := plainJson_lawful.fromStr_toString (plainEntry 0)
  rw [heq, hv'] at hv
  cases hv
  rw [hseq'] at hseq
  exact absurd (Value.integer.inj (Option.some.inj hseq)) (by decide)

theorem firstLineHash_first : (firstLineHash (asBytes (plainJson.toString (plainEntry 0)))).val = List.replicate 32 1 := by
  rw [firstLineHash, if_pos rfl]

theorem firstLineHash_second : (firstLineHash (asBytes (plainJson.toString secondEntry))).val = List.replicate 32 2 := by
  rw [firstLineHash, if_neg fun heq => plainJson_second_ne (asBytes_injective heq)]

theorem firstLineHash_ne : firstLineHash (asBytes (plainJson.toString (plainEntry 0))) ≠
    firstLineHash (asBytes (plainJson.toString secondEntry)) := by
  intro heq
  rw [← Subtype.coe_inj, firstLineHash_first, firstLineHash_second] at heq
  exact absurd heq (by decide)

/-- **The log is tamper-evident.** Two files that verify with the same head have the same lines apart from blank ones, if
no line of one has the digest of another line of the other and no digest is zero. -/
theorem tamper_evident {file file' : Bytes} {result result' : VerifyResult}
    (hverify : verifyChain sha256 json file = .ok result) (hverify' : verifyChain sha256 json file' = .ok result')
    (hinj : ∀ line line' : String, some line ∈ nonBlankLines file → some line' ∈ nonBlankLines file' →
      sha256 (asBytes line) = sha256 (asBytes line') → line = line')
    (hzero : ∀ line : String, some line ∈ nonBlankLines file ++ nonBlankLines file' →
      (sha256 (asBytes line)).val ≠ List.replicate 32 0)
    (hhead : result.headHash = result'.headHash) : nonBlankLines file = nonBlankLines file' := by
  obtain ⟨lines, hlines, hlinked, hlast⟩ := verifyLines_eq_ok hverify
  obtain ⟨lines', hlines', hlinked', hlast'⟩ := verifyLines_eq_ok hverify'
  rw [← nonBlankLines] at hlines hlines'
  rw [hlines, hlines'] at hinj hzero ⊢
  congr 1
  have hstart {line : String} (hline : some line ∈ lines.map some ++ lines'.map some) :
      some (lineHash sha256 line) ≠ some genesisHash := by
    rw [ne_eq, Option.some_inj, lineHash_eq_genesisHash_iff]
    exact hzero line hline
  apply Log.eq_of_head_eq hlinked hlinked'
  · intro line hline line' hline' heq
    rw [Option.some_inj, lineHash_eq_iff] at heq
    exact hinj line line' (List.mem_map_of_mem hline) (List.mem_map_of_mem hline') heq
  · intro line hline
    exact hstart (List.mem_append_left _ (List.mem_map_of_mem hline))
  · intro line hline
    exact hstart (List.mem_append_right _ (List.mem_map_of_mem hline))
  · rw [← hlast, ← hlast', hhead]

/-- A log of two entries with different digests, and the same with a blank line between them. -/
theorem tamper_evident_blank :
    firstLineHash (asBytes (plainJson.toString (plainEntry 0))) ≠ firstLineHash
      (asBytes (plainJson.toString secondEntry)) ∧
    (∃ result, verifyChain firstLineHash plainJson (entriesText plainJson [plainEntry 0, secondEntry]) = .ok result ∧
      verifyChain firstLineHash plainJson
        (entriesText plainJson [plainEntry 0] ++ Log.newline :: entriesText plainJson [secondEntry]) = .ok result) ∧
    nonBlankLines (entriesText plainJson [plainEntry 0, secondEntry]) =
      nonBlankLines (entriesText plainJson [plainEntry 0] ++ Log.newline :: entriesText plainJson [secondEntry]) := by
  have hverify : verifyChain firstLineHash plainJson (entriesText plainJson [plainEntry 0, secondEntry]) =
      .ok ⟨2, entryHash firstLineHash plainJson secondEntry⟩ :=
    (verifyChain_entriesText plainJson_lawful).mpr ⟨⟨rfl, rfl, trivial⟩, rfl⟩
  have hverify' : verifyChain firstLineHash plainJson
      (entriesText plainJson [plainEntry 0] ++ Log.newline :: entriesText plainJson [secondEntry]) =
        .ok ⟨2, entryHash firstLineHash plainJson secondEntry⟩ := by
    rw [verifyChain, fileLines_blank plainJson_lawful, List.map_singleton, List.singleton_append,
      verifyLines_entry plainJson_lawful, verifyLines, Eff.okOr_some, Eff.ok_bind, if_pos (by decide), List.map_singleton,
      verifyLines_entry plainJson_lawful]
    exact ⟨rfl, rfl, rfl⟩
  refine ⟨firstLineHash_ne, ⟨_, hverify, hverify'⟩, tamper_evident hverify hverify' ?_ ?_ rfl⟩
  · rw [nonBlankLines_entriesText plainJson_lawful, nonBlankLines_blank plainJson_lawful]
    intro line line' hline hline' heq
    simp only [List.cons_append, List.nil_append, List.map_cons, List.map_nil, List.mem_cons, Option.some.injEq,
      List.not_mem_nil, or_false] at hline hline'
    rcases hline with rfl | rfl
    · rcases hline' with rfl | rfl
      · rfl
      · exact absurd heq firstLineHash_ne
    · rcases hline' with rfl | rfl
      · exact absurd heq.symm firstLineHash_ne
      · rfl
  · rw [nonBlankLines_entriesText plainJson_lawful, nonBlankLines_blank plainJson_lawful]
    intro line hline
    obtain rfl | rfl : line = plainJson.toString (plainEntry 0) ∨ line = plainJson.toString secondEntry := by
      rcases List.mem_append.mp hline with hline | hline
      · simpa using hline
      · simpa using hline
    · exact firstLineHash_first ▸ by decide
    · exact firstLineHash_second ▸ by decide

variable (json) in
/-- The file after a crash in the last call: only the first `k` bytes of its entry, with the end of the line, are there. -/
def tornFile (s : LogState) (entry : LogEntry) (k : ℕ) : Bytes :=
  s.file ++ (asBytes (json.toString (s.numbered entry)) ++ [Log.newline]).take k

/-- A text that starts inside an entry and goes on with a whole one is not a document. -/
def LogJson.Whole (json : LogJson) : Prop :=
  ∀ (e e' : LogEntry) (part : String), part ≠ "" → asBytes part <+: asBytes (json.toString e) →
    json.fromStr (part ++ json.toString e') = none

/-- A log of `n` entries and one that may be there or not can be opened only if it goes on as a chain. -/
def Recovers (sha256 : Bytes → Block 32) (json : LogJson) (n : ℕ) (file : Bytes) : Prop :=
  ∀ s, newLogger sha256 json file = .ok s → ∀ further : List LogEntry, ∃ (total : ℕ) (headHash : String),
    (total = n ∨ total = n + 1) ∧
      verifyChain sha256 json (recordAll sha256 json (further.map (⟨·, .ok⟩)) s).file =
        .ok ⟨total + further.length, headHash⟩

theorem writes_of_mem_ok (entries : List LogEntry) :
    ∀ call ∈ entries.map (⟨·, .ok⟩ : LogEntry → RecordCall), call.writes = true := by
  simp [RecordCall.writes]

variable (sha256 json) in
/-- The logger after calls that all wrote. -/
def recorded (entries : List LogEntry) : LogState := recordAll sha256 json (entries.map (⟨·, .ok⟩)) logStart

variable (sha256 json) in
theorem recorded_holds (before : List LogEntry) : ∃ entries, entries.length = before.length ∧
    (recorded sha256 json before).Holds sha256 json entries := by
  obtain ⟨entries, hlength, hholds⟩ := (holds_start sha256 json).recordAll (writes_of_mem_ok before)
  exact ⟨entries, hlength.trans (List.length_map _), hholds⟩

/-- A log without failures can be opened and goes on as a chain. -/
theorem LogState.Holds.recovers (hjson : json.Lawful) (h : s.Holds sha256 json entries) {n : ℕ}
    (hn : entries.length = n ∨ entries.length = n + 1) :
    Recovers sha256 json n s.file := by
  intro t hopen further
  rw [h.newLogger hjson] at hopen
  cases hopen
  obtain ⟨entries', hlength, hholds⟩ := h.recordAll (writes_of_mem_ok further)
  have hverify := hholds.verifyChain hjson
  rw [List.length_append, hlength, List.length_map] at hverify
  exact ⟨entries.length, _, hn, hverify⟩

variable (json) in
theorem recoverLines_readable (lastSeq : UInt64) (lastLine : Option String) {raws : List (Option String)} :
    (∃ p, recoverLines json lastSeq lastLine raws = .ok p) ↔ none ∉ raws := by
  induction raws generalizing lastSeq lastLine with
  | nil => simp [recoverLines]
  | cons raw raws ih =>
      cases raw with
      | none => simp [recoverLines, Eff.okOr, Eff.except_bind_eq_ok]
      | some line =>
          rw [recoverLines, Eff.okOr_some, Eff.ok_bind]
          split_ifs
          · simp [ih]
          · simp [ih]

variable (sha256 json) in
/-- The log can be opened exactly if all its lines can be read. -/
theorem newLogger_readable {file : Bytes} : (∃ s, newLogger sha256 json file = .ok s) ↔ none ∉ fileLines file := by
  rw [← recoverLines_readable json 0 none]
  constructor
  · rintro ⟨s, hopen⟩
    obtain ⟨state, hstate, -⟩ := Eff.except_bind_eq_ok.mp hopen
    obtain ⟨p, hp, -⟩ := Eff.except_bind_eq_ok.mp hstate
    exact ⟨p, hp⟩
  · rintro ⟨p, hp⟩
    rw [newLogger, recoverChainState, hp]
    exact ⟨_, rfl⟩

theorem newLogger_file {file : Bytes} {s : LogState} (h : newLogger sha256 json file = .ok s) : s.file = file := by
  obtain ⟨state, -, hs⟩ := Eff.except_bind_eq_ok.mp h
  cases hs
  rfl

/-- A log with a line that does not parse does not verify. -/
theorem verifyChain_ne_ok {file : Bytes} (line : String) (hline : some line ∈ fileLines file) (hblank : trim line ≠ "")
    (hparse : json.fromStr line = none) (result : VerifyResult) : verifyChain sha256 json file ≠ .ok result := by
  intro hverify
  obtain ⟨lines, hlines, hlinked, -⟩ := verifyLines_eq_ok hverify
  have hmem : line ∈ lines := by
    have hfilter : some line ∈ (fileLines file).filter fun raw => raw.map trim ≠ some "" := by simp [hline, hblank]
    rw [hlines] at hfilter
    simpa using hfilter
  have hsome := hlinked.forall_prev (P := fun h => h.isSome = true) rfl (fun _ => rfl) line hmem
  rw [linePrev, hparse] at hsome
  cases hsome

/-- What is left of the last entry stands at the end of the file as a line of its own. -/
theorem fileLines_tornFile (hjson : json.Lawful) (h : s.Holds sha256 json entries) (entry : LogEntry) {k : ℕ}
    (hpos : k ≠ 0) (hk : k ≤ (asBytes (json.toString (s.numbered entry))).length) :
    fileLines (tornFile json s entry k) = (entries.map fun e => some (json.toString e)) ++
      [fromUtf8 ((asBytes (json.toString (s.numbered entry))).take k)] := by
  have hne : (asBytes (json.toString (s.numbered entry))).take k ≠ [] := by
    rw [← List.length_pos_iff, List.length_take_of_le hk]
    omega
  have hnewline : Log.newline ∉ (asBytes (json.toString (s.numbered entry))).take k :=
    fun hmem => hjson.noNewline _ (List.mem_of_mem_take hmem)
  rw [tornFile, List.take_append_of_le_length hk, h.file, fileLines_entriesText_append hjson, fileLines,
    Log.lines_of_unended hne hnewline, List.map_singleton]

/-- The next entry is written behind what is left of the last one, and the line that they make together is not a
document. -/
theorem torn_breaks (hjson : json.Lawful) (hwhole : json.Whole) (h : s.Holds sha256 json entries) {entry : LogEntry}
    {k : ℕ} (hpos : k ≠ 0) (hk : k ≤ (asBytes (json.toString (s.numbered entry))).length) {part : String}
    (hpart : fromUtf8 ((asBytes (json.toString (s.numbered entry))).take k) = some part) {t : LogState}
    (ht : t.file = tornFile json s entry k) (next : LogEntry) (result : VerifyResult) :
    verifyChain sha256 json (record sha256 json ⟨next, .ok⟩ t).2.file ≠ .ok result := by
  have hbytes : asBytes part = (asBytes (json.toString (s.numbered entry))).take k := asBytes_of_fromUtf8 hpart
  have hne : part ≠ "" := by
    rintro rfl
    have hlength := congrArg List.length hbytes
    rw [List.length_take_of_le hk] at hlength
    exact hpos hlength.symm
  have hfile : (record sha256 json ⟨next, .ok⟩ t).2.file =
      entriesText json entries ++ (asBytes (part ++ json.toString (t.numbered next)) ++ Log.newline :: []) := by
    rw [record_snd]
    show t.file ++ (asBytes (json.toString (t.numbered next)) ++ [Log.newline]) = _
    rw [ht, tornFile, List.take_append_of_le_length hk, ← hbytes, h.file, asBytes_append]
    simp
  have hnewline : Log.newline ∉ asBytes (part ++ json.toString (t.numbered next)) := by
    rw [asBytes_append, List.mem_append, hbytes]
    rintro (hmem | hmem)
    · exact hjson.noNewline _ (List.mem_of_mem_take hmem)
    · exact hjson.noNewline _ hmem
  have hreturn : (asBytes (part ++ json.toString (t.numbered next))).getLast? ≠ some 13 := by
    obtain ⟨body, hbody⟩ := hjson.braces (t.numbered next)
    rw [hbody, asBytes_append, asBytes_braced, ← List.cons_append, ← List.append_assoc, List.getLast?_concat]
    decide
  apply verifyChain_ne_ok (part ++ json.toString (t.numbered next))
  · rw [hfile, fileLines_entriesText_append hjson, fileLines, Log.lines_append hnewline, Log.stripReturn, if_neg hreturn,
      List.map_cons, fromUtf8_asBytes]
    exact List.mem_append_right _ List.mem_cons_self
  · exact trim_append_entry_ne hjson part _
  · exact hwhole _ _ _ hne (hbytes ▸ List.take_prefix _ _)

/-- **A torn write is recovered from only if nothing is left of it, or everything, or the file cannot be opened.**
The crash leaves the first `k` bytes of the last entry and the end of its line. What is left of the entry without the
end of the line is taken for an entry, and the next one is written behind it on the same line; unless the cut is
inside of a character, so that the file is refused. -/
theorem torn_write_recovers_iff (hjson : json.Lawful) (hwhole : json.Whole) (before : List LogEntry) (entry : LogEntry)
    (k : ℕ) :
    Recovers sha256 json before.length (tornFile json (recorded sha256 json before) entry k) ↔
      k = 0 ∨ (asBytes (json.toString ((recorded sha256 json before).numbered entry))).length < k ∨
        fromUtf8 ((asBytes (json.toString ((recorded sha256 json before).numbered entry))).take k) = none := by
  obtain ⟨entries, hlength, hholds⟩ := recorded_holds sha256 json before
  generalize recorded sha256 json before = s at hholds ⊢
  by_cases hpos : k = 0
  · refine iff_of_true ?_ (Or.inl hpos)
    rw [hpos, tornFile, List.take_zero, List.append_nil]
    exact hholds.recovers hjson (Or.inl hlength)
  by_cases hk : (asBytes (json.toString (s.numbered entry))).length < k
  · refine iff_of_true ?_ (Or.inr (Or.inl hk))
    have hall : tornFile json s entry k = (record sha256 json ⟨entry, .ok⟩ s).2.file := by
      rw [tornFile, List.take_of_length_le (by rw [List.length_append, List.length_singleton]; omega), record_snd]
      rfl
    rw [hall]
    apply (hholds.record ⟨entry, .ok⟩ rfl).recovers hjson
    rw [List.length_append, List.length_singleton, hlength]
    exact Or.inr rfl
  -- a part of the entry is left, as the last line
  have hlines := fileLines_tornFile hjson hholds entry hpos (not_lt.mp hk)
  simp only [hpos, hk, false_or]
  constructor
  · intro hrecovers
    by_contra hpart
    obtain ⟨part, hpart⟩ := Option.ne_none_iff_exists'.mp hpart
    have hreadable : none ∉ fileLines (tornFile json s entry k) := by
      rw [hlines, hpart]
      simp
    obtain ⟨t, hopen⟩ := (newLogger_readable sha256 json).mpr hreadable
    obtain ⟨total, headHash, -, hverify⟩ := hrecovers t hopen [entry]
    exact torn_breaks hjson hwhole hholds hpos (not_lt.mp hk) hpart (newLogger_file hopen) entry _ hverify
  · intro hpart t hopen
    have hreadable := (newLogger_readable sha256 json).mp ⟨t, hopen⟩
    rw [hlines, hpart] at hreadable
    simp at hreadable

/-- A stand-in for serde_json that accepts no brace inside of a document. -/
def strictJson : LogJson where
  toString := plainJson.toString
  fromStr line := if 123 ∈ (asBytes line).tail then none else plainJson.fromStr line

theorem strictJson_whole : strictJson.Whole := by
  intro e e' part hpart _
  obtain ⟨body, hbody⟩ := plainJson_lawful.braces e'
  apply if_pos
  cases hbytes : asBytes part with
  | nil =>
      have hempty := fromUtf8_asBytes part
      rw [hbytes] at hempty
      exact absurd (Option.some.inj (hempty.symm.trans (fromUtf8_asBytes ""))) hpart
  | cons b bytes =>
      show 123 ∈ (asBytes (part ++ plainJson.toString e')).tail
      rw [asBytes_append, hbytes, hbody, asBytes_braced]
      simp

theorem strictJson_lawful : strictJson.Lawful where
  braces := plainJson_lawful.braces
  noNewline := plainJson_lawful.noNewline
  fromStr_toString e := by
    obtain ⟨v, hv, hrest⟩ := plainJson_lawful.fromStr_toString e
    refine ⟨v, ?_, hrest⟩
    have halphabet := Base64.encodeChars_all (e := Base64.standard) (P := fun c => c.toNat ≠ 123) (by decide) (by decide)
    have hbody := ofNat_notMem_asBytes (n := 123) (by decide)
      (s := Base64.standard.encode (natLE 8 e.sequence.toNat ++ asBytes e.prevHash))
      (by rw [Base64.encode, String.toList_ofList]; exact halphabet _)
    have htail : 123 ∉ (asBytes (plainJson.toString e)).tail := by
      rw [plainJson, asBytes_braced, List.tail_cons, List.mem_append]
      rintro (hmem | hmem)
      · exact hbody hmem
      · exact absurd hmem (by decide)
    exact (if_neg htail).trans hv

/-- The first byte of an entry is a character. -/
theorem fromUtf8_take_one_entry (hjson : json.Lawful) (e : LogEntry) :
    fromUtf8 ((asBytes (json.toString e)).take 1) = some (String.singleton '{') := by
  obtain ⟨body, hbody⟩ := hjson.braces e
  have hopen : asBytes (String.singleton '{') = [123] := by decide
  rw [hbody, asBytes_braced, List.take_succ_cons, List.take_zero, ← hopen, fromUtf8_asBytes]

theorem one_le_length_entry (hjson : json.Lawful) (e : LogEntry) : 1 ≤ (asBytes (json.toString e)).length := by
  obtain ⟨body, hbody⟩ := hjson.braces e
  rw [hbody, asBytes_braced, List.length_cons]
  omega

/-- The second entry of a log is there as a whole, or only its first byte is. -/
theorem torn_write_recovers_iff_whole :
    Recovers onesHash strictJson 1 (tornFile strictJson (recorded onesHash strictJson [plainEntry 0]) (plainEntry 0)
      ((asBytes (strictJson.toString ((recorded onesHash strictJson [plainEntry 0]).numbered (plainEntry 0)))).length +
        1)) ∧ ¬ Recovers onesHash strictJson 1
      (tornFile strictJson (recorded onesHash strictJson [plainEntry 0]) (plainEntry 0) 1) := by
  have hiff := @torn_write_recovers_iff onesHash _ strictJson_lawful strictJson_whole [plainEntry 0] (plainEntry 0)
  refine ⟨(hiff _).mpr (Or.inr (Or.inl (Nat.lt_succ_self _))), fun hrecovers => ?_⟩
  rcases (hiff 1).mp hrecovers with hzero | hlength | hcut
  · cases hzero
  · exact absurd (one_le_length_entry strictJson_lawful _) (not_le.mpr hlength)
  · rw [fromUtf8_take_one_entry strictJson_lawful] at hcut
    cases hcut

/-- Only the first byte of the first entry was written: the log can be opened, but after the next call it does not
verify. -/
theorem torn_write_breaks_chain : ∃ t,
    newLogger onesHash strictJson (tornFile strictJson logStart (plainEntry 0) 1) = .ok t ∧
    ∀ result, verifyChain onesHash strictJson (record onesHash strictJson ⟨plainEntry 0, .ok⟩ t).2.file ≠ .ok result := by
  have hk := one_le_length_entry strictJson_lawful (logStart.numbered (plainEntry 0))
  have hpart := fromUtf8_take_one_entry strictJson_lawful (logStart.numbered (plainEntry 0))
  have hreadable : none ∉ fileLines (tornFile strictJson logStart (plainEntry 0) 1) := by
    rw [fileLines_tornFile strictJson_lawful (holds_start onesHash strictJson) _ one_ne_zero hk, hpart]
    simp
  obtain ⟨t, hnew⟩ := (newLogger_readable onesHash strictJson).mpr hreadable
  exact ⟨t, hnew, torn_breaks strictJson_lawful strictJson_whole (holds_start _ _) one_ne_zero hk hpart
    (newLogger_file hnew) _⟩

end SecretBroker
