import SecretBroker.Broker
import SecretBroker.LibLog

/-! The transparency log: a file with one JSON document a line, each of which carries its number and the hash
of the line before it. -/

open Wire

namespace SecretBroker

namespace Value

/-- The number of an entry, if the document has one. -/
def sequence (value : Value) : Option UInt64 := (value.get "sequence").bind asU64

end Value

/-- An entry of the log with everything that is written. The handlers fill in the event; its number and the
hash are set when it is recorded. -/
structure LogEntry where
  sequence : UInt64
  prevHash : String
  event : TransparencyEvent

/-- A text between braces. -/
def braced (body : String) : String := String.singleton '{' ++ body ++ String.singleton '}'

theorem asBytes_braced (body : String) : asBytes (braced body) = 123 :: (asBytes body ++ [125]) := by
  have hopen : asBytes (String.singleton '{') = [123] := by decide
  have hclose : asBytes (String.singleton '}') = [125] := by decide
  rw [braced, asBytes_append, asBytes_append, hopen, hclose, List.append_assoc, List.singleton_append]

/-- The part of serde_json that the log uses: an entry as a compact document, and a text as a document. -/
structure LogJson where
  toString : LogEntry → String
  fromStr : String → Option Value

/-- An entry is an object without line breaks, from which its number and the hash can be read back. -/
structure LogJson.Lawful (json : LogJson) : Prop where
  braces : ∀ e, ∃ body, json.toString e = braced body
  noNewline : ∀ e, Log.newline ∉ asBytes (json.toString e)
  fromStr_toString : ∀ e, ∃ v, json.fromStr (json.toString e) = some v ∧
    v.get "sequence" = some (.integer e.sequence.toNat) ∧ v.get "prev_hash" = some (.string e.prevHash)

def genesisHash : String := "0000000000000000000000000000000000000000000000000000000000000000"

variable (sha256 : Bytes → Block 32) (json : LogJson)

/-- `hex::encode(Sha256::digest(line.as_bytes()))`. -/
def lineHash (line : String) : String := String.ofList (Uuid.hexChars (sha256 (asBytes line)).val)

def entryHash (e : LogEntry) : String := lineHash sha256 (json.toString e)

/-- A logger and the file it appends to. -/
structure LogState where
  sequence : UInt64
  prevHash : String
  file : Bytes

/-- A request to record an entry, and how its accesses to the file end. -/
structure RecordCall where
  entry : LogEntry
  disk : Disk

/-- `TransparencyLogger::record`. If the file cannot be opened, nothing is written. -/
def record (call : RecordCall) : Eff LogState String Unit := do
  let s ← Eff.read
  let seq := s.sequence
  Eff.modify fun s => { s with sequence := s.sequence + 1 }
  let s ← Eff.read
  let entry := { call.entry with sequence := seq, prevHash := s.prevHash }
  let line := json.toString entry
  Eff.modify fun s => { s with prevHash := lineHash sha256 line }
  match call.disk with
  | .failed message => Eff.fail message
  | .ok => Eff.modify fun s => { s with file := s.file ++ asBytes line ++ asBytes "\n" }
  | .unflushed message => do
      Eff.modify fun s => { s with file := s.file ++ asBytes line ++ asBytes "\n" }
      Eff.fail message

theorem record_sequence (call : RecordCall) (s : LogState) :
    (record sha256 json call s).2.sequence = s.sequence + 1 := by
  cases hdisk : call.disk with
  | _ =>
      rw [record, hdisk]
      rfl

/-- The lines of a file as texts; one that is not UTF-8 cannot be read. -/
def fileLines (file : Bytes) : List (Option String) := (Log.lines file).map fromUtf8

/-- The loop of `recover_chain_state`: the last number that was read and the last line. -/
def recoverLines : UInt64 → Option String → List (Option String) → Except String (UInt64 × Option String)
  | lastSeq, lastLine, [] => .ok (lastSeq, lastLine)
  | lastSeq, lastLine, raw :: rest => do
      let line ← Eff.okOr raw "reading transparency log line"
      if trim line = "" then recoverLines lastSeq lastLine rest
      else
        let seq := (json.fromStr line).bind Value.sequence
        recoverLines (seq.getD lastSeq) (some line) rest

/-- `TransparencyLogger::recover_chain_state`. After the largest number the sum wraps around, as in a release build;
a build with overflow checks would stop there. -/
def recoverChainState (file : Bytes) : Except String (UInt64 × String) := do
  let (lastSeq, lastLine) ← recoverLines json 0 none (fileLines file)
  let hash := (lastLine.map (lineHash sha256)).getD genesisHash
  let nextSeq := if lastSeq > 0 ∨ lastLine.isSome then lastSeq + 1 else 0
  return (nextSeq, hash)

/-- `TransparencyLogger::new` on a file that can be read. -/
def newLogger (file : Bytes) : Except String LogState := do
  let (seq, hash) ← recoverChainState sha256 json file
  return { sequence := seq, prevHash := hash, file }

structure VerifyResult where
  entries : ℕ
  headHash : String
  deriving DecidableEq, Repr

/-- The loop of `verify_chain`, with the number of the line, the hash expected next and the entries so far.
The hash of the last entry is always the one expected next. -/
def verifyLines : ℕ → String → ℕ → List (Option String) → Except String VerifyResult
  | _, expectedPrev, count, [] => .ok { entries := count, headHash := expectedPrev }
  | lineno, expectedPrev, count, raw :: rest => do
      let line ← Eff.okOr raw ("reading line " ++ toString lineno)
      if trim line = "" then verifyLines (lineno + 1) expectedPrev count rest
      else do
        let value ← Eff.okOr (json.fromStr line) ("parsing JSON at line " ++ toString lineno)
        let prev ← Eff.okOr ((value.get "prev_hash").bind Value.asStr)
          ("line " ++ toString lineno ++ ": missing prev_hash field")
        Eff.rejectIf (prev ≠ expectedPrev) ("chain broken at line " ++ toString lineno ++ " (sequence " ++
          toString (value.sequence.getD 0).toNat ++ "): expected prev_hash " ++
          expectedPrev ++ ", got " ++ prev)
        verifyLines (lineno + 1) (lineHash sha256 line) (count + 1) rest

def verifyChain (file : Bytes) : Except String VerifyResult :=
  verifyLines sha256 json 0 genesisHash 0 (fileLines file)

/-- The numbers of the lines in the order of the file. -/
def lineSequences (file : Bytes) : List (Option UInt64) :=
  (fileLines file).map fun raw => (raw.bind json.fromStr).bind Value.sequence

/-- The file that holds some entries. -/
def entriesText (entries : List LogEntry) : Bytes := Log.text (entries.map fun e => asBytes (json.toString e))

variable {sha256 json}

theorem entriesText_append (entries : List LogEntry) (e : LogEntry) :
    entriesText json (entries ++ [e]) = entriesText json entries ++ asBytes (json.toString e) ++ [Log.newline] := by
  rw [entriesText, List.map_append, Log.text_append, List.append_assoc]
  simp [entriesText]

/-- A line that ends with an entry is not taken for a blank one. -/
theorem trim_append_entry_ne (hjson : json.Lawful) (part : String) (e : LogEntry) :
    trim (part ++ json.toString e) ≠ "" := by
  obtain ⟨body, hbody⟩ := hjson.braces e
  have hbrace : '{' ∈ (part ++ json.toString e).toList := by simp [hbody, braced]
  intro hempty
  exact absurd (isWhiteSpace_of_trim_eq_empty hempty _ hbrace) (by decide)

theorem trim_entry_ne (hjson : json.Lawful) (e : LogEntry) : trim (json.toString e) ≠ "" := by
  have hne := trim_append_entry_ne hjson "" e
  rwa [String.empty_append] at hne

/-- An entry ends with a brace. -/
theorem getLast?_entry_ne (hjson : json.Lawful) (e : LogEntry) : (asBytes (json.toString e)).getLast? ≠ some 13 := by
  obtain ⟨body, hbody⟩ := hjson.braces e
  rw [hbody, asBytes_braced, ← List.cons_append, List.getLast?_concat]
  decide

/-- The lines of a file that starts with entries. -/
theorem fileLines_entriesText_append (hjson : json.Lawful) (entries : List LogEntry) (tail : Bytes) :
    fileLines (entriesText json entries ++ tail) = (entries.map fun e => some (json.toString e)) ++ fileLines tail := by
  rw [fileLines, entriesText, Log.lines_text_append]
  · simp [fileLines]
  · intro line hline
    obtain ⟨e, -, rfl⟩ := List.mem_map.mp hline
    exact ⟨hjson.noNewline e, getLast?_entry_ne hjson e⟩

/-- The lines of the file are the entries. -/
theorem fileLines_entriesText (hjson : json.Lawful) (entries : List LogEntry) :
    fileLines (entriesText json entries) = entries.map fun e => some (json.toString e) := by
  have hlines := fileLines_entriesText_append hjson entries []
  rw [List.append_nil] at hlines
  rw [hlines]
  exact List.append_nil _

/-- One step of the verification. -/
theorem verifyLines_entry (hjson : json.Lawful) {lineno count : ℕ} {expectedPrev : String} {e : LogEntry}
    {rest : List (Option String)} {result : VerifyResult} :
    verifyLines sha256 json lineno expectedPrev count (some (json.toString e) :: rest) = .ok result ↔
      e.prevHash = expectedPrev ∧
        verifyLines sha256 json (lineno + 1) (entryHash sha256 json e) (count + 1) rest = .ok result := by
  obtain ⟨v, hv, -, hprev⟩ := hjson.fromStr_toString e
  simp only [verifyLines, Eff.okOr_some, Eff.ok_bind, if_neg (trim_entry_ne hjson e), hv, hprev, Option.bind_some,
    Value.asStr, Eff.except_bind_eq_ok, Eff.rejectIf_eq_ok, not_not, exists_const, entryHash]

/-- The chain of a file of entries is accepted exactly if the entries are linked. -/
theorem verifyLines_entries (hjson : json.Lawful) {lineno count : ℕ} {expectedPrev : String} {entries : List LogEntry}
    {result : VerifyResult} :
    verifyLines sha256 json lineno expectedPrev count (entries.map fun e => some (json.toString e)) = .ok result ↔
      Log.Linked (entryHash sha256 json) LogEntry.prevHash expectedPrev entries ∧
        result = ⟨count + entries.length, Log.head (entryHash sha256 json) expectedPrev entries⟩ := by
  induction entries generalizing lineno count expectedPrev with
  | nil => simp [verifyLines, Log.Linked, eq_comm]
  | cons e entries ih =>
      rw [List.map_cons, verifyLines_entry hjson, ih, Log.Linked, Log.head_cons, List.length_cons, and_assoc,
        Nat.add_right_comm, Nat.add_assoc]

theorem verifyChain_entriesText (hjson : json.Lawful) {entries : List LogEntry} {result : VerifyResult} :
    verifyChain sha256 json (entriesText json entries) = .ok result ↔
      Log.Linked (entryHash sha256 json) LogEntry.prevHash genesisHash entries ∧
        result = ⟨entries.length, Log.head (entryHash sha256 json) genesisHash entries⟩ := by
  rw [verifyChain, fileLines_entriesText hjson, verifyLines_entries hjson, Nat.zero_add]

/-- The numbers that stand in the file are those of the entries. -/
theorem lineSequences_entriesText (hjson : json.Lawful) (entries : List LogEntry) :
    lineSequences json (entriesText json entries) = entries.map fun e => some e.sequence := by
  rw [lineSequences, fileLines_entriesText hjson, List.map_map]
  apply List.map_congr_left
  intro e _
  obtain ⟨v, hv, hseq, -⟩ := hjson.fromStr_toString e
  rw [Function.comp_apply, Option.bind_some, hv, Option.bind_some, Value.sequence, hseq, Option.bind_some,
    Value.asU64_integer]

/-- A stand-in for serde_json: the number and the hash of an entry between braces. -/
def plainJson : LogJson where
  toString e := braced (Base64.standard.encode (natLE 8 e.sequence.toNat ++ asBytes e.prevHash))
  fromStr line := do
    let (body, _) ← (stripHead (String.singleton '{') line).bind (splitOnce (String.singleton '}'))
    let (sequence, prevHash) ← (Base64.standard.decode body).bind (takeBytes 8)
    let prevHash ← fromUtf8 prevHash
    return .object [("sequence", .integer (ofLE sequence)), ("prev_hash", .string prevHash)]

theorem plainJson_lawful : plainJson.Lawful where
  braces e := ⟨_, rfl⟩
  noNewline e := by
    have halphabet := Base64.encodeChars_all (e := Base64.standard) (P := fun c => c.toNat ≠ 10) (by decide) (by decide)
    have hbody := ofNat_notMem_asBytes (n := 10) (by decide)
      (s := Base64.standard.encode (natLE 8 e.sequence.toNat ++ asBytes e.prevHash))
      (by rw [Base64.encode, String.toList_ofList]; exact halphabet _)
    have hnewline : Log.newline = UInt8.ofNat 10 := rfl
    rw [plainJson, asBytes_braced, List.mem_cons, List.mem_append, hnewline]
    rintro (h | h | h)
    · exact absurd h (by decide)
    · exact hbody h
    · exact absurd h (by decide)
  fromStr_toString e := by
    have halphabet := Base64.encodeChars_all (e := Base64.standard) (P := fun c => c ≠ '}') (by decide) (by decide)
    have hbody : '}' ∉ (Base64.standard.encode (natLE 8 e.sequence.toNat ++ asBytes e.prevHash)).toList := by
      rw [Base64.encode, String.toList_ofList]
      exact fun h => halphabet _ _ h rfl
    have hclose : (String.singleton '}').toList = ['}'] := rfl
    have hsplit := splitOnce_append hclose hbody ""
    rw [String.append_empty] at hsplit
    have hnumber : ofLE (natLE 8 e.sequence.toNat) = e.sequence.toNat := ofLE_natLE_of_lt e.sequence.toNat_lt
    refine ⟨.object [("sequence", .integer e.sequence.toNat), ("prev_hash", .string e.prevHash)], ?_, rfl, rfl⟩
    simp only [plainJson, braced, String.append_assoc, stripHead_append, Option.bind_eq_bind, Option.bind_some, hsplit,
      Base64.decode_encode Base64.standard_lawful, takeBytes_append (length_natLE _ _), fromUtf8_asBytes, hnumber,
      Option.pure_def]

end SecretBroker
