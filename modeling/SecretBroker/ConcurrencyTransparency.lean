import SecretBroker.LibInterleave
import SecretBroker.TransparencyLog

/-! Calls of `record` that run at the same time on one logger. The number, the hash of the line before and the
place in the file are taken in separate steps, so that the log is a chain only if the calls take each of them
in the same order. -/

open Wire

namespace SecretBroker

/-- How far a call of `record` has come, with what it holds. -/
inductive RecordPhase where
  | start
  | numbered (seq : UInt64)
  | chained (entry : LogEntry)
  | serialized (entry : LogEntry) (line : String)
  | published (entry : LogEntry) (line : String)
  | writing (entry : LogEntry) (line : String)
  | returned (result : Except String Unit)

namespace RecordPhase

/-- The number of a call that is in progress. -/
def number : RecordPhase → Option UInt64
  | .numbered seq => some seq
  | .chained e | .serialized e _ | .published e _ | .writing e _ => some e.sequence
  | .start | .returned _ => none

/-- The call has a number, and its hash has not been published. -/
def Unpublished : RecordPhase → Prop
  | .numbered _ | .chained _ | .serialized _ _ => True
  | _ => False

/-- The part of a line that stands at the end of the file without its end. -/
def tail : RecordPhase → Bytes
  | .writing _ line => asBytes line
  | _ => []

def Completed : RecordPhase → Prop
  | .returned _ => True
  | _ => False

end RecordPhase

variable (sha256 : Bytes → Block 32) (json : LogJson)

/-- One step of a call: `fetch_add`, the locked read of the hash, the serialization, the locked write of the
hash, and the two writes to the file. -/
def RecordCall.act (call : RecordCall) : RecordPhase → LogState → RecordPhase × LogState
  | .start, s => (.numbered s.sequence, { s with sequence := s.sequence + 1 })
  | .numbered seq, s => (.chained { call.entry with sequence := seq, prevHash := s.prevHash }, s)
  | .chained e, s => (.serialized e (json.toString e), s)
  | .serialized e line, s => (.published e line, { s with prevHash := lineHash sha256 line })
  | .published e line, s =>
      match call.disk with
      | .failed message => (.returned (.error message), s)
      | _ => (.writing e line, { s with file := s.file ++ asBytes line })
  | .writing _ _, s =>
      match call.disk with
      | .unflushed message => (.returned (.error message), { s with file := s.file ++ asBytes "\n" })
      | _ => (.returned (.ok ()), { s with file := s.file ++ asBytes "\n" })
  | .returned result, s => (.returned result, s)

section

variable {ι : Type} (calls : ι → RecordCall)

def recordAct (i : ι) : RecordPhase → LogState → RecordPhase × LogState := (calls i).act sha256 json

/-- A logger on an empty file. -/
def logStart : LogState := ⟨0, genesisHash, []⟩

theorem newLogger_nil : newLogger sha256 json [] = .ok logStart := rfl

def recordStart : Interleave.Config ι LogState RecordPhase := ⟨logStart, fun _ => .start⟩

/-- The steps that keep the order of the numbers: the hash is read when every call with a lower number has
published its own, and the file is written when every such call has returned. No number is drawn twice, and
the file can be opened. -/
def Orderly (c : Interleave.Config ι LogState RecordPhase) (i : ι) : Prop :=
  match c.phase i with
  | .start => c.shared.sequence.toNat + 1 < 18446744073709551616
  | .numbered seq => ∀ j n, (c.phase j).number = some n → n < seq → ¬ (c.phase j).Unpublished
  | .published e _ =>
      (∀ message, (calls i).disk ≠ .failed message) ∧ ∀ j n, (c.phase j).number = some n → ¬ n < e.sequence
  | _ => True

/-- What a call with number `k` is doing when `entries` have been published and `written` of them are in the
file. -/
def PhaseAt (entries : List LogEntry) (written k : ℕ) : RecordPhase → Prop
  | .start => False
  | .numbered seq => seq.toNat = k ∧ entries.length ≤ k
  | .chained e => e.sequence.toNat = k ∧ k = entries.length ∧
      e.prevHash = Log.head (entryHash sha256 json) genesisHash entries
  | .serialized e line => e.sequence.toNat = k ∧ k = entries.length ∧
      e.prevHash = Log.head (entryHash sha256 json) genesisHash entries ∧ line = json.toString e
  | .published e line => written ≤ k ∧ entries[k]? = some e ∧ line = json.toString e
  | .writing e line => k = written ∧ entries[k]? = some e ∧ line = json.toString e
  | .returned _ => k < written

/-- The line at the end of the file that has no end yet, if there is one. -/
def unended (phase : ι → RecordPhase) (queue : List ι) (written : ℕ) : Bytes :=
  (queue[written]?).elim [] fun i => (phase i).tail

/-- The calls stand in a queue in the order of their numbers, and everything is done in the order of the
queue. -/
structure InOrder (c : Interleave.Config ι LogState RecordPhase) (queue : List ι) (entries : List LogEntry)
    (written : ℕ) : Prop where
  nodup : queue.Nodup
  started : ∀ i, c.phase i ≠ .start ↔ i ∈ queue
  sequence : c.shared.sequence.toNat = queue.length
  phase : ∀ (k : ℕ) (i : ι), queue[k]? = some i → PhaseAt sha256 json entries written k (c.phase i)
  numbered : ∀ (k : ℕ) (e : LogEntry), entries[k]? = some e → e.sequence.toNat = k
  linked : Log.Linked (entryHash sha256 json) LogEntry.prevHash genesisHash entries
  prevHash : c.shared.prevHash = Log.head (entryHash sha256 json) genesisHash entries
  length_le : entries.length ≤ queue.length
  written_le : written ≤ entries.length
  file : c.shared.file = entriesText json (entries.take written) ++ unended c.phase queue written

variable {sha256 json calls}

theorem unended_of_some {phase : ι → RecordPhase} {queue : List ι} {written : ℕ} {i : ι} (h : queue[written]? = some i) :
    unended phase queue written = (phase i).tail := by
  rw [unended, h, Option.elim_some]

theorem unended_eq_nil {phase : ι → RecordPhase} {queue : List ι} {written : ℕ}
    (h : ∀ i, queue[written]? = some i → (phase i).tail = []) : unended phase queue written = [] := by
  cases hwritten : queue[written]? with
  | none => rw [unended, hwritten, Option.elim_none]
  | some i => rw [unended_of_some hwritten, h i hwritten]

theorem inOrder_start : InOrder sha256 json (recordStart (ι := ι)) [] [] 0 where
  nodup := List.nodup_nil
  started i := by simp [recordStart]
  sequence := rfl
  phase k i h := by simp at h
  numbered k e h := by simp at h
  linked := trivial
  prevHash := rfl
  length_le := le_rfl
  written_le := le_rfl
  file := rfl

variable {c : Interleave.Config ι LogState RecordPhase} {queue : List ι} {entries : List LogEntry} {written : ℕ}

/-- The number of a call that is in progress is its place in the queue. -/
theorem InOrder.number_eq (h : InOrder sha256 json c queue entries written) {k : ℕ} {i : ι} (hk : queue[k]? = some i) :
    (∃ n, (c.phase i).number = some n ∧ n.toNat = k) ∨ k < written := by
  have hphase := h.phase k i hk
  cases hp : c.phase i with
  | start =>
      rw [hp] at hphase
      exact hphase.elim
  | numbered seq =>
      rw [hp] at hphase
      exact Or.inl ⟨seq, rfl, hphase.1⟩
  | chained e =>
      rw [hp] at hphase
      exact Or.inl ⟨e.sequence, rfl, hphase.1⟩
  | serialized e line =>
      rw [hp] at hphase
      exact Or.inl ⟨e.sequence, rfl, hphase.1⟩
  | published e line =>
      rw [hp] at hphase
      exact Or.inl ⟨e.sequence, rfl, h.numbered k e hphase.2.1⟩
  | writing e line =>
      rw [hp] at hphase
      exact Or.inl ⟨e.sequence, rfl, h.numbered k e hphase.2.1⟩
  | returned result =>
      rw [hp] at hphase
      exact Or.inr hphase

/-- The first call that has no published entry is yet to publish it. -/
theorem InOrder.unpublished (h : InOrder sha256 json c queue entries written) {i : ι}
    (hi : queue[entries.length]? = some i) : (c.phase i).Unpublished := by
  have hphase := h.phase _ i hi
  have hnone : entries[entries.length]? = none := List.getElem?_eq_none le_rfl
  cases hp : c.phase i with
  | numbered seq => trivial
  | chained e => trivial
  | serialized e line => trivial
  | start =>
      rw [hp] at hphase
      exact hphase.elim
  | published e line =>
      rw [hp] at hphase
      exact absurd (hnone.symm.trans hphase.2.1) (by simp)
  | writing e line =>
      rw [hp] at hphase
      exact absurd (hnone.symm.trans hphase.2.1) (by simp)
  | returned result =>
      rw [hp] at hphase
      exact absurd hphase (not_lt.mpr h.written_le)

variable [DecidableEq ι]

/-- A call in the queue moves on; what the others are doing still fits. -/
theorem InOrder.move (h : InOrder sha256 json c queue entries written) {k : ℕ} {i : ι} (hk : queue[k]? = some i)
    {s : LogState} {p : RecordPhase} {entries' : List LogEntry} {written' : ℕ} (hsequence : s.sequence = c.shared.sequence)
    (hself : PhaseAt sha256 json entries' written' k p)
    (hother : ∀ j q, j ≠ k → PhaseAt sha256 json entries written j q → PhaseAt sha256 json entries' written' j q)
    (hnumbered : ∀ (j : ℕ) (e : LogEntry), entries'[j]? = some e → e.sequence.toNat = j)
    (hlinked : Log.Linked (entryHash sha256 json) LogEntry.prevHash genesisHash entries')
    (hprevHash : s.prevHash = Log.head (entryHash sha256 json) genesisHash entries')
    (hlength : entries'.length ≤ queue.length) (hwritten : written' ≤ entries'.length)
    (hfile : s.file = entriesText json (entries'.take written') ++ unended (Function.update c.phase i p) queue written') :
    InOrder sha256 json ⟨s, Function.update c.phase i p⟩ queue entries' written' where
  nodup := h.nodup
  started j := by
    by_cases hji : j = i
    · subst hji
      have hmem : j ∈ queue := List.mem_of_getElem? hk
      have hne : p ≠ .start := by
        rintro rfl
        exact hself
      simp only [Function.update_self]
      exact ⟨fun _ => hmem, fun _ => hne⟩
    · simp only [Function.update_of_ne hji]
      exact h.started j
  sequence := by
    rw [hsequence]
    exact h.sequence
  phase j i' hj := by
    by_cases hjk : j = k
    · subst hjk
      rw [hk] at hj
      cases hj
      simpa only [Function.update_self] using hself
    · have hne : i' ≠ i := by
        rintro rfl
        obtain ⟨hlt, -⟩ := List.getElem?_eq_some_iff.mp hj
        exact hjk ((List.getElem?_inj hlt h.nodup).mp (hj.trans hk.symm))
      simp only [Function.update_of_ne hne]
      exact hother j _ hjk (h.phase j i' hj)
  numbered := hnumbered
  linked := hlinked
  prevHash := hprevHash
  length_le := hlength
  written_le := hwritten
  file := hfile

/-- A step that writes no part of a line. -/
theorem unended_update {phase : ι → RecordPhase} {i : ι} {p : RecordPhase} (htail : p.tail = (phase i).tail)
    (queue : List ι) (written : ℕ) : unended (Function.update phase i p) queue written = unended phase queue written := by
  unfold unended
  congr 1
  funext j
  by_cases hji : j = i
  · rw [hji, Function.update_self, htail]
  · rw [Function.update_of_ne hji]

/-- A step that leaves the published entries and the file alone. -/
theorem InOrder.move_quiet (h : InOrder sha256 json c queue entries written) {k : ℕ} {i : ι} (hk : queue[k]? = some i)
    {p : RecordPhase} (hself : PhaseAt sha256 json entries written k p) (htail : p.tail = (c.phase i).tail) :
    InOrder sha256 json ⟨c.shared, Function.update c.phase i p⟩ queue entries written := by
  refine h.move hk rfl hself (fun _ _ _ hq => hq) h.numbered h.linked h.prevHash h.length_le h.written_le ?_
  rw [unended_update htail]
  exact h.file

/-- A call draws its number and joins the queue. -/
theorem InOrder.step_start (h : InOrder sha256 json c queue entries written) {i : ι} (hi : c.phase i = .start)
    (hmax : c.shared.sequence.toNat + 1 < 18446744073709551616) :
    InOrder sha256 json (c.step (recordAct sha256 json calls) i) (queue ++ [i]) entries written := by
  have hnew : i ∉ queue := fun hmem => (h.started i).mpr hmem hi
  have hnext : (c.shared.sequence + 1).toNat = queue.length + 1 := by
    rw [UInt64.toNat_add, ← h.sequence]
    exact Nat.mod_eq_of_lt hmax
  have hstep : c.step (recordAct sha256 json calls) i = ⟨{ c.shared with sequence := c.shared.sequence + 1 },
      Function.update c.phase i (.numbered c.shared.sequence)⟩ := by
    apply Interleave.Config.step_eq
    rw [recordAct, hi, RecordCall.act]
  have hkept : ∀ (k : ℕ) (j : ι), queue[k]? = some j →
    Function.update c.phase i (.numbered c.shared.sequence) j = c.phase j := by
    intro k j hj
    apply Function.update_of_ne
    rintro rfl
    exact hnew (List.mem_of_getElem? hj)
  rw [hstep]
  exact {
    nodup := by
      rw [List.nodup_append]
      refine ⟨h.nodup, List.nodup_singleton i, fun a ha b hb hab => ?_⟩
      rw [List.mem_singleton] at hb
      exact hnew (hb ▸ hab ▸ ha)
    started := fun j => by
      by_cases hji : j = i
      · subst hji
        simp
      · simp only [Function.update_of_ne hji, List.mem_append, List.mem_singleton, hji, or_false]
        exact h.started j
    sequence := by
      rw [List.length_append, List.length_singleton]
      exact hnext
    phase := fun k j hj => by
      rcases Log.getElem?_concat_eq_some.mp hj with hj | ⟨rfl, rfl⟩
      · simp only [hkept k j hj]
        exact h.phase k j hj
      · simp only [Function.update_self]
        exact ⟨h.sequence, h.length_le⟩
    numbered := h.numbered
    linked := h.linked
    prevHash := h.prevHash
    length_le := by
      rw [List.length_append]
      exact h.length_le.trans (Nat.le_add_right _ _)
    written_le := h.written_le
    file := by
      have hsame : unended (Function.update c.phase i (.numbered c.shared.sequence)) (queue ++ [i]) written =
          unended c.phase queue written := by
        cases hwritten : queue[written]? with
        | some j =>
            have hj : (queue ++ [i])[written]? = some j := Log.getElem?_concat_eq_some.mpr (Or.inl hwritten)
            rw [unended_of_some hj, unended_of_some hwritten, hkept written j hwritten]
        | none =>
            have hnone : unended c.phase queue written = [] := by rw [unended, hwritten, Option.elim_none]
            rw [hnone]
            apply unended_eq_nil
            intro j hj
            rcases Log.getElem?_concat_eq_some.mp hj with hj | ⟨-, rfl⟩
            · rw [hwritten] at hj
              cases hj
            · rw [Function.update_self]
              rfl
      rw [hsame]
      exact h.file }

/-- A call that reads the hash when the calls before it have published theirs gets the hash of the last
published entry. -/
theorem InOrder.step_numbered (h : InOrder sha256 json c queue entries written) {i : ι} {seq : UInt64}
    (hi : c.phase i = .numbered seq)
    (hbefore : ∀ j n, (c.phase j).number = some n → n < seq → ¬ (c.phase j).Unpublished) :
    InOrder sha256 json (c.step (recordAct sha256 json calls) i) queue entries written := by
  obtain ⟨k, hk⟩ := List.mem_iff_getElem?.mp ((h.started i).mp (by rw [hi]; exact RecordPhase.noConfusion))
  have hphase := h.phase k i hk
  rw [hi] at hphase
  obtain ⟨hseq, hle⟩ := hphase
  -- the first call in the queue that has not published its hash is this one
  have hfirst : k = entries.length := by
    by_contra hne
    have hlt : entries.length < k := lt_of_le_of_ne hle (Ne.symm hne)
    obtain ⟨hkq, -⟩ := List.getElem?_eq_some_iff.mp hk
    have hj : queue[entries.length]? = some queue[entries.length] := List.getElem?_eq_getElem (hlt.trans hkq)
    rcases h.number_eq hj with ⟨n, hn, hplace⟩ | hwritten
    · refine hbefore _ n hn ?_ (h.unpublished hj)
      rw [UInt64.lt_iff_toNat_lt, hplace, hseq]
      exact hlt
    · exact absurd hwritten (not_lt.mpr h.written_le)
  have hstep : c.step (recordAct sha256 json calls) i = ⟨c.shared, Function.update c.phase i
      (.chained { (calls i).entry with sequence := seq, prevHash := c.shared.prevHash })⟩ := by
    apply Interleave.Config.step_eq
    rw [recordAct, hi, RecordCall.act]
  rw [hstep]
  apply h.move_quiet hk
  · exact ⟨hseq, hfirst, h.prevHash⟩
  · rw [hi]
    rfl

theorem InOrder.step_chained (h : InOrder sha256 json c queue entries written) {i : ι} {e : LogEntry}
    (hi : c.phase i = .chained e) :
    InOrder sha256 json (c.step (recordAct sha256 json calls) i) queue entries written := by
  obtain ⟨k, hk⟩ := List.mem_iff_getElem?.mp ((h.started i).mp (by rw [hi]; exact RecordPhase.noConfusion))
  have hphase := h.phase k i hk
  rw [hi] at hphase
  obtain ⟨hseq, hlast, hprev⟩ := hphase
  have hstep : c.step (recordAct sha256 json calls) i =
      ⟨c.shared, Function.update c.phase i (.serialized e (json.toString e))⟩ := by
    apply Interleave.Config.step_eq
    rw [recordAct, hi, RecordCall.act]
  rw [hstep]
  apply h.move_quiet hk
  · exact ⟨hseq, hlast, hprev, rfl⟩
  · rw [hi]
    rfl

/-- A call publishes the hash of its line, and its entry is the next of the chain. -/
theorem InOrder.step_serialized (h : InOrder sha256 json c queue entries written) {i : ι} {e : LogEntry} {line : String}
    (hi : c.phase i = .serialized e line) :
    InOrder sha256 json (c.step (recordAct sha256 json calls) i) queue (entries ++ [e]) written := by
  obtain ⟨k, hk⟩ := List.mem_iff_getElem?.mp ((h.started i).mp (by rw [hi]; exact RecordPhase.noConfusion))
  have hphase := h.phase k i hk
  rw [hi] at hphase
  obtain ⟨hseq, rfl, hprev, rfl⟩ := hphase
  have hstep : c.step (recordAct sha256 json calls) i = ⟨{ c.shared with prevHash := entryHash sha256 json e },
      Function.update c.phase i (.published e (json.toString e))⟩ := by
    apply Interleave.Config.step_eq
    rw [recordAct, hi, RecordCall.act]
    rfl
  rw [hstep]
  obtain ⟨hlt, -⟩ := List.getElem?_eq_some_iff.mp hk
  refine h.move hk rfl ⟨h.written_le, ?_, rfl⟩ (fun j q hj hq => ?_) (fun j e' he' => ?_) ?_ ?_ ?_ ?_ ?_
  · exact Log.getElem?_concat_eq_some.mpr (Or.inr ⟨rfl, rfl⟩)
  · -- the other calls are before this one, or have not read the hash
    cases q with
    | start => exact hq
    | numbered seq =>
        refine ⟨hq.1, ?_⟩
        rw [List.length_append, List.length_singleton]
        exact lt_of_le_of_ne hq.2 (Ne.symm hj)
    | chained e' => exact absurd hq.2.1 hj
    | serialized e' line => exact absurd hq.2.1 hj
    | published e' line => exact ⟨hq.1, Log.getElem?_concat_eq_some.mpr (Or.inl hq.2.1), hq.2.2⟩
    | writing e' line => exact ⟨hq.1, Log.getElem?_concat_eq_some.mpr (Or.inl hq.2.1), hq.2.2⟩
    | returned result => exact hq
  · rcases Log.getElem?_concat_eq_some.mp he' with he' | ⟨rfl, rfl⟩
    · exact h.numbered j e' he'
    · exact hseq
  · exact Log.linked_append.mpr ⟨h.linked, hprev, trivial⟩
  · rw [Log.head_append_singleton]
  · rw [List.length_append, List.length_singleton]
    exact hlt
  · rw [List.length_append]
    exact h.written_le.trans (Nat.le_add_right _ _)
  · have htail : (RecordPhase.published e (json.toString e)).tail = (c.phase i).tail := by
      rw [hi]
      rfl
    rw [unended_update htail, List.take_append_of_le_length h.written_le]
    exact h.file

/-- A call that opens the file when the calls before it have returned writes the next line. -/
theorem InOrder.step_published (h : InOrder sha256 json c queue entries written) {i : ι} {e : LogEntry} {line : String}
    (hi : c.phase i = .published e line) (hdisk : ∀ message, (calls i).disk ≠ .failed message)
    (hbefore : ∀ j n, (c.phase j).number = some n → ¬ n < e.sequence) :
    InOrder sha256 json (c.step (recordAct sha256 json calls) i) queue entries written := by
  obtain ⟨k, hk⟩ := List.mem_iff_getElem?.mp ((h.started i).mp (by rw [hi]; exact RecordPhase.noConfusion))
  have hphase := h.phase k i hk
  rw [hi] at hphase
  obtain ⟨hle, he, rfl⟩ := hphase
  -- the first call in the queue that has not returned is this one
  have hfirst : k = written := by
    by_contra hne
    have hlt : written < k := lt_of_le_of_ne hle (Ne.symm hne)
    obtain ⟨hkq, -⟩ := List.getElem?_eq_some_iff.mp hk
    rcases h.number_eq (List.getElem?_eq_getElem (hlt.trans hkq)) with ⟨n, hn, hplace⟩ | hwritten
    · refine hbefore _ n hn ?_
      rw [UInt64.lt_iff_toNat_lt, hplace, h.numbered k e he]
      exact hlt
    · exact absurd hwritten (lt_irrefl _)
  subst hfirst
  have hstep : c.step (recordAct sha256 json calls) i =
      ⟨{ c.shared with file := c.shared.file ++ asBytes (json.toString e) },
        Function.update c.phase i (.writing e (json.toString e))⟩ := by
    apply Interleave.Config.step_eq
    rw [recordAct, hi, RecordCall.act]
    cases hd : (calls i).disk with
    | failed message => exact absurd hd (hdisk message)
    | ok => rfl
    | unflushed message => rfl
  rw [hstep]
  refine h.move hk rfl ⟨rfl, he, rfl⟩ (fun _ _ _ hq => hq) h.numbered h.linked h.prevHash h.length_le h.written_le ?_
  have hempty : unended c.phase queue k = [] := by
    rw [unended_of_some hk, hi]
    rfl
  have hfile := h.file
  rw [hempty, List.append_nil] at hfile
  rw [unended_of_some hk, Function.update_self, hfile]
  rfl

/-- A call ends its line. -/
theorem InOrder.step_writing (h : InOrder sha256 json c queue entries written) {i : ι} {e : LogEntry} {line : String}
    (hi : c.phase i = .writing e line) :
    InOrder sha256 json (c.step (recordAct sha256 json calls) i) queue entries (written + 1) := by
  obtain ⟨k, hk⟩ := List.mem_iff_getElem?.mp ((h.started i).mp (by rw [hi]; exact RecordPhase.noConfusion))
  have hphase := h.phase k i hk
  rw [hi] at hphase
  obtain ⟨rfl, he, rfl⟩ := hphase
  obtain ⟨hlt, -⟩ := List.getElem?_eq_some_iff.mp he
  obtain ⟨result, hstep⟩ : ∃ result, c.step (recordAct sha256 json calls) i =
      ⟨{ c.shared with file := c.shared.file ++ asBytes "\n" }, Function.update c.phase i (.returned result)⟩ := by
    cases hd : (calls i).disk with
    | unflushed message =>
        refine ⟨.error message, Interleave.Config.step_eq ?_⟩
        rw [recordAct, hi, RecordCall.act, hd]
    | ok =>
        refine ⟨.ok (), Interleave.Config.step_eq ?_⟩
        rw [recordAct, hi, RecordCall.act, hd]
    | failed message =>
        refine ⟨.ok (), Interleave.Config.step_eq ?_⟩
        rw [recordAct, hi, RecordCall.act, hd]
  rw [hstep]
  refine h.move hk rfl (Nat.lt_succ_self _) (fun j q hj hq => ?_) h.numbered h.linked h.prevHash h.length_le hlt ?_
  · cases q with
    | start => exact hq
    | numbered seq => exact hq
    | chained e' => exact hq
    | serialized e' line => exact hq
    | published e' line => exact ⟨lt_of_le_of_ne hq.1 (Ne.symm hj), hq.2⟩
    | writing e' line => exact absurd hq.1 hj
    | returned result => exact Nat.lt_succ_of_lt hq
  · have hended : unended (Function.update c.phase i (.returned result)) queue (k + 1) = [] := by
      apply unended_eq_nil
      intro j hj
      by_cases hji : j = i
      · rw [hji, Function.update_self]
        rfl
      · rw [Function.update_of_ne hji]
        have hphase := h.phase (k + 1) j hj
        cases hp : c.phase j with
        | writing e' line =>
            rw [hp] at hphase
            exact absurd hphase.1 (Nat.succ_ne_self k)
        | _ => rfl
    have hfile := h.file
    rw [unended_of_some hk, hi, RecordPhase.tail] at hfile
    have hnewline : asBytes "\n" = [Log.newline] := by decide
    rw [hended, List.append_nil, List.take_add_one, he, Option.toList_some, entriesText_append, hnewline, hfile]

/-- Every orderly step keeps the order. -/
theorem InOrder.step (h : InOrder sha256 json c queue entries written) {i : ι} (horderly : Orderly calls c i) :
    ∃ queue' entries' written', InOrder sha256 json (c.step (recordAct sha256 json calls) i) queue' entries' written' := by
  unfold Orderly at horderly
  cases hi : c.phase i with
  | start =>
      rw [hi] at horderly
      exact ⟨_, _, _, h.step_start hi horderly⟩
  | numbered seq =>
      rw [hi] at horderly
      exact ⟨_, _, _, h.step_numbered hi horderly⟩
  | chained e => exact ⟨_, _, _, h.step_chained hi⟩
  | serialized e line => exact ⟨_, _, _, h.step_serialized hi⟩
  | published e line =>
      rw [hi] at horderly
      exact ⟨_, _, _, h.step_published hi horderly.1 horderly.2⟩
  | writing e line => exact ⟨_, _, _, h.step_writing hi⟩
  | returned result =>
      have hstep : c.step (recordAct sha256 json calls) i = c := by
        rw [Interleave.Config.step_eq (p := .returned result) (s := c.shared)]
        · rw [← hi, Function.update_eq_self]
        · rw [recordAct, hi, RecordCall.act]
      rw [hstep]
      exact ⟨_, _, _, h⟩

/-- When every call has returned, all entries are in the file. -/
theorem InOrder.completed [Fintype ι] (h : InOrder sha256 json c queue entries written)
    (hcompleted : ∀ i, (c.phase i).Completed) :
    entries.length = Fintype.card ι ∧ c.shared.file = entriesText json entries := by
  have hall : ∀ i, i ∈ queue := by
    intro i
    refine (h.started i).mp fun hstart => ?_
    have hi := hcompleted i
    rw [hstart] at hi
    exact hi
  have hcard : queue.length = Fintype.card ι := by
    rw [← List.toFinset_card_of_nodup h.nodup, Finset.card_eq_iff_eq_univ]
    ext i
    simp [hall i]
  have hwritten : queue.length ≤ written := by
    by_contra hlt
    have hk : queue[written]? = some queue[written] := List.getElem?_eq_getElem (not_le.mp hlt)
    have hphase := h.phase _ _ hk
    have hreturned := hcompleted queue[written]
    generalize c.phase queue[written] = p at hphase hreturned
    cases p with
    | returned result => exact absurd hphase (lt_irrefl _)
    | _ => exact hreturned
  have hlength : entries.length = queue.length := le_antisymm h.length_le (hwritten.trans h.written_le)
  refine ⟨hlength.trans hcard, ?_⟩
  have hended : unended c.phase queue written = [] := by
    rw [unended, List.getElem?_eq_none hwritten, Option.elim_none]
  rw [h.file, hended, List.append_nil, List.take_of_length_le (hlength ▸ hwritten)]

/-! ### Calls in turn -/

/-- A call that runs alone does what `record` does. -/
theorem record_alone (c : Interleave.Config ι LogState RecordPhase) {i : ι} (hi : c.phase i = .start) :
    c.run (recordAct sha256 json calls) (List.replicate 6 i) =
      ⟨(record sha256 json (calls i) c.shared).2,
        Function.update c.phase i (.returned (record sha256 json (calls i) c.shared).1)⟩ := by
  cases hdisk : (calls i).disk with
  | _ =>
      simp only [List.replicate, Interleave.Config.run_cons, Interleave.Config.run_nil, Interleave.Config.step,
        recordAct, RecordCall.act, hi, Function.update_self, Function.update_idem, record, hdisk, List.append_assoc]
      rfl

/-- While no other call is in progress, every step is orderly. -/
theorem orderly_of_idle {i : ι} (hothers : ∀ j ≠ i, (c.phase j).number = none)
    (hstart : c.phase i = .start → c.shared.sequence.toNat + 1 < 18446744073709551616)
    (hdisk : ∀ message, (calls i).disk ≠ .failed message) : Orderly calls c i := by
  -- the only number in use is the call's own
  have hown : ∀ j n, (c.phase j).number = some n → (c.phase i).number = some n := by
    intro j n hn
    by_cases hj : j = i
    · rwa [hj] at hn
    · rw [hothers j hj] at hn
      cases hn
  unfold Orderly
  cases hphase : c.phase i with
  | start => exact hstart hphase
  | numbered seq =>
      intro j n hn hlt
      have := hown j n hn
      rw [hphase, RecordPhase.number, Option.some.injEq] at this
      exact absurd hlt (this ▸ UInt64.lt_irrefl _)
  | published e line =>
      refine ⟨hdisk, fun j n hn hlt => ?_⟩
      have := hown j n hn
      rw [hphase, RecordPhase.number, Option.some.injEq] at this
      exact absurd hlt (this ▸ UInt64.lt_irrefl _)
  | _ => trivial

/-- A call that runs while no other call is in progress takes only orderly steps. -/
theorem runMeets_of_idle {i : ι} (hdisk : ∀ message, (calls i).disk ≠ .failed message) (k : ℕ)
    (hothers : ∀ j ≠ i, (c.phase j).number = none)
    (hstart : c.phase i = .start → c.shared.sequence.toNat + 1 < 18446744073709551616) :
    c.RunMeets (recordAct sha256 json calls) (Orderly calls) (List.replicate k i) := by
  induction k generalizing c with
  | zero => trivial
  | succ k ih =>
      refine ⟨orderly_of_idle hothers hstart hdisk, ih ?_ ?_⟩
      · intro j hj
        rw [Interleave.Config.step_phase_of_ne c hj]
        exact hothers j hj
      · -- no step leads back to the start
        intro hback
        exfalso
        rw [Interleave.Config.step_phase_self, recordAct] at hback
        cases hphase : c.phase i with
        | published e line =>
            rw [hphase, RecordCall.act] at hback
            split at hback <;> cases hback
        | writing e line =>
            rw [hphase, RecordCall.act] at hback
            split at hback <;> cases hback
        | _ =>
            rw [hphase] at hback
            cases hback

/-- Calls that are made one after the other take only orderly steps. -/
theorem orderly_in_turn {order : List ι} (hdisk : ∀ i ∈ order, ∀ message, (calls i).disk ≠ .failed message)
    (hnodup : order.Nodup) (hstart : ∀ i ∈ order, c.phase i = .start) (hidle : ∀ j, (c.phase j).number = none)
    (hsequence : c.shared.sequence.toNat + order.length < 18446744073709551616) :
    c.RunMeets (recordAct sha256 json calls) (Orderly calls) (order.flatMap (List.replicate 6)) := by
  induction order generalizing c with
  | nil => trivial
  | cons i order ih =>
      obtain ⟨hi, hnodup⟩ := List.nodup_cons.mp hnodup
      rw [List.length_cons] at hsequence
      rw [List.flatMap_cons]
      refine (runMeets_of_idle (hdisk i List.mem_cons_self) 6 (fun j _ => hidle j) fun _ => by omega).append ?_
      rw [record_alone c (hstart i List.mem_cons_self)]
      refine ih (fun j hj => hdisk j (List.mem_cons_of_mem _ hj)) hnodup ?_ ?_ ?_
      · intro j hj
        have hne : j ≠ i := fun h => hi (h ▸ hj)
        exact (Function.update_of_ne hne ..).trans (hstart j (List.mem_cons_of_mem _ hj))
      · intro j
        show (Function.update c.phase i _ j).number = none
        by_cases hj : j = i
        · rw [hj, Function.update_self]
          rfl
        · rw [Function.update_of_ne hj]
          exact hidle j
      · have hnext : (c.shared.sequence + 1).toNat = c.shared.sequence.toNat + 1 := by
          rw [UInt64.toNat_add, UInt64.toNat_one, Nat.mod_eq_of_lt (by omega)]
        show (record sha256 json (calls i) c.shared).2.sequence.toNat + order.length < 18446744073709551616
        rw [record_sequence, hnext]
        omega

/-- **Orderly calls make a chain**: when calls of `record` have taken only steps that keep the order of their
numbers and all have returned, the log verifies with as many entries as calls, and its lines are numbered from
zero without a gap. -/
theorem chain_of_orderly [Fintype ι] (hjson : json.Lawful) (calls : ι → RecordCall) (schedule : List ι)
    (horderly : recordStart.RunMeets (recordAct sha256 json calls) (Orderly calls) schedule) :
    ∀ earlier, earlier <+: schedule →
      (∀ i, ((recordStart.run (recordAct sha256 json calls) earlier).phase i).Completed) →
      (∃ headHash, verifyChain sha256 json (recordStart.run (recordAct sha256 json calls) earlier).shared.file =
        .ok ⟨Fintype.card ι, headHash⟩) ∧
      lineSequences json (recordStart.run (recordAct sha256 json calls) earlier).shared.file =
        (List.range (Fintype.card ι)).map fun k => some (UInt64.ofNat k) := by
  rintro earlier ⟨later, rfl⟩ hcompleted
  obtain ⟨queue, entries, written, h⟩ := horderly.of_append.invariant
    (P := fun c => ∃ queue entries written, InOrder sha256 json c queue entries written)
    (fun c i ⟨_, _, _, h⟩ hi => h.step hi) ⟨[], [], 0, inOrder_start⟩
  obtain ⟨hlength, hfile⟩ := h.completed hcompleted
  rw [hfile]
  refine ⟨⟨_, (verifyChain_entriesText hjson).mpr ⟨h.linked, by rw [hlength]⟩⟩, ?_⟩
  rw [lineSequences_entriesText hjson, ← hlength]
  apply List.ext_getElem?
  intro k
  rw [List.getElem?_map, List.getElem?_map]
  cases hk : entries[k]? with
  | none =>
      rw [List.getElem?_eq_none (List.length_range.trans_le (List.getElem?_eq_none_iff.mp hk))]
      rfl
  | some e =>
      obtain ⟨hlt, -⟩ := List.getElem?_eq_some_iff.mp hk
      rw [List.getElem?_range hlt, Option.map_some, Option.map_some, ← h.numbered k e hk, UInt64.ofNat_toNat]

end

/-- Two calls, and a hash that is not the one the chain starts from. -/
def plainCalls : Fin 2 → RecordCall := fun _ =>
  ⟨⟨0, "", ⟨.wrap, none, none, none, "ok", ⟨0, 0⟩, none, none, none, none, none⟩⟩, .ok⟩

theorem length_ones : (List.replicate 32 (1 : UInt8)).length = 32 := List.length_replicate

def onesHash : Bytes → Block 32 := fun _ => ⟨List.replicate 32 1, length_ones⟩

theorem chain_of_orderly_in_turn :
    recordStart.RunMeets (recordAct onesHash plainJson plainCalls) (Orderly plainCalls)
      ([0, 1].flatMap (List.replicate 6)) ∧
    ∃ headHash, verifyChain onesHash plainJson
      (recordStart.run (recordAct onesHash plainJson plainCalls) ([0, 1].flatMap (List.replicate 6))).shared.file =
        .ok ⟨2, headHash⟩ := by
  have horderly : recordStart.RunMeets (recordAct onesHash plainJson plainCalls) (Orderly plainCalls)
      ([0, 1].flatMap (List.replicate 6)) :=
    orderly_in_turn (fun _ _ _ h => by cases h) (by decide) (fun _ _ => rfl) (fun _ => rfl) (by decide)
  have hcompleted : ∀ i, ((recordStart.run (recordAct onesHash plainJson plainCalls)
      ([0, 1].flatMap (List.replicate 6))).phase i).Completed := by
    intro i
    rw [List.flatMap_cons, List.flatMap_singleton, Interleave.Config.run_append, record_alone _ rfl, record_alone _ rfl]
    fin_cases i <;> trivial
  exact ⟨horderly, (chain_of_orderly plainJson_lawful plainCalls _ horderly _ List.prefix_rfl hcompleted).1⟩

/-- The entry of a call that has read the hash before the other one published its own. -/
def plainEntry (seq : UInt64) : LogEntry := { (plainCalls 0).entry with sequence := seq, prevHash := genesisHash }

/-- Both calls read the hash before either publishes its own. -/
def overlapping : List (Fin 2) := [0, 1, 0, 1, 0, 1, 0, 1, 0, 0, 1, 1]

/-- Two calls that both read the hash of the empty log leave a chain that is broken at the second line. -/
theorem concurrent_records_break_chain :
    (∀ i, ((recordStart.run (recordAct onesHash plainJson plainCalls) overlapping).phase i).Completed) ∧
    ∀ result, verifyChain onesHash plainJson
      (recordStart.run (recordAct onesHash plainJson plainCalls) overlapping).shared.file ≠ .ok result := by
  have hfile : (recordStart.run (recordAct onesHash plainJson plainCalls) overlapping).shared.file =
      [] ++ asBytes (plainJson.toString (plainEntry 0)) ++ asBytes "\n" ++ asBytes (plainJson.toString (plainEntry 1)) ++
        asBytes "\n" := rfl
  have hentries : (recordStart.run (recordAct onesHash plainJson plainCalls) overlapping).shared.file =
      entriesText plainJson [plainEntry 0, plainEntry 1] := by
    have hnewline : asBytes "\n" = [Log.newline] := by decide
    rw [hfile, hnewline, List.nil_append, entriesText, List.map_cons, List.map_singleton, Log.text_cons, Log.text_cons,
      Log.text_nil, List.append_assoc, List.append_assoc, List.singleton_append]
  constructor
  · intro i
    fin_cases i <;> trivial
  · intro result hresult
    rw [hentries] at hresult
    -- the second entry has the hash of the empty log, not that of the first entry
    obtain ⟨⟨-, hsecond, -⟩, -⟩ := (verifyChain_entriesText plainJson_lawful).mp hresult
    exact absurd hsecond (by decide)

end SecretBroker
