import SecretBroker.LibBytes

/-! Logs that are kept as a file with one entry a line, and entries that are chained: each one carries the
hash of the entry before it. -/

namespace Log

open Wire

/-- The byte that ends a line. -/
def newline : UInt8 := 10

/-- A line without the carriage return that may stand before its end. -/
def stripReturn (line : Bytes) : Bytes := if line.getLast? = some 13 then line.dropLast else line

/-- The lines of a file, as `BufRead::lines` yields them: a last line without an end counts unless it is
empty. -/
def lines (file : Bytes) : List Bytes :=
  match file.splitOn newline with
  | [] => []
  | piece :: pieces => go piece pieces
where
  go (piece : Bytes) : List Bytes → List Bytes
    | [] => if piece = [] then [] else [piece]
    | next :: rest => stripReturn piece :: go next rest

/-- A file of ended lines. -/
def text (entries : List Bytes) : Bytes := entries.flatMap (· ++ [newline])

@[simp] theorem text_nil : text [] = [] := rfl

@[simp] theorem text_cons (entry : Bytes) (entries : List Bytes) :
    text (entry :: entries) = entry ++ newline :: text entries := by
  rw [text, List.flatMap_cons, List.append_assoc]
  rfl

theorem text_append (entries entries' : List Bytes) : text (entries ++ entries') = text entries ++ text entries' :=
  List.flatMap_append

@[simp] theorem lines_nil : lines [] = [] := rfl

/-- The first line of a file. -/
theorem lines_append {line : Bytes} (hline : newline ∉ line) (rest : Bytes) :
    lines (line ++ newline :: rest) = stripReturn line :: lines rest := by
  have hsplit : (line ++ newline :: rest).splitOn newline = line :: rest.splitOn newline := by
    apply List.splitOnP_append_cons_of_forall_mem
    · intro b hb
      rw [beq_eq_false_iff_ne]
      rintro rfl
      exact hline hb
    · exact beq_self_eq_true _
  rw [lines, hsplit]
  cases hrest : rest.splitOn newline with
  | nil => exact absurd hrest (List.splitOnP_ne_nil _ _)
  | cons piece pieces =>
      rw [lines, hrest]
      rfl

/-- The lines of a file that starts with ended lines. -/
theorem lines_text_append {entries : List Bytes} (hentries : ∀ line ∈ entries, newline ∉ line ∧ line.getLast? ≠ some 13)
    (tail : Bytes) : lines (text entries ++ tail) = entries ++ lines tail := by
  induction entries with
  | nil => rfl
  | cons line entries ih =>
      obtain ⟨hnewline, hreturn⟩ := hentries line List.mem_cons_self
      rw [text_cons, List.append_assoc, List.cons_append, lines_append hnewline,
        ih fun l hl => hentries l (List.mem_cons_of_mem _ hl), stripReturn, if_neg hreturn, List.cons_append]

/-- A line that was not ended. -/
theorem lines_of_unended {tail : Bytes} (hne : tail ≠ []) (htail : newline ∉ tail) : lines tail = [tail] := by
  have hsplit : tail.splitOn newline = [tail] := List.splitOn_eq_singleton htail
  rw [lines, hsplit]
  exact if_neg hne

/-- The entries of a log after one was appended. -/
theorem getElem?_concat_eq_some {α : Type} {entries : List α} {entry a : α} {k : ℕ} :
    (entries ++ [entry])[k]? = some a ↔ entries[k]? = some a ∨ k = entries.length ∧ a = entry := by
  rcases lt_trichotomy k entries.length with hlt | rfl | hgt
  · rw [List.getElem?_append_left hlt]
    simp [hlt.ne]
  · simp [eq_comm]
  · have hnone : (entries ++ [entry])[k]? = none := by
      rw [List.getElem?_eq_none_iff, List.length_append, List.length_singleton]
      omega
    simp [hnone, hgt.ne', hgt.le]

section

variable {ε η : Type} (hash prev : ε → η)

/-- The hash that the entry after `entries` has to carry. -/
def head (start : η) (entries : List ε) : η := entries.foldl (fun _ entry => hash entry) start

/-- Each entry carries the hash of the one before it, the first one `start`. -/
def Linked (start : η) : List ε → Prop
  | [] => True
  | entry :: entries => prev entry = start ∧ Linked (hash entry) entries

variable {hash prev}

@[simp] theorem head_nil (start : η) : head hash start [] = start := rfl

@[simp] theorem head_cons (start : η) (entry : ε) (entries : List ε) :
    head hash start (entry :: entries) = head hash (hash entry) entries := rfl

theorem head_append_singleton (start : η) (entries : List ε) (entry : ε) :
    head hash start (entries ++ [entry]) = hash entry := by
  rw [head, List.foldl_append]
  rfl

theorem linked_append {start : η} {entries entries' : List ε} :
    Linked hash prev start (entries ++ entries') ↔
      Linked hash prev start entries ∧ Linked hash prev (head hash start entries) entries' := by
  induction entries generalizing start with
  | nil => simp [Linked]
  | cons entry entries ih => simp only [List.cons_append, Linked, ih, head_cons, and_assoc]

/-- What holds of the start and of every hash holds of every hash that is carried. -/
theorem Linked.forall_prev {P : η → Prop} {start : η} {entries : List ε} (h : Linked hash prev start entries)
    (hstart : P start) (hhash : ∀ entry, P (hash entry)) : ∀ entry ∈ entries, P (prev entry) := by
  induction entries generalizing start with
  | nil => simp
  | cons entry entries ih =>
      rw [List.forall_mem_cons]
      exact ⟨h.1 ▸ hstart, ih h.2 (hhash entry)⟩

theorem linked_concat {start : η} {entries : List ε} {entry : ε} :
    Linked hash prev start (entries ++ [entry]) ↔
      Linked hash prev start entries ∧ prev entry = head hash start entries := by
  rw [linked_append]
  simp [Linked]

/-- A chain is determined by its head, if no entry of one has the hash of another entry of the other and none has
that of the start. -/
theorem eq_of_head_eq {start : η} {entries entries' : List ε} (h : Linked hash prev start entries)
    (h' : Linked hash prev start entries') (hinj : ∀ e ∈ entries, ∀ e' ∈ entries', hash e = hash e' → e = e')
    (hstart : ∀ e ∈ entries, hash e ≠ start) (hstart' : ∀ e ∈ entries', hash e ≠ start)
    (hhead : head hash start entries = head hash start entries') : entries = entries' := by
  induction entries using List.reverseRecOn generalizing entries' with
  | nil =>
      rcases List.eq_nil_or_concat' entries' with rfl | ⟨rest, e', rfl⟩
      · rfl
      · rw [head_nil, head_append_singleton] at hhead
        exact absurd hhead.symm (hstart' e' (by simp))
  | append_singleton rest e ih =>
      rcases List.eq_nil_or_concat' entries' with rfl | ⟨rest', e', rfl⟩
      · rw [head_nil, head_append_singleton] at hhead
        exact absurd hhead (hstart e (by simp))
      · rw [head_append_singleton, head_append_singleton] at hhead
        obtain rfl : e = e' := hinj e (by simp) e' (by simp) hhead
        obtain ⟨hrest, hprev⟩ := linked_concat.mp h
        obtain ⟨hrest', hprev'⟩ := linked_concat.mp h'
        -- the entry carries the head of what stands before it
        have hsame : rest = rest' := by
          apply ih hrest hrest'
          · exact fun a ha a' ha' => hinj a (by simp [ha]) a' (by simp [ha'])
          · exact fun a ha => hstart a (by simp [ha])
          · exact fun a ha => hstart' a (by simp [ha])
          · rw [← hprev, ← hprev']
        rw [hsame]

/-- The entries of those that were written. -/
def written (attempts : List (ε × Bool)) : List ε := (attempts.filter (·.2)).map (·.1)

@[simp] theorem written_nil : written ([] : List (ε × Bool)) = [] := rfl

@[simp] theorem written_cons_true (e : ε) (attempts : List (ε × Bool)) :
    written ((e, true) :: attempts) = e :: written attempts := rfl

@[simp] theorem written_cons_false (e : ε) (attempts : List (ε × Bool)) :
    written ((e, false) :: attempts) = written attempts := rfl

theorem written_eq_nil {attempts : List (ε × Bool)} (h : ∀ a ∈ attempts, a.2 = false) : written attempts = [] := by
  rw [written, List.filter_eq_nil_iff.mpr, List.map_nil]
  intro a ha
  rw [h a ha]
  decide

/-- No entry was written after one that was lost. -/
def NoGap (attempts : List (ε × Bool)) : Prop := attempts.Pairwise fun a b => b.2 = true → a.2 = true

theorem noGap_cons_true {e : ε} {attempts : List (ε × Bool)} : NoGap ((e, true) :: attempts) ↔ NoGap attempts := by
  simp [NoGap, List.pairwise_cons]

theorem noGap_cons_false {e : ε} {attempts : List (ε × Bool)} :
    NoGap ((e, false) :: attempts) ↔ ∀ a ∈ attempts, a.2 = false := by
  simp only [NoGap, List.pairwise_cons, Bool.false_eq_true, imp_false, Bool.not_eq_true]
  refine ⟨And.left, fun h => ⟨h, ?_⟩⟩
  apply List.pairwise_of_forall_mem_list
  intro a _ b hb hwritten
  rw [h b hb] at hwritten
  cases hwritten

/-- What was written is a chain if all was lost from some point on. -/
theorem linked_written {start : η} {attempts : List (ε × Bool)} (hlinked : Linked hash prev start (attempts.map (·.1)))
    (h : NoGap attempts) : Linked hash prev start (written attempts) := by
  induction attempts generalizing start with
  | nil => trivial
  | cons a attempts ih =>
      rcases a with ⟨e, _ | _⟩
      · rw [written_cons_false, written_eq_nil (noGap_cons_false.mp h)]
        trivial
      · exact ⟨hlinked.1, ih hlinked.2 (noGap_cons_true.mp h)⟩

/-- Nothing that was written carries a hash that no entry has. -/
theorem all_lost {start other : η} {attempts : List (ε × Bool)} (hlinked : Linked hash prev start (attempts.map (·.1)))
    (hother : other ∉ start :: attempts.map fun a => hash a.1) (h : Linked hash prev other (written attempts)) :
    ∀ a ∈ attempts, a.2 = false := by
  induction attempts generalizing start with
  | nil => simp
  | cons a attempts ih =>
      rcases a with ⟨e, _ | _⟩
      · rw [List.forall_mem_cons]
        exact ⟨rfl, ih hlinked.2 (List.not_mem_of_not_mem_cons hother) h⟩
      · have hprev : start = other := hlinked.1.symm.trans h.1
        exact absurd (hprev ▸ List.mem_cons_self) hother

/-- If all entries have different hashes, what was written is a chain only then. -/
theorem linked_written_iff {start : η} {attempts : List (ε × Bool)} (hlinked : Linked hash prev start (attempts.map (·.1)))
    (hnodup : (start :: attempts.map fun a => hash a.1).Nodup) :
    Linked hash prev start (written attempts) ↔ NoGap attempts := by
  refine ⟨fun h => ?_, linked_written hlinked⟩
  induction attempts generalizing start with
  | nil => exact List.Pairwise.nil
  | cons a attempts ih =>
      obtain ⟨hstart, hnodup⟩ := List.nodup_cons.mp hnodup
      rcases a with ⟨e, _ | _⟩
      · exact noGap_cons_false.mpr (all_lost hlinked.2 hstart h)
      · exact noGap_cons_true.mpr (ih hlinked.2 hnodup h.2)

end

end Log
