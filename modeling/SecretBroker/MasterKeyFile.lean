import SecretBroker.LibBytes
import Mathlib.Data.List.Infix
import Mathlib.Logic.Function.Basic
import Mathlib.Logic.Relation

/-! The master key of the sealed store. It lives in a file that the first process to need it creates. A process
can be stopped at any point, and between any two of its accesses to the file other processes can come. All that
get a key get the same one; if the process that created the file is stopped while it writes, nobody gets a key
from then on. -/

open Wire

namespace SecretBroker

/-- How far `load_or_create_master_key` has come: before it asks whether the file is there, before it reads the
file, before it creates the file for the key it drew, and with a part of that key still to be written. -/
inductive KeyLoad where
  | checking
  | reading
  | creating (key : Block 32)
  | writing (key : Block 32) (rest : Bytes)
  | loaded (key : Block 32)
  | failed (message : String)
  | stopped

namespace KeyLoad

/-- The error about a file that is not a key. -/
def invalidLength (path : String) : String := "sealed store master key at " ++ path ++ " has invalid length"

/-- The error about a file that cannot be read. -/
def readFailed (path : String) : String := "failed to read sealed store master key from " ++ path

/-- The error about a file that cannot be created or written. -/
def writeFailed (path error : String) : String := "failed to write sealed store master key to " ++ path ++ ": " ++ error

/-- One access to the file at `path`, or the end of the process. A file that cannot be examined counts as missing. -/
inductive Step (path : String) : Option Bytes → KeyLoad → Option Bytes → KeyLoad → Prop
  | found {b : Bytes} : Step path (some b) .checking (some b) .reading
  | missing {file : Option Bytes} (key : Block 32) : Step path file .checking file (.creating key)
  | read {key : Block 32} : Step path (some key.val) .reading (some key.val) (.loaded key)
  | malformed {b : Bytes} (h : b.length ≠ 32) : Step path (some b) .reading (some b) (.failed (invalidLength path))
  | unreadable {file : Option Bytes} : Step path file .reading file (.failed (readFailed path))
  | create {key : Block 32} : Step path none (.creating key) (some []) (.writing key key.val)
  | taken {b : Bytes} {key : Block 32} : Step path (some b) (.creating key) (some b) .checking
  | cannotCreate {file : Option Bytes} {key : Block 32} (error : String) :
      Step path file (.creating key) file (.failed (writeFailed path error))
  -- `write_all` hands over a part of the key at a time
  | write {b chunk rest : Bytes} {key : Block 32} (h : chunk ≠ []) :
      Step path (some b) (.writing key (chunk ++ rest)) (some (b ++ chunk)) (.writing key rest)
  | cannotWrite {file : Option Bytes} {key : Block 32} {rest : Bytes} (error : String) :
      Step path file (.writing key rest) file (.failed (writeFailed path error))
  | sync {file : Option Bytes} {key : Block 32} : Step path file (.writing key []) file (.loaded key)
  | stop {file : Option Bytes} {load : KeyLoad} : Step path file load file .stopped

/-- What the file is to a process: the key that it has, or the part of it that it has written. -/
def Fits (file : Option Bytes) : KeyLoad → Prop
  | .writing key rest => ∃ b, file = some b ∧ b ++ rest = key.val
  | .loaded key => file = some key.val
  | _ => True

/-- Whether the process is the one that writes the file. -/
def Writes : KeyLoad → Prop
  | .writing _ _ => True
  | _ => False

variable {path : String} {file file' : Option Bytes} {load load' : KeyLoad}

/-- A step leaves the file alone, creates it, or adds to it what its process has still to write. -/
theorem Step.file_cases (h : Step path file load file' load') :
    file' = file ∨ (file = none ∧ file' = some []) ∨
      ∃ b chunk rest key, chunk ≠ [] ∧ file = some b ∧ file' = some (b ++ chunk) ∧
      load = .writing key (chunk ++ rest) := by
  cases h with
  | found => exact .inl rfl
  | missing => exact .inl rfl
  | read => exact .inl rfl
  | malformed => exact .inl rfl
  | unreadable => exact .inl rfl
  | create => exact .inr (.inl ⟨rfl, rfl⟩)
  | taken => exact .inl rfl
  | cannotCreate => exact .inl rfl
  | write hne => exact .inr (.inr ⟨_, _, _, _, hne, rfl, rfl, rfl⟩)
  | cannotWrite => exact .inl rfl
  | sync => exact .inl rfl
  | stop => exact .inl rfl

theorem Step.fits (h : Step path file load file' load') (hfits : load.Fits file) : load'.Fits file' := by
  cases h with
  | found => trivial
  | missing => trivial
  | read => rfl
  | malformed => trivial
  | unreadable => trivial
  | create => exact ⟨[], rfl, rfl⟩
  | taken => trivial
  | cannotCreate => trivial
  | write hne =>
      obtain ⟨b, hb, hkey⟩ := hfits
      cases hb
      exact ⟨_, rfl, by rwa [List.append_assoc]⟩
  | cannotWrite => trivial
  | sync =>
      obtain ⟨b, rfl, hkey⟩ := hfits
      rw [List.append_nil] at hkey
      exact congrArg some hkey
  | stop => trivial

/-- Only the process that creates the file begins to write. -/
theorem Step.writes (h : Step path file load file' load') (hwrites : load'.Writes) :
    load.Writes ∨ file = none := by
  cases h with
  | create => exact .inr rfl
  | write => exact .inl trivial
  | found => cases hwrites
  | missing => cases hwrites
  | read => cases hwrites
  | malformed => cases hwrites
  | unreadable => cases hwrites
  | taken => cases hwrites
  | cannotCreate => cases hwrites
  | cannotWrite => cases hwrites
  | sync => cases hwrites
  | stop => cases hwrites

/-- A file of a key's length stays as it is, as long as it fits the process that writes it. -/
theorem Step.file_of_complete (h : Step path file load file' load') (hfits : load.Fits file) {key : Block 32}
    (hfile : file = some key.val) : file' = some key.val := by
  rcases h.file_cases with rfl | ⟨hnone, -⟩ | ⟨b, chunk, rest, key', hne, hb, -, rfl⟩
  · exact hfile
  · rw [hnone] at hfile
    cases hfile
  · obtain ⟨b', hb', hkey⟩ := hfits
    -- the key in the file and the key to be written are of one length, so nothing is left to write
    rw [hfile] at hb'
    cases hb'
    have hlength := congrArg List.length hkey
    rw [List.length_append, List.length_append, key.property, key'.property] at hlength
    have hchunk : chunk.length = 0 := by omega
    exact absurd (List.length_eq_zero_iff.mp hchunk) hne

/-- A file that nobody writes to any more and that is not a key gives nobody a key. -/
theorem Step.loaded_cases (h : Step path file load file' load') {key : Block 32} (hloaded : load' = .loaded key) :
    load.Writes ∨ file = some key.val := by
  cases h with
  | read => cases hloaded; exact .inr rfl
  | sync => exact .inl trivial
  | found => cases hloaded
  | missing => cases hloaded
  | malformed => cases hloaded
  | unreadable => cases hloaded
  | create => cases hloaded
  | taken => cases hloaded
  | cannotCreate => cases hloaded
  | write => cases hloaded
  | cannotWrite => cases hloaded
  | stop => cases hloaded

end KeyLoad

/-- The file, and every process that ever asks for the key. -/
structure KeyFile (ι : Type) where
  file : Option Bytes
  load : ι → KeyLoad

namespace KeyFile

variable {ι : Type}

/-- Before any process has looked at the file. -/
def start (file : Option Bytes) : KeyFile ι := ⟨file, fun _ => .checking⟩

/-- One process takes a step. -/
inductive Step [DecidableEq ι] (path : String) : KeyFile ι → KeyFile ι → Prop
  | access {s : KeyFile ι} {file' : Option Bytes} {load' : KeyLoad} (i : ι)
      (h : KeyLoad.Step path s.file (s.load i) file' load') : Step path s ⟨file', Function.update s.load i load'⟩

abbrev Steps [DecidableEq ι] (path : String) : KeyFile ι → KeyFile ι → Prop := Relation.ReflTransGen (Step path)

/-- The file fits every process, and one process at most writes it. -/
structure Sound (s : KeyFile ι) : Prop where
  fits : ∀ i, (s.load i).Fits s.file
  one_writer : ∀ i j, (s.load i).Writes → (s.load j).Writes → i = j

theorem sound_start (file : Option Bytes) : (start file : KeyFile ι).Sound where
  fits _ := trivial
  one_writer _ _ h := h.elim

/-- There is a file while somebody writes it. -/
theorem file_ne_none_of_writes {file : Option Bytes} {load : KeyLoad} (hfits : load.Fits file) (hwrites : load.Writes) :
    file ≠ none := by
  cases load with
  | writing key rest =>
      obtain ⟨b, rfl, -⟩ := hfits
      exact Option.some_ne_none b
  | checking => cases hwrites
  | reading => cases hwrites
  | creating key => cases hwrites
  | loaded key => cases hwrites
  | failed message => cases hwrites
  | stopped => cases hwrites

variable {path : String} {s s' : KeyFile ι}

/-- The file still fits the processes that did not move. -/
theorem Sound.fits_of_ne (hs : s.Sound) {i j : ι} {file' : Option Bytes} {load' : KeyLoad}
    (h : KeyLoad.Step path s.file (s.load i) file' load') (hj : j ≠ i) : (s.load j).Fits file' := by
  have hfits := hs.fits j
  cases hload : s.load j with
  | loaded key =>
      rw [hload] at hfits
      exact h.file_of_complete (hs.fits i) hfits
  | writing key rest =>
      have hwrites : (s.load j).Writes := by
        rw [hload]
        trivial
      rcases h.file_cases with rfl | ⟨hnone, -⟩ | ⟨_, _, _, _, -, -, -, hi⟩
      · rwa [hload] at hfits
      · exact absurd hnone (file_ne_none_of_writes (hs.fits j) hwrites)
      · have hwrites' : (s.load i).Writes := by
          rw [hi]
          trivial
        exact absurd (hs.one_writer j i hwrites hwrites') hj
  | checking => trivial
  | reading => trivial
  | creating key => trivial
  | failed message => trivial
  | stopped => trivial

theorem Sound.file_of_loaded (hs : s.Sound) {i : ι} {key : Block 32} (h : s.load i = .loaded key) :
    s.file = some key.val := by
  have hfits := hs.fits i
  rwa [h] at hfits

variable [DecidableEq ι]

/-- Who writes after a step of process `i`. -/
theorem writes_update {load : ι → KeyLoad} {i j : ι} {load' : KeyLoad} (h : (Function.update load i load' j).Writes) :
    (j = i ∧ load'.Writes) ∨ (j ≠ i ∧ (load j).Writes) := by
  rcases eq_or_ne j i with rfl | hji
  · rw [Function.update_self] at h
    exact .inl ⟨rfl, h⟩
  · rw [Function.update_of_ne hji] at h
    exact .inr ⟨hji, h⟩

theorem Step.sound (h : Step path s s') (hs : s.Sound) : s'.Sound := by
  obtain ⟨i, hstep⟩ := h
  -- a process that begins to write found no file, so that nobody else was writing
  have halone : ∀ j, j ≠ i → (s.load j).Writes → ¬ _ := fun j hj hwrites hload' =>
    (hstep.writes hload').elim (fun hi => hj (hs.one_writer j i hwrites hi))
      (file_ne_none_of_writes (hs.fits j) hwrites)
  refine ⟨Function.forall_update_iff _ _ |>.mpr ⟨hstep.fits (hs.fits i), fun j hj => hs.fits_of_ne hstep hj⟩, ?_⟩
  intro j k hj hk
  rcases writes_update hj with ⟨rfl, hmoved⟩ | ⟨hji, hj'⟩
  · rcases writes_update hk with ⟨rfl, -⟩ | ⟨hkj, hk'⟩
    · rfl
    · exact (halone k hkj hk' hmoved).elim
  · rcases writes_update hk with ⟨rfl, hmoved⟩ | ⟨-, hk'⟩
    · exact (halone j hji hj' hmoved).elim
    · exact hs.one_writer j k hj' hk'

theorem Steps.sound (h : Steps path s s') (hs : s.Sound) : s'.Sound := by
  induction h with
  | refl => exact hs
  | tail _ hstep ih => exact hstep.sound ih

/-- A complete key stays in the file. -/
theorem Steps.file_of_complete (h : Steps path s s') (hs : s.Sound) {key : Block 32} (hfile : s.file = some key.val) :
    s'.file = some key.val := by
  induction h with
  | refl => exact hfile
  | tail hsteps hstep ih =>
      obtain ⟨i, h⟩ := hstep
      exact h.file_of_complete ((Steps.sound hsteps hs).fits i) ih

/-- Nobody has a key or writes one, and the file is not a key. -/
structure Torn (b : Bytes) (s : KeyFile ι) : Prop where
  file : s.file = some b
  idle : ∀ i, ¬ (s.load i).Writes
  unloaded : ∀ i key, s.load i ≠ .loaded key

theorem Step.torn (h : Step path s s') {b : Bytes} (hlength : b.length ≠ 32) (hs : Torn b s) : Torn b s' := by
  obtain ⟨i, h⟩ := h
  have hsome : s.file ≠ none := by
    rw [hs.file]
    exact Option.some_ne_none b
  refine ⟨?_, ?_, ?_⟩
  · rcases h.file_cases with rfl | ⟨hnone, -⟩ | ⟨_, _, _, _, -, -, -, hi⟩
    · exact hs.file
    · exact absurd hnone hsome
    · refine (hs.idle i ?_).elim
      rw [hi]
      trivial
  · refine Function.forall_update_iff _
      (fun _ (load : KeyLoad) => ¬ load.Writes) |>.mpr ⟨fun hwrites => ?_, fun j _ => hs.idle j⟩
    exact (h.writes hwrites).elim (hs.idle i) hsome
  · refine Function.forall_update_iff _ (fun _ (load : KeyLoad) => ∀ key, load ≠ .loaded key) |>.mpr
      ⟨fun key hkey => ?_, fun j _ => hs.unloaded j⟩
    rcases h.loaded_cases hkey with hwrites | hfile
    · exact hs.idle i hwrites
    · rw [hs.file] at hfile
      cases hfile
      exact hlength key.property

theorem Steps.torn (h : Steps path s s') {b : Bytes} (hlength : b.length ≠ 32) (hs : Torn b s) : Torn b s' := by
  induction h with
  | refl => exact hs
  | tail _ hstep ih => exact hstep.torn hlength ih

/-- **One master key.** In whatever order processes look for the key, create it, write it and are stopped, a key that one
of them has is the one that every other one ever has, and it stays in the file. If the file is left without a writer
before it has the length of a key, no process has a key, then or later. -/
theorem master_key_agreed {file : Option Bytes} (hs : Steps path (start file) s) (hs' : Steps path s s') :
    (∀ i j key key', s.load i = .loaded key → s'.load j = .loaded key' → key' = key ∧ s'.file = some key.val) ∧
      (∀ b, s.file = some b → b.length ≠ 32 → (∀ i, ¬ (s.load i).Writes) →
        s'.file = some b ∧ ∀ j key, s'.load j ≠ .loaded key) := by
  have hsound := Steps.sound hs (sound_start file)
  refine ⟨fun i j key key' hi hj => ?_, fun b hfile hlength hidle => ?_⟩
  · have hfile' := Steps.file_of_complete hs' hsound (hsound.file_of_loaded hi)
    have hkey' := (Steps.sound hs' hsound).file_of_loaded hj
    rw [hfile'] at hkey'
    exact ⟨Subtype.ext (Option.some.inj hkey').symm, hfile'⟩
  · have hunloaded : ∀ i key, s.load i ≠ .loaded key := by
      intro i key hi
      have hkey := hsound.file_of_loaded hi
      rw [hfile] at hkey
      cases hkey
      exact hlength key.property
    have htorn := Steps.torn hs' hlength ⟨hfile, hidle, hunloaded⟩
    exact ⟨htorn.file, htorn.unloaded⟩

/-- A key of one byte throughout. -/
def blankKey (b : UInt8) : Block 32 := ⟨List.replicate 32 b, List.length_replicate⟩

/-- A process that creates the file, and one that finds it complete. -/
theorem master_key_agreed_in_turn : ∃ (key : Block 32) (s s' : KeyFile Bool), Steps "sealed.db.master" (start none) s ∧
    Steps "sealed.db.master" s s' ∧ s.load false = .loaded key ∧ s'.load true = .loaded key ∧ s'.file = some key.val := by
  have hwrite : KeyLoad.Step "sealed.db.master" (some []) (.writing (blankKey 7) (blankKey 7).val)
      (some (blankKey 7).val) (.writing (blankKey 7) []) :=
    @KeyLoad.Step.write _ [] (blankKey 7).val [] (blankKey 7) (by decide)
  obtain ⟨s, hs, hfile, hloaded, hchecking⟩ : ∃ s : KeyFile Bool, Steps "sealed.db.master" (start none) s ∧
      s.file = some (blankKey 7).val ∧ s.load false = .loaded (blankKey 7) ∧ s.load true = .checking :=
    ⟨_, (((Relation.ReflTransGen.single (.access false (.missing (blankKey 7)))).tail (.access false .create)).tail
      (.access false hwrite)).tail (.access false .sync), rfl, rfl, rfl⟩
  have hfound : KeyLoad.Step "sealed.db.master" s.file (s.load true) (some (blankKey 7).val) .reading := by
    rw [hfile, hchecking]
    exact .found
  have hs' := (Relation.ReflTransGen.single (Step.access true hfound)).tail (.access true .read)
  exact ⟨blankKey 7, s, _, hs, hs', hloaded, rfl, ((master_key_agreed hs hs').1 false true _ _ hloaded rfl).2⟩

end KeyFile

end SecretBroker
