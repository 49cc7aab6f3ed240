import SecretBroker.LibBytes

/-! Messages with a free one-way function of a key and a message. A message is a sequence of symbols:
public bytes, atomic secrets, and outputs of the function, which are blocks that only equal inputs
share. What an attacker can build is the closure of what it knows. -/

namespace Symbolic

open Wire

/-- A symbol of a message over the secrets `α`. -/
inductive Sym (α : Type) where
  | byte (b : UInt8)
  | atom (a : α)
  | mac (key data : List (Sym α))

variable {α : Type}

noncomputable instance : DecidableEq (Sym α) := Classical.decEq _

/-- A message of public bytes. -/
def literal (b : Bytes) : List (Sym α) := b.map Sym.byte

@[simp] theorem length_literal (b : Bytes) : (literal b : List (Sym α)).length = b.length := List.length_map _

theorem literal_injective : Function.Injective (literal : Bytes → List (Sym α)) :=
  List.map_injective_iff.mpr fun _ _ h => Sym.byte.inj h

/-- The symbols that can be built from known ones. -/
inductive Derives (known : Sym α → Prop) : Sym α → Prop where
  | known {s : Sym α} (h : known s) : Derives known s
  | byte (b : UInt8) : Derives known (.byte b)
  | mac {key data : List (Sym α)} (hkey : ∀ s ∈ key, Derives known s)
      (hdata : ∀ s ∈ data, Derives known s) : Derives known (.mac key data)

variable {known : Sym α → Prop}

/-- A secret is derived only if it is known. -/
theorem derives_atom {a : α} (h : Derives known (.atom a)) : known (.atom a) := by
  cases h with
  | known h => exact h

/-- An output is known, or its key and its message are derived. -/
theorem derives_mac {key data : List (Sym α)} (h : Derives known (.mac key data)) :
    known (.mac key data) ∨ ∀ s ∈ key, Derives known s := by
  cases h with
  | known h => exact Or.inl h
  | mac hkey _ => exact Or.inr hkey

end Symbolic
