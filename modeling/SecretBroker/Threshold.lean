import SecretBroker.Scalar
import SecretBroker.LibEffect
import SecretBroker.LibInterpolation

/-! Verifiable secret sharing of a redeem token: `threshold::split` and `threshold::reconstruct` over
the P-256 scalar field, with commitments to the polynomial's coefficients. -/

open Wire

namespace SecretBroker

/-- The P-256 group as the code uses it. The generator generates it and has the order of the scalar
field, and the compressed encoding of a point, the identity included, decodes to that point. -/
structure Curve where
  Point : Type
  [group : AddCommGroup Point]
  [module : Module Scalar Point]
  [decEq : DecidableEq Point]
  generator : Point
  toBytes : Point → Block 33
  fromBytes : Block 33 → Option Point
  smul_generator : ∀ s : Scalar, s • generator = 0 → s = 0
  generates : ∀ p : Point, ∃ s : Scalar, s • generator = p
  fromBytes_toBytes : ∀ p, fromBytes (toBytes p) = some p

attribute [instance] Curve.group Curve.module Curve.decEq

theorem Curve.smul_generator_injective (curve : Curve) {s t : Scalar}
    (h : s • curve.generator = t • curve.generator) : s = t := by
  apply sub_eq_zero.mp
  apply curve.smul_generator
  rw [sub_smul, h, sub_self]

namespace Threshold

inductive ThresholdError where
  | invalidParams
  | insufficientShares (threshold : UInt8) (got : ℕ)
  | duplicateShares
  | invalidShareLength
  | invalidShareScalar
  | missingCommitments
  | invalidCommitmentCount (expected got : ℕ)
  | invalidCommitmentLength
  | invalidCommitmentEncoding
  | commitmentMismatch
  deriving DecidableEq, Repr

/-- The error's text. -/
def ThresholdError.message : ThresholdError → String
  | .invalidParams => "threshold must be >= 1 and <= num_shares"
  | .insufficientShares threshold got =>
      "insufficient shares: need " ++ toString threshold.toNat ++ ", got " ++ toString got
  | .duplicateShares => "duplicate share x-coordinate"
  | .invalidShareLength => "invalid share length"
  | .invalidShareScalar => "share is not a canonical P-256 scalar"
  | .missingCommitments => "missing threshold commitments"
  | .invalidCommitmentCount expected got =>
      "invalid commitment count: expected " ++ toString expected ++ ", got " ++ toString got
  | .invalidCommitmentLength => "invalid commitment length"
  | .invalidCommitmentEncoding => "invalid commitment encoding"
  | .commitmentMismatch => "share does not match commitments"

/-- A share: the evaluation point and the encoded value there. -/
structure Share where
  x : UInt8
  y : Bytes
  deriving DecidableEq, Repr

structure SplitResult where
  shares : List Share
  commitments : List Bytes
  deriving DecidableEq, Repr

def scalarFromX (x : UInt8) : Scalar := (x.toNat : Scalar)

def secretScalarFromBytes (secret : Block 32) : Scalar := Scalar.reduceBytes secret

def scalarToArray (value : Scalar) : Block 32 := value.toBytes

/-- Reduce arbitrary 32-byte material into the canonical scalar encoding. -/
def canonicalSecretBytes (secret : Block 32) : Block 32 := scalarToArray (secretScalarFromBytes secret)

/-- Horner evaluation from the last coefficient down to the constant one. -/
def evalPoly (coeffs : List Scalar) (x : Scalar) : Scalar :=
  coeffs.reverse.foldl (fun result coeff => result * x + coeff) 0

def shareScalar (share : Share) : Except ThresholdError Scalar :=
  if h : share.y.length = 32 then
    match Scalar.fromRepr ⟨share.y, h⟩ with
    | some y => .ok y
    | none => .error .invalidShareScalar
  else .error .invalidShareLength

def validateCommitments (commitments : List Bytes) (threshold : UInt8) :
    Except ThresholdError Unit := do
  Eff.rejectIf (commitments = []) .missingCommitments
  Eff.rejectIf (commitments.length ≠ threshold.toNat)
    (.invalidCommitmentCount threshold.toNat commitments.length)

/-- Whether two shares have the same evaluation point; each share is compared with those after it. -/
def duplicateX : List Share → Bool
  | [] => false
  | share :: rest => rest.any (fun other => share.x == other.x) || duplicateX rest

variable (curve : Curve)

def commitmentForScalar (coeff : Scalar) : Bytes := (curve.toBytes (coeff • curve.generator)).val

/-- `threshold::split`, with the coefficients drawn after the secret one. -/
def split (secret : Block 32) (threshold numShares : UInt8)
    (random : Fin (threshold.toNat - 1) → Scalar) : Except ThresholdError SplitResult :=
  if threshold < 1 ∨ threshold > numShares then .error .invalidParams
  else if numShares = 0 then .error .invalidParams
  else
    let coeffs := secretScalarFromBytes secret :: List.ofFn random
    let commitments := coeffs.map (commitmentForScalar curve)
    let shares := (List.range numShares.toNat).map fun i =>
      let x := UInt8.ofNat (i + 1)
      { x, y := (scalarToArray (evalPoly coeffs (scalarFromX x))).val : Share }
    .ok { shares, commitments }

def decodeCommitment (bytes : Bytes) : Except ThresholdError curve.Point :=
  if h : bytes.length = 33 then
    match curve.fromBytes ⟨bytes, h⟩ with
    | some p => .ok p
    | none => .error .invalidCommitmentEncoding
  else .error .invalidCommitmentLength

def verifyShareWithCommitments (share : Share) (commitments : List curve.Point) :
    Except ThresholdError Unit := do
  let y ← shareScalar share
  let x := scalarFromX share.x
  let rhs := (commitments.foldl
    (fun (state : curve.Point × Scalar) c => (state.1 + state.2 • c, state.2 * x)) (0, 1)).1
  Eff.rejectIf (y • curve.generator ≠ rhs) .commitmentMismatch

/-- The numerator and the denominator of the weight of the share at position `i`. -/
def weightParts (shares : List Share) (i : ℕ) (xi : Scalar) : Scalar × Scalar :=
  shares.zipIdx.foldl
    (fun (state : Scalar × Scalar) entry =>
      if i = entry.2 then state
      else
        let xj := scalarFromX entry.1.x
        (state.1 * xj, state.2 * (xj - xi)))
    (1, 1)

/-- One turn of the interpolation loop. -/
def addWeighted (shares : List Share) (secret : Scalar) (entry : (Share × Scalar) × ℕ) :
    Except ThresholdError Scalar :=
  let xi := scalarFromX entry.1.1.x
  let parts := weightParts shares entry.2 xi
  match Scalar.invert parts.2 with
  | some denominatorInv => .ok (secret + entry.1.2 * parts.1 * denominatorInv)
  | none => .error .duplicateShares

/-- `threshold::reconstruct`. -/
def reconstruct (shares : List Share) (threshold : UInt8) (commitments : List Bytes) :
    Except ThresholdError (Block 32) := do
  Eff.rejectIf (shares.length < threshold.toNat) (.insufficientShares threshold shares.length)
  validateCommitments commitments threshold
  Eff.rejectIf (duplicateX shares) .duplicateShares
  let decodedCommitments ← commitments.mapM (decodeCommitment curve)
  let shareScalars ← shares.mapM fun share => do
    verifyShareWithCommitments curve share decodedCommitments
    shareScalar share
  let secret ← (shares.zip shareScalars).zipIdx.foldlM (addWeighted shares) 0
  return scalarToArray secret

end Threshold

end SecretBroker
