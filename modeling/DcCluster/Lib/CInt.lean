import Mathlib.Data.Int.Basic

/-!
Conversions of C between `size_t` and the 32-bit `int`, with values kept as
mathematical integers.
-/

namespace DcCluster.Lib

def intMax : Nat := 2147483647

/-- The `int` with the same low 32 bits; how a `size_t` is stored in an `int`. -/
def toInt (size : Nat) : Int :=
  if size % 4294967296 ≤ intMax then (size % 4294967296 : Nat)
  else (size % 4294967296 : Nat) - 4294967296

def wrapInt (value : Int) : Int := (value + 2147483648) % 4294967296 - 2147483648

/-- A result of arithmetic in the signed type with values from `-limit` to `limit - 1`;
none where the operation overflows. -/
def signedResult (limit : Nat) (value : Int) : Option Int :=
  if -limit ≤ value ∧ value < limit then some value else none

def intResult : Int → Option Int := signedResult 2147483648

def longLongResult : Int → Option Int := signedResult 9223372036854775808

def toSize (value : Int) : Nat := (value % 18446744073709551616).toNat

theorem signedResult_of_fits {limit : Nat} {value : Int} (low : -limit ≤ value)
    (high : value < limit) : signedResult limit value = some value :=
  if_pos ⟨low, high⟩

theorem eq_of_signedResult {limit : Nat} {value result : Int}
    (fits : signedResult limit value = some result) : result = value := by
  unfold signedResult at fits
  split at fits
  next => exact (Option.some.inj fits).symm
  next => cases fits

theorem toInt_of_fits {size : Nat} (fits : size ≤ intMax) : toInt size = size := by
  unfold toInt
  split <;> simp only [intMax] at * <;> omega

theorem toInt_le_of_pos {size : Nat} (positive : 0 < toInt size) : toInt size ≤ size := by
  unfold toInt at *
  split at positive
  next small =>
    rw [if_pos small]
    omega
  next => omega

theorem toInt_le_intMax (size : Nat) : toInt size ≤ intMax := by
  unfold toInt
  split <;> simp only [intMax] at * <;> omega

end DcCluster.Lib
