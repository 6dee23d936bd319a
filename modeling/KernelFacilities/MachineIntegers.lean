import Mathlib.Algebra.Ring.Int.Defs
import Mathlib.Algebra.Ring.Nat
import Mathlib.Tactic.Common

/-! Conversions between the fixed-width integers of a 64-bit C program, read off
as integers. Signed arithmetic wraps; a conversion keeps the residue. An error is a
negative int in the range that IS_ERR accepts, and a call that succeeds answers none. -/
namespace KernelFacilities.MachineIntegers

theorem wordOfSigned (x : Int64) : (x.toUInt64.toNat : Int) = x.toInt % 2 ^ 64 := by
  have same : x.toUInt64.toNat = x.toBitVec.toNat := by
    rw [← UInt64.toNat_toBitVec,Int64.toBitVec_toUInt64]
  have value : x.toInt = x.toBitVec.toInt := rfl
  rw [same,value,BitVec.toInt_eq_toNat_cond]
  have small := x.toBitVec.isLt
  split <;> omega

theorem unsignedOfInt (x : Int32) : (x.toUInt32.toNat : Int) = x.toInt % 2 ^ 32 := by
  have same : x.toUInt32.toNat = x.toBitVec.toNat := by
    rw [← UInt32.toNat_toBitVec,Int32.toBitVec_toUInt32]
  have value : x.toInt = x.toBitVec.toInt := rfl
  rw [same,value,BitVec.toInt_eq_toNat_cond]
  have small := x.toBitVec.isLt
  split <;> omega

theorem signedOfWord (x : UInt64) : x.toInt64.toInt = (x.toNat : Int).bmod (2 ^ 64) := by
  have value : x.toInt64.toInt = x.toInt64.toBitVec.toInt := rfl
  rw [value,UInt64.toBitVec_toInt64,BitVec.toInt_eq_toNat_bmod,UInt64.toNat_toBitVec]

theorem intOfUnsigned (x : UInt32) : x.toInt32.toInt = (x.toNat : Int).bmod (2 ^ 32) := by
  have value : x.toInt32.toInt = x.toInt32.toBitVec.toInt := rfl
  rw [value,UInt32.toBitVec_toInt32,BitVec.toInt_eq_toNat_bmod,UInt32.toNat_toBitVec]

theorem intOfSmallUnsigned {x : UInt32} (small : x.toNat ≤ 2147483647) : x.toInt32.toInt = x.toNat := by
  rw [intOfUnsigned]
  exact Int.bmod_eq_of_le (by omega) (by omega)

theorem signedOfSmallWord {x : UInt64} (small : x.toNat < 2 ^ 63) : x.toInt64.toInt = x.toNat := by
  rw [signedOfWord]
  exact Int.bmod_eq_of_le (by omega) (by omega)

theorem clampNonneg {x : Int64} (low : 0 ≤ x.toInt) : (x.toNatClampNeg : Int) = x.toInt := by
  change ((x.toInt.toNat : Nat) : Int) = x.toInt
  omega

theorem sumWithin {a b : Int64} (low : -2 ^ 63 ≤ a.toInt + b.toInt) (high : a.toInt + b.toInt < 2 ^ 63) :
    (a + b).toInt = a.toInt + b.toInt := by
  rw [Int64.toInt_add]
  exact Int.bmod_eq_of_le (by omega) (by omega)

theorem differenceWithin {a b : Int64} (low : -2 ^ 63 ≤ a.toInt - b.toInt)
    (high : a.toInt - b.toInt < 2 ^ 63) : (a - b).toInt = a.toInt - b.toInt := by
  rw [Int64.toInt_sub]
  exact Int.bmod_eq_of_le (by omega) (by omega)

end KernelFacilities.MachineIntegers

namespace KernelFacilities.KernelErrors

abbrev Errno := {e : Int32 // -4095 ≤ e.toInt ∧ e.toInt < 0}

def enomem : Errno := ⟨-12,by decide⟩
def eexist : Errno := ⟨-17,by decide⟩
def einval : Errno := ⟨-22,by decide⟩

theorem errnoNonzero (e : Errno) : e.val ≠ 0 := by
  intro zero
  have negative := e.property.2
  rw [zero] at negative
  exact absurd negative (by decide)

end KernelFacilities.KernelErrors
