import Mathlib.Algebra.Ring.Nat
import Mathlib.Tactic.Common

/-! Where the members of a C structure lie, and the way back from a member to its
structure. A member starts at the next multiple of its alignment; what size and
alignment a type has is for the platform to say. Addresses are words and wrap. -/
namespace KernelFacilities.StructLayouts

structure Member where
  size : Nat
  align : Nat
  deriving DecidableEq, Repr

def roundUp (n a : Nat) : Nat := (n + a - 1) / a * a

def startsFrom (n : Nat) : List Member → List Nat
  | [] => []
  | m :: rest => roundUp n m.align :: startsFrom (roundUp n m.align + m.size) rest

def endFrom (n : Nat) : List Member → Nat
  | [] => n
  | m :: rest => endFrom (roundUp n m.align + m.size) rest

def offsetOf (members : List Member) (i : Nat) : Nat := ((startsFrom 0 members)[i]?).getD 0

def alignOf (members : List Member) : Nat := members.foldr (fun m a => max m.align a) 1

def nested (members : List Member) : Member := ⟨roundUp (endFrom 0 members) (alignOf members),alignOf members⟩

def array (element : Member) (n : Nat) : Member := ⟨n * element.size,element.align⟩

def Aligned (members : List Member) : Prop := ∀ m ∈ members, 0 < m.align

theorem roundUpLow {n a : Nat} (some_ : 0 < a) : n ≤ roundUp n a := by
  have parts := Nat.div_add_mod (n + a - 1) a
  have rest := Nat.mod_lt (n + a - 1) some_
  rw [roundUp,Nat.mul_comm]
  omega

theorem alignSome (members : List Member) : 0 < alignOf members := by
  induction members with
  | nil => exact Nat.one_pos
  | cons m rest ih => exact Nat.lt_of_lt_of_le ih (Nat.le_max_right m.align (alignOf rest))

theorem endLow {members : List Member} (aligned : Aligned members) (n : Nat) : n ≤ endFrom n members := by
  induction members generalizing n with
  | nil => exact Nat.le_refl n
  | cons m rest ih =>
    have low := roundUpLow (n := n) (aligned m List.mem_cons_self)
    have high := ih (fun x mem => aligned x (List.mem_cons_of_mem _ mem)) (roundUp n m.align + m.size)
    rw [endFrom]
    omega

theorem startInside {members : List Member} (aligned : Aligned members) {n i : Nat} {m : Member}
    (at_ : members[i]? = some m) : ∃ start, (startsFrom n members)[i]? = some start ∧ n ≤ start ∧
      start + m.size ≤ endFrom n members := by
  induction members generalizing n i with
  | nil => simp at at_
  | cons first rest ih =>
    have low := roundUpLow (n := n) (aligned first List.mem_cons_self)
    have tail : Aligned rest := fun x mem => aligned x (List.mem_cons_of_mem _ mem)
    cases i with
    | zero =>
      have same : first = m := Option.some.inj at_
      subst same
      exact ⟨roundUp n first.align,rfl,low,endLow tail _⟩
    | succ i =>
      obtain ⟨start,found,after,inside⟩ := ih tail (n := roundUp n first.align + first.size) at_
      exact ⟨start,found,by omega,inside⟩

theorem memberInside {members : List Member} (aligned : Aligned members) {i : Nat} {m : Member}
    (at_ : members[i]? = some m) : offsetOf members i + m.size ≤ (nested members).size := by
  obtain ⟨start,found,_,inside⟩ := startInside aligned (n := 0) at_
  have padded := roundUpLow (n := endFrom 0 members) (alignSome members)
  rw [offsetOf,found,Option.getD_some,nested]
  exact Nat.le_trans inside padded

def memberAddress (structure_ : UInt64) (offset : Nat) : UInt64 := structure_ + UInt64.ofNat offset
def containerOf (ptr : UInt64) (offset : Nat) : UInt64 := ptr - UInt64.ofNat offset

theorem containerOfMember (structure_ : UInt64) (offset : Nat) :
    containerOf (memberAddress structure_ offset) offset = structure_ := by
  simp only [containerOf,memberAddress,UInt64.add_sub_cancel]

theorem containerOfExact (ptr structure_ : UInt64) (offset : Nat) :
    containerOf ptr offset = structure_ ↔ ptr = memberAddress structure_ offset := by
  constructor
  · rintro rfl
    simp only [containerOf,memberAddress,UInt64.sub_add_cancel]
  · rintro rfl
    exact containerOfMember structure_ offset

theorem addressValue {base : UInt64} {offset : Nat} (fits : base.toNat + offset < 2 ^ 64) :
    (memberAddress base offset).toNat = base.toNat + offset := by
  have small : offset % 2 ^ 64 = offset := Nat.mod_eq_of_lt (by omega)
  rw [memberAddress,UInt64.toNat_add,UInt64.toNat_ofNat',small]
  exact Nat.mod_eq_of_lt fits

end KernelFacilities.StructLayouts
