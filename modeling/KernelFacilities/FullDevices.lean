import KernelFacilities.CharDriverFiles
import KernelFacilities.SpinlockCharDriver
import KernelFacilities.SpinlockCharDriverMultipleDevices

/-! The no-space error of the four character drivers. All of them decide it on the
count after the clamp, where a write of nothing and a write to a full device look
the same. A call of a locked driver is one that has its mutex, from lock to return. -/
namespace KernelFacilities.FullDevices
open ByteSpans CharDriver CharDriverMultipleDevices CharTransfers

inductive Device where
  | charDriver (buffer : DeviceBuffer)
  | multipleDevices (dev : PcdevPrivateData)
  | spinlock (buffer : DeviceBuffer)
  | spinlockMultipleDevices (dev : PcdevPrivateData)

def Device.maxSize : Device → Int32
  | .charDriver _ => devMemSize
  | .spinlock _ => SpinlockCharDriver.devMemSize
  | .multipleDevices dev | .spinlockMultipleDevices dev => dev.maxSize

def Device.buffer : Device → List UInt8
  | .charDriver buffer | .spinlock buffer => buffer.val
  | .multipleDevices dev | .spinlockMultipleDevices dev => dev.buffer

def locked (body : LockedTransfers.Body) (buffer : List UInt8) : Transfer :=
  let (buffer,r) := body.alone buffer
  ⟨r.ret,r.offset,buffer,r.delivered⟩

def Device.pcdRead (count : UInt64) (offset : Int64) (mapped : Nat) : Device → Transfer
  | .charDriver buffer => CharDriver.pcdRead buffer count offset mapped
  | .multipleDevices dev => CharDriverMultipleDevices.pcdRead dev count offset mapped
  | .spinlock buffer => locked (SpinlockCharDriver.pcdRead count offset mapped) buffer.val
  | .spinlockMultipleDevices dev =>
      locked (SpinlockCharDriverMultipleDevices.pcdRead dev count offset mapped) dev.buffer

def Device.pcdWrite (count : UInt64) (offset : Int64) (user : List UInt8) : Device → Transfer
  | .charDriver buffer => CharDriver.pcdWrite buffer count offset user
  | .multipleDevices dev => CharDriverMultipleDevices.pcdWrite dev count offset user
  | .spinlock buffer => locked (SpinlockCharDriver.pcdWrite count offset user) buffer.val
  | .spinlockMultipleDevices dev =>
      locked (SpinlockCharDriverMultipleDevices.pcdWrite dev count offset user) dev.buffer

/- The error is for requests of something at the end, and for nothing else; a write
moves as many bytes as a read from the same position would. -/
structure NoSpaceExact (d : Device) (count : Count) (offset : Int64) : Prop where
  noSpace : ∀ user, (d.pcdWrite count.val offset user).ret = -enomem ↔
    0 < count.val.toNat ∧ offset.toInt = d.maxSize.toInt
  nothing : count.val.toNat = 0 → ∀ user, d.pcdWrite count.val offset user = ⟨0,offset,d.buffer,[]⟩
  some_ : 0 < count.val.toNat → offset.toInt ≠ d.maxSize.toInt → 0 < granted d.maxSize offset count.val
  writes : 0 < count.val.toNat → offset.toInt ≠ d.maxSize.toInt →
    ∀ user, granted d.maxSize offset count.val ≤ user.length →
      (d.pcdWrite count.val offset user).ret.toInt = granted d.maxSize offset count.val
  reads : ∀ mapped, granted d.maxSize offset count.val ≤ mapped →
    (d.pcdRead count.val offset mapped).ret.toInt = granted d.maxSize offset count.val ∧
    (d.pcdRead count.val offset mapped).delivered.length = granted d.maxSize offset count.val

theorem readsAt (d : Device) (count : UInt64) (offset : Int64) (mapped : Nat) :
    d.pcdRead count offset mapped = readAt d.maxSize d.buffer count offset mapped := by
  cases d <;> rfl

theorem writesAt (d : Device) (count : UInt64) (offset : Int64) (user : List UInt8) :
    d.pcdWrite count offset user = writeAt d.maxSize d.buffer count offset user := by
  cases d <;> rfl

theorem deviceSized (d : Device) : d.buffer.length = d.maxSize.toInt.toNat := by
  cases d with
  | charDriver buffer | spinlock buffer => exact buffer.property
  | multipleDevices dev | spinlockMultipleDevices dev =>
    have size := maxSizeValue dev
    show dev.buffer.length = dev.maxSize.toInt.toNat
    rw [dev.sized,size]
    rfl

section Transfers
variable {maxSize : Int32} {offset : Int64} (inside : Within maxSize offset) {count : Count}
include inside

theorem errorWhenFull (buffer user : List UInt8) :
    (writeAt maxSize buffer count.val offset user).ret = -enomem ↔ granted maxSize offset count.val = 0 := by
  have noWrap := countDoesNotWrap inside count
  constructor
  · intro error
    by_contra some_
    have positive := Nat.pos_of_ne_zero some_
    by_cases short : user.length < granted maxSize offset count.val
    · have other : -efault ≠ -enomem := by decide
      rw [writeFaults inside buffer noWrap short] at error
      exact other error
    · have ret := (writeStores inside buffer noWrap positive (Nat.le_of_not_lt short)).1
      have negative : (-enomem).toInt < 0 := by decide
      rw [error] at ret
      omega
  · intro full
    rw [writeFull inside buffer noWrap full user]

end Transfers

section Exact
variable {d : Device} {offset : Int64} (inside : Within d.maxSize offset) {count : Count}
include inside

theorem readsGranted {mapped : Nat} (reaches : granted d.maxSize offset count.val ≤ mapped) :
    (d.pcdRead count.val offset mapped).ret.toInt = granted d.maxSize offset count.val ∧
    (d.pcdRead count.val offset mapped).delivered.length = granted d.maxSize offset count.val := by
  obtain ⟨ret,_,_,data⟩ := readDelivers inside d.buffer (countDoesNotWrap inside count) reaches
  have low := inside.low
  have index := indexOfWithin inside
  have sized := deviceSized d
  have room := (grantedBounds inside count.val).1
  rw [readsAt,data,span,List.length_take,List.length_drop]
  exact ⟨ret,by omega⟩

theorem noSpaceWhenAsked (asked : 0 < count.val.toNat) : NoSpaceExact d count offset := by
  have full : granted d.maxSize offset count.val = 0 ↔ _ := grantedNothing inside count.val
  have some_ : offset.toInt ≠ d.maxSize.toInt → 0 < granted d.maxSize offset count.val := by omega
  refine ⟨fun user => ?_,fun nothing => by omega,fun _ => some_,fun _ before user reaches => ?_,
    fun mapped reaches => readsGranted inside reaches⟩
  · rw [writesAt,errorWhenFull inside,full]
    omega
  · rw [writesAt]
    exact (writeStores inside d.buffer (countDoesNotWrap inside count) (some_ before) reaches).1

theorem emptyWriteFails (none : count.val.toNat = 0) (user : List UInt8) :
    (d.pcdWrite count.val offset user).ret = -enomem := by
  rw [writesAt]
  exact (errorWhenFull inside d.buffer user).mpr ((grantedNothing inside count.val).mpr (.inl none))

end Exact

theorem noSpaceExactly (d : Device) (count : Count) (offset : {p : Int64 // Within d.maxSize p}) :
    NoSpaceExact d count offset.val ↔ 0 < count.val.toNat := by
  constructor
  · intro exact_
    by_contra zero
    have none : count.val.toNat = 0 := Nat.eq_zero_of_not_pos zero
    have error := emptyWriteFails offset.property none []
    have other : (0 : Int64) ≠ -enomem := by decide
    rw [exact_.nothing none []] at error
    exact other error
  · exact noSpaceWhenAsked offset.property

def clearedBuffer : DeviceBuffer := ⟨List.replicate 512 0,List.length_replicate⟩

theorem emptyWriteRefused : ¬ NoSpaceExact (.charDriver clearedBuffer) ⟨0,by decide⟩ 0 := by
  intro exact_
  have other : (0 : Int64) ≠ -enomem := by decide
  have nothing := congrArg Transfer.ret (exact_.nothing rfl [])
  exact other nothing.symm

end KernelFacilities.FullDevices
