import KernelFacilities.CharDriverMultipleDevices

/-! One read or write of the multi-device driver by itself: which bytes of the
buffer it may touch, and what it leaves behind when it fails. Positions past the
end of the device come from positioned I/O. -/
namespace KernelFacilities.TransferBounds
open ByteSpans CharTransfers CharDriverMultipleDevices

def copyLength (dev : PcdevPrivateData) (count : Count) (offset : Int64) : Nat :=
  (transferLength dev.maxSize offset count.val).toNat

structure StaysInside (dev : PcdevPrivateData) (count : Count) (offset : Int64) : Prop where
  asked : copyLength dev count offset ≤ count.val.toNat
  low : 0 ≤ offset.toInt
  high : offset.toInt + copyLength dev count offset ≤ dev.size.toNat
  readAtEnd : dev.size.toNat ≤ offset.toInt → ∀ mapped,
    pcdRead dev count.val offset mapped = ⟨0,offset,dev.buffer,[]⟩
  writeAtEnd : dev.size.toNat ≤ offset.toInt → 0 < count.val.toNat → ∀ user,
    pcdWrite dev count.val offset user = ⟨-enomem,offset,dev.buffer,[]⟩

theorem positionWithin {dev : PcdevPrivateData} {offset : Int64} (low : 0 ≤ offset.toInt)
    (high : offset.toInt ≤ dev.size.toNat) : Within dev.maxSize offset :=
  ⟨low,(maxSizeValue dev).symm ▸ high⟩

theorem grantedAtEnd {dev : PcdevPrivateData} {offset : Int64} (at_ : dev.size.toNat ≤ offset.toInt)
    (count : UInt64) : granted dev.maxSize offset count = 0 := by
  have size := maxSizeValue dev
  unfold granted
  omega

theorem emptyRead {maxSize : Int32} {offset : Int64} {count : UInt64}
    (empty : transferLength maxSize offset count = 0) (buffer : List UInt8) (mapped : Nat) :
    readAt maxSize buffer count offset mapped = ⟨0,advance offset 0,buffer,[]⟩ := by
  simp [readAt,copyToUser,empty,uncopied,copied,span]

theorem advanceNothing {maxSize : Int32} {offset : Int64} (inside : Within maxSize offset) :
    advance offset 0 = offset := by
  have room := inside.high
  have zero : (0 : UInt64).toNat = 0 := rfl
  apply Int64.toInt_inj.mp
  rw [advanceWithin inside (by omega),zero]
  omega

theorem insideStays {dev : PcdevPrivateData} {offset : Int64} (inside : Within dev.maxSize offset)
    (count : Count) : StaysInside dev count offset := by
  have noWrap := countDoesNotWrap inside count
  have length : copyLength dev count offset = granted dev.maxSize offset count.val :=
    transferLengthGranted inside noWrap
  obtain ⟨room,asked,_⟩ := grantedBounds inside count.val
  rw [maxSizeValue] at room
  refine ⟨length ▸ asked,inside.low,by omega,fun at_ mapped => ?_,fun at_ _ user => ?_⟩
  · have empty := (transferEmpty inside count.val).mpr ⟨noWrap,grantedAtEnd at_ count.val⟩
    rw [pcdRead,emptyRead empty,advanceNothing inside]
  · exact writeFull inside dev.buffer noWrap (grantedAtEnd at_ count.val) user

theorem transfersStayInside (dev : PcdevPrivateData) (count : Count) (offset : Position) :
    StaysInside dev count offset.val ↔ offset.val.toInt ≤ dev.size.toNat := by
  constructor
  · intro stays
    by_contra past
    have size := maxSizeValue dev
    have beyond : dev.maxSize.toInt < offset.val.toInt := by omega
    have large := transferLengthPastEnd dev.maxSize (by omega) beyond count
    have asked := stays.asked
    have cut := count.property
    unfold copyLength at asked
    unfold maxRwCount at cut
    unfold intMax at large
    omega
  · exact fun high => insideStays (positionWithin offset.property high) count

theorem readPastTheEnd : ¬ StaysInside (pcdevData 2) ⟨10,by decide⟩ 2000 := by
  intro stays
  exact absurd stays.asked (by decide)

/- What a failed call leaves. A write whose copy faults has stored the bytes that
arrived, and zeros for the rest of the transfer; every other failure stores nothing. -/
structure FailedCall (dev : PcdevPrivateData) (count : Count) (offset : Int64) : Prop where
  read : ∀ mapped, (pcdRead dev count.val offset mapped).ret < 0 →
    (pcdRead dev count.val offset mapped).offset = offset ∧
    (pcdRead dev count.val offset mapped).buffer = dev.buffer
  write : ∀ user, (pcdWrite dev count.val offset user).ret < 0 →
    (pcdWrite dev count.val offset user).offset = offset ∧
    (pcdWrite dev count.val offset user).buffer =
      if user.length < min count.val.toNat (dev.size.toNat - offset.toNatClampNeg) then
        patch dev.buffer offset.toNatClampNeg (user ++ List.replicate
          (min count.val.toNat (dev.size.toNat - offset.toNatClampNeg) - user.length) 0)
      else dev.buffer

theorem failedRead {dev : PcdevPrivateData} {offset : Int64} (inside : Within dev.maxSize offset)
    (count : Count) (mapped : Nat) (failed : (pcdRead dev count.val offset mapped).ret < 0) :
    (pcdRead dev count.val offset mapped).offset = offset ∧
    (pcdRead dev count.val offset mapped).buffer = dev.buffer := by
  have noWrap := countDoesNotWrap inside count
  by_cases reaches : granted dev.maxSize offset count.val ≤ mapped
  · have ret := (readDelivers inside dev.buffer noWrap reaches).1
    rw [pcdRead,negative,ret] at failed
    omega
  · have fault := readFaults inside dev.buffer noWrap (Nat.lt_of_not_le reaches)
    rw [pcdRead,fault]
    exact ⟨rfl,rfl⟩

theorem failedWrite {dev : PcdevPrivateData} {offset : Int64} (inside : Within dev.maxSize offset)
    (count : Count) (user : List UInt8) (failed : (pcdWrite dev count.val offset user).ret < 0) :
    (pcdWrite dev count.val offset user).offset = offset ∧
    (pcdWrite dev count.val offset user).buffer =
      if user.length < granted dev.maxSize offset count.val then
        patch dev.buffer offset.toNatClampNeg
          (user ++ List.replicate (granted dev.maxSize offset count.val - user.length) 0)
      else dev.buffer := by
  have noWrap := countDoesNotWrap inside count
  by_cases short : user.length < granted dev.maxSize offset count.val
  · have fault := writeFaults inside dev.buffer noWrap short
    rw [pcdWrite,fault,if_pos short]
    exact ⟨rfl,rfl⟩
  · rw [if_neg short]
    by_cases full : granted dev.maxSize offset count.val = 0
    · have none := writeFull inside dev.buffer noWrap full user
      rw [pcdWrite,none]
      exact ⟨rfl,rfl⟩
    · have ret := (writeStores inside dev.buffer noWrap (Nat.pos_of_ne_zero full) (Nat.le_of_not_lt short)).1
      rw [pcdWrite,negative,ret] at failed
      omega

theorem failedCallLeaves (dev : PcdevPrivateData) (count : Count) {offset : Int64}
    (inside : Within dev.maxSize offset) : FailedCall dev count offset := by
  have cut : granted dev.maxSize offset count.val =
      min count.val.toNat (dev.size.toNat - offset.toNatClampNeg) :=
    @grantedMin ⟨dev,offset⟩ inside count
  exact ⟨failedRead inside count,fun user failed => cut ▸ failedWrite inside count user failed⟩

def fourBytes : PcdevPrivateData := ⟨[9,9,9,9],4,rdww,by decide,by decide,rfl⟩

theorem failedCallOnFourBytes : FailedCall fourBytes ⟨3,by decide⟩ 1 :=
  failedCallLeaves fourBytes ⟨3,by decide⟩ ⟨by decide,by decide⟩

theorem faultingWriteStores : ¬ ∀ (dev : PcdevPrivateData) (count : Count) (offset : Int64),
    Within dev.maxSize offset → ∀ user, (pcdWrite dev count.val offset user).ret < 0 →
      (pcdWrite dev count.val offset user).buffer = dev.buffer := by
  intro unchanged
  have kept := unchanged fourBytes ⟨3,by decide⟩ 1 ⟨by decide,by decide⟩ [7] (by decide)
  exact absurd kept (by decide)

end KernelFacilities.TransferBounds
