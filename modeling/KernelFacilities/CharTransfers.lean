import KernelFacilities.ByteSpans
import KernelFacilities.MachineIntegers

/-! Transfers and seeks of the character drivers, in the 64-bit arithmetic of the
source. All four drivers clamp, copy and seek by the same statements, so each of
them instantiates these definitions at its own buffer and size. The VFS refuses negative
positions and cuts a count to INT_MAX rounded down to a page. The user side of
a copy is an input: how many bytes of it can be touched before a fault. -/
namespace KernelFacilities.CharTransfers
open ByteSpans MachineIntegers

def eperm : Int32 := 1
def eintr : Int64 := 4
def enomem : Int64 := 12
def efault : Int64 := 14
def einval : Int64 := 22

def seekSet : Int32 := 0
def seekCur : Int32 := 1
def seekEnd : Int32 := 2

def intMax : Nat := 2147483647
def maxRwCount : Nat := 2147479552

abbrev Count := {n : UInt64 // n.toNat ≤ maxRwCount}
abbrev Position := {p : Int64 // 0 ≤ p.toInt}

theorem fromTheStart : 0 ≤ (0 : Int64).toInt := by decide

/- The kernel refuses a request above INT_MAX before it touches a byte. Otherwise
a copy moves the bytes up to the first that faults and reports the rest. -/
def copied (n : UInt64) (mapped : Nat) : Nat :=
  if n.toNat > intMax then 0 else min n.toNat mapped

def uncopied (n : UInt64) (mapped : Nat) : Nat := n.toNat - copied n mapped

def copyToUser (buffer : List UInt8) (start : Nat) (n : UInt64) (mapped : Nat) : List UInt8 × Nat :=
  (span buffer start (copied n mapped),uncopied n mapped)

def copyFromUser (buffer : List UInt8) (start : Nat) (n : UInt64) (user : List UInt8) : List UInt8 × Nat :=
  if n.toNat > intMax then (buffer,n.toNat)
  else (patch buffer start (user.take n.toNat ++ List.replicate (uncopied n user.length) 0),
    uncopied n user.length)

/- `if((*offset + count) > max_size) count = max_size - *offset;` The sum and the
comparison are unsigned, the difference is signed and converted back. -/
def transferLength (maxSize : Int32) (offset : Int64) (count : UInt64) : UInt64 :=
  if offset.toUInt64 + count > maxSize.toInt64.toUInt64 then (maxSize.toInt64 - offset).toUInt64
  else count

def advance (offset : Int64) (count : UInt64) : Int64 := (offset.toUInt64 + count).toInt64

structure Transfer where
  ret : Int64
  offset : Int64
  buffer : List UInt8
  delivered : List UInt8
  deriving DecidableEq, Repr

def readAt (maxSize : Int32) (buffer : List UInt8) (count : UInt64) (offset : Int64)
    (mapped : Nat) : Transfer :=
  let count := transferLength maxSize offset count
  let (data,left) := copyToUser buffer offset.toNatClampNeg count mapped
  if left ≠ 0 then ⟨-efault,offset,buffer,data⟩
  else ⟨count.toInt64,advance offset count,buffer,data⟩

def writeAt (maxSize : Int32) (buffer : List UInt8) (count : UInt64) (offset : Int64)
    (user : List UInt8) : Transfer :=
  let count := transferLength maxSize offset count
  if count = 0 then ⟨-enomem,offset,buffer,[]⟩
  else
    let (stored,left) := copyFromUser buffer offset.toNatClampNeg count user
    if left ≠ 0 then ⟨-efault,offset,stored,[]⟩
    else ⟨count.toInt64,advance offset count,stored,[]⟩

structure Seek where
  ret : Int64
  fPos : Int64
  deriving DecidableEq, Repr

def seekFrom (maxSize : Int32) (fPos offset : Int64) (whence : Int32) : Seek :=
  if whence = seekSet then
    if offset > maxSize.toInt64 ∨ offset < 0 then ⟨-einval,fPos⟩ else ⟨offset,offset⟩
  else if whence = seekCur then
    let temp := fPos + offset
    -- The range check is made on temp, the update adds temp once more.
    if temp > maxSize.toInt64 ∨ temp < 0 then ⟨-einval,fPos⟩ else ⟨fPos + temp,fPos + temp⟩
  else if whence = seekEnd then
    let temp := fPos + offset
    if temp > maxSize.toInt64 ∨ temp < 0 then ⟨-einval,fPos⟩ else ⟨temp,temp⟩
  else ⟨-einval,fPos⟩

structure Within (maxSize : Int32) (offset : Int64) : Prop where
  low : 0 ≤ offset.toInt
  high : offset.toInt ≤ maxSize.toInt

instance (maxSize offset) : Decidable (Within maxSize offset) :=
  decidable_of_iff (0 ≤ offset.toInt ∧ offset.toInt ≤ maxSize.toInt)
    ⟨fun h => ⟨h.1,h.2⟩,fun h => ⟨h.low,h.high⟩⟩

def granted (maxSize : Int32) (offset : Int64) (count : UInt64) : Nat :=
  min count.toNat (maxSize.toInt - offset.toInt).toNat

section Within
variable {maxSize : Int32} {offset : Int64}

theorem countDoesNotWrap (inside : Within maxSize offset) (count : Count) :
    offset.toInt + count.val.toNat < 2 ^ 64 := by
  have high := inside.high
  have bound := maxSize.toInt_lt
  have cut := count.property
  unfold maxRwCount at cut
  omega

theorem indexOfWithin (inside : Within maxSize offset) : (offset.toNatClampNeg : Int) = offset.toInt :=
  clampNonneg inside.low

theorem indexMoved {a b : Int64} {n : Nat} (low : 0 ≤ a.toInt) (moved : b.toInt = a.toInt + n) :
    b.toNatClampNeg = a.toNatClampNeg + n := by
  change b.toInt.toNat = a.toInt.toNat + n
  omega

theorem grantedBounds (inside : Within maxSize offset) (count : UInt64) :
    (granted maxSize offset count : Int) ≤ maxSize.toInt - offset.toInt ∧
    granted maxSize offset count ≤ count.toNat ∧ granted maxSize offset count ≤ intMax := by
  have low := inside.low
  have high := inside.high
  have bound := maxSize.toInt_lt
  unfold granted intMax
  omega

theorem grantedNothing (inside : Within maxSize offset) (count : UInt64) :
    granted maxSize offset count = 0 ↔ count.toNat = 0 ∨ offset.toInt = maxSize.toInt := by
  have high := inside.high
  unfold granted
  omega

theorem transferLengthValue {maxSize : Int32} {offset : Int64} (size : 0 ≤ maxSize.toInt)
    (low : 0 ≤ offset.toInt) (count : UInt64) : ((transferLength maxSize offset count).toNat : Int) =
      if maxSize.toInt < (offset.toInt + count.toNat) % 2 ^ 64 then (maxSize.toInt - offset.toInt) % 2 ^ 64
      else (count.toNat : Int) := by
  have bound := maxSize.toInt_lt
  have most := offset.toInt_lt
  have wide := Int32.toInt_toInt64 maxSize
  have sizeWord := wordOfSigned maxSize.toInt64
  have offsetWord := wordOfSigned offset
  have sum := UInt64.toNat_add offset.toUInt64 count
  have difference : (maxSize.toInt64 - offset).toInt = maxSize.toInt64.toInt - offset.toInt :=
    differenceWithin (by omega) (by omega)
  have differenceWord := wordOfSigned (maxSize.toInt64 - offset)
  have compared : offset.toUInt64 + count > maxSize.toInt64.toUInt64 ↔
      maxSize.toInt < (offset.toInt + count.toNat) % 2 ^ 64 := by
    rw [gt_iff_lt,UInt64.lt_iff_toNat_lt]
    omega
  unfold transferLength
  simp only [compared]
  split
  · rw [differenceWord,difference,wide]
  · rfl

/- The clamp in the code's arithmetic is the mathematical minimum, as long as the
unsigned sum does not wrap. With a wrapped sum the request is not cut at all. -/
theorem transferLengthGranted (inside : Within maxSize offset) {count : UInt64}
    (noWrap : offset.toInt + count.toNat < 2 ^ 64) :
    (transferLength maxSize offset count).toNat = granted maxSize offset count := by
  have low := inside.low
  have high := inside.high
  have bound := maxSize.toInt_lt
  have value := transferLengthValue (Int.le_trans low high) low count
  unfold granted
  split at value <;> omega

theorem transferLengthWrapped (inside : Within maxSize offset) {count : UInt64}
    (wraps : 2 ^ 64 ≤ offset.toInt + count.toNat) :
    intMax < (transferLength maxSize offset count).toNat := by
  have low := inside.low
  have high := inside.high
  have bound := maxSize.toInt_lt
  have small := count.toNat_lt
  have value := transferLengthValue (Int.le_trans low high) low count
  unfold intMax
  split at value <;> omega

theorem transferLengthPastEnd (maxSize : Int32) {offset : Int64} (size : 0 ≤ maxSize.toInt)
    (past : maxSize.toInt < offset.toInt) (count : UInt64) :
    intMax < (transferLength maxSize offset count).toNat := by
  have most := offset.toInt_lt
  have bound := maxSize.toInt_lt
  have small := count.toNat_lt
  have low : 0 ≤ offset.toInt := by omega
  have value := transferLengthValue size low count
  unfold intMax
  split at value <;> omega

theorem advanceSmall {offset : Int64} {count : UInt64} (low : 0 ≤ offset.toInt)
    (small : offset.toInt + count.toNat < 2 ^ 63) :
    (advance offset count).toInt = offset.toInt + count.toNat := by
  have offsetWord := wordOfSigned offset
  have sum := UInt64.toNat_add offset.toUInt64 count
  unfold advance
  rw [signedOfSmallWord (by omega)]
  omega

theorem advanceWithin (inside : Within maxSize offset) {count : UInt64}
    (room : (count.toNat : Int) ≤ maxSize.toInt - offset.toInt) :
    (advance offset count).toInt = offset.toInt + count.toNat := by
  have bound := maxSize.toInt_lt
  exact advanceSmall inside.low (by omega)

theorem copiedGranted {n : UInt64} (small : n.toNat ≤ intMax) (mapped : Nat) :
    copied n mapped = min n.toNat mapped := by
  simp [copied,Nat.not_lt.mpr small]

theorem returnedCount {n : UInt64} (small : n.toNat ≤ intMax) : n.toInt64.toInt = n.toNat := by
  unfold intMax at small
  exact signedOfSmallWord (by omega)

theorem transferEmpty (inside : Within maxSize offset) (count : UInt64) :
    transferLength maxSize offset count = 0 ↔
      offset.toInt + count.toNat < 2 ^ 64 ∧ granted maxSize offset count = 0 := by
  rw [← UInt64.toNat_inj]
  by_cases noWrap : offset.toInt + count.toNat < 2 ^ 64
  · rw [transferLengthGranted inside noWrap]
    exact ⟨fun empty => ⟨noWrap,empty⟩,fun both => both.2⟩
  · have large := transferLengthWrapped inside (Int.not_lt.mp noWrap)
    exact ⟨fun empty => absurd empty (Nat.ne_of_gt (Nat.zero_lt_of_lt large)),fun both => absurd both.1 noWrap⟩

theorem transferShort (inside : Within maxSize offset) (count : UInt64) (mapped : Nat) :
    uncopied (transferLength maxSize offset count) mapped ≠ 0 ↔
      2 ^ 64 ≤ offset.toInt + count.toNat ∨ mapped < granted maxSize offset count := by
  by_cases noWrap : offset.toInt + count.toNat < 2 ^ 64
  · have length := transferLengthGranted inside noWrap
    have small := (grantedBounds inside count).2.2
    rw [uncopied,copiedGranted (length ▸ small),length]
    omega
  · have wraps := Int.not_lt.mp noWrap
    have large := transferLengthWrapped inside wraps
    rw [uncopied,copied,if_pos large]
    exact ⟨fun _ => .inl wraps,fun _ => by omega⟩

section Calls
variable (inside : Within maxSize offset) {count : UInt64} (buffer : List UInt8)
include inside

theorem readDelivers (noWrap : offset.toInt + count.toNat < 2 ^ 64) {mapped : Nat}
    (reaches : granted maxSize offset count ≤ mapped) :
    (readAt maxSize buffer count offset mapped).ret.toInt = granted maxSize offset count ∧
    (readAt maxSize buffer count offset mapped).offset.toInt = offset.toInt + granted maxSize offset count ∧
    (readAt maxSize buffer count offset mapped).buffer = buffer ∧
    (readAt maxSize buffer count offset mapped).delivered =
      span buffer offset.toNatClampNeg (granted maxSize offset count) := by
  have length := transferLengthGranted inside noWrap
  obtain ⟨room,_,small⟩ := grantedBounds inside count
  rw [← length] at room small reaches
  have whole : copied (transferLength maxSize offset count) mapped =
      (transferLength maxSize offset count).toNat := by
    rw [copiedGranted small,Nat.min_eq_left reaches]
  have done : readAt maxSize buffer count offset mapped =
      ⟨(transferLength maxSize offset count).toInt64,advance offset (transferLength maxSize offset count),
        buffer,span buffer offset.toNatClampNeg (granted maxSize offset count)⟩ := by
    simp only [readAt,copyToUser,uncopied,whole,Nat.sub_self,ne_eq,not_true_eq_false,if_false,length]
  rw [done]
  exact ⟨by rw [returnedCount small,length],by rw [advanceWithin inside room,length],rfl,rfl⟩

theorem readFaults (noWrap : offset.toInt + count.toNat < 2 ^ 64) {mapped : Nat}
    (short : mapped < granted maxSize offset count) :
    readAt maxSize buffer count offset mapped =
      ⟨-efault,offset,buffer,span buffer offset.toNatClampNeg mapped⟩ := by
  have length := transferLengthGranted inside noWrap
  have small := (grantedBounds inside count).2.2
  rw [← length] at small short
  have part : copied (transferLength maxSize offset count) mapped = mapped := by
    rw [copiedGranted small,Nat.min_eq_right (Nat.le_of_lt short)]
  have left : (transferLength maxSize offset count).toNat - mapped ≠ 0 := by omega
  simp only [readAt,copyToUser,uncopied,part,ne_eq,left,not_false_eq_true,if_true]

theorem writeFull (noWrap : offset.toInt + count.toNat < 2 ^ 64)
    (full : granted maxSize offset count = 0) (user : List UInt8) :
    writeAt maxSize buffer count offset user = ⟨-enomem,offset,buffer,[]⟩ := by
  have empty := (transferEmpty inside count).mpr ⟨noWrap,full⟩
  simp only [writeAt,empty,if_true]

theorem writeNonempty (some_ : 0 < granted maxSize offset count) : transferLength maxSize offset count ≠ 0 := by
  intro empty
  have nothing := ((transferEmpty inside count).mp empty).2
  omega

theorem writeStores (noWrap : offset.toInt + count.toNat < 2 ^ 64) {user : List UInt8}
    (some_ : 0 < granted maxSize offset count) (reaches : granted maxSize offset count ≤ user.length) :
    (writeAt maxSize buffer count offset user).ret.toInt = granted maxSize offset count ∧
    (writeAt maxSize buffer count offset user).offset.toInt = offset.toInt + granted maxSize offset count ∧
    (writeAt maxSize buffer count offset user).buffer =
      patch buffer offset.toNatClampNeg (user.take (granted maxSize offset count)) ∧
    (writeAt maxSize buffer count offset user).delivered = [] := by
  have length := transferLengthGranted inside noWrap
  have nonempty := writeNonempty inside some_
  obtain ⟨room,_,small⟩ := grantedBounds inside count
  rw [← length] at room small reaches
  have whole : uncopied (transferLength maxSize offset count) user.length = 0 := by
    rw [uncopied,copiedGranted small,Nat.min_eq_left reaches,Nat.sub_self]
  have done : writeAt maxSize buffer count offset user =
      ⟨(transferLength maxSize offset count).toInt64,advance offset (transferLength maxSize offset count),
        patch buffer offset.toNatClampNeg (user.take (granted maxSize offset count)),[]⟩ := by
    simp only [writeAt,nonempty,if_false,copyFromUser,gt_iff_lt,Nat.not_lt.mpr small,whole,
      List.replicate_zero,List.append_nil,ne_eq,not_true_eq_false]
    rw [length]
  rw [done]
  exact ⟨by rw [returnedCount small,length],by rw [advanceWithin inside room,length],rfl,rfl⟩

theorem writeFaults (noWrap : offset.toInt + count.toNat < 2 ^ 64) {user : List UInt8}
    (short : user.length < granted maxSize offset count) :
    writeAt maxSize buffer count offset user =
      ⟨-efault,offset,patch buffer offset.toNatClampNeg
        (user ++ List.replicate (granted maxSize offset count - user.length) 0),[]⟩ := by
  have length := transferLengthGranted inside noWrap
  have some_ : 0 < granted maxSize offset count := Nat.zero_lt_of_lt short
  have nonempty := writeNonempty inside some_
  have small := (grantedBounds inside count).2.2
  rw [← length] at small short
  have part : uncopied (transferLength maxSize offset count) user.length =
      granted maxSize offset count - user.length := by
    rw [uncopied,copiedGranted small,Nat.min_eq_right (Nat.le_of_lt short),length]
  have left : granted maxSize offset count - user.length ≠ 0 := by omega
  simp only [writeAt,nonempty,if_false,copyFromUser,gt_iff_lt,Nat.not_lt.mpr small,part,ne_eq,left,
    not_false_eq_true,if_true,List.take_of_length_le (Nat.le_of_lt short)]

end Calls

end Within

theorem writeKeepsLength (maxSize : Int32) (buffer : List UInt8) (count : UInt64) (offset : Int64)
    (user : List UInt8) : (writeAt maxSize buffer count offset user).buffer.length = buffer.length := by
  simp only [writeAt,copyFromUser]
  split
  · rfl
  · by_cases large : (transferLength maxSize offset count).toNat > intMax
    · simp only [large,if_true]
      split <;> rfl
    · simp only [large,if_false]
      split <;> exact patchLength _ _ _

section Seeks
variable {maxSize : Int32} {fPos offset : Int64}

theorem rangeCheck {maxSize : Int32} {wanted : Int64} :
    (wanted > maxSize.toInt64 ∨ wanted < 0) ↔ ¬ Within maxSize wanted := by
  have size := Int32.toInt_toInt64 maxSize
  have zero : (0 : Int64).toInt = 0 := rfl
  constructor
  · intro out inside
    have low := inside.low
    have high := inside.high
    simp only [gt_iff_lt,Int64.lt_iff_toInt_lt] at out
    omega
  · intro out
    simp only [gt_iff_lt,Int64.lt_iff_toInt_lt]
    by_contra within
    exact out ⟨by omega,by omega⟩

theorem sumWithinRange (inside : Within maxSize fPos) (offset : Int64) :
    Within maxSize (fPos + offset) ↔
      0 ≤ fPos.toInt + offset.toInt ∧ fPos.toInt + offset.toInt ≤ maxSize.toInt := by
  have low := inside.low
  have high := inside.high
  have bound := maxSize.toInt_lt
  have least := offset.le_toInt
  have most := offset.toInt_lt
  by_cases wraps : fPos.toInt + offset.toInt < 2 ^ 63
  · have sum : (fPos + offset).toInt = fPos.toInt + offset.toInt := MachineIntegers.sumWithin (by omega) wraps
    exact ⟨fun h => by have := h.low; have := h.high; omega,fun h => ⟨by omega,by omega⟩⟩
  · have sum : (fPos + offset).toInt = fPos.toInt + offset.toInt - 2 ^ 64 := by
      rw [Int64.toInt_add,Int.bmod_eq_emod]
      split <;> omega
    exact ⟨fun h => by have := h.low; omega,fun h => by omega⟩

theorem relativeSum (inside : Within maxSize fPos) (lands : Within maxSize (fPos + offset)) :
    (fPos + offset).toInt = fPos.toInt + offset.toInt := by
  have range := (sumWithinRange inside _).mp lands
  have bound := maxSize.toInt_lt
  exact MachineIntegers.sumWithin (by omega) (by omega)

theorem seekSetSpec (maxSize : Int32) (fPos offset : Int64) : seekFrom maxSize fPos offset seekSet =
    if Within maxSize offset then ⟨offset,offset⟩ else ⟨-einval,fPos⟩ := by
  simp only [seekFrom,if_true,rangeCheck]
  split <;> simp_all

theorem seekCurSpec (maxSize : Int32) (fPos offset : Int64) : seekFrom maxSize fPos offset seekCur =
    if Within maxSize (fPos + offset) then ⟨fPos + (fPos + offset),fPos + (fPos + offset)⟩
    else ⟨-einval,fPos⟩ := by
  have other : seekCur ≠ seekSet := by decide
  simp only [seekFrom,other,if_false,if_true,rangeCheck]
  split <;> simp_all

theorem seekEndSpec (maxSize : Int32) (fPos offset : Int64) : seekFrom maxSize fPos offset seekEnd =
    if Within maxSize (fPos + offset) then ⟨fPos + offset,fPos + offset⟩ else ⟨-einval,fPos⟩ := by
  have notSet : seekEnd ≠ seekSet := by decide
  have notCur : seekEnd ≠ seekCur := by decide
  simp only [seekFrom,notSet,notCur,if_false,if_true,rangeCheck]
  split <;> simp_all

theorem seekUnknown {whence : Int32} (notSet : whence ≠ seekSet) (notCur : whence ≠ seekCur)
    (notEnd : whence ≠ seekEnd) : seekFrom maxSize fPos offset whence = ⟨-einval,fPos⟩ := by
  simp only [seekFrom,notSet,notCur,notEnd,if_false]

end Seeks

end KernelFacilities.CharTransfers
