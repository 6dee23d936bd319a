import KernelFacilities.CharDriverMultipleDevices

/-! Absolute seeks of the multi-device driver, as two calls with the same arguments
from two positions. The base of SEEK_END should be the size of the device; the
source takes the current position. -/
namespace KernelFacilities.AbsoluteSeeks
open CharTransfers CharDriverMultipleDevices

abbrev Inside (dev : PcdevPrivateData) := {p : Int64 // Within dev.maxSize p}

abbrev NotRelative := {whence : Int32 // whence ≠ seekCur}

def base? (dev : PcdevPrivateData) (whence : Int32) : Option Int :=
  if whence = seekSet then some 0 else if whence = seekEnd then some dev.size.toNat else none

/- Where the call should end, over the integers: none for an unknown whence and for
a place outside the device. -/
def target? (dev : PcdevPrivateData) (offset : Int64) (whence : Int32) : Option Int :=
  (base? dev whence).bind fun base =>
    if 0 ≤ base + offset.toInt ∧ base + offset.toInt ≤ dev.size.toNat then some (base + offset.toInt) else none

def SeeksTo (dev : PcdevPrivateData) (offset : Int64) (whence : Int32) (p : Int64) : Prop :=
  match target? dev offset whence with
  | some place => (pcdLlseek dev p offset whence).ret.toInt = place ∧
      (pcdLlseek dev p offset whence).fPos.toInt = place
  | none => pcdLlseek dev p offset whence = ⟨-einval,p⟩

structure Absolute (dev : PcdevPrivateData) (offset : Int64) (whence : Int32) (p q : Int64) : Prop where
  first : SeeksTo dev offset whence p
  second : SeeksTo dev offset whence q
  same : 0 ≤ (pcdLlseek dev p offset whence).ret ∨ 0 ≤ (pcdLlseek dev q offset whence).ret →
    pcdLlseek dev p offset whence = pcdLlseek dev q offset whence

def MissesEnd (dev : PcdevPrivateData) (offset : Int64) (whence : Int32) (p : Int64) : Prop :=
  whence = seekEnd ∧ p.toInt ≠ dev.size.toNat ∧ -(dev.size.toNat : Int) ≤ offset.toInt ∧
    offset.toInt ≤ dev.size.toNat - p.toInt

theorem targetSet (dev : PcdevPrivateData) (offset : Int64) : target? dev offset seekSet =
    if Within dev.maxSize offset then some offset.toInt else none := by
  have size := maxSizeValue dev
  have range : (0 ≤ offset.toInt ∧ offset.toInt ≤ dev.size.toNat) ↔ Within dev.maxSize offset :=
    ⟨fun h => ⟨h.1,by omega⟩,fun h => ⟨h.low,by have := h.high; omega⟩⟩
  simp only [target?,base?,if_true,Option.bind_some,Int.zero_add,range]

theorem targetEnd (dev : PcdevPrivateData) (offset : Int64) : target? dev offset seekEnd =
    if -(dev.size.toNat : Int) ≤ offset.toInt ∧ offset.toInt ≤ 0 then some (dev.size.toNat + offset.toInt)
    else none := by
  have other : seekEnd ≠ seekSet := by decide
  have range : (0 ≤ (dev.size.toNat : Int) + offset.toInt ∧
      (dev.size.toNat : Int) + offset.toInt ≤ dev.size.toNat) ↔
      -(dev.size.toNat : Int) ≤ offset.toInt ∧ offset.toInt ≤ 0 := by omega
  simp only [target?,base?,other,if_false,if_true,Option.bind_some,range]

theorem seekSetTo (dev : PcdevPrivateData) (offset p : Int64) : SeeksTo dev offset seekSet p := by
  have spec := seekSetSpec dev.maxSize p offset
  unfold SeeksTo pcdLlseek
  rw [targetSet,spec]
  by_cases inside : Within dev.maxSize offset
  · simp only [inside,if_true,and_self]
  · simp only [inside,if_false]

theorem seekUnknownTo (dev : PcdevPrivateData) (offset p : Int64) {whence : Int32} (notSet : whence ≠ seekSet)
    (notCur : whence ≠ seekCur) (notEnd : whence ≠ seekEnd) : SeeksTo dev offset whence p := by
  have spec : seekFrom dev.maxSize p offset whence = ⟨-einval,p⟩ := seekUnknown notSet notCur notEnd
  have nowhere : target? dev offset whence = none := by
    simp only [target?,base?,notSet,notEnd,if_false,Option.bind_none]
  simp only [SeeksTo,nowhere,pcdLlseek,spec]

theorem errorBelow : (-einval).toInt < 0 := by decide

theorem seekEndTo {dev : PcdevPrivateData} {p : Int64} (inside : Within dev.maxSize p) (offset : Int64) :
    SeeksTo dev offset seekEnd p ↔ ¬ MissesEnd dev offset seekEnd p := by
  have spec := seekEndSpec dev.maxSize p offset
  have range := sumWithinRange inside offset
  have error := errorBelow
  have low := inside.low
  have high := inside.high
  rw [maxSizeValue] at range high
  simp only [SeeksTo,MissesEnd,pcdLlseek,targetEnd,spec,true_and]
  by_cases lands : Within dev.maxSize (p + offset)
  · have place := range.mp lands
    have sum := relativeSum inside lands
    by_cases wanted : -(dev.size.toNat : Int) ≤ offset.toInt ∧ offset.toInt ≤ 0
    · simp only [lands,wanted,true_and,and_self,if_true,sum]
      omega
    · simp only [lands,wanted,if_true,if_false]
      constructor
      · intro refused
        have ret := congrArg (fun s => s.ret.toInt) refused
        simp only [sum] at ret
        omega
      · intro hits
        omega
  · have outside := mt range.mpr lands
    by_cases wanted : -(dev.size.toNat : Int) ≤ offset.toInt ∧ offset.toInt ≤ 0
    · simp only [lands,wanted,true_and,and_self,if_true,if_false]
      constructor
      · rintro ⟨ret,_⟩
        omega
      · intro hits
        omega
    · simp only [lands,wanted,if_false,true_iff]
      omega

theorem seekTo {dev : PcdevPrivateData} (p : Inside dev) (offset : Int64) (whence : NotRelative) :
    SeeksTo dev offset whence.val p.val ↔ ¬ MissesEnd dev offset whence.val p.val := by
  obtain ⟨whence,notCur⟩ := whence
  by_cases end_ : whence = seekEnd
  · subst end_
    exact seekEndTo p.property offset
  have hits : ¬ MissesEnd dev offset whence p.val := fun misses => end_ misses.1
  refine ⟨fun _ => hits,fun _ => ?_⟩
  by_cases set : whence = seekSet
  · subst set
    exact seekSetTo dev offset p.val
  · exact seekUnknownTo dev offset p.val set notCur end_

theorem sameResult {dev : PcdevPrivateData} {offset p q : Int64} {whence : Int32}
    (first : SeeksTo dev offset whence p) (second : SeeksTo dev offset whence q)
    (succeeds : 0 ≤ (pcdLlseek dev p offset whence).ret ∨ 0 ≤ (pcdLlseek dev q offset whence).ret) :
    pcdLlseek dev p offset whence = pcdLlseek dev q offset whence := by
  have error : ¬ 0 ≤ -einval := by decide
  unfold SeeksTo at first second
  cases place : target? dev offset whence with
  | none =>
    rw [place] at first second
    simp only [first,second,error,or_self] at succeeds
  | some x =>
    rw [place] at first second
    have ret := Int64.toInt_inj.mp (first.1.trans second.1.symm)
    have fPos := Int64.toInt_inj.mp (first.2.trans second.2.symm)
    cases atP : pcdLlseek dev p offset whence
    cases atQ : pcdLlseek dev q offset whence
    simp only [atP,atQ] at ret fPos
    rw [ret,fPos]

theorem absoluteExact (dev : PcdevPrivateData) (offset : Int64) (whence : NotRelative) (p q : Inside dev) :
    Absolute dev offset whence.val p.val q.val ↔
      ¬ MissesEnd dev offset whence.val p.val ∧ ¬ MissesEnd dev offset whence.val q.val := by
  rw [← seekTo p offset whence,← seekTo q offset whence]
  exact ⟨fun absolute => ⟨absolute.first,absolute.second⟩,
    fun both => ⟨both.1,both.2,sameResult both.1 both.2⟩⟩

theorem endFromTheStart : ¬ Absolute (pcdevData 2) 0 seekEnd 0 1024 := by
  intro absolute
  have first := absolute.first
  exact absurd first.1 (by decide)

end KernelFacilities.AbsoluteSeeks
