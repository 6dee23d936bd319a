import KernelFacilities.CharDriverMultipleDevices
import KernelFacilities.Runs

/-! The position of one open file of the multi-device driver over whole runs.
What a step reports is compared with what it does to f_pos; a relative seek from
a position other than 0 is the one step on which the two part. -/
namespace KernelFacilities.PositionAccounting
open CharTransfers CharDriverMultipleDevices Runs

def next (file : OpenFile) (call : FileCall) : OpenFile := (vfsCall file call).1

def Reported (fPos : Int) (ret : Int) (moved : Int) : FileCall → Prop
  | .read _ _ | .write _ _ => moved = fPos + ret
  | .llseek offset whence => moved = ret ∧ (whence = seekCur → moved = fPos + offset.toInt)

structure Accounted (tr : Transition OpenFile FileCall) : Prop where
  low : 0 ≤ tr.after.fPos.toInt
  high : tr.after.fPos.toInt ≤ tr.before.dev.size.toNat
  failed : (vfsCall tr.before tr.label).2.ret < 0 → tr.after.fPos = tr.before.fPos
  reported : 0 ≤ (vfsCall tr.before tr.label).2.ret →
    Reported tr.before.fPos.toInt (vfsCall tr.before tr.label).2.ret.toInt tr.after.fPos.toInt tr.label

def RelativeSeekOffZero (file : OpenFile) : FileCall → Prop
  | .llseek offset whence => whence = seekCur ∧ file.fPos ≠ 0 ∧
      0 ≤ file.fPos.toInt + offset.toInt ∧ file.fPos.toInt + offset.toInt ≤ file.dev.size.toNat
  | _ => False

theorem nonnegative {x : Int64} : 0 ≤ x ↔ 0 ≤ x.toInt := Int64.le_iff_toInt_le

theorem seekReply (file : OpenFile) (offset : Int64) (whence : Int32) :
    next file (.llseek offset whence) = ⟨file.dev,(pcdLlseek file.dev file.fPos offset whence).fPos⟩ ∧
    (vfsCall file (.llseek offset whence)).2.ret = (pcdLlseek file.dev file.fPos offset whence).ret :=
  ⟨rfl,rfl⟩

section Step
variable {file : OpenFile} (inside : file.within)
include inside

theorem insideSize : 0 ≤ file.fPos.toInt ∧ file.fPos.toInt ≤ file.dev.size.toNat := by
  have high := inside.high
  rw [maxSizeValue] at high
  exact ⟨inside.low,high⟩

theorem keptAccounted {call : FileCall} (same : (next file call).fPos = file.fPos)
    (fails : (vfsCall file call).2.ret < 0) : Accounted ⟨file,call,next file call⟩ := by
  obtain ⟨low,high⟩ := insideSize inside
  refine ⟨?_,?_,fun _ => same,fun success => ?_⟩
  · simpa only [same] using low
  · simpa only [same] using high
  · exact absurd (negative.mp fails) (Int.not_lt.mpr (nonnegative.mp success))

theorem movedAccounted {call : FileCall} {n : Nat} (shape : ∀ o w, call ≠ .llseek o w)
    (moved : (next file call).fPos.toInt = file.fPos.toInt + n)
    (ret : (vfsCall file call).2.ret.toInt = n)
    (room : (n : Int) ≤ file.dev.size.toNat - file.fPos.toInt) :
    Accounted ⟨file,call,next file call⟩ := by
  obtain ⟨low,_⟩ := insideSize inside
  refine ⟨?_,?_,fun fails => ?_,fun _ => ?_⟩
  · show 0 ≤ (next file call).fPos.toInt
    omega
  · show (next file call).fPos.toInt ≤ file.dev.size.toNat
    omega
  · rw [negative,ret] at fails
    omega
  · cases call with
    | llseek o w => exact absurd rfl (shape o w)
    | read => simp only [Reported,ret,moved]
    | write => simp only [Reported,ret,moved]

theorem grantedRoom (count : Count) : (file.granted count : Int) ≤ file.dev.size.toNat - file.fPos.toInt := by
  have bounds := (grantedBounds inside count.val).1
  rwa [maxSizeValue] at bounds

theorem readAccounted (count : Count) (mapped : Nat) :
    Accounted ⟨file,.read count mapped,next file (.read count mapped)⟩ := by
  by_cases reaches : file.granted count ≤ mapped
  · obtain ⟨_,moved,ret,_⟩ := callReadDelivers inside reaches
    exact movedAccounted inside (by simp) moved ret (grantedRoom inside count)
  · have fault := callReadFaults inside (Nat.lt_of_not_le reaches)
    exact keptAccounted inside (by simp only [next,fault]) (by simp only [fault,errorsNegative.1])

theorem writeAccounted (count : Count) (user : List UInt8) :
    Accounted ⟨file,.write count user,next file (.write count user)⟩ := by
  by_cases full : file.granted count = 0
  · have none := callWriteFull inside full user
    exact keptAccounted inside (by simp only [next,none]) (by simp only [none,errorsNegative.2.1])
  · by_cases reaches : file.granted count ≤ user.length
    · obtain ⟨_,moved,ret,_⟩ := callWriteStores inside user (by omega) reaches
      exact movedAccounted inside (by simp) moved ret (grantedRoom inside count)
    · obtain ⟨same,_,reply⟩ := callWriteFaults inside (Nat.lt_of_not_le reaches)
      exact keptAccounted inside same (by simp only [reply,errorsNegative.1])

theorem refusedAccounted {offset : Int64} {whence : Int32}
    (refused : pcdLlseek file.dev file.fPos offset whence = ⟨-einval,file.fPos⟩) :
    Accounted ⟨file,.llseek offset whence,next file (.llseek offset whence)⟩ := by
  obtain ⟨step,ret⟩ := seekReply file offset whence
  exact keptAccounted inside (by rw [step,refused]) (by rw [ret,refused]; exact errorsNegative.2.2)

end Step

theorem landedAccounted {file : OpenFile} {offset fPos : Int64} {whence : Int32}
    (landed : pcdLlseek file.dev file.fPos offset whence = ⟨fPos,fPos⟩)
    (inside : Within file.dev.maxSize fPos)
    (relative : whence = seekCur → fPos.toInt = file.fPos.toInt + offset.toInt) :
    Accounted ⟨file,.llseek offset whence,next file (.llseek offset whence)⟩ := by
  obtain ⟨step,ret⟩ := seekReply file offset whence
  have high := inside.high
  rw [maxSizeValue] at high
  refine ⟨?_,?_,fun fails => ?_,fun _ => ?_⟩
  · simpa only [step,landed] using inside.low
  · simpa only [step,landed] using high
  · rw [ret,landed] at fails
    exact absurd (negative.mp fails) (Int.not_lt.mpr inside.low)
  · simp only [step,ret,landed,Reported]
    exact ⟨trivial,relative⟩

/- From a position p inside, a relative seek by d that passes the check lands on
p + (p + d): it is accounted for exactly when p is 0. -/
theorem relativeSeekAccounted {file : OpenFile} (inside : file.within) (offset : Int64) :
    Accounted ⟨file,.llseek offset seekCur,next file (.llseek offset seekCur)⟩ ↔
      ¬ RelativeSeekOffZero file (.llseek offset seekCur) := by
  have spec := seekCurSpec file.dev.maxSize file.fPos offset
  have range := sumWithinRange inside offset
  rw [maxSizeValue] at range
  by_cases lands : Within file.dev.maxSize (file.fPos + offset)
  · rw [if_pos lands] at spec
    have sum := relativeSum inside lands
    have bound := file.dev.maxSize.toInt_lt
    have low := inside.low
    have high := inside.high
    have low' := lands.low
    have high' := lands.high
    have twice : (file.fPos + (file.fPos + offset)).toInt = file.fPos.toInt + (file.fPos + offset).toInt :=
      MachineIntegers.sumWithin (by omega) (by omega)
    constructor
    · intro accounted off
      obtain ⟨_,notZero,_⟩ := off
      obtain ⟨step,ret⟩ := seekReply file offset seekCur
      have reported := accounted.reported (by rw [ret,pcdLlseek,spec,nonnegative,twice]; omega)
      simp only [step,ret,pcdLlseek,spec,Reported] at reported
      have moved := reported.2 trivial
      exact notZero (Int64.toInt_inj.mp (show file.fPos.toInt = (0 : Int64).toInt by
        have zero : (0 : Int64).toInt = 0 := rfl
        omega))
    · intro calm
      have zero : file.fPos = 0 := by
        by_contra notZero
        exact calm ⟨rfl,notZero,range.mp lands⟩
      have start : (0 : Int64).toInt = 0 := rfl
      have none : file.fPos + (file.fPos + offset) = file.fPos + offset := by
        apply Int64.toInt_inj.mp
        rw [twice,zero,start]; omega
      exact landedAccounted (by rw [pcdLlseek,spec,none]) lands (fun _ => sum)
  · rw [if_neg lands] at spec
    have calm : ¬ RelativeSeekOffZero file (.llseek offset seekCur) :=
      fun off => lands (range.mpr off.2.2)
    exact ⟨fun _ => calm,fun _ => refusedAccounted inside spec⟩

theorem seekAccounted {file : OpenFile} (inside : file.within) (offset : Int64) (whence : Int32) :
    Accounted ⟨file,.llseek offset whence,next file (.llseek offset whence)⟩ ↔
      ¬ RelativeSeekOffZero file (.llseek offset whence) := by
  by_cases cur : whence = seekCur
  · subst cur
    exact relativeSeekAccounted inside offset
  have calm : ¬ RelativeSeekOffZero file (.llseek offset whence) := fun off => cur off.1
  refine ⟨fun _ => calm,fun _ => ?_⟩
  by_cases set : whence = seekSet
  · subst set
    have spec := seekSetSpec file.dev.maxSize file.fPos offset
    split at spec
    · exact landedAccounted spec (by assumption) (fun same => absurd same cur)
    · exact refusedAccounted inside spec
  by_cases end_ : whence = seekEnd
  · subst end_
    have spec := seekEndSpec file.dev.maxSize file.fPos offset
    split at spec
    · exact landedAccounted spec (by assumption) (fun same => absurd same cur)
    · exact refusedAccounted inside spec
  · exact refusedAccounted inside (seekUnknown set cur end_)

theorem stepAccounted {file : OpenFile} (inside : file.within) (call : FileCall) :
    Accounted ⟨file,call,next file call⟩ ↔ ¬ RelativeSeekOffZero file call := by
  cases call with
  | read count mapped => exact ⟨fun _ => id,fun _ => readAccounted inside count mapped⟩
  | write count user => exact ⟨fun _ => id,fun _ => writeAccounted inside count user⟩
  | llseek offset whence => exact seekAccounted inside offset whence

theorem accountedWithin {file : OpenFile} {call : FileCall}
    (accounted : Accounted ⟨file,call,next file call⟩) : (next file call).within := by
  have size := callKeepsMaxSize file call
  refine ⟨accounted.low,?_⟩
  show (next file call).fPos.toInt ≤ (next file call).dev.maxSize.toInt
  rw [next,size,maxSizeValue]
  exact accounted.high

theorem positionAccounting (dev : PcdevPrivateData) (calls : List FileCall) :
    (∀ tr ∈ trace next ⟨dev,0⟩ calls, Accounted tr) ↔
      ∀ tr ∈ trace next ⟨dev,0⟩ calls, ¬ RelativeSeekOffZero tr.before tr.label :=
  traceExact OpenFile.within (fun file call => ¬ RelativeSeekOffZero file call)
    (fun _ call inside => stepAccounted inside call) (fun _ _ _ accounted => accountedWithin accounted)
    calls (startWithin dev)

theorem positionRunsPastTheEnd :
    ¬ ∀ tr ∈ trace next ⟨pcdevData 2,0⟩ [.llseek 600 seekSet,.llseek 0 seekCur], Accounted tr := by
  intro all
  have second := all ⟨⟨pcdevData 2,600⟩,.llseek 0 seekCur,⟨pcdevData 2,1200⟩⟩
    (List.mem_cons_of_mem _ List.mem_cons_self)
  exact absurd second.high (by decide)

end KernelFacilities.PositionAccounting
