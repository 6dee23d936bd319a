import KernelFacilities.CharDriverMultipleDevices
import KernelFacilities.LockedProgress
import KernelFacilities.LockedTransfers

/-! The multi-device driver with one mutex in each device
(spinlock/char_driver_multiple_devices.c): any number of reads and writes at once,
on any devices. Its mutex_lock waits without being interrupted, and the fault exit
of pcd_write returns before the unlock. A position may lie past the end of the
device, where the clamp underflows and the copy of that many bytes is refused; the
VFS refuses negative ones. -/
namespace KernelFacilities.SpinlockCharDriverMultipleDevices
open CharTransfers CharDriverMultipleDevices LockedSections LockedTransfers Runs

inductive Operation where
  | read (mapped : Nat)
  | write (user : List UInt8)

structure Request (κ : Type) where
  privateData : κ
  count : UInt64
  offset : Int64
  operation : Operation
  nonnegative : 0 ≤ offset.toInt

structure InsideRequest {κ : Type} (devices : κ → PcdevPrivateData) extends Request κ where
  reaches : offset.toInt ≤ (devices privateData).size.toNat

def pcdRead (dev : PcdevPrivateData) (count : UInt64) (offset : Int64) (mapped : Nat) : Body :=
  readSection .unlocks dev.maxSize count offset mapped none

def pcdWrite (dev : PcdevPrivateData) (count : UInt64) (offset : Int64) (user : List UInt8) : Body :=
  writeSection .unlocks .keeps dev.maxSize count offset user none

variable {ι κ : Type} (devices : κ → PcdevPrivateData)

def Request.body (request : Request κ) : Body :=
  match request.operation with
  | .read mapped => pcdRead (devices request.privateData) request.count request.offset mapped
  | .write user => pcdWrite (devices request.privateData) request.count request.offset user

def program (requests : ι → Request κ) : Program ι κ (List UInt8) Point Outcome :=
  ⟨fun i => (requests i).privateData,fun i => (requests i).body devices⟩

def buffers (d : κ) : List UInt8 := (devices d).buffer

/- A write whose user buffer ends before the transfer does, one past the end of the
device, or one whose unsigned sum of position and count wraps: of the last two
nothing is cut to fit, and the copy is refused. -/
def FaultingWrite (request : Request κ) : Prop :=
  match request.operation with
  | .read _ => False
  | .write user => 2 ^ 64 ≤ request.offset.toInt + request.count.toNat ∨
      (devices request.privateData).size.toNat < request.offset.toInt ∨
      user.length < min request.count.toNat
        ((devices request.privateData).size.toNat - request.offset.toNatClampNeg)

variable {devices}

theorem writeFaulting {dev : PcdevPrivateData} {count : UInt64} {offset : Int64} (user : List UInt8)
    (low : 0 ≤ offset.toInt) : writeExit .unlocks .keeps dev.maxSize count offset user = .unlocks ↔
      ¬ (2 ^ 64 ≤ offset.toInt + count.toNat ∨ dev.size.toNat < offset.toInt ∨
        user.length < min count.toNat (dev.size.toNat - offset.toNatClampNeg)) := by
  have size := maxSizeValue dev
  by_cases past : dev.size.toNat < offset.toInt
  · have large := transferLengthPastEnd dev.maxSize (by omega) (size ▸ past) count
    have some_ : transferLength dev.maxSize offset count ≠ 0 := by
      intro nothing
      rw [nothing] at large
      cases large
    have refused : uncopied (transferLength dev.maxSize offset count) user.length ≠ 0 := by
      rw [uncopied,copied,if_pos large]
      omega
    simp only [writeExit,some_,if_false,refused,ne_eq,not_false_eq_true,if_true,past,true_or,or_true,
      not_true_eq_false,iff_false]
    decide
  · have inside : Within dev.maxSize offset := ⟨low,by omega⟩
    have cut : granted dev.maxSize offset count = min count.toNat (dev.size.toNat - offset.toNatClampNeg) := by
      have index := indexOfWithin inside
      unfold granted
      omega
    have short := transferShort inside count user.length
    rw [cut] at short
    simp only [writeExit,past,false_or,← short]
    split
    · rename_i nothing
      simp [nothing,uncopied]
    · split <;> simp_all

theorem exitUnlocks (request : Request κ) :
    (request.body devices).exit = .unlocks ↔ ¬ FaultingWrite devices request := by
  obtain ⟨d,count,offset,operation,low⟩ := request
  cases operation with
  | read mapped =>
    simp only [Request.body,pcdRead,readSection,readExit,FaultingWrite,ite_self,not_false_eq_true]
  | write user => exact writeFaulting user low

theorem exitKeeps (request : Request κ) : (request.body devices).exit = .keeps ↔ FaultingWrite devices request := by
  rw [← not_iff_not,← exitUnlocks]
  cases (request.body devices).exit <;> simp

example : FaultingWrite pcdevData ⟨2,4,2000,.write [1,2,3,4],by decide⟩ := .inr (.inl (by decide))

section Runs
variable [DecidableEq ι] [DecidableEq κ]

theorem deviceLockDiscipline (requests : ι → InsideRequest devices) :
    ((∀ log t, Run (Step (program devices fun i => (requests i).toRequest)) (start (buffers devices)) log t →
        Disciplined (program devices fun i => (requests i).toRequest) t) ↔
      ∀ i, ¬ FaultingWrite devices (requests i).toRequest) ∧
    ∀ log t, Run (Step (program devices fun i => (requests i).toRequest)) (start (buffers devices)) log t →
      (Disciplined (program devices fun i => (requests i).toRequest) t ↔
        ∀ i ∈ t.acquired, (t.phase i).Returned → ¬ FaultingWrite devices (requests i).toRequest) :=
  disciplineExactly (program devices fun i => (requests i).toRequest) (buffers devices)
    (fun i => exitUnlocks (requests i).toRequest)

def shortWrite : InsideRequest pcdevData := ⟨⟨2,4,0,.write [1,2],fromTheStart⟩,by decide⟩

theorem shortWriteKeepsMutex :
    ¬ ∀ log t, Run (Step (program pcdevData fun _ : Unit => shortWrite.toRequest))
        (start (buffers pcdevData)) log t →
      Disciplined (program pcdevData fun _ : Unit => shortWrite.toRequest) t := by
  intro always
  obtain ⟨log,t,run,acquired,done⟩ :=
    callReturns (program pcdevData fun _ : Unit => shortWrite.toRequest) (buffers pcdevData) ()
  have unlocks := (disciplinedExactly (reachedInv run)).mp (always log t run) () acquired done
  exact absurd unlocks (by decide)

omit [DecidableEq ι] [DecidableEq κ] in
theorem neverInterrupted (requests : ι → Request κ) (i : ι) :
    ((program devices requests).body i).interrupted = none := by
  simp only [program,Request.body]
  cases (requests i).operation <;> rfl

theorem transfersSerialize (requests : ι → Request κ) {log t}
    (run : Run (Step (program devices requests)) (start (buffers devices)) log t)
    (settled : ∀ i, (t.phase i).Settled) :
    Serial (program devices requests) (buffers devices) t ∧ ∀ i, (t.phase i).Returned ↔ i ∈ t.acquired := by
  have inv := reachedInv run
  have serial := settledSerial inv settled
  have never := @neverInterrupted _ _ devices requests
  refine ⟨serial,fun i => ⟨fun done => ?_,fun acquired => ?_⟩⟩
  · rcases returnedBalance inv done with ⟨acquired,_⟩ | ⟨_,_,r,_,interrupted⟩
    · exact acquired
    · rw [never i] at interrupted
      cases interrupted
  · obtain ⟨r,replied⟩ := acquiredReplies (program devices requests) (buffers devices) acquired
    rw [serial.answers i r replied]
    trivial

end Runs

def oneByte : Bool → Request (Fin noOfDevices)
  | true => ⟨2,1,0,.write [7],fromTheStart⟩
  | false => ⟨2,1,0,.read 1,fromTheStart⟩

theorem readerAfterWriter :
    ∃ log t, Run (Step (program pcdevData oneByte)) (start (buffers pcdevData)) log t ∧
      t.phase false = .returned ⟨1,1,[7]⟩ ∧
      Serial (program pcdevData oneByte) (buffers pcdevData) t ∧ ∀ i, (t.phase i).Returned ↔ i ∈ t.acquired := by
  have run : Run (Step (program pcdevData oneByte)) (start (buffers pcdevData)) _ _ :=
    .cons (.acquire true rfl rfl) (.cons (.work true rfl rfl) (.cons (.work true rfl rfl)
      (.cons (.work true rfl rfl) (.cons (.work true rfl rfl) (.cons (.work true rfl rfl)
        (.cons (.unlock true rfl rfl) (.cons (.acquire false rfl rfl) (.cons (.work false rfl rfl)
          (.cons (.ret true rfl) (.cons (.work false rfl rfl) (.cons (.work false rfl rfl)
            (.cons (.work false rfl rfl) (.cons (.work false rfl rfl) (.cons (.unlock false rfl rfl)
              (.cons (.ret false rfl) (.nil _))))))))))))))))
  exact ⟨_,_,run,rfl,transfersSerialize oneByte run (fun i => by cases i <;> trivial)⟩

/- What a faulting write leaves behind. Its device is lost: the kernel's mutex_lock
cannot be interrupted, so whoever comes later sleeps for good. -/
section Progress
variable [DecidableEq ι] [DecidableEq κ] {devices : κ → PcdevPrivateData}

theorem faultLosesDevice (requests : ι → Request κ) {log s more t i}
    (before : Run (Step (program devices requests)) (start (buffers devices)) log s)
    (faults : FaultingWrite devices (requests i)) (done : (s.phase i).Returned)
    (later : Run (Step (program devices requests)) s more t) :
    t.objects (requests i).privateData = s.objects (requests i).privateData ∧
    ∀ j, (requests j).privateData = (requests i).privateData → s.phase j = .waiting → t.phase j = .waiting := by
  have inv := reachedInv before
  have never := @neverInterrupted _ _ devices requests
  obtain ⟨object,outside⟩ := LockedProgress.keptForEver inv (LockedProgress.returnedAcquired inv never done)
    ((exitKeeps (requests i)).mpr faults) done later
  refine ⟨object,fun j same waits => ?_⟩
  rcases (outside j same (LockedProgress.waitingOutside inv waits)).2 with still | ⟨r,_,interrupted⟩
  · exact still
  · rw [never j] at interrupted
    cases interrupted

def threeCalls : Fin 3 → Request (Fin noOfDevices)
  | 0 => shortWrite.toRequest
  | 1 => ⟨2,1,0,.read 1,fromTheStart⟩
  | 2 => ⟨3,1,0,.read 1,fromTheStart⟩

theorem shortWriteLosesDevice :
    ∃ log s more t, Run (Step (program pcdevData threeCalls)) (start (buffers pcdevData)) log s ∧
      Run (Step (program pcdevData threeCalls)) s more t ∧ t.phase 0 = .returned ⟨-efault,0,[]⟩ ∧
      t.phase 2 = .returned ⟨1,1,[0]⟩ ∧ t.objects 2 = s.objects 2 ∧
      ∀ j, (threeCalls j).privateData = 2 → s.phase j = .waiting → t.phase j = .waiting := by
  have before : Run (Step (program pcdevData threeCalls)) (start (buffers pcdevData)) _ _ :=
    .cons (.acquire 0 rfl rfl) (.cons (.work 0 rfl rfl) (.cons (.work 0 rfl rfl) (.cons (.work 0 rfl rfl)
      (.cons (.work 0 rfl rfl) (.cons (.work 0 rfl rfl) (.cons (.work 0 rfl rfl) (.cons (.work 0 rfl rfl)
        (.cons (.leak 0 rfl rfl) (.nil _)))))))))
  have faults : FaultingWrite pcdevData shortWrite.toRequest := (exitKeeps shortWrite.toRequest).mp rfl
  refine ⟨_,_,_,_,before,(and_iff_left_of_imp fun later => ⟨?_,?_,
    faultLosesDevice (i := 0) threeCalls before faults trivial later⟩).mpr
      (.cons (.acquire 2 rfl rfl) (.cons (.work 2 rfl rfl) (.cons (.work 2 rfl rfl)
        (.cons (.work 2 rfl rfl) (.cons (.work 2 rfl rfl) (.cons (.work 2 rfl rfl) (.cons (.unlock 2 rfl rfl)
          (.cons (.ret 2 rfl) (.nil _)))))))))⟩
  · rfl
  · rfl

theorem transfersEnd [Fintype ι] (requests : ι → Request κ) :
    (¬ ∃ states : Nat → State ι κ (List UInt8) Point Outcome, states 0 = start (buffers devices) ∧
      ∀ n, ∃ a, Step (program devices requests) (states n) a (states (n + 1))) ∧
    ∀ log s, Run (Step (program devices requests)) (start (buffers devices)) log s →
      ((∀ a t, ¬ Step (program devices requests) s a t) ↔ ∀ i, (s.phase i).Returned ∨
        (s.phase i = .waiting ∧ ∃ j, (requests j).privateData = (requests i).privateData ∧
          FaultingWrite devices (requests j) ∧ (s.phase j).Returned)) := by
  refine ⟨LockedProgress.runsEnd _ _,fun log s run => ?_⟩
  have inv := reachedInv run
  have never := @neverInterrupted _ _ devices requests
  rw [LockedProgress.stuckExactly inv]
  refine forall_congr' fun i => or_congr_right ⟨?_,?_⟩
  · rintro ⟨waits,_,j,same,_,keeps,done⟩
    exact ⟨waits,j,same,(exitKeeps (requests j)).mp keeps,done⟩
  · rintro ⟨waits,j,same,faults,done⟩
    exact ⟨waits,never i,j,same,LockedProgress.returnedAcquired inv never done,
      (exitKeeps (requests j)).mpr faults,done⟩

theorem allCanReturnExactly [Fintype ι] (requests : ι → Request κ) {log s}
    (run : Run (Step (program devices requests)) (start (buffers devices)) log s) :
    (∃ more t, Run (Step (program devices requests)) s more t ∧ ∀ i, (t.phase i).Returned) ↔
    (∀ i ∈ s.acquired, FaultingWrite devices (requests i) →
      ∀ j, (requests j).privateData = (requests i).privateData → s.phase j ≠ .waiting) ∧
    ∀ i j, s.phase i = .waiting → s.phase j = .waiting → FaultingWrite devices (requests i) →
      FaultingWrite devices (requests j) →
      (requests i).privateData = (requests j).privateData → i = j := by
  have inv := reachedInv run
  rw [LockedProgress.allReturnExactly inv (neverInterrupted _)]
  have keeps : ∀ i, ((program devices requests).body i).exit = .keeps ↔
      FaultingWrite devices (requests i) := fun i => exitKeeps (requests i)
  constructor
  · intro finishable
    exact ⟨fun i acquired faults => finishable.behind i acquired ((keeps i).mpr faults),
      fun i j first second faults faults' => finishable.apart i j first second ((keeps i).mpr faults)
        ((keeps j).mpr faults')⟩
  · rintro ⟨behind,apart⟩
    exact ⟨fun i acquired kept => behind i acquired ((keeps i).mp kept),
      fun i j first second kept kept' => apart i j first second ((keeps i).mp kept) ((keeps j).mp kept')⟩

theorem threeCallsReturn :
    ∃ more t, Run (Step (program pcdevData threeCalls)) (start (buffers pcdevData)) more t ∧
      ∀ i, (t.phase i).Returned := by
  refine (allCanReturnExactly threeCalls (.nil _)).mpr ⟨by simp [start],fun i j _ _ first second _ => ?_⟩
  have only : ∀ i, FaultingWrite pcdevData (threeCalls i) → i = 0 := by
    rintro ⟨_ | _ | _ | i,low⟩ faults
    · rfl
    · cases faults
    · cases faults
    · omega
  rw [only i first,only j second]

end Progress

end KernelFacilities.SpinlockCharDriverMultipleDevices
