import KernelFacilities.LockedProgress
import KernelFacilities.LockedTransfers

/-! The single-device driver with one mutex (spinlock/char_driver.c): any number of
reads and writes at once, from any positions that the VFS admits, past the end of the
device too. A signal takes a call out of the queue for the mutex with nothing
touched. The exit of pcd_write for an empty transfer returns before the unlock. -/
namespace KernelFacilities.SpinlockCharDriver
open CharTransfers LockedSections LockedTransfers Runs

def devMemSize : Int32 := 512

inductive Operation where
  | read (mapped : Nat)
  | write (user : List UInt8)

structure Request where
  count : UInt64
  offset : Int64
  operation : Operation
  nonnegative : 0 ≤ offset.toInt

def interrupted (offset : Int64) : Outcome := ⟨-eintr,offset,[]⟩

def pcdRead (count : UInt64) (offset : Int64) (mapped : Nat) : Body :=
  readSection .unlocks devMemSize count offset mapped (some (interrupted offset))

def pcdWrite (count : UInt64) (offset : Int64) (user : List UInt8) : Body :=
  writeSection .keeps .unlocks devMemSize count offset user (some (interrupted offset))

def Request.body (request : Request) : Body :=
  match request.operation with
  | .read mapped => pcdRead request.count request.offset mapped
  | .write user => pcdWrite request.count request.offset user

def program {ι : Type} (requests : ι → Request) : Program ι Unit (List UInt8) Point Outcome :=
  ⟨fun _ => (),fun i => (requests i).body⟩

/- A write whose request is cut to nothing: nothing was asked for at a position of the
device, or the position is its end and the unsigned sum of position and count does
not wrap. Past the end nothing is cut to nothing: the clamp underflows. -/
def EmptyWrite (request : Request) : Prop :=
  match request.operation with
  | .read _ => False
  | .write _ => (request.count = 0 ∧ request.offset.toInt ≤ devMemSize.toInt) ∨
      (request.offset = devMemSize.toInt64 ∧ devMemSize.toInt + request.count.toNat < 2 ^ 64)

theorem cutToNothing {count : UInt64} {offset : Int64} (low : 0 ≤ offset.toInt) :
    transferLength devMemSize offset count = 0 ↔ (count = 0 ∧ offset.toInt ≤ devMemSize.toInt) ∨
      (offset = devMemSize.toInt64 ∧ devMemSize.toInt + count.toNat < 2 ^ 64) := by
  have size : devMemSize.toInt = 512 := rfl
  rw [← Int64.toInt_inj,Int32.toInt_toInt64]
  by_cases past : devMemSize.toInt < offset.toInt
  · have large := transferLengthPastEnd devMemSize (by decide) past count
    refine ⟨fun nothing => ?_,fun either => ?_⟩
    · rw [nothing] at large
      cases large
    · omega
  · have inside : Within devMemSize offset := ⟨low,by omega⟩
    have zero : (0 : UInt64).toNat = 0 := rfl
    rw [transferEmpty inside,grantedNothing inside,← UInt64.toNat_inj]
    omega

theorem exitUnlocks (request : Request) : request.body.exit = .unlocks ↔ ¬ EmptyWrite request := by
  obtain ⟨count,offset,operation,low⟩ := request
  cases operation with
  | read mapped =>
    simp only [Request.body,pcdRead,readSection,readExit,EmptyWrite,ite_self,not_false_eq_true]
  | write user =>
    simp only [Request.body,pcdWrite,writeSection,writeExit,EmptyWrite,ite_self,← cutToNothing low]
    split <;> simp_all

variable {ι : Type} [DecidableEq ι]

theorem lockDiscipline (requests : ι → Request) (buffer : Unit → List UInt8) :
    ((∀ log t, Run (Step (program requests)) (start buffer) log t → Disciplined (program requests) t) ↔
      ∀ i, ¬ EmptyWrite (requests i)) ∧
    ∀ log t, Run (Step (program requests)) (start buffer) log t →
      (Disciplined (program requests) t ↔
        ∀ i ∈ t.acquired, (t.phase i).Returned → ¬ EmptyWrite (requests i)) :=
  disciplineExactly (program requests) buffer (fun i => exitUnlocks (requests i))

def writeAtEnd : Request := ⟨5,512,.write [1,2,3,4,5],by decide⟩

theorem writeAtEndKeepsMutex :
    ¬ ∀ log t, Run (Step (program fun _ : Unit => writeAtEnd)) (start fun _ => List.replicate 512 0) log t →
      Disciplined (program fun _ : Unit => writeAtEnd) t := by
  intro always
  obtain ⟨log,t,run,acquired,done⟩ :=
    callReturns (program fun _ : Unit => writeAtEnd) (fun _ => List.replicate 512 0) ()
  have unlocks := (disciplinedExactly (reachedInv run)).mp (always log t run) () acquired done
  exact absurd unlocks (by decide)

omit [DecidableEq ι] in
theorem interruptible (requests : ι → Request) (i : ι) :
    ((program requests).body i).interrupted = some (interrupted (requests i).offset) := by
  simp only [program,Request.body]
  cases (requests i).operation <;> rfl

/- At every moment the calls that acquired have taken effect one after another: each
result is what its call alone would have answered in its place, a call that came back
with -EINTR has none, and a call that returned precedes all that had not acquired. -/
theorem callsLinearize (requests : ι → Request) (buffer : Unit → List UInt8) {log s more t}
    (before : Run (Step (program requests)) (start buffer) log s)
    (later : Run (Step (program requests)) s more t) :
    t.acquired.Nodup ∧
    (∀ i r, t.phase i = .returned r → (i,r) ∈ replies (program requests) buffer t.acquired ∨
      (i ∉ t.acquired ∧ r = interrupted (requests i).offset)) ∧
    ((∀ i l, t.phase i ≠ .holding l) → t.objects = after (program requests) buffer t.acquired) ∧
    ∀ i j, i ∈ t.acquired → (s.phase i).Returned → j ∈ t.acquired → s.phase j = .waiting →
      t.acquired.idxOf i < t.acquired.idxOf j := by
  have linear := LockedProgress.runLinearized (reachedInv before) later
  refine ⟨linear.once,fun i r done => ?_,fun nobody => ?_,linear.order⟩
  · rcases linear.answers i r done with replied | ⟨outside,answer⟩
    · exact .inl replied
    · rw [interruptible] at answer
      exact .inr ⟨outside,(Option.some.inj answer).symm⟩
  · exact funext fun k => linear.objects k (fun i l inside => absurd inside (nobody i l))

def threeCalls : Fin 3 → Request
  | 0 => ⟨1,0,.write [7],fromTheStart⟩
  | 1 => ⟨1,0,.read 1,fromTheStart⟩
  | 2 => ⟨1,0,.read 1,fromTheStart⟩

theorem readAfterWriteLinearizes :
    ∃ log s more t, Run (Step (program threeCalls)) (start fun _ => List.replicate 512 0) log s ∧
      Run (Step (program threeCalls)) s more t ∧ t.phase 1 = .returned ⟨1,1,[7]⟩ ∧
      (1,⟨1,1,[7]⟩) ∈ replies (program threeCalls) (fun _ => List.replicate 512 0) t.acquired ∧
      t.acquired.idxOf 0 < t.acquired.idxOf 1 := by
  have before : Run (Step (program threeCalls)) (start fun _ => List.replicate 512 0) _ _ :=
    .cons (.acquire 0 rfl rfl) (.cons (.work 0 rfl rfl) (.cons (.work 0 rfl rfl) (.cons (.work 0 rfl rfl)
      (.cons (.work 0 rfl rfl) (.cons (.work 0 rfl rfl) (.cons (.unlock 0 rfl rfl)
        (.cons (.ret 0 rfl) (.nil _))))))))
  refine ⟨_,_,_,_,before,(and_iff_left_of_imp fun later => ?_).mpr
    (.cons (.interrupt 2 rfl rfl) (.cons (.acquire 1 rfl rfl) (.cons (.work 1 rfl rfl) (.cons (.work 1 rfl rfl)
      (.cons (.work 1 rfl rfl) (.cons (.work 1 rfl rfl) (.cons (.work 1 rfl rfl) (.cons (.unlock 1 rfl rfl)
        (.cons (.ret 1 rfl) (.nil _))))))))))⟩
  have linear := callsLinearize threeCalls (fun _ => List.replicate 512 0) before later
  refine ⟨rfl,?_,linear.2.2.2 0 1 (by decide) trivial (by decide) rfl⟩
  exact (linear.2.1 1 ⟨1,1,[7]⟩ rfl).resolve_right (fun never => absurd (by decide) never.1)

theorem exitKeeps (request : Request) : request.body.exit = .keeps ↔ EmptyWrite request := by
  rw [← not_iff_not,← exitUnlocks]
  cases request.body.exit <;> simp

theorem emptyWriteLosesDevice (requests : ι → Request) (buffer : Unit → List UInt8) {log s more t i}
    (before : Run (Step (program requests)) (start buffer) log s) (empty : EmptyWrite (requests i))
    (acquired : i ∈ s.acquired) (done : (s.phase i).Returned) (later : Run (Step (program requests)) s more t) :
    t.objects = s.objects ∧ t.acquired = s.acquired ∧
    ∀ j, j ∉ s.acquired → t.phase j = .waiting ∨ t.phase j = .returned (interrupted (requests j).offset) := by
  have inv := reachedInv before
  obtain ⟨object,outside⟩ := LockedProgress.keptForEver inv acquired ((exitKeeps (requests i)).mpr empty) done later
  obtain ⟨grown,all⟩ := LockedProgress.acquiredExtends later
  refine ⟨funext fun _ => object,?_,fun j fresh => ?_⟩
  · cases grown with
    | nil => rw [all,List.append_nil]
    | cons j rest =>
      have mem : j ∈ t.acquired := all ▸ List.mem_append_right _ List.mem_cons_self
      have once := acquiresOnce (runKeeps (Inv _ _) stepKeeps later inv) j
      by_cases old : j ∈ s.acquired
      · rw [all,List.count_append,List.count_cons_self] at once
        have twice := List.count_pos_iff.mpr old
        omega
      · exact absurd mem (outside j rfl old).1
  · rcases (outside j rfl fresh).2 with waits | ⟨r,point,answer⟩
    · exact .inl waits
    · rw [interruptible] at answer
      exact .inr (point.trans (Option.some.inj answer ▸ rfl))

def twoCalls : Bool → Request
  | true => writeAtEnd
  | false => ⟨1,0,.read 1,fromTheStart⟩

theorem writeAtEndLosesDevice :
    ∃ log s more t, Run (Step (program twoCalls)) (start fun _ => List.replicate 512 0) log s ∧
      Run (Step (program twoCalls)) s more t ∧ t.phase true = .returned ⟨-enomem,512,[]⟩ ∧
      t.phase false = .returned ⟨-eintr,0,[]⟩ ∧ t.objects = s.objects ∧ t.acquired = s.acquired ∧
      ∀ j, j ∉ s.acquired → t.phase j = .waiting ∨ t.phase j = .returned (interrupted (twoCalls j).offset) := by
  have before : Run (Step (program twoCalls)) (start fun _ => List.replicate 512 0) _ _ :=
    .cons (.acquire true rfl rfl) (.cons (.work true rfl rfl) (.cons (.leak true rfl rfl) (.nil _)))
  have empty : EmptyWrite (twoCalls true) := (exitKeeps writeAtEnd).mp (by decide)
  refine ⟨_,_,_,_,before,(and_iff_left_of_imp fun later => ⟨rfl,rfl,?_⟩).mpr
    (.cons (.interrupt false rfl rfl) (.nil _))⟩
  exact emptyWriteLosesDevice twoCalls _ before empty (by decide) trivial later

/- Every interleaving ends, and with all calls returned: a signal gets a call out of
the queue even of a mutex that nobody will unlock. Without one there is no other
deadlock than behind an empty write that has returned. -/
theorem callsEnd [Fintype ι] (requests : ι → Request) (buffer : Unit → List UInt8) :
    (¬ ∃ states : Nat → State ι Unit (List UInt8) Point Outcome, states 0 = start buffer ∧
      ∀ n, ∃ a, Step (program requests) (states n) a (states (n + 1))) ∧
    ∀ log s, Run (Step (program requests)) (start buffer) log s →
      ((∀ a t, ¬ Step (program requests) s a t) ↔ ∀ i, (s.phase i).Returned) ∧
      ((∀ a t, Step (program requests) s a t → ∃ i, a = .interrupt i) ↔ ∀ i, (s.phase i).Returned ∨
        (s.phase i = .waiting ∧ ∃ j ∈ s.acquired, EmptyWrite (requests j) ∧ (s.phase j).Returned)) := by
  refine ⟨LockedProgress.runsEnd _ _,fun log s run => ⟨?_,?_⟩⟩
  · rw [LockedProgress.stuckExactly (reachedInv run)]
    refine forall_congr' fun i => or_iff_left ?_
    rintro ⟨_,never,_⟩
    rw [interruptible] at never
    cases never
  · rw [LockedProgress.calmExactly (reachedInv run)]
    refine forall_congr' fun i => or_congr_right (and_congr_right fun _ => ⟨?_,?_⟩)
    · rintro ⟨j,_,acquired,keeps,done⟩
      exact ⟨j,acquired,(exitKeeps (requests j)).mp keeps,done⟩
    · rintro ⟨j,acquired,empty,done⟩
      exact ⟨j,rfl,acquired,(exitKeeps (requests j)).mpr empty,done⟩

end KernelFacilities.SpinlockCharDriver
