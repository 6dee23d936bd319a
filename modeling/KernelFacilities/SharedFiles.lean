import KernelFacilities.CharDriverFiles
import KernelFacilities.FullDevices
import KernelFacilities.SharedCells
import KernelFacilities.SpinlockCharDriver
import KernelFacilities.SpinlockCharDriverMultipleDevices

/-! Reads and writes of the mutex-protected drivers through files that threads share.
The VFS hands pcd_read and pcd_write a copy of f_pos and stores it back when they are
done; it locks f_pos for regular files and directories only, and the mutexes of the
drivers are taken after the copy and given back before the store. The calls are those
that reach the driver: a transfer that the VFS refuses, for the mode of the file or for
its range, copies and stores no position and makes no call. -/
namespace KernelFacilities.SharedFiles
open CharTransfers CharDriverMultipleDevices LockedTransfers Runs SharedCells
open LockedSections (acquiresOnce)
open SpinlockCharDriverMultipleDevices (Operation buffers)

variable {ι κ : Type}

def transferAt (maxSize : Int32) (buffer : List UInt8) (count : UInt64) (offset : Int64) : Operation → Transfer
  | .read mapped => readAt maxSize buffer count offset mapped
  | .write user => writeAt maxSize buffer count offset user

structure Driver where
  fits : UInt32 → Prop
  body : PcdevPrivateData → UInt64 → Int64 → Operation → Body
  alone : ∀ dev, fits dev.size → ∀ count offset operation buffer,
    (body dev count offset operation).alone buffer =
      ((transferAt dev.maxSize buffer count offset operation).buffer,
        outcome (transferAt dev.maxSize buffer count offset operation))
  interrupted : ∀ dev count offset operation r,
    (body dev count offset operation).interrupted = some r → r.ret = -eintr ∧ r.delivered = []

def charDriverMultipleDevices : Driver where
  fits := fun _ => True
  body := fun dev count offset operation =>
    match operation with
    | .read mapped => SpinlockCharDriverMultipleDevices.pcdRead dev count offset mapped
    | .write user => SpinlockCharDriverMultipleDevices.pcdWrite dev count offset user
  alone := fun dev _ count offset operation buffer => by cases operation <;> rfl
  interrupted := fun dev count offset operation r answer => by cases operation <;> cases answer

def charDriver : Driver where
  fits := fun size => size = 512
  body := fun _ count offset operation =>
    match operation with
    | .read mapped => SpinlockCharDriver.pcdRead count offset mapped
    | .write user => SpinlockCharDriver.pcdWrite count offset user
  alone := fun dev size count offset operation buffer => by
    have same : dev.maxSize = SpinlockCharDriver.devMemSize := congrArg UInt32.toInt32 size
    rw [same]
    cases operation <;> rfl
  interrupted := fun dev count offset operation r answer => by
    cases operation <;> cases answer <;> exact ⟨rfl,rfl⟩

structure FileTransfer (s : System κ) where
  file : Nat
  entry : File κ
  opened : s.file? file = some entry
  count : Count
  operation : Operation

def fileCall (count : Count) : Operation → FileCall
  | .read mapped => .read count mapped
  | .write user => .write count user

def reply (r : Outcome) : Reply := ⟨r.ret,r.delivered⟩

def storesBack (r : Outcome) : Option Int64 := if r.ret < 0 then none else some r.offset

theorem storedBack (r : Outcome) (pos : Int64) :
    (storesBack r).getD pos = if r.ret < 0 then pos else r.offset := by
  unfold storesBack
  split <;> rfl

section Transfers
variable (driver : Driver) {s : System κ} (transfers : ι → FileTransfer s)

def calls : Calls ι Nat κ Int64 (List UInt8) Point Outcome where
  lockOf := fun i => (transfers i).entry.privateData
  cellOf := fun i => (transfers i).file
  body := fun i offset => driver.body (s.pcdevData (transfers i).entry.privateData) (transfers i).count.val offset
    (transfers i).operation
  stores := storesBack
  givenUp := fun i offset r interrupted => by
    have negative : r.ret < 0 := (driver.interrupted _ _ _ _ _ interrupted).1 ▸ by decide
    exact if_pos negative

def positions (s : System κ) (n : Nat) : Int64 := ((s.file? n).map File.fPos).getD 0

variable [DecidableEq κ]

def call (i : ι) : Call κ := .io (transfers i).file (fileCall (transfers i).count (transfers i).operation)

def inTurn (order : List ι) : System κ := order.foldl (fun u i => performNext u (call transfers i)) s

def answers (u : System κ) : List ι → List (ι × Reply)
  | [] => []
  | i :: rest => (i,(perform u (call transfers i)).2) :: answers (performNext u (call transfers i)) rest

end Transfers

section Mirror
variable {driver : Driver} {s u : System κ}

structure Mirrors (s : System κ) (w : World Nat κ Int64 (List UInt8)) (u : System κ) : Prop where
  objects : ∀ d, w.objects d = (u.pcdevData d).buffer
  sizes : ∀ d, (u.pcdevData d).size = (s.pcdevData d).size
  cells : ∀ n f, u.file? n = some f → w.cells n = f.fPos
  files : ∀ n, (u.file? n).map File.privateData = (s.file? n).map File.privateData

theorem startMirrors (s : System κ) : Mirrors s ⟨positions s,buffers s.pcdevData⟩ s := by
  refine ⟨fun _ => rfl,fun _ => rfl,fun n f found => ?_,fun _ => rfl⟩
  simp only [positions,found,Option.map_some,Option.getD_some]

theorem readKeepsBuffer (maxSize : Int32) (buffer : List UInt8) (count : UInt64) (offset : Int64) (mapped : Nat) :
    (readAt maxSize buffer count offset mapped).buffer = buffer := by
  simp only [readAt]
  split <;> rfl

theorem aloneCalls {dev other : PcdevPrivateData} (fits : driver.fits other.size) (same : dev.size = other.size)
    (count : Count) (pos : Int64) (operation : Operation) {result : List UInt8 × Outcome}
    (ran : (driver.body other count.val pos operation).alone dev.buffer = result) :
    result.1 = (vfsCall ⟨dev,pos⟩ (fileCall count operation)).1.dev.buffer ∧
    (storesBack result.2).getD pos = (vfsCall ⟨dev,pos⟩ (fileCall count operation)).1.fPos ∧
    reply result.2 = (vfsCall ⟨dev,pos⟩ (fileCall count operation)).2 := by
  have sizes : other.maxSize = dev.maxSize := by rw [PcdevPrivateData.maxSize,PcdevPrivateData.maxSize,same]
  rw [driver.alone other fits,sizes] at ran
  subst ran
  rw [storedBack]
  cases operation with
  | read mapped =>
    simp only [transferAt,fileCall,vfsCall,pcdRead,outcome,reply,readKeepsBuffer]
    exact ⟨trivial,rfl,trivial⟩
  | write user =>
    simp only [transferAt,fileCall,vfsCall,pcdWrite,outcome,reply,storeBuffer]
    exact ⟨trivial,rfl,trivial⟩

variable [DecidableEq κ] {transfers : ι → FileTransfer s} {w : World Nat κ Int64 (List UInt8)}
  (fits : ∀ d, driver.fits (s.pcdevData d).size)
include fits

theorem turnMirrors (mirrors : Mirrors s w u) (i : ι) :
    Mirrors s ((calls driver transfers).turn w i) (performNext u (call transfers i)) ∧
    reply ((calls driver transfers).result w i).2 = (perform u (call transfers i)).2 := by
  have open_ := mirrors.files (transfers i).file
  rw [(transfers i).opened,Option.map_some] at open_
  obtain ⟨f,found,of⟩ := Option.map_eq_some_iff.mp open_
  have standing := mirrors.cells _ f found
  have ran : (driver.body (s.pcdevData f.privateData) (transfers i).count.val f.fPos (transfers i).operation).alone
      (u.pcdevData f.privateData).buffer = (calls driver transfers).result w i := by
    rw [Calls.result,of,← mirrors.objects,← standing]
    rfl
  obtain ⟨stored,moved,answered⟩ := aloneCalls (fits f.privateData) (mirrors.sizes f.privateData)
    (transfers i).count f.fPos (transfers i).operation ran
  have done : perform u (call transfers i) = (u.put (transfers i).file f (vfsCall (u.openFile f)
      (fileCall (transfers i).count (transfers i).operation)).1,(vfsCall (u.openFile f)
      (fileCall (transfers i).count (transfers i).operation)).2) := by
    simp only [call,perform,found]
  have lock : (calls driver transfers).lockOf i = f.privateData := of.symm
  rw [performNext,done]
  refine ⟨⟨fun d => ?_,fun d => ?_,fun m g there => ?_,fun m => ?_⟩,answered⟩
  · by_cases here : d = f.privateData
    · subst here
      simp only [Calls.turn,lock,System.put,Function.update_self]
      exact stored
    · simp only [Calls.turn,lock,System.put,Function.update_of_ne here]
      exact mirrors.objects d
  · by_cases here : d = f.privateData
    · subst here
      simp only [System.put,Function.update_self,(callKeepsDevice _ _).1]
      exact mirrors.sizes _
    · simp only [System.put,Function.update_of_ne here]
      exact mirrors.sizes d
  · rw [DeviceFiles.putFile found] at there
    split at there
    · rename_i here
      subst here
      cases there
      refine (turnHere (calls driver transfers) w i).trans ?_
      rw [show w.cells ((calls driver transfers).cellOf i) = f.fPos from standing]
      exact moved
    · rename_i here
      exact (turnElsewhere (calls driver transfers) w here).trans (mirrors.cells m g there)
  · rw [DeviceFiles.putFile found]
    split
    · rename_i here
      subst here
      rw [(transfers i).opened]
      exact congrArg some of
    · exact mirrors.files m

theorem turnsMirror (mirrors : Mirrors s w u) (order : List ι) :
    Mirrors s ((calls driver transfers).turns w order)
      (order.foldl (fun u i => performNext u (call transfers i)) u) ∧
    answers transfers u order = ((calls driver transfers).repliesOf w order).map fun said => (said.1,reply said.2) := by
  induction order generalizing w u with
  | nil => exact ⟨mirrors,rfl⟩
  | cons i rest ih =>
    obtain ⟨next,answered⟩ := turnMirrors fits mirrors i
    obtain ⟨last,more⟩ := ih next
    refine ⟨last,?_⟩
    simp only [answers,Calls.repliesOf,List.map_cons,more,answered]

end Mirror

section Threads
variable {driver : Driver} [DecidableEq ι] [DecidableEq κ] {s : System κ}

abbrev Moment (ι κ : Type) := State ι Nat κ Int64 (List UInt8) Point Outcome

def began (s : System κ) : Moment ι κ := start (positions s) (buffers s.pcdevData)

/- The threads as the calls of one thread that took turns: a call that acquired replies
what the driver without threads replies in that turn, and so it is with what the
devices hold that nobody is inside of and with where the files stand that nobody uses. -/
structure InTurns (transfers : ι → FileTransfer s) (t : Moment ι κ) : Prop where
  once : t.locked.acquired.Nodup
  replies : ∀ i r, t.locked.phase i = .returned r → i ∈ t.locked.acquired →
    (i,reply r) ∈ answers transfers s t.locked.acquired
  others : ∀ i r, t.locked.phase i = .returned r → i ∉ t.locked.acquired → reply r = ⟨-eintr,[]⟩
  devices : ∀ d, (∀ i l, t.locked.phase i = .holding l → (transfers i).entry.privateData ≠ d) →
    t.locked.objects d = ((inTurn transfers t.locked.acquired).pcdevData d).buffer
  files : ∀ n f, (inTurn transfers t.locked.acquired).file? n = some f →
    (∀ i, (transfers i).file = n → ¬ (t.stage i).Inside) → t.cells n = f.fPos

theorem aloneInTurns (fits : ∀ d, driver.fits (s.pcdevData d).size) {transfers : ι → FileTransfer s} {log t}
    (run : Run (Step (calls driver transfers)) (began s) log t)
    (alone : ∀ tr ∈ log, Alone (calls driver transfers) tr.before tr.label) : InTurns transfers t := by
  have orderly := runOrderly run alone
  have inv := orderly.locked _ (argsFit (calls driver transfers) t)
  obtain ⟨mirrors,replied⟩ := @turnsMirror _ _ _ _ _ _ transfers _ fits (startMirrors s) t.locked.acquired
  refine ⟨List.nodup_iff_count_le_one.mpr (acquiresOnce inv),fun i r done acquired => ?_,fun i r done never => ?_,
    fun d nobody => ?_,fun n f found nobody => ?_⟩
  · rw [replied]
    exact List.mem_map.mpr ⟨(i,r),returnedReplies orderly done acquired,rfl⟩
  · rcases LockedProgress.neverAcquired inv never with waits | ⟨r',point,interrupted⟩
    · rw [waits] at done
      cases done
    · rw [point] at done
      cases done
      obtain ⟨ret,data⟩ := driver.interrupted _ _ _ _ _ interrupted
      rw [reply,ret,data]
  · rw [inv.idle d nobody,orderly.objects _ (argsFit (calls driver transfers) t)]
    exact mirrors.objects d
  · exact (orderly.standing.settled n fun i _ same => nobody i same).trans (mirrors.cells n f found)

/- In every interleaving each call does what it would do alone from the position it
copied. When no two calls use one file at the same time, that is where the calls
before it left the file, and the threads are one thread. -/
theorem sharedFilesLinearize (transfers : ι → FileTransfer s) {log u more t}
    (before : Run (Step (calls charDriverMultipleDevices transfers)) (began s) log u)
    (later : Run (Step (calls charDriverMultipleDevices transfers)) u more t) :
    LockedProgress.Linearized ((calls charDriverMultipleDevices transfers).program
      ((calls charDriverMultipleDevices transfers).args t)) (buffers s.pcdevData) u.locked t.locked ∧
    (∀ i, (t.locked.phase i).Returned → i ∈ t.locked.acquired) ∧
    ((∀ tr ∈ log ++ more, Alone (calls charDriverMultipleDevices transfers) tr.before tr.label) →
      InTurns transfers t) := by
  have whole := runAppend before later
  refine ⟨sharedLinearized before later,fun i done => ?_,aloneInTurns (fun _ => trivial) whole⟩
  have inv := reachedLocked whole (argsFit (calls charDriverMultipleDevices transfers) t)
  refine LockedProgress.returnedAcquired inv (fun j => ?_) done
  simp only [Calls.program,calls,charDriverMultipleDevices]
  cases (transfers j).operation <;> rfl

theorem sharedBufferLinearize (s : CharDriverFiles.System) (transfers : ι → FileTransfer (CharDriverFiles.embed s))
    {log u more t} (before : Run (Step (calls charDriver transfers)) (began (CharDriverFiles.embed s)) log u)
    (later : Run (Step (calls charDriver transfers)) u more t) :
    LockedProgress.Linearized ((calls charDriver transfers).program ((calls charDriver transfers).args t))
      (fun _ => s.deviceBuffer.val) u.locked t.locked ∧
    ((∀ tr ∈ log ++ more, Alone (calls charDriver transfers) tr.before tr.label) → InTurns transfers t) :=
  ⟨sharedLinearized before later,aloneInTurns (fun _ => rfl) (runAppend before later)⟩

end Threads

def oneFile : System Bool := ⟨DeviceFiles.twoBytes,[some ⟨3,0,true⟩]⟩

def readers (_ : Bool) : FileTransfer oneFile := ⟨0,⟨3,0,true⟩,rfl,DeviceFiles.cut 1,.read 1⟩

theorem readersInTurns : ∃ log t, Run (Step (calls charDriverMultipleDevices readers)) (began oneFile) log t ∧
    t.locked.phase false = .returned ⟨1,2,[0]⟩ ∧ InTurns readers t := by
  have first : Run (Step (calls charDriverMultipleDevices readers)) (began oneFile) _ _ :=
    .cons (.enter true rfl) (.cons (.move (fun _ => 0) rfl (.acquire true rfl rfl))
      (.cons (.move (fun _ => 0) rfl (.work true rfl rfl)) (.cons (.move (fun _ => 0) rfl (.work true rfl rfl))
        (.cons (.move (fun _ => 0) rfl (.work true rfl rfl)) (.cons (.move (fun _ => 0) rfl (.work true rfl rfl))
          (.cons (.move (fun _ => 0) rfl (.work true rfl rfl)) (.cons (.move (fun _ => 0) rfl (.unlock true rfl rfl))
            (.cons (.move (fun _ => 0) rfl (.ret true rfl)) (.cons (.leave true rfl rfl) (.nil _))))))))))
  have second : Run (Step (calls charDriverMultipleDevices readers)) _ _ _ :=
    runAppend first (.cons (.enter false rfl) (.cons (.move (fun _ => 1) rfl (.acquire false rfl rfl))
      (.cons (.move (fun _ => 1) rfl (.work false rfl rfl)) (.cons (.move (fun _ => 1) rfl (.work false rfl rfl))
        (.cons (.move (fun _ => 1) rfl (.work false rfl rfl)) (.cons (.move (fun _ => 1) rfl (.work false rfl rfl))
          (.cons (.move (fun _ => 1) rfl (.work false rfl rfl)) (.cons (.move (fun _ => 1) rfl (.unlock false rfl rfl))
            (.cons (.move (fun _ => 1) rfl (.ret false rfl)) (.cons (.leave false rfl rfl) (.nil _)))))))))))
  refine ⟨_,_,second,rfl,(sharedFilesLinearize readers second (.nil _)).2.2 ?_⟩
  refine List.forall_mem_append.mpr ⟨List.forall_mem_append.mpr ⟨?_,?_⟩,nofun⟩
  · refine List.forall_mem_cons.mpr ⟨fun _ inside => inside.elim,?_⟩
    repeat refine List.forall_mem_cons.mpr ⟨trivial,?_⟩
    exact nofun
  · refine List.forall_mem_cons.mpr ⟨fun j inside => by cases j <;> exact inside.elim,?_⟩
    repeat refine List.forall_mem_cons.mpr ⟨trivial,?_⟩
    exact nofun

theorem readersAtOnce : ∃ log t, Run (Step (calls charDriverMultipleDevices readers)) (began oneFile) log t ∧
    (∀ i, (t.locked.phase i).Returned) ∧ ¬ InTurns readers t := by
  have first : Run (Step (calls charDriverMultipleDevices readers)) (began oneFile) _ _ :=
    .cons (.enter true rfl) (.cons (.enter false rfl) (.cons (.move (fun _ => 0) rfl (.acquire true rfl rfl))
      (.cons (.move (fun _ => 0) rfl (.work true rfl rfl)) (.cons (.move (fun _ => 0) rfl (.work true rfl rfl))
        (.cons (.move (fun _ => 0) rfl (.work true rfl rfl)) (.cons (.move (fun _ => 0) rfl (.work true rfl rfl))
          (.cons (.move (fun _ => 0) rfl (.work true rfl rfl)) (.cons (.move (fun _ => 0) rfl (.unlock true rfl rfl))
            (.cons (.move (fun _ => 0) rfl (.ret true rfl)) (.nil _))))))))))
  have second : Run (Step (calls charDriverMultipleDevices readers)) _ _ _ :=
    runAppend first (.cons (.move (fun _ => 0) rfl (.acquire false rfl rfl))
      (.cons (.move (fun _ => 0) rfl (.work false rfl rfl)) (.cons (.move (fun _ => 0) rfl (.work false rfl rfl))
        (.cons (.move (fun _ => 0) rfl (.work false rfl rfl)) (.cons (.move (fun _ => 0) rfl (.work false rfl rfl))
          (.cons (.move (fun _ => 0) rfl (.work false rfl rfl)) (.cons (.move (fun _ => 0) rfl (.unlock false rfl rfl))
            (.cons (.move (fun _ => 0) rfl (.ret false rfl)) (.cons (.leave true rfl rfl)
              (.cons (.leave false rfl rfl) (.nil _)))))))))))
  refine ⟨_,_,second,fun i => by cases i <;> trivial,fun turns => ?_⟩
  have stands := turns.files 0 ⟨3,2,true⟩ rfl fun i _ inside => by cases i <;> exact inside.elim
  exact absurd stands (by decide)

def twoFiles : CharDriverFiles.System := ⟨FullDevices.clearedBuffer,[some ⟨3,0⟩,some ⟨3,0⟩]⟩

def ownFile : Bool → FileTransfer (CharDriverFiles.embed twoFiles)
  | true => ⟨0,⟨3,0,()⟩,rfl,DeviceFiles.cut 1,.read 1⟩
  | false => ⟨1,⟨3,0,()⟩,rfl,DeviceFiles.cut 1,.read 1⟩

theorem interruptedInTurns :
    ∃ log t, Run (Step (calls charDriver ownFile)) (began (CharDriverFiles.embed twoFiles)) log t ∧
      t.locked.phase true = .returned ⟨1,1,[0]⟩ ∧ t.locked.phase false = .returned ⟨-eintr,0,[]⟩ ∧
      InTurns ownFile t := by
  have first : Run (Step (calls charDriver ownFile)) (began (CharDriverFiles.embed twoFiles)) _ _ :=
    .cons (.enter true rfl) (.cons (.move (fun _ => 0) rfl (.acquire true rfl rfl)) (.nil _))
  have second : Run (Step (calls charDriver ownFile)) _ _ _ :=
    runAppend first (.cons (.enter false rfl) (.cons (.move (fun _ => 0) rfl (.interrupt false rfl rfl))
      (.cons (.move (fun _ => 0) rfl (.work true rfl rfl)) (.cons (.move (fun _ => 0) rfl (.work true rfl rfl))
        (.cons (.move (fun _ => 0) rfl (.work true rfl rfl)) (.cons (.move (fun _ => 0) rfl (.work true rfl rfl))
          (.cons (.move (fun _ => 0) rfl (.work true rfl rfl)) (.cons (.move (fun _ => 0) rfl (.unlock true rfl rfl))
            (.cons (.move (fun _ => 0) rfl (.ret true rfl)) (.cons (.leave false rfl rfl)
              (.cons (.leave true rfl rfl) (.nil _))))))))))))
  refine ⟨_,_,second,rfl,rfl,(sharedBufferLinearize twoFiles ownFile second (.nil _)).2 ?_⟩
  refine List.forall_mem_append.mpr ⟨List.forall_mem_append.mpr ⟨?_,?_⟩,nofun⟩
  · refine List.forall_mem_cons.mpr ⟨fun _ inside => inside.elim,?_⟩
    repeat refine List.forall_mem_cons.mpr ⟨trivial,?_⟩
    exact nofun
  · refine List.forall_mem_cons.mpr ⟨fun j inside => ?_,?_⟩
    · cases j
      · exact inside.elim
      · decide
    · repeat refine List.forall_mem_cons.mpr ⟨trivial,?_⟩
      exact nofun

end KernelFacilities.SharedFiles
