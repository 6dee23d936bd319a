import KernelFacilities.DeviceFiles

/-! The single-device driver (002) over its static buffer, and everything that user
space can do to it through file descriptors, behind the same VFS as the multi-device
driver. Its open refuses no mode and its seeks stop at the one constant; that makes
it the other driver with a single device of that size, which anybody may read and
write. -/
namespace KernelFacilities.CharDriver
open CharTransfers

def devMemSize : Int32 := 512

abbrev DeviceBuffer := {buffer : List UInt8 // buffer.length = devMemSize.toInt.toNat}

def pcdRead (buffer : DeviceBuffer) (count : UInt64) (offset : Int64) (mapped : Nat) : Transfer :=
  readAt devMemSize buffer.val count offset mapped

def pcdWrite (buffer : DeviceBuffer) (count : UInt64) (offset : Int64) (user : List UInt8) : Transfer :=
  writeAt devMemSize buffer.val count offset user

end KernelFacilities.CharDriver

namespace KernelFacilities.CharDriverFiles
open CharDriver CharTransfers DeviceFiles FaultingStore Runs
open CharDriverMultipleDevices (FileCall PcdevPrivateData Reply ebadf rdww)

def pcdLlseek (fPos offset : Int64) (whence : Int32) : Seek := seekFrom devMemSize fPos offset whence

structure OpenFile where
  deviceBuffer : DeviceBuffer
  fPos : Int64

def vfsCall (file : OpenFile) : FileCall → OpenFile × Reply
  | .read count mapped =>
      let t := pcdRead file.deviceBuffer count.val file.fPos mapped
      (⟨file.deviceBuffer,if t.ret < 0 then file.fPos else t.offset⟩,⟨t.ret,t.delivered⟩)
  | .write count user =>
      let t := pcdWrite file.deviceBuffer count.val file.fPos user
      (⟨⟨t.buffer,(writeKeepsLength _ _ _ _ _).trans file.deviceBuffer.property⟩,
        if t.ret < 0 then file.fPos else t.offset⟩,⟨t.ret,t.delivered⟩)
  | .llseek offset whence =>
      let s := pcdLlseek file.fPos offset whence
      (⟨file.deviceBuffer,s.fPos⟩,⟨s.ret,[]⟩)

structure File where
  fMode : UInt32
  fPos : Int64

def pcdOpen (fMode : UInt32) : File × Int32 := (⟨fMode,0⟩,0)

structure System where
  deviceBuffer : DeviceBuffer
  files : List (Option File)

def System.file? (s : System) (n : Nat) : Option File := (s.files[n]?).join

def System.put (s : System) (n : Nat) (f : File) (o : OpenFile) : System :=
  ⟨o.deviceBuffer,s.files.set n (some { f with fPos := o.fPos })⟩

inductive Request where
  | open (fMode : UInt32)
  | read (file : Nat) (place : Option Position) (buff count : UInt64) (mapped : Nat)
  | write (file : Nat) (place : Option Position) (buff count : UInt64) (user : List UInt8)
  | lseek (file : Nat) (offset : Int64) (whence : Int32)
  | close (file : Nat)

def transfer (s : System) (n : Nat) (may : UInt32 → Bool) (place : Option Position) (buff count : UInt64)
    (call : Count → FileCall) : System × Reply :=
  match s.file? n with
  | none => (s,⟨-ebadf,[]⟩)
  | some f =>
      if may f.fMode then
        if accessOk buff count then
          let pos := (place.map Subtype.val).getD f.fPos
          if rwVerifyArea pos count then
            let (o,reply) := vfsCall ⟨s.deviceBuffer,pos⟩ (call (cut count))
            (s.put n f (if place.isNone then o else { o with fPos := f.fPos }),reply)
          else (s,⟨-einval,[]⟩)
        else (s,⟨-efault,[]⟩)
      else (s,⟨-ebadf,[]⟩)

def serve (s : System) : Request → System × Reply
  | .open fMode =>
      let (file,ret) := pcdOpen fMode
      if ret = 0 then (⟨s.deviceBuffer,s.files ++ [some file]⟩,⟨ret.toInt64,[]⟩) else (s,⟨ret.toInt64,[]⟩)
  | .read n place buff count mapped => transfer s n canRead place buff count (.read · mapped)
  | .write n place buff count user => transfer s n canWrite place buff count (.write · user)
  | .lseek n offset whence =>
      match s.file? n with
      | none => (s,⟨-ebadf,[]⟩)
      | some f =>
          let (o,reply) := vfsCall ⟨s.deviceBuffer,f.fPos⟩ (.llseek offset whence)
          (s.put n f o,reply)
  | .close n =>
      match s.file? n with
      | none => (s,⟨-ebadf,[]⟩)
      | some _ => (⟨s.deviceBuffer,s.files.set n none⟩,⟨0,[]⟩)

def serveNext (s : System) (request : Request) : System := (serve s request).1

def device (buffer : DeviceBuffer) : PcdevPrivateData :=
  ⟨buffer.val,512,rdww,by decide,by decide,buffer.property⟩

def image (f : File) : CharDriverMultipleDevices.File Unit := ⟨f.fMode,f.fPos,()⟩

def embed (s : System) : CharDriverMultipleDevices.System Unit :=
  ⟨fun _ => device s.deviceBuffer,s.files.map (Option.map image)⟩

def lift : Request → DeviceFiles.Request Unit
  | .open fMode => .open () fMode
  | .read n place buff count mapped => .read n place buff count mapped
  | .write n place buff count user => .write n place buff count user
  | .lseek n offset whence => .lseek n offset whence
  | .close n => .close n

theorem callEmbeds (buffer : DeviceBuffer) (pos : Int64) (call : FileCall) :
    CharDriverMultipleDevices.vfsCall ⟨device buffer,pos⟩ call =
      (⟨device (vfsCall ⟨buffer,pos⟩ call).1.deviceBuffer,(vfsCall ⟨buffer,pos⟩ call).1.fPos⟩,
        (vfsCall ⟨buffer,pos⟩ call).2) := by
  cases call <;> rfl

theorem fileEmbeds (s : System) (n : Nat) : (embed s).file? n = (s.file? n).map image := by
  simp only [CharDriverMultipleDevices.System.file?,System.file?,embed,List.getElem?_map]
  cases s.files[n]? with
  | none => rfl
  | some entry => rfl

theorem putEmbeds (s : System) (n : Nat) (f : File) (o : OpenFile) :
    (embed s).put n (image f) ⟨device o.deviceBuffer,o.fPos⟩ = embed (s.put n f o) := by
  have only (before : Unit → PcdevPrivateData) : Function.update before () (device o.deviceBuffer) =
      fun _ => device o.deviceBuffer := funext fun _ => Function.update_self ..
  simp only [CharDriverMultipleDevices.System.put,embed,image,only,System.put,List.map_set,Option.map_some]

theorem transferEmbeds (s : System) (n : Nat) (may : UInt32 → Bool) (place : Option Position) (buff count : UInt64)
    (call : Count → FileCall) : DeviceFiles.transfer (embed s) n may place buff count call =
      (embed (transfer s n may place buff count call).1,(transfer s n may place buff count call).2) := by
  unfold DeviceFiles.transfer transfer
  rw [fileEmbeds]
  cases s.file? n with
  | none => rfl
  | some f =>
    simp only [Option.map_some]
    by_cases granted : may f.fMode = true
    · by_cases legal : accessOk buff count = true
      · by_cases verified : rwVerifyArea ((place.map Subtype.val).getD f.fPos) count = true
        · have inside : (embed s).pcdevData () = device s.deviceBuffer := rfl
          simp only [image,granted,legal,verified,if_true,inside,callEmbeds]
          refine Prod.ext ?_ rfl
          cases place with
          | none => exact putEmbeds s n f _
          | some p => exact putEmbeds s n f ⟨_,f.fPos⟩
        · simp only [image,granted,legal,verified,if_true,if_false,Bool.false_eq_true]
      · simp only [image,granted,legal,if_true,if_false,Bool.false_eq_true]
    · simp only [image,granted,if_false,Bool.false_eq_true]

theorem serveEmbeds (s : System) (request : Request) :
    DeviceFiles.serve (embed s) (lift request) = (embed (serve s request).1,(serve s request).2) := by
  cases request with
  | «open» fMode =>
    have grants : CharDriverMultipleDevices.checkPermission rdww fMode.toInt32 = 0 := if_pos rfl
    simp only [lift,DeviceFiles.serve,CharDriverMultipleDevices.perform,CharDriverMultipleDevices.pcdOpen,embed,device,
      grants,if_true,serve,pcdOpen,List.map_append]
    rfl
  | read n place buff count mapped => exact transferEmbeds s n canRead place buff count (.read · mapped)
  | write n place buff count user => exact transferEmbeds s n canWrite place buff count (.write · user)
  | lseek n offset whence =>
    simp only [lift,DeviceFiles.serve,CharDriverMultipleDevices.perform,serve,fileEmbeds]
    cases s.file? n with
    | none => rfl
    | some f =>
      have opened : (embed s).openFile (image f) = ⟨device s.deviceBuffer,f.fPos⟩ := rfl
      simp only [Option.map_some,opened,callEmbeds,putEmbeds]
  | close n =>
    simp only [lift,DeviceFiles.serve,serve,fileEmbeds]
    cases s.file? n with
    | none => rfl
    | some f =>
      simp only [Option.map_some,CharDriverMultipleDevices.perform,embed,List.map_set]
      rfl

theorem nextEmbeds (s : System) (request : Request) :
    DeviceFiles.serveNext (embed s) (lift request) = embed (serveNext s request) :=
  congrArg Prod.fst (serveEmbeds s request)

def embedded (tr : Transition System Request) :
    Transition (CharDriverMultipleDevices.System Unit) (DeviceFiles.Request Unit) :=
  ⟨embed tr.before,lift tr.label,embed tr.after⟩

theorem traceEmbeds (s : System) (requests : List Request) :
    trace DeviceFiles.serveNext (embed s) (requests.map lift) = (trace serveNext s requests).map embedded := by
  induction requests generalizing s with
  | nil => rfl
  | cons request rest ih =>
    simp only [List.map_cons,trace,nextEmbeds,ih]
    rfl

def loaded (buffer : DeviceBuffer) : System := ⟨buffer,[]⟩

def wrote (tr : Transition System Request) (a : Nat) : Option UInt8 := DeviceFiles.wrote (embedded tr) () a

/- What the run of the driver has in common with the run of one array of 512 cells:
the answers, the content and the files after every request. -/
structure FollowsArray (buffer : DeviceBuffer) (log : List (Transition System Request))
    (reference : List (Transition (Store Unit UInt8) (Op Unit UInt8))) : Prop where
  lockstep : List.Forall₂ (fun tr image => image.label = view (fun _ => device buffer) (lift tr.label) ∧
    (∀ a, a < devMemSize.toInt.toNat → tr.after.deviceBuffer.val[a]? = some (image.after.cells () a)) ∧
    image.after.cursors = tr.after.files.map (Option.map (cursor ∘ CharDriverFiles.image)) ∧
    Agrees (serve tr.before tr.label).2
      (apply (rules fun _ => device buffer) image.before image.label).2) log reference
  latest : ∀ pre tr post, log = pre ++ tr :: post → ∀ a, a < devMemSize.toInt.toNat →
    tr.before.deviceBuffer.val[a]? = some (pre.foldl (fun b tr => (wrote tr a).getD b) ((buffer.val[a]?).getD 0))

theorem filesFollowArray (buffer : DeviceBuffer) (requests : List Request) :
    FollowsArray buffer (trace serveNext (loaded buffer) requests)
      (trace (applyNext (rules fun _ => device buffer)) (initial fun _ => device buffer)
        (requests.map fun request => view (fun _ => device buffer) (lift request))) := by
  have start : Related (fun _ => device buffer) (embed (loaded buffer)) (initial fun _ => device buffer) :=
    loadedRelated fun _ => device buffer
  have follows (s : System) (request : Request) (r : Store Unit UInt8)
      (related : Related (fun _ => device buffer) (embed s) r) : Related (fun _ => device buffer)
        (embed (serveNext s request))
        (applyNext (rules fun _ => device buffer) r (view (fun _ => device buffer) (lift request))) := by
    rw [← nextEmbeds]
    exact (requestFollows related (lift request)).1
  refine ⟨?_,fun pre tr post split a low => ?_⟩
  · refine (traceFollows (fun s r => Related (fun _ => device buffer) (embed s) r) (fun _ _ => True)
      (fun {s request r} _ related => follows s request r related) start (fun _ _ => trivial)).imp ?_
    rintro tr image ⟨before,_,label,after⟩
    have answered := (requestFollows before (lift tr.label)).2
    rw [serveEmbeds,← label] at answered
    refine ⟨label,fun a low => after.cells () a low,?_,answered⟩
    rw [after.cursors,embed,List.map_map]
    exact List.map_congr_left fun entry _ => by cases entry <;> rfl
  · have whole : trace DeviceFiles.serveNext (embed (loaded buffer)) (requests.map lift) =
        pre.map embedded ++ embedded tr :: post.map embedded := by
      rw [traceEmbeds,split,List.map_append,List.map_cons]
    have last := lastWrote start whole () a low
    rwa [List.foldl_map] at last

end KernelFacilities.CharDriverFiles
