import KernelFacilities.CharTransfers

/-! The multi-device character driver (003) and the part of the VFS that calls
it: the calls on an open file, open itself, and the table of devices. A file that failed
to open gets no descriptor, and none is handed out twice. Log output, the serial number
and the registration at load are not part of this model. -/
namespace KernelFacilities.CharDriverMultipleDevices
open CharTransfers

def rdonly : Int32 := 0x01
def wronly : Int32 := 0x10
def rdww : Int32 := 0x11

structure PcdevPrivateData where
  buffer : List UInt8
  size : UInt32
  perm : Int32
  positive : 0 < size.toNat
  fits : size.toNat ≤ intMax
  sized : buffer.length = size.toNat
  deriving DecidableEq

def PcdevPrivateData.maxSize (dev : PcdevPrivateData) : Int32 := dev.size.toInt32

def PcdevPrivateData.store (dev : PcdevPrivateData) (buffer : List UInt8)
    (same : buffer.length = dev.buffer.length) : PcdevPrivateData :=
  { dev with buffer := buffer, sized := same.trans dev.sized }

@[simp] theorem storeBuffer (dev : PcdevPrivateData) (buffer same) :
    (dev.store buffer same).buffer = buffer := rfl

theorem maxSizeValue (dev : PcdevPrivateData) : dev.maxSize.toInt = dev.size.toNat :=
  MachineIntegers.intOfSmallUnsigned dev.fits

def zeroed (size : UInt32) (perm : Int32) (positive : 0 < size.toNat) (fits : size.toNat ≤ intMax) :
    PcdevPrivateData :=
  ⟨List.replicate size.toNat 0,size,perm,positive,fits,List.length_replicate⟩

abbrev noOfDevices : Nat := 4

def memSizeMaxDev1 : UInt32 := 1024
def memSizeMaxDev2 : UInt32 := 1024
def memSizeMaxDev3 : UInt32 := 1024
def memSizeMaxDev4 : UInt32 := 1024

def pcdevData : Fin noOfDevices → PcdevPrivateData
  | 0 => zeroed memSizeMaxDev1 rdonly (by decide) (by decide)
  | 1 => zeroed memSizeMaxDev2 wronly (by decide) (by decide)
  | 2 => zeroed memSizeMaxDev3 rdww (by decide) (by decide)
  | 3 => zeroed memSizeMaxDev4 rdww (by decide) (by decide)

def pcdRead (dev : PcdevPrivateData) (count : UInt64) (offset : Int64) (mapped : Nat) : Transfer :=
  readAt dev.maxSize dev.buffer count offset mapped

def pcdWrite (dev : PcdevPrivateData) (count : UInt64) (offset : Int64) (user : List UInt8) : Transfer :=
  writeAt dev.maxSize dev.buffer count offset user

def pcdLlseek (dev : PcdevPrivateData) (fPos offset : Int64) (whence : Int32) : Seek :=
  seekFrom dev.maxSize fPos offset whence

inductive FileCall where
  | read (count : Count) (mapped : Nat)
  | write (count : Count) (user : List UInt8)
  | llseek (offset : Int64) (whence : Int32)
  deriving DecidableEq

structure Reply where
  ret : Int64
  data : List UInt8
  deriving DecidableEq, Repr

structure OpenFile where
  dev : PcdevPrivateData
  fPos : Int64
  deriving DecidableEq

/- read(2) and write(2) hand the driver a copy of f_pos and store it back unless
the call failed; lseek(2) leaves f_pos to the driver. -/
def vfsCall (file : OpenFile) : FileCall → OpenFile × Reply
  | .read count mapped =>
      let t := pcdRead file.dev count.val file.fPos mapped
      (⟨file.dev,if t.ret < 0 then file.fPos else t.offset⟩,⟨t.ret,t.delivered⟩)
  | .write count user =>
      let t := pcdWrite file.dev count.val file.fPos user
      (⟨file.dev.store t.buffer (writeKeepsLength _ _ _ _ _),if t.ret < 0 then file.fPos else t.offset⟩,
        ⟨t.ret,t.delivered⟩)
  | .llseek offset whence =>
      let s := pcdLlseek file.dev file.fPos offset whence
      (⟨file.dev,s.fPos⟩,⟨s.ret,[]⟩)

abbrev OpenFile.within (file : OpenFile) : Prop := Within file.dev.maxSize file.fPos

def OpenFile.granted (file : OpenFile) (count : Count) : Nat :=
  CharTransfers.granted file.dev.maxSize file.fPos count.val

theorem startWithin (dev : PcdevPrivateData) : (OpenFile.mk dev 0).within := by
  have size := maxSizeValue dev
  exact ⟨Int.le_refl 0,size ▸ Int.natCast_nonneg _⟩

theorem grantedMin {file : OpenFile} (inside : file.within) (count : Count) :
    file.granted count = min count.val.toNat (file.dev.size.toNat - file.fPos.toNatClampNeg) := by
  have index := indexOfWithin inside
  have size := maxSizeValue file.dev
  unfold OpenFile.granted CharTransfers.granted
  omega

theorem errorsNegative : -efault < 0 ∧ -enomem < 0 ∧ -einval < 0 := by decide

theorem negative {x : Int64} : x < 0 ↔ x.toInt < 0 := Int64.lt_iff_toInt_lt

section Calls
variable {file : OpenFile} (inside : file.within)
include inside

theorem callReadDelivers {count : Count} {mapped : Nat} (reaches : file.granted count ≤ mapped) :
    (vfsCall file (.read count mapped)).1.dev = file.dev ∧
    (vfsCall file (.read count mapped)).1.fPos.toInt = file.fPos.toInt + file.granted count ∧
    (vfsCall file (.read count mapped)).2.ret.toInt = file.granted count ∧
    (vfsCall file (.read count mapped)).2.data =
      ByteSpans.span file.dev.buffer file.fPos.toNatClampNeg (file.granted count) := by
  obtain ⟨ret,moved,_,data⟩ := readDelivers inside file.dev.buffer
    (countDoesNotWrap inside count) reaches
  have kept : ¬ (pcdRead file.dev count.val file.fPos mapped).ret < 0 := by
    rw [negative,pcdRead,ret]
    omega
  have called : vfsCall file (.read count mapped) =
      (⟨file.dev,(pcdRead file.dev count.val file.fPos mapped).offset⟩,
        ⟨(pcdRead file.dev count.val file.fPos mapped).ret,
          (pcdRead file.dev count.val file.fPos mapped).delivered⟩) := by
    simp only [vfsCall,kept,if_false]
  rw [called]
  exact ⟨rfl,moved,ret,data⟩

theorem callReadFaults {count : Count} {mapped : Nat} (short : mapped < file.granted count) :
    vfsCall file (.read count mapped) =
      (file,⟨-efault,ByteSpans.span file.dev.buffer file.fPos.toNatClampNeg mapped⟩) := by
  have fault := readFaults inside file.dev.buffer (countDoesNotWrap inside count) short
  simp only [vfsCall,pcdRead,fault,errorsNegative.1,if_true]

theorem callWriteFull {count : Count} (full : file.granted count = 0) (user : List UInt8) :
    vfsCall file (.write count user) = (file,⟨-enomem,[]⟩) := by
  have none := writeFull inside file.dev.buffer (countDoesNotWrap inside count) full user
  simp only [vfsCall,pcdWrite,none,errorsNegative.2.1,if_true,PcdevPrivateData.store]

theorem callWriteStores {count : Count} (user : List UInt8) (some_ : 0 < file.granted count)
    (reaches : file.granted count ≤ user.length) :
    (vfsCall file (.write count user)).1.dev.buffer =
      ByteSpans.patch file.dev.buffer file.fPos.toNatClampNeg (user.take (file.granted count)) ∧
    (vfsCall file (.write count user)).1.fPos.toInt = file.fPos.toInt + file.granted count ∧
    (vfsCall file (.write count user)).2.ret.toInt = file.granted count ∧
    (vfsCall file (.write count user)).2.data = [] := by
  obtain ⟨ret,moved,stored,data⟩ := writeStores inside file.dev.buffer
    (countDoesNotWrap inside count) some_ reaches
  have kept : ¬ (pcdWrite file.dev count.val file.fPos user).ret < 0 := by
    rw [negative,pcdWrite,ret]; omega
  refine ⟨stored,?_,ret,data⟩
  simp only [vfsCall,kept,if_false]
  exact moved

theorem callWriteFaults {count : Count} {user : List UInt8} (short : user.length < file.granted count) :
    (vfsCall file (.write count user)).1.fPos = file.fPos ∧
    (vfsCall file (.write count user)).1.dev.buffer =
      ByteSpans.patch file.dev.buffer file.fPos.toNatClampNeg
        (user ++ List.replicate (file.granted count - user.length) 0) ∧
    (vfsCall file (.write count user)).2 = ⟨-efault,[]⟩ := by
  have fault := writeFaults inside file.dev.buffer (countDoesNotWrap inside count) short
  simp only [vfsCall,pcdWrite,fault,errorsNegative.1,if_true,storeBuffer,OpenFile.granted,and_self]

end Calls

theorem callKeepsDevice (file : OpenFile) (call : FileCall) :
    (vfsCall file call).1.dev.size = file.dev.size ∧ (vfsCall file call).1.dev.perm = file.dev.perm := by
  cases call with
  | read => exact ⟨rfl,rfl⟩
  | write => exact ⟨rfl,rfl⟩
  | llseek => exact ⟨rfl,rfl⟩

theorem callKeepsMaxSize (file : OpenFile) (call : FileCall) :
    (vfsCall file call).1.dev.maxSize = file.dev.maxSize := by
  simp [PcdevPrivateData.maxSize,(callKeepsDevice file call).1]

def fmodeRead : Int32 := 1
def fmodeWrite : Int32 := 2

def truth (x : Int32) : Bool := x != 0

def checkPermission (devPerm mode : Int32) : Int32 :=
  if devPerm = rdww then 0
  else if devPerm = rdonly ∧ (truth mode && truth fmodeRead) ∧ !(truth mode && truth fmodeWrite) then 0
  else if devPerm = wronly ∧ (truth mode && truth fmodeWrite) ∧ !(truth mode && truth fmodeRead) then 0
  else -eperm

theorem permissionAnswer (devPerm mode : Int32) :
    checkPermission devPerm mode = 0 ∨ checkPermission devPerm mode = -eperm := by
  unfold checkPermission
  split
  · exact .inl rfl
  · split
    · exact .inl rfl
    · split
      · exact .inl rfl
      · exact .inr rfl

theorem refusal {devPerm mode : Int32} (denied : checkPermission devPerm mode ≠ 0) :
    checkPermission devPerm mode = -eperm :=
  (permissionAnswer devPerm mode).resolve_left denied

section System
variable {ι : Type}

structure File (ι : Type) where
  fMode : UInt32
  fPos : Int64
  privateData : ι

/- The inode's i_cdev is the cdev embedded in one device, and container_of gives
that device back; a device is named by its index in the table. -/
def pcdOpen (devices : ι → PcdevPrivateData) (iCdev : ι) (fMode : UInt32) : File ι × Int32 :=
  (⟨fMode,0,iCdev⟩,checkPermission (devices iCdev).perm fMode.toInt32)

structure System (ι : Type) where
  pcdevData : ι → PcdevPrivateData
  files : List (Option (File ι))

inductive Call (ι : Type) where
  | open (iCdev : ι) (fMode : UInt32)
  | io (file : Nat) (call : FileCall)
  | release (file : Nat)

def ebadf : Int64 := 9

def System.file? (s : System ι) (file : Nat) : Option (File ι) := (s.files[file]?).join

theorem fileAppended {s : System ι} {devices : ι → PcdevPrivateData} {entry : Option (File ι)} {n : Nat}
    {f : File ι} (found : (System.mk devices (s.files ++ [entry])).file? n = some f) :
    s.file? n = some f ∨ entry = some f := by
  unfold System.file? at found ⊢
  by_cases old : n < s.files.length
  · rw [List.getElem?_append_left old] at found
    exact .inl found
  · rw [List.getElem?_append_right (Nat.le_of_not_lt old),List.getElem?_singleton] at found
    split at found
    · exact .inr found
    · cases found

theorem fileReplaced {s : System ι} {devices : ι → PcdevPrivateData} {entry : Option (File ι)} {m n : Nat}
    {f : File ι} (found : (System.mk devices (s.files.set m entry)).file? n = some f) :
    s.file? n = some f ∨ entry = some f := by
  unfold System.file? at found ⊢
  rw [List.getElem?_set] at found
  split at found
  · split at found
    · exact .inr found
    · cases found
  · exact .inl found

def System.openFile (s : System ι) (f : File ι) : OpenFile := ⟨s.pcdevData f.privateData,f.fPos⟩

def loaded (devices : ι → PcdevPrivateData) : System ι := ⟨devices,[]⟩

variable [DecidableEq ι]

def System.put (s : System ι) (file : Nat) (f : File ι) (o : OpenFile) : System ι :=
  ⟨Function.update s.pcdevData f.privateData o.dev,s.files.set file (some { f with fPos := o.fPos })⟩

def perform (s : System ι) : Call ι → System ι × Reply
  | .open iCdev fMode =>
      let (file,ret) := pcdOpen s.pcdevData iCdev fMode
      if ret = 0 then (⟨s.pcdevData,s.files ++ [some file]⟩,⟨ret.toInt64,[]⟩)
      else (s,⟨ret.toInt64,[]⟩)
  | .io file call =>
      match s.file? file with
      | none => (s,⟨-ebadf,[]⟩)
      | some f => (s.put file f (vfsCall (s.openFile f) call).1,(vfsCall (s.openFile f) call).2)
  | .release file => (⟨s.pcdevData,s.files.set file none⟩,⟨0,[]⟩)

def performNext (s : System ι) (call : Call ι) : System ι := (perform s call).1

end System

end KernelFacilities.CharDriverMultipleDevices
