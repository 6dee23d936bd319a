import KernelFacilities.CharDriverMultipleDevices
import KernelFacilities.FaultingStore
import KernelFacilities.Runs
import Mathlib.Data.List.Forall2

/-! Everything that user space can do to the devices of the multi-device driver
(003) through file descriptors. The VFS in front of the driver checks the mode of
the file, that the buffer lies in the user's part of the address space and the range
of the request, in this order; it cuts the count and passes f_pos, or the position
that pread(2) and pwrite(2) were given and accept. Copies may fault and seeks are of
every kind, so a file may stand anywhere. -/
namespace KernelFacilities.DeviceFiles
open CharTransfers CharDriverMultipleDevices FaultingStore Runs

variable {ι : Type}

def canRead (fMode : UInt32) : Bool := fMode.toInt32 &&& fmodeRead != 0
def canWrite (fMode : UInt32) : Bool := fMode.toInt32 &&& fmodeWrite != 0

/- Of a 64-bit x86 with four levels of page tables. -/
def taskSizeMax : Nat := 2 ^ 47 - 4096

def accessOk (buff count : UInt64) : Bool := buff.toNat + count.toNat ≤ taskSizeMax

def rwVerifyArea (pos : Int64) (count : UInt64) : Bool :=
  ¬ count.toInt64 < 0 ∧ ¬ pos < 0 ∧ ¬ pos + count.toInt64 < 0

def cut (count : UInt64) : Count :=
  if small : count.toNat ≤ maxRwCount then ⟨count,small⟩ else ⟨UInt64.ofNat maxRwCount,by decide⟩

inductive Request (ι : Type) where
  | open (iCdev : ι) (fMode : UInt32)
  | read (file : Nat) (place : Option Position) (buff count : UInt64) (mapped : Nat)
  | write (file : Nat) (place : Option Position) (buff count : UInt64) (user : List UInt8)
  | lseek (file : Nat) (offset : Int64) (whence : Int32)
  | close (file : Nat)
  deriving DecidableEq

variable [DecidableEq ι]

def transfer (s : System ι) (n : Nat) (may : UInt32 → Bool) (place : Option Position) (buff count : UInt64)
    (call : Count → FileCall) : System ι × Reply :=
  match s.file? n with
  | none => (s,⟨-ebadf,[]⟩)
  | some f =>
      if may f.fMode then
        if accessOk buff count then
          let pos := (place.map Subtype.val).getD f.fPos
          if rwVerifyArea pos count then
            let (o,reply) := vfsCall ⟨s.pcdevData f.privateData,pos⟩ (call (cut count))
            (s.put n f (if place.isNone then o else { o with fPos := f.fPos }),reply)
          else (s,⟨-einval,[]⟩)
        else (s,⟨-efault,[]⟩)
      else (s,⟨-ebadf,[]⟩)

def serve (s : System ι) : Request ι → System ι × Reply
  | .open iCdev fMode => perform s (.open iCdev fMode)
  | .read n place buff count mapped => transfer s n canRead place buff count (.read · mapped)
  | .write n place buff count user => transfer s n canWrite place buff count (.write · user)
  | .lseek n offset whence => perform s (.io n (.llseek offset whence))
  | .close n =>
      match s.file? n with
      | none => (s,⟨-ebadf,[]⟩)
      | some _ => perform s (.release n)

def serveNext (s : System ι) (request : Request ι) : System ι := (serve s request).1

/- Where a seek leads over the integers: positions wrap like the loff_t they are kept
in, and from a position p, SEEK_CUR adds p twice. -/
def wrapped (x : Int) : Int := x.bmod (2 ^ 64)

def target (offset : Int) (whence : Int32) (size : Nat) (p : Int) : Option Int :=
  let temp := wrapped (p + offset)
  if whence = seekSet then if 0 ≤ offset ∧ offset ≤ size then some offset else none
  else if whence = seekCur then if 0 ≤ temp ∧ temp ≤ size then some (wrapped (p + temp)) else none
  else if whence = seekEnd then if 0 ≤ temp ∧ temp ≤ size then some temp else none
  else none

def rules (devices : ι → PcdevPrivateData) : Rules ι UInt8 where
  size := fun d => (devices d).size.toNat
  admits := fun p count => 0 ≤ p ∧ p + count < 2 ^ 63
  cap := maxRwCount
  pad := 0

def opened (devices : ι → PcdevPrivateData) (d : ι) (fMode : UInt32) : Bool :=
  checkPermission (devices d).perm fMode.toInt32 == 0

def placeAt (place : Option Position) : Option Int := place.map fun p => p.val.toInt

def view (devices : ι → PcdevPrivateData) : Request ι → Op ι UInt8
  | .open iCdev fMode => .attach ⟨iCdev,canRead fMode,canWrite fMode,0⟩ (opened devices iCdev fMode)
  | .read n place buff count mapped => .fetch n (placeAt place) (accessOk buff count) count.toNat mapped
  | .write n place buff count user => .put n (placeAt place) (accessOk buff count) count.toNat user
  | .lseek n offset whence => .move n (target offset.toInt whence)
  | .close n => .detach n

def Agrees (reply : Reply) : Answer UInt8 → Prop
  | .attached | .detached => reply.ret = 0
  | .refused => reply.ret = -1
  | .missing => reply.ret = -ebadf
  | .inadmissible | .outside => reply.ret = -einval
  | .values data => reply.ret.toInt = data.length ∧ reply.data = data
  | .fault data => reply.ret = -efault ∧ reply.data = data
  | .stored count => reply.ret.toInt = count
  | .full => reply.ret = -enomem
  | .moved position => reply.ret.toInt = position

def cursor (f : File ι) : Cursor ι := ⟨f.privateData,canRead f.fMode,canWrite f.fMode,f.fPos.toInt⟩

structure Related (devices : ι → PcdevPrivateData) (s : System ι) (r : Store ι UInt8) : Prop where
  shape : ∀ d, (s.pcdevData d).size = (devices d).size ∧ (s.pcdevData d).perm = (devices d).perm
  cells : ∀ d a, a < (devices d).size.toNat → (s.pcdevData d).buffer[a]? = some (r.cells d a)
  cursors : r.cursors = s.files.map (Option.map cursor)

theorem verifyAdmits (pos : Int64) (count : UInt64) :
    rwVerifyArea pos count = decide (0 ≤ pos.toInt ∧ pos.toInt + count.toNat < 2 ^ 63) := by
  have word := MachineIntegers.signedOfWord count
  have small := count.toNat_lt
  have most := pos.toInt_lt
  have zero : (0 : Int64).toInt = 0 := rfl
  unfold rwVerifyArea
  simp only [negative]
  congr 1
  rw [Int64.toInt_add,word,eq_iff_iff]
  by_cases large : 2 ^ 63 ≤ count.toNat
  · have wraps : (count.toNat : Int).bmod (2 ^ 64) < 0 := by
      rw [Int.bmod_eq_emod]
      split <;> omega
    exact ⟨fun fits => absurd wraps fits.1,fun fits => by omega⟩
  · have same : (count.toNat : Int).bmod (2 ^ 64) = count.toNat := Int.bmod_eq_of_le (by omega) (by omega)
    rw [same]
    constructor
    · rintro ⟨_,low,high⟩
      refine ⟨by omega,?_⟩
      by_contra beyond
      have wraps : (pos.toInt + count.toNat).bmod (2 ^ 64) < 0 := by
        rw [Int.bmod_eq_emod]
        split <;> omega
      exact high wraps
    · rintro ⟨low,high⟩
      have sum : (pos.toInt + count.toNat).bmod (2 ^ 64) = pos.toInt + count.toNat :=
        Int.bmod_eq_of_le (by omega) (by omega)
      rw [sum]
      omega

omit [DecidableEq ι] in
theorem admitsVerified (devices : ι → PcdevPrivateData) (pos : Int64) (count : UInt64) :
    (rules devices).admits pos.toInt count.toNat = rwVerifyArea pos count := (verifyAdmits pos count).symm

theorem cutValue (count : UInt64) : (cut count).val.toNat = min count.toNat maxRwCount := by
  unfold cut
  split
  · rename_i small
    exact (Nat.min_eq_left small).symm
  · rename_i large
    rw [Nat.min_eq_right (Nat.le_of_not_le large)]
    rfl

section PastEnd
variable {file : OpenFile} (past : (file.dev.size.toNat : Int) < file.fPos.toInt) (count : Count)
include past

theorem lengthPastEnd : intMax < (transferLength file.dev.maxSize file.fPos count.val).toNat := by
  have size := maxSizeValue file.dev
  exact transferLengthPastEnd file.dev.maxSize (by omega) (by omega) count

theorem uncopiedPastEnd (mapped : Nat) : uncopied (transferLength file.dev.maxSize file.fPos count.val) mapped ≠ 0 := by
  have large := lengthPastEnd past count
  rw [uncopied,copied,if_pos large]
  omega

theorem callReadPastEnd (mapped : Nat) : vfsCall file (.read count mapped) = (file,⟨-efault,[]⟩) := by
  have large := lengthPastEnd past count
  have left := uncopiedPastEnd past count mapped
  have done : pcdRead file.dev count.val file.fPos mapped = ⟨-efault,file.fPos,file.dev.buffer,[]⟩ := by
    simp only [pcdRead,readAt,copyToUser,left,ne_eq,not_false_eq_true,if_true,copied,gt_iff_lt,large,
      ByteSpans.span,List.take_zero]
  simp only [vfsCall,done,errorsNegative.1,if_true]

theorem callWritePastEnd (user : List UInt8) : vfsCall file (.write count user) = (file,⟨-efault,[]⟩) := by
  have large := lengthPastEnd past count
  have nonempty : transferLength file.dev.maxSize file.fPos count.val ≠ 0 := by
    intro empty
    rw [empty] at large
    exact absurd large (by decide)
  have left : (transferLength file.dev.maxSize file.fPos count.val).toNat ≠ 0 := by omega
  have done : pcdWrite file.dev count.val file.fPos user = ⟨-efault,file.fPos,file.dev.buffer,[]⟩ := by
    simp only [pcdWrite,writeAt,nonempty,if_false,copyFromUser,gt_iff_lt,large,if_true,left,ne_eq,
      not_false_eq_true]
  simp only [vfsCall,done,errorsNegative.1,if_true,PcdevPrivateData.store]

end PastEnd

section Step
variable {devices : ι → PcdevPrivateData} {s : System ι} {r : Store ι UInt8}

omit [DecidableEq ι] in
theorem cursorOfFile (related : Related devices s r) (n : Nat) : r.cursor? n = (s.file? n).map cursor := by
  unfold Store.cursor? System.file?
  rw [related.cursors,List.getElem?_map]
  cases s.files[n]? with
  | none => rfl
  | some entry => rfl

omit [DecidableEq ι] in
theorem setSame {cursors : List (Option (Cursor ι))} {n : Nat} {k : Cursor ι}
    (found : (cursors[n]?).join = some k) : cursors.set n (some k) = cursors := by
  have entry : cursors[n]? = some (some k) := by
    cases at_ : cursors[n]? with
    | none => simp [at_] at found
    | some value => simpa [at_] using found
  apply List.ext_getElem?
  intro m
  rw [List.getElem?_set]
  by_cases here : n = m
  · subst here
    rw [if_pos rfl,if_pos (List.getElem?_eq_some_iff.mp entry).1,entry]
  · rw [if_neg here]

def standing (f : File ι) (place : Option Position) : Int64 := (place.map Subtype.val).getD f.fPos

omit [DecidableEq ι] in
theorem standingStart (f : File ι) (place : Option Position) :
    (placeAt place).getD (cursor f).position = (standing f place).toInt := by
  cases place <;> rfl

def finish (s : System ι) (n : Nat) (f : File ι) (place : Option Position) (o : OpenFile) : System ι :=
  s.put n f (if place.isNone then o else { o with fPos := f.fPos })

theorem finishRelated (related : Related devices s r) {n : Nat} {f : File ι} (found : s.file? n = some f)
    (place : Option Position) {o : OpenFile} (size : o.dev.size = (s.pcdevData f.privateData).size)
    (perm : o.dev.perm = (s.pcdevData f.privateData).perm) {next : Store ι UInt8}
    (content : ∀ a, a < (devices f.privateData).size.toNat → o.dev.buffer[a]? = some (next.cells f.privateData a))
    (others : ∀ d, d ≠ f.privateData → next.cells d = r.cells d) (same : next.cursors = r.cursors) :
    Related devices (finish s n f place o) (next.advance n (cursor f) (placeAt place) o.fPos.toInt) := by
  have device : (if place.isNone then o else { o with fPos := f.fPos }).dev = o.dev := by split <;> rfl
  refine ⟨fun d => ?_,fun d a low => ?_,?_⟩
  · by_cases here : d = f.privateData
    · subst here
      simp only [finish,System.put,Function.update_self,device,size,perm]
      exact related.shape _
    · simp only [finish,System.put,Function.update_of_ne here]
      exact related.shape d
  · rw [advanceCells]
    by_cases here : d = f.privateData
    · subst here
      simp only [finish,System.put,Function.update_self,device]
      exact content a low
    · simp only [finish,System.put,Function.update_of_ne here,others d here]
      exact related.cells d a low
  · have at_ := cursorOfFile related n
    rw [found] at at_
    cases place with
    | none =>
      simp only [Store.advance,placeAt,Option.map_none,Option.isNone_none,if_true,Store.place,finish,System.put,
        same,related.cursors,List.map_set]
      rfl
    | some p =>
      simp only [Store.advance,placeAt,Option.map_some,Option.isNone_some,Bool.false_eq_true,if_false,finish,
        System.put,same,List.map_set,← related.cursors]
      exact (setSame at_).symm

omit [DecidableEq ι] in
theorem advanceNowhere {n : Nat} {k : Cursor ι} {place : Option Int} {p : Int} (at_ : r.cursor? n = some k)
    (here : place.getD k.position = p) : r.advance n k place p = r := by
  subst here
  cases place with
  | none =>
    simp only [Store.advance,Option.isNone_none,if_true,Store.place,Option.getD_none]
    rw [setSame at_]
  | some p => rfl

theorem unmovedRelated (related : Related devices s r) {n : Nat} {f : File ι} (found : s.file? n = some f)
    (place : Option Position) :
    Related devices (finish s n f place ⟨s.pcdevData f.privateData,standing f place⟩) r := by
  have at_ := cursorOfFile related n
  rw [found] at at_
  have finished := finishRelated related found place (o := ⟨s.pcdevData f.privateData,standing f place⟩) rfl rfl
    (fun a low => related.cells f.privateData a low) (fun _ _ => rfl) rfl
  rwa [advanceNowhere at_ (standingStart f place)] at finished

theorem transferFollows (related : Related devices s r) (n : Nat) (may : UInt32 → Bool) (may' : Cursor ι → Bool)
    (rights : ∀ f, may' (cursor f) = may f.fMode) (place : Option Position) (buff count : UInt64)
    (call : Count → FileCall) (run : Cursor ι → Store ι UInt8 × Answer UInt8)
    (follows : ∀ f, s.file? n = some f → 0 ≤ (standing f place).toInt →
      Related devices (finish s n f place (vfsCall ⟨s.pcdevData f.privateData,standing f place⟩ (call (cut count))).1)
        (run (cursor f)).1 ∧
      Agrees (vfsCall ⟨s.pcdevData f.privateData,standing f place⟩ (call (cut count))).2 (run (cursor f)).2) :
    Related devices (transfer s n may place buff count call).1
      (request (rules devices) r n may' (placeAt place) (accessOk buff count) count.toNat run).1 ∧
    Agrees (transfer s n may place buff count call).2
      (request (rules devices) r n may' (placeAt place) (accessOk buff count) count.toNat run).2 := by
  have at_ := cursorOfFile related n
  unfold transfer request
  cases found : s.file? n with
  | none =>
    rw [found] at at_
    simp only [at_,Option.map_none]
    exact ⟨related,rfl⟩
  | some f =>
    rw [found] at at_
    simp only [at_,Option.map_some,rights]
    cases granted : may f.fMode with
    | false => exact ⟨related,rfl⟩
    | true => cases legal : accessOk buff count with
      | false => exact ⟨related,rfl,rfl⟩
      | true =>
        simp only [standingStart,admitsVerified,if_true]
        cases verified : rwVerifyArea (standing f place) count with
        | false =>
          have refused : rwVerifyArea ((place.map Subtype.val).getD f.fPos) count = false := verified
          simp only [refused,Bool.false_eq_true,if_false]
          exact ⟨related,rfl⟩
        | true =>
          have passed : rwVerifyArea ((place.map Subtype.val).getD f.fPos) count = true := verified
          simp only [passed,if_true]
          rw [verifyAdmits,decide_eq_true_eq] at verified
          exact follows f found verified.1

section Transfers
variable (related : Related devices s r) {n : Nat} {f : File ι} (found : s.file? n = some f)
  (place : Option Position)
include related

omit [DecidableEq ι] in
theorem deviceSize (f : File ι) : (s.pcdevData f.privateData).size.toNat = (devices f.privateData).size.toNat := by
  rw [(related.shape f.privateData).1]

omit [DecidableEq ι] in
theorem fileWithin (f : File ι) (low : 0 ≤ (standing f place).toInt)
    (reach : ¬ ((devices f.privateData).size.toNat : Int) < (standing f place).toInt) :
    (OpenFile.mk (s.pcdevData f.privateData) (standing f place)).within := by
  have size := maxSizeValue (s.pcdevData f.privateData)
  rw [deviceSize related f] at size
  exact ⟨low,by rw [size]; exact Int.not_lt.mp reach⟩

omit [DecidableEq ι] in
theorem grantedRoom (f : File ι) (low : 0 ≤ (standing f place).toInt)
    (reach : ¬ ((devices f.privateData).size.toNat : Int) < (standing f place).toInt) (count : UInt64) :
    (OpenFile.mk (s.pcdevData f.privateData) (standing f place)).granted (cut count) =
      (rules devices).room f.privateData (standing f place).toInt count.toNat := by
  rw [grantedMin (fileWithin related place f low reach),cutValue]
  change min _ ((s.pcdevData f.privateData).size.toNat - _) = _
  rw [deviceSize related f]
  rfl

omit [DecidableEq ι] related in
theorem roomInside (f : File ι) (low : 0 ≤ (standing f place).toInt)
    (reach : ¬ ((devices f.privateData).size.toNat : Int) < (standing f place).toInt) (count : UInt64) :
    (standing f place).toInt.toNat + (rules devices).room f.privateData (standing f place).toInt count.toNat ≤
      (devices f.privateData).size.toNat := by
  simp only [Rules.room,rules]
  omega

omit [DecidableEq ι] in
theorem sliceOf (f : File ι) {start n : Nat} (room : start + n ≤ (devices f.privateData).size.toNat) :
    ByteSpans.span (s.pcdevData f.privateData).buffer start n = r.slice f.privateData start n := by
  apply List.ext_getElem?
  intro i
  rw [ByteSpans.spanAt,Store.slice,List.getElem?_map]
  by_cases low : i < n
  · rw [if_pos low,related.cells f.privateData (start + i) (by omega),List.getElem?_range low]
    rfl
  · rw [if_neg low,List.getElem?_eq_none (by simp; omega)]
    rfl

include found in
theorem readFollows (low : 0 ≤ (standing f place).toInt) (count : UInt64) (mapped : Nat) :
    Related devices
      (finish s n f place (vfsCall ⟨s.pcdevData f.privateData,standing f place⟩ (.read (cut count) mapped)).1)
      (fetchAt (rules devices) r n (cursor f) (placeAt place) count.toNat mapped).1 ∧
    Agrees (vfsCall ⟨s.pcdevData f.privateData,standing f place⟩ (.read (cut count) mapped)).2
      (fetchAt (rules devices) r n (cursor f) (placeAt place) count.toNat mapped).2 := by
  have start := standingStart f place
  by_cases past : ((devices f.privateData).size.toNat : Int) < (standing f place).toInt
  · have beyond : ((s.pcdevData f.privateData).size.toNat : Int) < (standing f place).toInt := by
      rwa [deviceSize related f]
    rw [@callReadPastEnd ⟨s.pcdevData f.privateData,standing f place⟩ beyond,fetchPast start past]
    exact ⟨unmovedRelated related found place,rfl,rfl⟩
  · have within := fileWithin related place f low past
    have room := grantedRoom related place f low past count
    have bound := roomInside place f low past count
    by_cases short : mapped < (rules devices).room f.privateData (standing f place).toInt count.toNat
    · rw [callReadFaults within (room ▸ short),fetchShort start past short]
      exact ⟨unmovedRelated related found place,rfl,sliceOf related f
        (Nat.le_trans (Nat.add_le_add_left (Nat.le_of_lt short) _) bound)⟩
    · obtain ⟨dev,moved,ret,data⟩ := callReadDelivers within (room ▸ Nat.le_of_not_lt short)
      rw [fetchWhole start past short]
      refine ⟨?_,?_,?_⟩
      · have finished := finishRelated related found place (by rw [dev]) (by rw [dev])
          (fun a inside => by rw [dev]; exact related.cells f.privateData a inside) (fun _ _ => rfl) rfl
        rwa [moved,room] at finished
      · rw [ret,room,Store.slice,List.length_map,List.length_range]
        rfl
      · rw [data,room]
        exact sliceOf related f bound

omit related in
theorem fillsAlone (f : File ι) (start : Nat) (data : List UInt8) (d : ι) (other : d ≠ f.privateData) :
    (r.fill f.privateData start data).cells d = r.cells d := by
  simp only [Store.fill,Function.update_of_ne other]

theorem fillContent (f : File ι) (start : Nat) (data : List UInt8) {a : Nat}
    (inside : a < (devices f.privateData).size.toNat) :
    (ByteSpans.patch (s.pcdevData f.privateData).buffer start data)[a]? =
      some ((r.fill f.privateData start data).cells f.privateData a) := by
  rw [ByteSpans.patchAt,related.cells f.privateData a inside]
  simp only [Store.fill,Function.update_self,CursorStore.replaced,Option.map_some]

include found in
theorem writeFollows (low : 0 ≤ (standing f place).toInt) (count : UInt64) (user : List UInt8) :
    Related devices
      (finish s n f place (vfsCall ⟨s.pcdevData f.privateData,standing f place⟩ (.write (cut count) user)).1)
      (putAt (rules devices) r n (cursor f) (placeAt place) count.toNat user).1 ∧
    Agrees (vfsCall ⟨s.pcdevData f.privateData,standing f place⟩ (.write (cut count) user)).2
      (putAt (rules devices) r n (cursor f) (placeAt place) count.toNat user).2 := by
  have start := standingStart f place
  by_cases past : ((devices f.privateData).size.toNat : Int) < (standing f place).toInt
  · have beyond : ((s.pcdevData f.privateData).size.toNat : Int) < (standing f place).toInt := by
      rwa [deviceSize related f]
    rw [@callWritePastEnd ⟨s.pcdevData f.privateData,standing f place⟩ beyond,putPast start past]
    exact ⟨unmovedRelated related found place,rfl,rfl⟩
  have within := fileWithin related place f low past
  have room := grantedRoom related place f low past count
  by_cases full : (rules devices).room f.privateData (standing f place).toInt count.toNat = 0
  · rw [callWriteFull within (room.trans full) user,putFull start past full]
    exact ⟨unmovedRelated related found place,rfl⟩
  obtain ⟨size,perm⟩ := callKeepsDevice ⟨s.pcdevData f.privateData,standing f place⟩ (.write (cut count) user)
  by_cases short : user.length < (rules devices).room f.privateData (standing f place).toInt count.toNat
  · obtain ⟨stays,stored,reply⟩ := callWriteFaults within (room ▸ short)
    have padded : (rules devices).padded ((rules devices).room f.privateData (standing f place).toInt count.toNat)
        user = user ++ List.replicate ((rules devices).room f.privateData (standing f place).toInt count.toNat -
          user.length) 0 := by
      rw [Rules.padded,List.take_of_length_le (Nat.le_of_lt short)]
      rfl
    rw [room,← padded] at stored
    have finished := finishRelated related found place size perm
      (fun a inside => by rw [stored]; exact fillContent related f _ _ inside) (fillsAlone f _ _) rfl
    have at_ := cursorOfFile related n
    rw [found] at at_
    rw [stays,advanceNowhere (r := r.fill f.privateData _ _) at_ start] at finished
    rw [putShort start past short]
    refine ⟨finished,?_⟩
    rw [reply]
    exact ⟨rfl,rfl⟩
  · obtain ⟨stored,moved,ret,_⟩ := callWriteStores within user (room ▸ Nat.pos_of_ne_zero full)
      (room ▸ Nat.le_of_not_lt short)
    have padded : (rules devices).padded ((rules devices).room f.privateData (standing f place).toInt count.toNat)
        user = user.take ((rules devices).room f.privateData (standing f place).toInt count.toNat) := by
      rw [Rules.padded,Nat.sub_eq_zero_of_le (Nat.le_of_not_lt short),List.replicate_zero,List.append_nil]
    rw [room,← padded] at stored
    have finished := finishRelated related found place size perm
      (fun a inside => by rw [stored]; exact fillContent related f _ _ inside) (fillsAlone f _ _) rfl
    rw [moved,room] at finished
    rw [putWhole start past full short]
    exact ⟨finished,ret.trans (congrArg Nat.cast room)⟩

end Transfers

omit [DecidableEq ι] in
theorem seekLands (dev : PcdevPrivateData) (p offset : Int64) (whence : Int32) :
    match target offset.toInt whence dev.size.toNat p.toInt with
    | some q => (pcdLlseek dev p offset whence).ret.toInt = q ∧ (pcdLlseek dev p offset whence).fPos.toInt = q
    | none => pcdLlseek dev p offset whence = ⟨-einval,p⟩ := by
  have size := maxSizeValue dev
  have range : ∀ x : Int64, Within dev.maxSize x ↔ 0 ≤ x.toInt ∧ x.toInt ≤ dev.size.toNat :=
    fun x => ⟨fun inside => ⟨inside.low,size ▸ inside.high⟩,fun both => ⟨both.1,size.symm ▸ both.2⟩⟩
  have sum : (p + offset).toInt = wrapped (p.toInt + offset.toInt) := Int64.toInt_add ..
  have twice : (p + (p + offset)).toInt = wrapped (p.toInt + wrapped (p.toInt + offset.toInt)) := by
    rw [Int64.toInt_add,sum]
    rfl
  have distinct : seekCur ≠ seekSet ∧ seekEnd ≠ seekSet ∧ seekEnd ≠ seekCur := by decide
  unfold target pcdLlseek
  by_cases set : whence = seekSet
  · subst set
    rw [seekSetSpec,if_pos rfl]
    simp only [range]
    split
    · rename_i q landed
      split at landed
      · cases landed
        rename_i inside
        rw [if_pos inside]
        exact ⟨rfl,rfl⟩
      · cases landed
    · rename_i missed
      split at missed
      · cases missed
      · rename_i outside
        rw [if_neg outside]
  by_cases cur : whence = seekCur
  · subst cur
    rw [seekCurSpec,if_neg distinct.1,if_pos rfl]
    simp only [range,sum]
    by_cases inside : 0 ≤ wrapped (p.toInt + offset.toInt) ∧ wrapped (p.toInt + offset.toInt) ≤ dev.size.toNat
    · simp only [if_pos inside]
      exact ⟨twice,twice⟩
    · simp only [if_neg inside]
  by_cases end_ : whence = seekEnd
  · subst end_
    rw [seekEndSpec,if_neg distinct.2.1,if_neg distinct.2.2,if_pos rfl]
    simp only [range,sum]
    by_cases inside : 0 ≤ wrapped (p.toInt + offset.toInt) ∧ wrapped (p.toInt + offset.toInt) ≤ dev.size.toNat
    · simp only [if_pos inside]
      exact ⟨sum,sum⟩
    · simp only [if_neg inside]
  · rw [if_neg set,if_neg cur,if_neg end_]
    exact seekUnknown set cur end_

theorem seekFollows (related : Related devices s r) (n : Nat) (offset : Int64) (whence : Int32) :
    Related devices (serve s (.lseek n offset whence)).1
      (apply (rules devices) r (.move n (target offset.toInt whence))).1 ∧
    Agrees (serve s (.lseek n offset whence)).2 (apply (rules devices) r (.move n (target offset.toInt whence))).2 := by
  have at_ := cursorOfFile related n
  cases found : s.file? n with
  | none =>
    rw [found] at at_
    simp only [serve,perform,found,apply,at_,Option.map_none]
    exact ⟨related,rfl⟩
  | some f =>
    rw [found] at at_
    have lands := seekLands (s.pcdevData f.privateData) f.fPos offset whence
    rw [deviceSize related f] at lands
    simp only [serve,perform,found,apply,at_,Option.map_some]
    cases landing : target offset.toInt whence (devices f.privateData).size.toNat f.fPos.toInt with
    | none =>
      have missed : target offset.toInt whence ((rules devices).size (cursor f).array) (cursor f).position = none :=
        landing
      simp only [landing] at lands
      simp only [missed,vfsCall,System.openFile,lands]
      exact ⟨unmovedRelated related found none,rfl⟩
    | some q =>
      have landed : target offset.toInt whence ((rules devices).size (cursor f).array) (cursor f).position = some q :=
        landing
      simp only [landing] at lands
      simp only [landed]
      have finished := finishRelated related found none
        (o := (vfsCall (s.openFile f) (.llseek offset whence)).1) rfl rfl
        (fun a inside => related.cells f.privateData a inside) (fun _ _ => rfl) rfl
      have position : (vfsCall (s.openFile f) (.llseek offset whence)).1.fPos.toInt = q := lands.2
      rw [position] at finished
      exact ⟨finished,lands.1⟩

theorem openFollows (related : Related devices s r) (iCdev : ι) (fMode : UInt32) :
    Related devices (serve s (.open iCdev fMode)).1 (apply (rules devices) r (view devices (.open iCdev fMode))).1 ∧
    Agrees (serve s (.open iCdev fMode)).2 (apply (rules devices) r (view devices (.open iCdev fMode))).2 := by
  have perm := (related.shape iCdev).2
  simp only [serve,perform,pcdOpen,perm,view,apply,opened]
  by_cases granted : checkPermission (devices iCdev).perm fMode.toInt32 = 0
  · simp only [granted,if_true,beq_self_eq_true]
    refine ⟨⟨related.shape,related.cells,?_⟩,rfl⟩
    simp only [related.cursors,List.map_append,List.map_cons,List.map_nil]
    rfl
  · simp only [refusal granted]
    exact ⟨related,rfl⟩

theorem closeFollows (related : Related devices s r) (n : Nat) :
    Related devices (serve s (.close n)).1 (apply (rules devices) r (.detach n)).1 ∧
    Agrees (serve s (.close n)).2 (apply (rules devices) r (.detach n)).2 := by
  have at_ := cursorOfFile related n
  cases found : s.file? n with
  | none =>
    rw [found] at at_
    simp only [serve,found,apply,at_,Option.map_none]
    exact ⟨related,rfl⟩
  | some f =>
    rw [found] at at_
    simp only [serve,found,apply,at_,Option.map_some,perform]
    refine ⟨⟨related.shape,related.cells,?_⟩,rfl⟩
    simp only [related.cursors,List.map_set]
    rfl

theorem requestFollows (related : Related devices s r) (request : Request ι) :
    Related devices (serveNext s request) (applyNext (rules devices) r (view devices request)) ∧
    Agrees (serve s request).2 (apply (rules devices) r (view devices request)).2 := by
  cases request with
  | «open» iCdev fMode => exact openFollows related iCdev fMode
  | lseek n offset whence => exact seekFollows related n offset whence
  | close n => exact closeFollows related n
  | read n place buff count mapped =>
    exact transferFollows related n canRead Cursor.fetches (fun _ => rfl) place buff count (.read · mapped)
      (fun k => fetchAt (rules devices) r n k (placeAt place) count.toNat mapped)
      (fun f found low => readFollows related found place low count mapped)
  | write n place buff count user =>
    exact transferFollows related n canWrite Cursor.puts (fun _ => rfl) place buff count (.write · user)
      (fun k => putAt (rules devices) r n k (placeAt place) count.toNat user)
      (fun f found low => writeFollows related found place low count user)

end Step

/- What a write of the run put at an address of a device, read off the call and the
file it went through: a byte of the user, or 0 where the user copy faulted. -/
def wrote (tr : Transition (System ι) (Request ι)) (d : ι) (a : Nat) : Option UInt8 :=
  match tr.label with
  | .write n place buff count user =>
      match tr.before.file? n with
      | none => none
      | some f =>
          let pos := standing f place
          let size := (tr.before.pcdevData d).size.toNat
          if canWrite f.fMode ∧ accessOk buff count ∧ rwVerifyArea pos count ∧ pos.toInt ≤ size ∧
              f.privateData = d ∧ pos.toNatClampNeg ≤ a ∧
              a < pos.toNatClampNeg + min (min count.toNat maxRwCount) (size - pos.toNatClampNeg)
          then some ((user[a - pos.toNatClampNeg]?).getD 0) else none
  | _ => none

theorem wroteTouched {devices : ι → PcdevPrivateData} {s : System ι} {r : Store ι UInt8} (related : Related devices s r)
    (request : Request ι) (d : ι) (a : Nat) :
    wrote ⟨s,request,serveNext s request⟩ d a = touched (rules devices) r (view devices request) d a := by
  cases request with
  | «open» | read | lseek | close => rfl
  | write n place buff count user =>
    have at_ := cursorOfFile related n
    simp only [wrote,view,touched,at_]
    cases found : s.file? n with
    | none => rfl
    | some f =>
      simp only [Option.map_some,standingStart,admitsVerified,(related.shape d).1]
      by_cases same : f.privateData = d
      · subst same
        rfl
      · have other : (cursor f).array ≠ d := same
        simp only [same,other,false_and,and_false,if_false]

def initial (devices : ι → PcdevPrivateData) : Store ι UInt8 := ⟨fun d a => ((devices d).buffer[a]?).getD 0,[]⟩

omit [DecidableEq ι] in
theorem loadedRelated (devices : ι → PcdevPrivateData) : Related devices (loaded devices) (initial devices) := by
  refine ⟨fun d => ⟨rfl,rfl⟩,fun d a low => ?_,rfl⟩
  have there : a < (devices d).buffer.length := (devices d).sized.symm ▸ low
  simp only [loaded,initial,List.getElem?_eq_getElem there,Option.getD_some]

theorem lastWrote {devices : ι → PcdevPrivateData} {requests : List (Request ι)} {s : System ι}
    {r : Store ι UInt8} (related : Related devices s r) {pre tr post}
    (split : trace serveNext s requests = pre ++ tr :: post) (d : ι) (a : Nat) (low : a < (devices d).size.toNat) :
    (tr.before.pcdevData d).buffer[a]? =
      some (pre.foldl (fun b tr => (wrote tr d a).getD b) (r.cells d a)) := by
  induction pre generalizing s r requests with
  | nil =>
    cases requests with
    | nil => simp [trace] at split
    | cons request rest =>
      simp only [trace,List.nil_append,List.cons.injEq] at split
      rw [← split.1]
      exact related.cells d a low
  | cons first pre ih =>
    cases requests with
    | nil => simp [trace] at split
    | cons request rest =>
      simp only [trace,List.cons_append,List.cons.injEq] at split
      rw [ih (requestFollows related request).1 split.2,applyCells,← wroteTouched related,← split.1]
      rfl

/- Every byte is the one the last write that reached it put there, or the one it was
loaded with. -/
structure FollowsArrays (devices : ι → PcdevPrivateData) (log : List (Transition (System ι) (Request ι)))
    (reference : List (Transition (Store ι UInt8) (Op ι UInt8))) : Prop where
  lockstep : List.Forall₂ (fun tr image => image.label = view devices tr.label ∧
    Related devices tr.before image.before ∧ Related devices tr.after image.after ∧
    Agrees (serve tr.before tr.label).2 (apply (rules devices) image.before image.label).2) log reference
  latest : ∀ pre tr post, log = pre ++ tr :: post → ∀ d a, a < (devices d).size.toNat →
    (tr.before.pcdevData d).buffer[a]? =
      some (pre.foldl (fun b tr => (wrote tr d a).getD b) (((devices d).buffer[a]?).getD 0))

theorem filesFollowArrays (devices : ι → PcdevPrivateData) (requests : List (Request ι)) :
    FollowsArrays devices (trace serveNext (loaded devices) requests)
      (trace (applyNext (rules devices)) (initial devices) (requests.map (view devices))) := by
  have start := loadedRelated devices
  refine ⟨?_,fun pre tr post split d a low => lastWrote start split d a low⟩
  refine (traceFollows (Related devices) (fun _ _ => True)
    (fun {_ request _} _ related => (requestFollows related request).1) start (fun _ _ => trivial)).imp ?_
  rintro tr image ⟨before,_,label,after⟩
  rw [label]
  exact ⟨rfl,before,after,(requestFollows before tr.label).2⟩

example : (serve ([.open 2 3,.lseek 0 600 seekSet,.lseek 0 0 seekCur].foldl serveNext (loaded pcdevData))
    (.read 0 none 0x1000 8 8)).2 = ⟨-efault,[]⟩ := by decide

example : (serve (serveNext (loaded pcdevData) (.open 2 3)) (.read 0 none 0x1000 0x8000000000000000 8)).2 =
    ⟨-efault,[]⟩ := by decide

def through : Request ι → Option Nat
  | .read n _ _ _ _ | .write n _ _ _ _ | .lseek n _ _ => some n
  | _ => none

def handleTransfer (dev : PcdevPrivateData) (f : File ι) (may : UInt32 → Bool) (place : Option Position)
    (buff count : UInt64) (call : Count → FileCall) : Option OpenFile × Reply :=
  if may f.fMode then
    if accessOk buff count then
      if rwVerifyArea (standing f place) count then
        let (o,reply) := vfsCall ⟨dev,standing f place⟩ (call (cut count))
        (some (if place.isNone then o else { o with fPos := f.fPos }),reply)
      else (none,⟨-einval,[]⟩)
    else (none,⟨-efault,[]⟩)
  else (none,⟨-ebadf,[]⟩)

def handle (dev : PcdevPrivateData) (f : File ι) : Request ι → Option OpenFile × Reply
  | .read _ place buff count mapped => handleTransfer dev f canRead place buff count (.read · mapped)
  | .write _ place buff count user => handleTransfer dev f canWrite place buff count (.write · user)
  | .lseek _ offset whence =>
      let (o,reply) := vfsCall ⟨dev,f.fPos⟩ (.llseek offset whence)
      (some o,reply)
  | _ => (none,⟨0,[]⟩)

def handled (s : System ι) (n : Nat) (f : File ι) (result : Option OpenFile × Reply) : System ι × Reply :=
  (result.1.elim s (s.put n f),result.2)

theorem transferHandled {s : System ι} {n : Nat} {f : File ι} (found : s.file? n = some f) (may : UInt32 → Bool)
    (place : Option Position) (buff count : UInt64) (call : Count → FileCall) :
    transfer s n may place buff count call =
      handled s n f (handleTransfer (s.pcdevData f.privateData) f may place buff count call) := by
  unfold transfer handleTransfer standing
  simp only [found]
  by_cases granted : may f.fMode = true
  · by_cases legal : accessOk buff count = true
    · by_cases verified : rwVerifyArea ((place.map Subtype.val).getD f.fPos) count = true
      · simp only [granted,legal,verified,if_true,handled,Option.elim_some]
      · simp only [granted,legal,verified,if_true,Bool.false_eq_true,if_false,handled,Option.elim_none]
    · simp only [granted,legal,if_true,Bool.false_eq_true,if_false,handled,Option.elim_none]
  · simp only [granted,Bool.false_eq_true,if_false,handled,Option.elim_none]

theorem serveThrough {s : System ι} {n : Nat} {f : File ι} {request : Request ι} (via : through request = some n)
    (found : s.file? n = some f) :
    serve s request = handled s n f (handle (s.pcdevData f.privateData) f request) := by
  cases request with
  | «open» | close => cases via
  | read n place buff count mapped =>
    cases via
    simp only [serve,handle,transferHandled found]
  | write n place buff count user =>
    cases via
    simp only [serve,handle,transferHandled found]
  | lseek n offset whence =>
    cases via
    simp only [serve,perform,found,handle,handled,Option.elim_some,System.openFile]

theorem serveMissing {s : System ι} {n : Nat} {request : Request ι} (via : through request = some n)
    (missing : s.file? n = none) : serve s request = (s,⟨-ebadf,[]⟩) := by
  cases request with
  | «open» | close => cases via
  | read | write => cases via; simp only [serve,transfer,missing]
  | lseek => cases via; simp only [serve,perform,missing]

omit [DecidableEq ι] in
theorem handleKeepsPerm (dev : PcdevPrivateData) (f : File ι) (request : Request ι) (o : OpenFile)
    (moved : (handle dev f request).1 = some o) : o.dev.perm = dev.perm := by
  have transfers : ∀ may place buff count call, (handleTransfer dev f may place buff count call).1 = some o →
      o.dev.perm = dev.perm := by
    intro may place buff count call moved
    unfold handleTransfer at moved
    split at moved
    · split at moved
      · split at moved
        · cases moved
          cases place with
          | none => exact (callKeepsDevice _ _).2
          | some p => exact (callKeepsDevice _ _).2
        · cases moved
      · cases moved
    · cases moved
  cases request with
  | «open» | close => cases moved
  | read n place buff count mapped => exact transfers _ _ _ _ _ moved
  | write n place buff count user => exact transfers _ _ _ _ _ moved
  | lseek n offset whence => cases moved; rfl

theorem putFile {s : System ι} {n : Nat} {f : File ι} (found : s.file? n = some f) (o : OpenFile) (m : Nat) :
    (s.put n f o).file? m = if m = n then some { f with fPos := o.fPos } else s.file? m := by
  have there : n < s.files.length := by
    by_contra outside
    unfold System.file? at found
    rw [List.getElem?_eq_none (Nat.le_of_not_lt outside)] at found
    cases found
  unfold System.file? System.put
  rw [List.getElem?_set]
  by_cases same : m = n
  · subst same
    rw [if_pos rfl,if_pos rfl,if_pos there]
    rfl
  · rw [if_neg same,if_neg (Ne.symm same)]

section Isolation

/- Two states that look the same through the files of one device: that device holds
the same, and so do the positions of its files. -/
structure SameFor (d : ι) (s u : System ι) : Prop where
  device : s.pcdevData d = u.pcdevData d
  perms : ∀ e, (s.pcdevData e).perm = (u.pcdevData e).perm
  descriptors : s.files.length = u.files.length
  files : ∀ n, (s.file? n).map (fun f => (f.fMode,f.privateData)) = (u.file? n).map fun f => (f.fMode,f.privateData)
  positions : ∀ n f, f.privateData = d → (s.file? n = some f ↔ u.file? n = some f)

omit [DecidableEq ι] in
theorem sameRefl (d : ι) (s : System ι) : SameFor d s s := ⟨rfl,fun _ => rfl,rfl,fun _ => rfl,fun _ _ _ => Iff.rfl⟩

omit [DecidableEq ι] in
theorem sameSymm {d : ι} {s u : System ι} (same : SameFor d s u) : SameFor d u s :=
  ⟨same.device.symm,fun e => (same.perms e).symm,same.descriptors.symm,fun n => (same.files n).symm,
    fun n f of => (same.positions n f of).symm⟩

omit [DecidableEq ι] in
theorem sameTrans {d : ι} {s u v : System ι} (first : SameFor d s u) (second : SameFor d u v) : SameFor d s v :=
  ⟨first.device.trans second.device,fun e => (first.perms e).trans (second.perms e),
    first.descriptors.trans second.descriptors,fun n => (first.files n).trans (second.files n),
    fun n f of => (first.positions n f of).trans (second.positions n f of)⟩

def Elsewhere (d : ι) (s : System ι) (request : Request ι) : Prop :=
  ∃ n, through request = some n ∧ ∀ f, s.file? n = some f → f.privateData ≠ d

instance (d : ι) (s : System ι) (request : Request ι) : Decidable (Elsewhere d s request) :=
  decidable_of_iff ((through request).any fun n => (s.file? n).all fun f => f.privateData ≠ d) (by
    unfold Elsewhere
    cases through request with
    | none => simp
    | some n => cases found : s.file? n <;> simp [found])

theorem elsewhereKeeps {d : ι} {s : System ι} {request : Request ι} (elsewhere : Elsewhere d s request) :
    SameFor d s (serveNext s request) := by
  obtain ⟨n,via,other⟩ := elsewhere
  cases found : s.file? n with
  | none =>
    rw [serveNext,serveMissing via found]
    exact sameRefl d s
  | some f =>
    rw [serveNext,serveThrough via found]
    cases moved : (handle (s.pcdevData f.privateData) f request).1 with
    | none =>
      simp only [handled,moved,Option.elim_none]
      exact sameRefl d s
    | some o =>
      simp only [handled,moved,Option.elim_some]
      have apart : d ≠ f.privateData := fun same => other f found same.symm
      refine ⟨?_,fun e => ?_,?_,fun m => ?_,fun m g of => ?_⟩
      · simp only [System.put,Function.update_of_ne apart]
      · by_cases here : e = f.privateData
        · subst here
          simp only [System.put,Function.update_self]
          exact (handleKeepsPerm _ _ _ _ moved).symm
        · simp only [System.put,Function.update_of_ne here]
      · simp only [System.put,List.length_set]
      · rw [putFile found]
        split
        · rename_i here
          subst here
          rw [found]
          rfl
        · rfl
      · rw [putFile found]
        split
        · rename_i here
          subst here
          rw [found]
          constructor
          · intro same
            cases same
            exact absurd of.symm apart
          · intro same
            cases same
            exact absurd of.symm apart
        · rfl

theorem putSame {d : ι} {s u : System ι} (same : SameFor d s u) {n : Nat} {f : File ι} (found : s.file? n = some f)
    (of : f.privateData = d) (o : OpenFile) : SameFor d (s.put n f o) (u.put n f o) := by
  have found' := (same.positions n f of).mp found
  refine ⟨?_,fun e => ?_,?_,fun m => ?_,fun m g of' => ?_⟩
  · simp only [System.put,of,Function.update_self]
  · by_cases here : e = f.privateData
    · simp only [System.put,here,Function.update_self]
    · simp only [System.put,Function.update_of_ne here]
      exact same.perms e
  · simp only [System.put,List.length_set]
    exact same.descriptors
  · rw [putFile found,putFile found']
    split
    · rfl
    · exact same.files m
  · rw [putFile found,putFile found']
    split
    · exact Iff.rfl
    · exact same.positions m g of'

omit [DecidableEq ι] in
theorem openedFile (s : System ι) (devices : ι → PcdevPrivateData) (entry : Option (File ι)) (m : Nat) :
    (System.mk devices (s.files ++ [entry])).file? m = if m = s.files.length then entry else s.file? m := by
  unfold System.file?
  by_cases old : m < s.files.length
  · rw [List.getElem?_append_left old,if_neg (Nat.ne_of_lt old)]
  · rw [List.getElem?_append_right (Nat.le_of_not_lt old)]
    split
    · rename_i here
      rw [here,Nat.sub_self]
      rfl
    · rename_i other
      rw [List.getElem?_eq_none (by simp; omega),List.getElem?_eq_none (by omega)]

omit [DecidableEq ι] in
theorem closedFile (s : System ι) (devices : ι → PcdevPrivateData) (n m : Nat) :
    (System.mk devices (s.files.set n none)).file? m = if m = n then none else s.file? m := by
  unfold System.file?
  rw [List.getElem?_set]
  by_cases same : m = n
  · subst same
    rw [if_pos rfl,if_pos rfl]
    split <;> rfl
  · rw [if_neg same,if_neg (Ne.symm same)]

theorem openSame {d : ι} {s u : System ι} (same : SameFor d s u) (iCdev : ι) (fMode : UInt32) :
    SameFor d (serveNext s (.open iCdev fMode)) (serveNext u (.open iCdev fMode)) ∧
    (serve s (.open iCdev fMode)).2 = (serve u (.open iCdev fMode)).2 := by
  simp only [serveNext,serve,perform,pcdOpen,same.perms iCdev]
  by_cases granted : checkPermission (u.pcdevData iCdev).perm fMode.toInt32 = 0
  · simp only [granted,if_true,and_true]
    refine ⟨same.device,same.perms,?_,fun m => ?_,fun m g of => ?_⟩
    · rw [List.length_append,List.length_append,same.descriptors]
    · rw [openedFile,openedFile,same.descriptors]
      split
      · rfl
      · exact same.files m
    · rw [openedFile,openedFile,same.descriptors]
      split
      · exact Iff.rfl
      · exact same.positions m g of
  · simp only [granted,if_false,and_true]
    exact same

theorem closeSame {d : ι} {s u : System ι} (same : SameFor d s u) (n : Nat) :
    SameFor d (serveNext s (.close n)) (serveNext u (.close n)) ∧ (serve s (.close n)).2 = (serve u (.close n)).2 := by
  have files := same.files n
  cases found : s.file? n with
  | none =>
    rw [found] at files
    have missing : u.file? n = none := Option.map_eq_none_iff.mp files.symm
    simp only [serveNext,serve,found,missing,and_true]
    exact same
  | some f =>
    rw [found] at files
    obtain ⟨g,found',_⟩ := Option.map_eq_some_iff.mp files.symm
    simp only [serveNext,serve,found,found',perform,and_true]
    refine ⟨same.device,same.perms,?_,fun m => ?_,fun m g of => ?_⟩
    · rw [List.length_set,List.length_set,same.descriptors]
    · rw [closedFile,closedFile]
      split
      · rfl
      · exact same.files m
    · rw [closedFile,closedFile]
      split
      · exact Iff.rfl
      · exact same.positions m g of

theorem sharedSame {d : ι} {s u : System ι} (same : SameFor d s u) {request : Request ι}
    (here : ¬ Elsewhere d s request) :
    SameFor d (serveNext s request) (serveNext u request) ∧ (serve s request).2 = (serve u request).2 := by
  cases via : through request with
  | none =>
    cases request with
    | «open» iCdev fMode => exact openSame same iCdev fMode
    | close n => exact closeSame same n
    | read | write | lseek => cases via
  | some n =>
    have file : ∃ f, s.file? n = some f ∧ f.privateData = d := by
      by_contra none_
      exact here ⟨n,via,fun f found of => none_ ⟨f,found,of⟩⟩
    obtain ⟨f,found,of⟩ := file
    have found' := (same.positions n f of).mp found
    have device : s.pcdevData f.privateData = u.pcdevData f.privateData := of ▸ same.device
    simp only [serveNext,serveThrough via found,serveThrough via found',device,handled,and_true]
    cases (handle (u.pcdevData f.privateData) f request).1 with
    | none => exact same
    | some o => exact putSame same found of o

/- Two runs side by side. They make the same requests, except for those that go
through files of other devices: these may differ in kind, data and number of bytes. -/
def sideBySide (both : System ι × System ι) (requests : Request ι × Request ι) : System ι × System ι :=
  (serveNext both.1 requests.1,serveNext both.2 requests.2)

def Alike (d : ι) (both : System ι × System ι) (requests : Request ι × Request ι) : Prop :=
  requests.1 = requests.2 ∨ (Elsewhere d both.1 requests.1 ∧ Elsewhere d both.2 requests.2)

omit [DecidableEq ι] in
theorem elsewhereSame {d : ι} {s u : System ι} (same : SameFor d s u) {request : Request ι}
    (elsewhere : Elsewhere d s request) : Elsewhere d u request := by
  obtain ⟨n,via,other⟩ := elsewhere
  refine ⟨n,via,fun g found of => ?_⟩
  exact other g ((same.positions n g of).mpr found) of

theorem sideBySideSame {d : ι} {both : System ι × System ι} {requests : Request ι × Request ι}
    (same : SameFor d both.1 both.2) (alike : Alike d both requests) :
    SameFor d (sideBySide both requests).1 (sideBySide both requests).2 := by
  obtain ⟨first,second⟩ := requests
  have apart : Elsewhere d both.1 first → Elsewhere d both.2 second →
      SameFor d (serveNext both.1 first) (serveNext both.2 second) := fun here there =>
    sameTrans (sameSymm (elsewhereKeeps here)) (sameTrans same (elsewhereKeeps there))
  rcases alike with equal | ⟨here,there⟩
  · change first = second at equal
    subst equal
    by_cases elsewhere : Elsewhere d both.1 first
    · exact apart elsewhere (elsewhereSame same elsewhere)
    · exact (sharedSame same elsewhere).1
  · exact apart here there

/- What a device holds, where its files stand and what they are answered depends on
no transfer and no seek through a file of another device. -/
theorem devicesIsolated (devices : ι → PcdevPrivateData) (d : ι) {requests : List (Request ι × Request ι)}
    (alike : ∀ tr ∈ trace sideBySide (loaded devices,loaded devices) requests, Alike d tr.before tr.label) :
    ∀ tr ∈ trace sideBySide (loaded devices,loaded devices) requests,
      SameFor d tr.before.1 tr.before.2 ∧ SameFor d tr.after.1 tr.after.2 ∧
      (¬ Elsewhere d tr.before.1 tr.label.1 → tr.label.1 = tr.label.2 →
        (serve tr.before.1 tr.label.1).2 = (serve tr.before.2 tr.label.2).2) := by
  intro tr mem
  have same := traceKeepsWhile (fun both => SameFor d both.1 both.2) (Alike d)
    (fun _ _ before ok => sideBySideSame before ok) (sameRefl d (loaded devices)) alike tr mem
  refine ⟨same,?_,fun here equal => ?_⟩
  · rw [(traceLabel mem).2]
    exact sideBySideSame same (alike tr mem)
  · rw [← equal]
    exact (sharedSame same here).2

instance (d : ι) (both : System ι × System ι) (requests : Request ι × Request ι) :
    Decidable (Alike d both requests) :=
  inferInstanceAs (Decidable (_ ∨ (_ ∧ _)))

def twoBytes : Bool → PcdevPrivateData := fun _ => zeroed 2 rdww (by decide) (by decide)

theorem twoDevicesIsolated :
    ¬ ∃ tr ∈ trace sideBySide (loaded twoBytes,loaded twoBytes) [(.open false 3,.open false 3),
        (.open true 3,.open true 3),(.write 0 none 0x1000 1 [9],.write 0 none 0x1000 1 [9]),
        (.write 1 none 0x1000 2 [7,8],.read 1 none 0x2000 5 5),(.lseek 1 40 seekCur,.lseek 1 1 seekSet)],
      ¬ SameFor false tr.after.1 tr.after.2 := by
  rintro ⟨tr,mem,differs⟩
  exact differs (devicesIsolated twoBytes false (by decide) tr mem).2.1

end Isolation

def relativeSeek (dev : PcdevPrivateData) (p offset : Int64) : Int64 := (pcdLlseek dev p offset seekCur).fPos

theorem seekOneFurther (dev : PcdevPrivateData) (p : Int64) :
    Within dev.maxSize (p + (1 - p)) ∧ relativeSeek dev p (1 - p) = p + 1 := by
  have one : p + (1 - p) = 1 := by rw [Int64.add_comm,Int64.sub_add_cancel]
  have size := maxSizeValue dev
  have inside : Within dev.maxSize (p + (1 - p)) := by
    have some_ := dev.positive
    have value : (1 : Int64).toInt = 1 := rfl
    rw [one]
    exact ⟨by omega,by omega⟩
  refine ⟨inside,?_⟩
  rw [relativeSeek,pcdLlseek,seekCurSpec,if_pos inside,one]

theorem seekFurther (dev : PcdevPrivateData) (n : Nat) (p : Int64) :
    ∃ offsets : List Int64, (∀ tr ∈ trace (relativeSeek dev) p offsets, Within dev.maxSize (tr.before + tr.label)) ∧
      offsets.foldl (relativeSeek dev) p = p + Int64.ofNat n := by
  induction n generalizing p with
  | zero => exact ⟨[],by simp [trace],by simp⟩
  | succ n ih =>
    obtain ⟨inside,moved⟩ := seekOneFurther dev p
    obtain ⟨offsets,all,landed⟩ := ih (p + 1)
    refine ⟨(1 - p) :: offsets,fun tr mem => ?_,?_⟩
    · rcases List.mem_cons.mp mem with rfl | rest
      · exact inside
      · rw [moved] at rest
        exact all tr rest
    · rw [List.foldl_cons,moved,landed,Int64.add_assoc,Int64.ofNat_add,Int64.add_comm (Int64.ofNat n)]
      rfl

/- The range check confines nothing: relative seeks that all pass it lead from the
start of a device to every position of 64 bits, the negative ones included. -/
theorem relativeSeeksReach (dev : PcdevPrivateData) (p : Int64) :
    ∃ offsets : List Int64, (∀ tr ∈ trace (relativeSeek dev) 0 offsets, Within dev.maxSize (tr.before + tr.label)) ∧
      offsets.foldl (relativeSeek dev) 0 = p := by
  obtain ⟨offsets,all,landed⟩ := seekFurther dev p.toUInt64.toNat 0
  refine ⟨offsets,all,landed.trans ?_⟩
  rw [Int64.zero_add,← UInt64.toInt64_ofNat',UInt64.ofNat_toNat,Int64.toInt64_toUInt64]

end KernelFacilities.DeviceFiles
