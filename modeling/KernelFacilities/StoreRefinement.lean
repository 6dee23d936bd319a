import KernelFacilities.CharDriverMultipleDevices
import KernelFacilities.CursorStore
import KernelFacilities.Runs
import Mathlib.Data.List.Forall2

/-! The multi-device driver refines the reference store: one zeroed array for each
device, one cursor for each open file. Runs mix opens, absolute seeks, reads,
writes and releases through any files; the user copies do not fault here. -/
namespace KernelFacilities.StoreRefinement
open CharTransfers CharDriverMultipleDevices Runs CursorStore

variable {ι : Type}

def sizes (devices : ι → PcdevPrivateData) (d : ι) : Nat := (devices d).size.toNat

def opens (devices : ι → PcdevPrivateData) (d : ι) (fMode : UInt32) : Bool :=
  checkPermission (devices d).perm fMode.toInt32 == 0

def view (devices : ι → PcdevPrivateData) : Call ι → Op ι UInt8
  | .open iCdev fMode => .attach iCdev (opens devices iCdev fMode)
  | .io n (.read count _) => .read n count.val.toNat
  | .io n (.write count user) => .write n count.val.toNat user
  | .io n (.llseek offset _) => .seek n offset.toInt
  | .release n => .detach n

def Faultless (s : System ι) : Call ι → Prop
  | .io n (.read count mapped) => ∀ f ∈ s.file? n, (s.openFile f).granted count ≤ mapped
  | .io n (.write count user) => ∀ f ∈ s.file? n, (s.openFile f).granted count ≤ user.length
  | .io _ (.llseek _ whence) => whence = seekSet
  | _ => True

instance (s : System ι) (call) : Decidable (Faultless s call) := by
  unfold Faultless
  split <;> infer_instance

def Agrees (reply : Reply) : Answer UInt8 → Prop
  | .attached | .detached => reply.ret = 0
  | .refused => reply.ret = -1
  | .missing => reply.ret = -ebadf
  | .values data => reply.ret.toInt = data.length ∧ reply.data = data
  | .stored count => reply.ret.toInt = count
  | .full => reply.ret = -enomem
  | .moved position => reply.ret.toInt = position
  | .outside => reply.ret = -einval

def cursor (f : File ι) : ι × Nat := (f.privateData,f.fPos.toNatClampNeg)

structure Related (devices : ι → PcdevPrivateData) (s : System ι) (r : Store ι UInt8) : Prop where
  shape : ∀ d, (s.pcdevData d).size = (devices d).size ∧ (s.pcdevData d).perm = (devices d).perm
  cells : ∀ d a, a < sizes devices d → (s.pcdevData d).buffer[a]? = some (r.cells d a)
  cursors : r.cursors = s.files.map (Option.map cursor)
  inside : ∀ n f, s.file? n = some f → (s.openFile f).within

section Step
variable {devices : ι → PcdevPrivateData} {s : System ι} {r : Store ι UInt8}

theorem cursorOfFile (related : Related devices s r) (n : Nat) :
    r.cursor? n = (s.file? n).map cursor := by
  unfold Store.cursor? System.file?
  rw [related.cursors,List.getElem?_map]
  cases s.files[n]? with
  | none => rfl
  | some entry => rfl

theorem openedSize (related : Related devices s r) (f : File ι) :
    (s.openFile f).dev.size.toNat = sizes devices f.privateData := by
  simp only [System.openFile,sizes,(related.shape f.privateData).1]

theorem openedCells (related : Related devices s r) (f : File ι) {a : Nat}
    (low : a < sizes devices f.privateData) :
    (s.openFile f).dev.buffer[a]? = some (r.cells f.privateData a) :=
  related.cells f.privateData a low

theorem placeSame {n : Nat} {array : ι} {p : Nat} (found : r.cursor? n = some (array,p)) :
    r.cursors.set n (some (array,p)) = r.cursors := by
  apply List.ext_getElem?
  intro m
  rw [List.getElem?_set]
  by_cases here : n = m
  · subst here
    unfold Store.cursor? at found
    cases entry : r.cursors[n]? with
    | none => simp [entry] at found
    | some value =>
      simp only [entry,Option.join_some] at found
      have low := (List.getElem?_eq_some_iff.mp entry).1
      simp [low,found]
  · simp [here]

theorem spanCells {buffer : List UInt8} {cells : Nat → UInt8} {size p n : Nat}
    (same : ∀ a, a < size → buffer[a]? = some (cells a)) (room : p + n ≤ size) :
    ByteSpans.span buffer p n = (List.range n).map (fun i => cells (p + i)) := by
  apply List.ext_getElem?
  intro i
  rw [ByteSpans.spanAt,List.getElem?_map]
  by_cases low : i < n
  · rw [if_pos low,same (p + i) (by omega),List.getElem?_range low]
    rfl
  · rw [if_neg low,List.getElem?_eq_none (by simp; omega)]
    rfl

theorem movedFile (related : Related devices s r) {n : Nat} {f : File ι} (found : s.file? n = some f)
    {call : FileCall} {count : Count}
    (moved : (vfsCall (s.openFile f) call).1.fPos.toInt = f.fPos.toInt + (s.openFile f).granted count) :
    (vfsCall (s.openFile f) call).1.within ∧
    (vfsCall (s.openFile f) call).1.fPos.toNatClampNeg =
      f.fPos.toNatClampNeg + min count.val.toNat (sizes devices f.privateData - f.fPos.toNatClampNeg) := by
  have inside := related.inside n f found
  have min_ := grantedMin inside count
  rw [openedSize related f] at min_
  have low : 0 ≤ f.fPos.toInt := inside.low
  have room := (grantedBounds inside count.val).1
  refine ⟨⟨by omega,?_⟩,?_⟩
  · rw [callKeepsMaxSize,moved]
    change ((s.openFile f).granted count : Int) ≤ (s.openFile f).dev.maxSize.toInt - f.fPos.toInt at room
    omega
  · rw [indexMoved low moved,min_]
    rfl

variable [DecidableEq ι]

theorem putRelated (related : Related devices s r) {n : Nat} {f : File ι} {o : OpenFile}
    (size : o.dev.size = (s.openFile f).dev.size) (perm : o.dev.perm = (s.openFile f).dev.perm)
    (within : o.within) {next : Store ι UInt8}
    (content : ∀ a, a < sizes devices f.privateData → o.dev.buffer[a]? = some (next.cells f.privateData a))
    (others : ∀ d, d ≠ f.privateData → next.cells d = r.cells d)
    (moved : next.cursors = r.cursors.set n (some (f.privateData,o.fPos.toNatClampNeg))) :
    Related devices (s.put n f o) next := by
  have shape := related.shape
  refine ⟨fun d => ?_,fun d a low => ?_,?_,fun m g at_ => ?_⟩
  · by_cases same : d = f.privateData
    · subst same
      simp only [System.put,Function.update_self,size,perm]
      exact shape _
    · simp only [System.put,Function.update_of_ne same]
      exact shape d
  · by_cases same : d = f.privateData
    · subst same
      simp only [System.put,Function.update_self]
      exact content a low
    · simp only [System.put,Function.update_of_ne same,others d same]
      exact related.cells d a low
  · rw [moved,related.cursors,System.put,List.map_set]
    rfl
  · have sameSize : ∀ d, ((s.put n f o).pcdevData d).maxSize = (s.pcdevData d).maxSize := by
      intro d
      by_cases same : d = f.privateData
      · subst same
        simp only [System.put,Function.update_self,PcdevPrivateData.maxSize,size]
        rfl
      · simp only [System.put,Function.update_of_ne same]
    rcases fileReplaced at_ with old | new
    · have before := related.inside m g old
      refine ⟨before.low,?_⟩
      show g.fPos.toInt ≤ ((s.put n f o).pcdevData g.privateData).maxSize.toInt
      rw [sameSize]
      exact before.high
    · cases Option.some.inj new
      refine ⟨within.low,?_⟩
      show o.fPos.toInt ≤ ((s.put n f o).pcdevData f.privateData).maxSize.toInt
      have high := within.high
      simpa only [System.put,Function.update_self] using high

theorem unmovedRelated (related : Related devices s r) {n : Nat} {f : File ι} (found : s.file? n = some f) :
    Related devices (s.put n f (s.openFile f)) r := by
  have at_ := cursorOfFile related n
  rw [found] at at_
  exact putRelated related rfl rfl (related.inside n f found)
    (fun a low => openedCells related f low) (fun _ _ => rfl) (placeSame at_).symm

theorem readFollows (related : Related devices s r) {n : Nat} {f : File ι} (found : s.file? n = some f)
    {count : Count} {mapped : Nat} (clean : (s.openFile f).granted count ≤ mapped) :
    Related devices (performNext s (.io n (.read count mapped)))
      (applyNext (sizes devices) r (.read n count.val.toNat)) ∧
    Agrees (perform s (.io n (.read count mapped))).2 (apply (sizes devices) r (.read n count.val.toNat)).2 := by
  have inside := related.inside n f found
  have at_ := cursorOfFile related n
  rw [found] at at_
  have min_ := grantedMin inside count
  rw [openedSize related f] at min_
  change _ = min count.val.toNat (sizes devices f.privateData - f.fPos.toNatClampNeg) at min_
  obtain ⟨dev,moved,ret,data⟩ := callReadDelivers inside clean
  obtain ⟨within,landing⟩ := movedFile related found moved
  have high := inside.high
  have index := indexOfWithin inside
  rw [maxSizeValue,openedSize related f] at high
  simp only [performNext,perform,found,applyNext,apply,at_,Option.map_some,cursor]
  refine ⟨putRelated related (by rw [dev]) (by rw [dev]) within (fun a low => ?_) (fun _ _ => rfl) ?_,?_,?_⟩
  · rw [dev]
    exact openedCells related f low
  · rw [landing]
    rfl
  · rw [ret,min_,List.length_map,List.length_range]
  · rw [data,min_]
    refine spanCells (fun a low => openedCells related f low) ?_
    change ((f.fPos.toNatClampNeg : Nat) : Int) = f.fPos.toInt at index
    change f.fPos.toInt ≤ _ at high
    show f.fPos.toNatClampNeg + _ ≤ _
    omega

theorem writeFollows (related : Related devices s r) {n : Nat} {f : File ι} (found : s.file? n = some f)
    {count : Count} {user : List UInt8} (clean : (s.openFile f).granted count ≤ user.length) :
    Related devices (performNext s (.io n (.write count user)))
      (applyNext (sizes devices) r (.write n count.val.toNat user)) ∧
    Agrees (perform s (.io n (.write count user))).2
      (apply (sizes devices) r (.write n count.val.toNat user)).2 := by
  have inside := related.inside n f found
  have at_ := cursorOfFile related n
  rw [found] at at_
  have min_ := grantedMin inside count
  rw [openedSize related f] at min_
  change _ = min count.val.toNat (sizes devices f.privateData - f.fPos.toNatClampNeg) at min_
  simp only [performNext,perform,found,applyNext,apply,at_,Option.map_some,cursor]
  by_cases full : min count.val.toNat (sizes devices f.privateData - f.fPos.toNatClampNeg) = 0
  · rw [callWriteFull inside (min_.trans full) user]
    simp only [full,if_true]
    exact ⟨unmovedRelated related found,rfl⟩
  · obtain ⟨stored,moved,ret,_⟩ := callWriteStores inside user (by omega) clean
    obtain ⟨within,landing⟩ := movedFile related found moved
    obtain ⟨size,perm⟩ := callKeepsDevice (s.openFile f) (.write count user)
    simp only [full,if_false]
    refine ⟨putRelated related size perm within (fun a low => ?_) (fun d other => ?_) ?_,?_⟩
    · have old := openedCells related f low
      rw [stored,min_,ByteSpans.patchAt,old]
      simp only [Store.place,Store.fill,Function.update_self,replaced,Option.map_some]
      rfl
    · simp only [Store.place,Store.fill,Function.update_of_ne other]
    · rw [landing]
      rfl
    · show (vfsCall (s.openFile f) (.write count user)).2.ret.toInt = _
      rw [ret,min_]

theorem seekFollows (related : Related devices s r) {n : Nat} {f : File ι} (found : s.file? n = some f)
    (offset : Int64) :
    Related devices (performNext s (.io n (.llseek offset seekSet)))
      (applyNext (sizes devices) r (.seek n offset.toInt)) ∧
    Agrees (perform s (.io n (.llseek offset seekSet))).2
      (apply (sizes devices) r (.seek n offset.toInt)).2 := by
  have at_ := cursorOfFile related n
  rw [found] at at_
  have size : (s.openFile f).dev.maxSize.toInt = sizes devices f.privateData := by
    rw [maxSizeValue,openedSize related f]
  simp only [performNext,perform,found,applyNext,apply,at_,Option.map_some,cursor,vfsCall,pcdLlseek,
    seekSetSpec]
  by_cases lands : Within (s.openFile f).dev.maxSize offset
  · have range : 0 ≤ offset.toInt ∧ offset.toInt ≤ sizes devices f.privateData := by
      rw [← size]; exact ⟨lands.low,lands.high⟩
    rw [if_pos lands,if_pos range]
    have put : Related devices (s.put n f ⟨(s.openFile f).dev,offset⟩)
        (r.place n f.privateData offset.toInt.toNat) := by
      refine putRelated related ?_ ?_ lands (fun a low => openedCells related f low) (fun _ _ => rfl) ?_
      · rfl
      · rfl
      · rfl
    refine ⟨put,?_⟩
    show offset.toInt = offset.toInt.toNat
    omega
  · have range : ¬ (0 ≤ offset.toInt ∧ offset.toInt ≤ sizes devices f.privateData) := by
      rw [← size]; exact fun h => lands ⟨h.1,h.2⟩
    rw [if_neg lands,if_neg range]
    exact ⟨unmovedRelated related found,rfl⟩

theorem openFollows (related : Related devices s r) (iCdev : ι) (fMode : UInt32) :
    Related devices (performNext s (.open iCdev fMode))
      (applyNext (sizes devices) r (.attach iCdev (opens devices iCdev fMode))) ∧
    Agrees (perform s (.open iCdev fMode)).2
      (apply (sizes devices) r (.attach iCdev (opens devices iCdev fMode))).2 := by
  have perm := (related.shape iCdev).2
  simp only [performNext,perform,pcdOpen,perm,applyNext,apply,opens]
  by_cases granted : checkPermission (devices iCdev).perm fMode.toInt32 = 0
  · simp only [granted,if_true,beq_self_eq_true]
    refine ⟨⟨related.shape,related.cells,?_,fun n f found => ?_⟩,rfl⟩
    · simp only [related.cursors,List.map_append,List.map_cons,List.map_nil]
      rfl
    · rcases fileAppended found with old | new
      · exact related.inside n f old
      · cases Option.some.inj new
        exact startWithin (s.pcdevData iCdev)
  · have refused := refusal granted
    have other : (checkPermission (devices iCdev).perm fMode.toInt32 == 0) = false := by simp [granted]
    simp only [granted,if_false,other,Bool.false_eq_true]
    refine ⟨related,?_⟩
    rw [refused]
    rfl

theorem releaseFollows (related : Related devices s r) (n : Nat) :
    Related devices (performNext s (.release n)) (applyNext (sizes devices) r (.detach n)) := by
  refine ⟨related.shape,related.cells,?_,fun m f found => ?_⟩
  · simp only [applyNext,apply,performNext,perform,related.cursors,List.map_set]
    rfl
  · rcases fileReplaced found with old | new
    · exact related.inside m f old
    · cases new

theorem callFollows {call : Call ι} (clean : Faultless s call) (related : Related devices s r) :
    Related devices (performNext s call) (applyNext (sizes devices) r (view devices call)) ∧
    Agrees (perform s call).2 (apply (sizes devices) r (view devices call)).2 := by
  cases call with
  | «open» iCdev fMode => exact openFollows related iCdev fMode
  | release n => exact ⟨releaseFollows related n,rfl⟩
  | io n call =>
    cases found : s.file? n with
    | none =>
      have at_ := cursorOfFile related n
      rw [found] at at_
      cases call <;> simp only [performNext,perform,found,view,applyNext,apply,at_,Option.map_none] <;>
        exact ⟨related,rfl⟩
    | some f =>
      cases call with
      | read count mapped => exact readFollows related found (clean f found)
      | write count user => exact writeFollows related found (clean f found)
      | llseek offset whence =>
        change whence = seekSet at clean
        subst clean
        exact seekFollows related found offset

end Step

theorem loadedRelated {devices : ι → PcdevPrivateData}
    (zero : ∀ d, (devices d).buffer = List.replicate (devices d).size.toNat 0) :
    Related devices (loaded devices) ⟨fun _ _ => 0,[]⟩ := by
  refine ⟨fun d => ⟨rfl,rfl⟩,fun d a low => ?_,rfl,fun n f found => ?_⟩
  · simp only [loaded,zero]
    exact List.getElem?_replicate_of_lt low
  · simp [loaded,System.file?] at found

variable [DecidableEq ι]

/- What a write of the run stored at an address, read off the call and its result:
the file it went through, where that file stood, and how much it reported. -/
def stored (tr : Transition (System ι) (Call ι)) (d : ι) (a : Nat) : Option UInt8 :=
  match tr.label with
  | .io n (.write _ user) =>
      match tr.before.file? n with
      | none => none
      | some f =>
          if f.privateData = d ∧ f.fPos.toNatClampNeg ≤ a then
            (user.take (perform tr.before tr.label).2.ret.toNatClampNeg)[a - f.fPos.toNatClampNeg]?
          else none
  | _ => none

def lastWritten (log : List (Transition (System ι) (Call ι))) (d : ι) (a : Nat) : UInt8 :=
  log.foldl (fun b tr => (stored tr d a).getD b) 0

theorem storedTouched {devices : ι → PcdevPrivateData} {s : System ι} {r : Store ι UInt8} {call : Call ι}
    (clean : Faultless s call) (related : Related devices s r) (d : ι) (a : Nat) :
    stored ⟨s,call,performNext s call⟩ d a = touched (sizes devices) r (view devices call) d a := by
  cases call with
  | «open» => rfl
  | release => rfl
  | io n io =>
    cases io with
    | read => rfl
    | llseek => rfl
    | write count user =>
      have at_ := cursorOfFile related n
      simp only [stored,view,touched,at_]
      cases found : s.file? n with
      | none => rfl
      | some f =>
        have inside := related.inside n f found
        have min_ := grantedMin inside count
        rw [openedSize related f] at min_
        change _ = min count.val.toNat (sizes devices f.privateData - f.fPos.toNatClampNeg) at min_
        simp only [Option.map_some,cursor]
        split <;> rename_i both <;> try rfl
        have reply : (perform s (.io n (.write count user))).2 =
            (vfsCall (s.openFile f) (.write count user)).2 := by simp only [perform,found]
        have cut : min count.val.toNat (sizes devices d - f.fPos.toNatClampNeg) =
            (s.openFile f).granted count := by rw [min_,both.1]
        simp only [reply,cut]
        by_cases full : (s.openFile f).granted count = 0
        · have nothing : (-enomem).toNatClampNeg = 0 := by decide
          rw [callWriteFull inside full user,full,nothing]
        · obtain ⟨_,_,ret,_⟩ := callWriteStores inside user (by omega) (clean f found)
          have reported : (vfsCall (s.openFile f) (.write count user)).2.ret.toNatClampNeg =
              (s.openFile f).granted count := by
            change (vfsCall (s.openFile f) (.write count user)).2.ret.toInt.toNat = _
            omega
          rw [reported]

theorem lastWrittenLatest {devices : ι → PcdevPrivateData} {calls : List (Call ι)} {s : System ι}
    {r : Store ι UInt8} (clean : ∀ tr ∈ trace performNext s calls, Faultless tr.before tr.label)
    (related : Related devices s r)
    {pre tr post} (split : trace performNext s calls = pre ++ tr :: post) (d : ι) (a : Nat)
    (low : a < sizes devices d) :
    (tr.before.pcdevData d).buffer[a]? =
      some (pre.foldl (fun b tr => (stored tr d a).getD b) (r.cells d a)) := by
  induction pre generalizing s r calls with
  | nil =>
    cases calls with
    | nil => simp [trace] at split
    | cons call calls =>
      simp only [trace,List.nil_append,List.cons.injEq] at split
      rw [← split.1]
      exact related.cells d a low
  | cons first pre ih =>
    cases calls with
    | nil => simp [trace] at split
    | cons call calls =>
      simp only [trace,List.cons_append,List.cons.injEq] at split
      have here := clean _ List.mem_cons_self
      have rest := ih (fun tr mem => clean tr (List.mem_cons_of_mem _ mem)) (callFollows here related).1 split.2
      rw [rest,applyCells,← storedTouched here related,← split.1]
      rfl

structure Refines (devices : ι → PcdevPrivateData) (log : List (Transition (System ι) (Call ι)))
    (reference : List (Transition (Store ι UInt8) (Op ι UInt8))) : Prop where
  lockstep : List.Forall₂ (fun tr image => image.label = view devices tr.label ∧
    Related devices tr.before image.before ∧ Related devices tr.after image.after ∧
    Agrees (perform tr.before tr.label).2 (apply (sizes devices) image.before image.label).2) log reference
  fresh : ∀ pre tr post, log = pre ++ tr :: post → ∀ n count mapped f,
    tr.label = .io n (.read count mapped) → tr.before.file? n = some f →
    ∀ i b, (perform tr.before tr.label).2.data[i]? = some b →
      b = lastWritten pre f.privateData (f.fPos.toNatClampNeg + i)
  frame : ∀ tr ∈ log, ∀ d, (∀ n io f, tr.label = .io n io → tr.before.file? n = some f →
    f.privateData ≠ d) → tr.after.pcdevData d = tr.before.pcdevData d

theorem performFrame (s : System ι) (call : Call ι) (d : ι)
    (other : ∀ n io f, call = .io n io → s.file? n = some f → f.privateData ≠ d) :
    (performNext s call).pcdevData d = s.pcdevData d := by
  cases call with
  | «open» iCdev fMode => simp only [performNext,perform]; split <;> rfl
  | release n => rfl
  | io n io =>
    cases found : s.file? n with
    | none => simp only [performNext,perform,found]
    | some f =>
      have apart := other n io f rfl found
      simp only [performNext,perform,found,System.put,Function.update_of_ne (Ne.symm apart)]

theorem driverRefinesStore {devices : ι → PcdevPrivateData}
    (zero : ∀ d, (devices d).buffer = List.replicate (devices d).size.toNat 0)
    {calls : List (Call ι)}
    (clean : ∀ tr ∈ trace performNext (loaded devices) calls, Faultless tr.before tr.label) :
    Refines devices (trace performNext (loaded devices) calls)
      (trace (applyNext (sizes devices)) ⟨fun _ _ => 0,[]⟩ (calls.map (view devices))) := by
  have start := loadedRelated zero
  refine ⟨?_,?_,fun tr mem d other => ?_⟩
  · refine (traceFollows (Related devices) Faultless
      (fun ok related => (callFollows ok related).1) start clean).imp ?_
    intro tr image both
    obtain ⟨before,ok,label,after⟩ := both
    rw [label]
    exact ⟨rfl,before,after,(callFollows ok before).2⟩
  · intro pre tr post split n count mapped f label found i b data
    have member : tr ∈ trace performNext (loaded devices) calls := by rw [split]; simp
    have ok := clean tr member
    have visited := traceKeepsWhile (fun s => ∃ r, Related devices s r) Faultless
      (fun _ _ inv ok => inv.elim fun _ related => ⟨_,(callFollows ok related).1⟩) ⟨_,start⟩ clean
    obtain ⟨r,related⟩ := visited tr member
    have inside := related.inside n f found
    have min_ := grantedMin inside count
    rw [openedSize related f] at min_
    rw [label] at ok
    have reaches := ok f found
    simp only [label,perform,found,(callReadDelivers inside reaches).2.2.2,ByteSpans.spanAt] at data
    change (if i < _ then (tr.before.pcdevData f.privateData).buffer[f.fPos.toNatClampNeg + i]? else none) = _ at data
    change _ = min _ (_ - f.fPos.toNatClampNeg) at min_
    split at data <;> try contradiction
    have written := lastWrittenLatest clean start split f.privateData (f.fPos.toNatClampNeg + i) (by omega)
    exact Option.some.inj (data.symm.trans written)
  · rw [(traceLabel mem).2]
    exact performFrame tr.before tr.label d other

def eightBytes : Unit → PcdevPrivateData := fun _ => zeroed 8 rdww (by decide) (by decide)

def shortWriteCalls : List (Call Unit) :=
  [.open () 3,.io 0 (.llseek 6 seekSet),.io 0 (.write ⟨6,by decide⟩ [1,2,3,4,5,6]),.io 0 (.llseek 4 seekSet),
    .io 0 (.read ⟨9,by decide⟩ 9)]

theorem shortWriteReadBack :
    (trace performNext (loaded eightBytes) shortWriteCalls).map (fun tr => (perform tr.before tr.label).2) =
      [⟨0,[]⟩,⟨6,[]⟩,⟨2,[]⟩,⟨4,[]⟩,⟨4,[0,0,1,2]⟩] ∧
    Refines eightBytes (trace performNext (loaded eightBytes) shortWriteCalls)
      (trace (applyNext (sizes eightBytes)) ⟨fun _ _ => 0,[]⟩ (shortWriteCalls.map (view eightBytes))) :=
  ⟨by decide,driverRefinesStore (fun _ => rfl) (by decide)⟩

end KernelFacilities.StoreRefinement
