import KernelFacilities.CharTransfers
import KernelFacilities.ReadLoops

/-! The proc file of ldd_2_proc_file_read_write. The user side of a read is the count
it asks for and how many bytes of its buffer can be touched before a fault; where
the bytes behind a short buffer would land is not modelled, only that they are stored. -/
namespace KernelFacilities.ProcFile
open ByteSpans CharTransfers MachineIntegers ReadLoops Runs

def msg : List UInt8 := [65,99,107,33,10,0]

def msgLen : UInt64 := 6

structure LddRead where
  ret : Int64
  offset : Int64
  stored : List UInt8
  result : Nat
  deriving DecidableEq, Repr

structure Request where
  count : UInt64
  mapped : Nat
  deriving DecidableEq, Repr

def lddRead (request : Request) (offset : Int64) : LddRead :=
  if offset.toUInt64 ≥ msgLen then ⟨0,offset,[],0⟩
  else
    let (stored,result) := copyToUser msg 0 msgLen request.mapped
    ⟨msgLen.toInt64,advance offset msgLen,stored,result⟩

structure Lawful (request : Request) (offset : Int64) (done : LddRead) : Prop where
  atMost : done.ret.toInt ≤ request.count.toNat
  bounded : done.stored.length ≤ request.count.toNat
  faults : done.result ≠ 0 → done.ret < 0
  stored : 0 ≤ done.ret → done.stored.length = done.ret.toNatClampNeg ∧
    done.stored = span msg offset.toNatClampNeg done.ret.toNatClampNeg
  moved : 0 ≤ done.ret → done.offset.toInt = offset.toInt + done.ret.toInt
  ended : done.ret = 0 → 0 < request.count.toNat → msg.length ≤ offset.toNatClampNeg

def program (offset : Int64) (request : Request) : Answer Int64 UInt8 :=
  ⟨(lddRead request offset).offset,(lddRead request offset).stored,(lddRead request offset).ret = 0⟩

structure Reassembles (start : Position) (requests : List Request) : Prop where
  lawful : ∀ tr ∈ calls program start.val requests, Lawful tr.label tr.before (lddRead tr.label tr.before)
  rest : (∀ request ∈ requests, 0 < request.count.toNat) →
    (readUntilEnd program start.val requests).ended = true →
    (readUntilEnd program start.val requests).data = msg.drop start.val.toNatClampNeg
  ends : (∀ request ∈ requests, 0 < request.count.toNat) →
    msg.length - start.val.toNatClampNeg < requests.length →
    (readUntilEnd program start.val requests).ended = true

def Fits (request : Request) (offset : Int64) : Prop :=
  msg.length ≤ offset.toNatClampNeg ∨
    offset = 0 ∧ msg.length ≤ request.count.toNat ∧ msg.length ≤ request.mapped

/- Only the first call can fall short: every call leaves the offset behind the
message, and there every call is answered by 0. -/
def FirstFits (start : Position) : List Request → Prop
  | [] => True
  | request :: _ => Fits request start.val

theorem msgLength : msgLen.toNat = msg.length := rfl

theorem sixPositive : (0 : Int64) ≤ 6 := by decide

section Call
variable {offset : Int64} (low : 0 ≤ offset.toInt)
include low

theorem behindMessage : offset.toUInt64 ≥ msgLen ↔ msg.length ≤ offset.toNatClampNeg := by
  have word := wordOfSigned offset
  have most := offset.toInt_lt
  have index := clampNonneg low
  have length := msgLength
  rw [ge_iff_le,UInt64.le_iff_toNat_le]
  omega

theorem readBehind (request : Request) (behind : msg.length ≤ offset.toNatClampNeg) :
    lddRead request offset = ⟨0,offset,[],0⟩ := by
  rw [lddRead,if_pos ((behindMessage low).mpr behind)]

theorem readBefore (request : Request) (before : ¬ msg.length ≤ offset.toNatClampNeg) :
    lddRead request offset = ⟨6,advance offset msgLen,msg.take request.mapped,6 - min 6 request.mapped⟩ := by
  have small : msgLen.toNat ≤ intMax := by decide
  have bytes : msg.take (min msg.length request.mapped) = msg.take request.mapped := by
    rw [Nat.min_comm,← List.take_eq_take_min]
  rw [lddRead,if_neg (mt (behindMessage low).mp before)]
  simp only [copyToUser,uncopied,copiedGranted small,span,List.drop_zero]
  exact congrArg (fun stored => LddRead.mk 6 (advance offset msgLen) stored (6 - min 6 request.mapped)) bytes

theorem movedBefore (before : ¬ msg.length ≤ offset.toNatClampNeg) :
    (advance offset msgLen).toInt = offset.toInt + 6 := by
  have index := clampNonneg low
  have length : msg.length = 6 := rfl
  have six : msgLen.toNat = 6 := rfl
  rw [advanceSmall low (by omega),six]
  rfl

theorem nextOffset (request : Request) : 0 ≤ (lddRead request offset).offset.toInt := by
  by_cases behind : msg.length ≤ offset.toNatClampNeg
  · rw [readBehind low request behind]
    exact low
  · rw [readBefore low request behind]
    change 0 ≤ (advance offset msgLen).toInt
    rw [movedBefore low behind]
    omega

theorem retNonneg (request : Request) : 0 ≤ (lddRead request offset).ret := by
  by_cases behind : msg.length ≤ offset.toNatClampNeg
  · rw [readBehind low request behind]
    exact Int64.le_refl 0
  · rw [readBefore low request behind]
    exact sixPositive

theorem lawfulBehind {request : Request} (behind : msg.length ≤ offset.toNatClampNeg) :
    Lawful request offset (lddRead request offset) := by
  have nothing : span msg offset.toNatClampNeg 0 = [] := List.take_zero
  rw [readBehind low request behind]
  refine ⟨Int.natCast_nonneg _,Nat.zero_le _,absurd rfl,fun _ => ⟨rfl,nothing.symm⟩,fun _ => ?_,
    fun _ _ => behind⟩
  exact (Int.add_zero _).symm

theorem lawfulBefore {request : Request} (before : ¬ msg.length ≤ offset.toNatClampNeg)
    (lawful : Lawful request offset (lddRead request offset)) :
    offset = 0 ∧ msg.length ≤ request.count.toNat ∧ msg.length ≤ request.mapped := by
  have length : msg.length = 6 := rfl
  have six : (6 : Int64).toNatClampNeg = 6 := rfl
  have index := clampNonneg low
  rw [readBefore low request before] at lawful
  have asked : (6 : Int) ≤ request.count.toNat := lawful.atMost
  have whole : 6 - min 6 request.mapped = 0 := by
    by_contra short
    exact absurd (lawful.faults short) (Int64.not_lt.mpr sixPositive)
  obtain ⟨_,bytes⟩ := lawful.stored sixPositive
  have same := congrArg List.length bytes
  rw [span,List.length_take,List.length_take,List.length_drop] at same
  have start : offset.toInt = 0 := by omega
  exact ⟨Int64.toInt_inj.mp start,by omega,by omega⟩

omit low in
theorem lawfulStart {request : Request} (asked : msg.length ≤ request.count.toNat)
    (mapped : msg.length ≤ request.mapped) : Lawful request 0 (lddRead request 0) := by
  have start : (0 : Int) ≤ (0 : Int64).toInt := Int.le_refl 0
  have before : ¬ msg.length ≤ (0 : Int64).toNatClampNeg := by decide
  have length : msg.length = 6 := rfl
  have whole : msg.take request.mapped = msg := List.take_of_length_le mapped
  have none : 6 - min 6 request.mapped = 0 := by omega
  rw [readBefore start request before,whole,none]
  refine ⟨Int.ofNat_le.mpr asked,asked,absurd rfl,fun _ => ⟨rfl,rfl⟩,fun _ => movedBefore start before,
    fun zero => ?_⟩
  exact absurd zero (by decide)

theorem lawfulExact (request : Request) : Lawful request offset (lddRead request offset) ↔ Fits request offset := by
  constructor
  · intro lawful
    by_cases behind : msg.length ≤ offset.toNatClampNeg
    · exact .inl behind
    · exact .inr (lawfulBefore low behind lawful)
  · rintro (behind | ⟨rfl,asked,mapped⟩)
    · exact lawfulBehind low behind
    · exact lawfulStart asked mapped

theorem lawfulDelivers {request : Request} (positive : 0 < request.count.toNat)
    (lawful : Lawful request offset (lddRead request offset)) :
    Delivers msg Int64.toNatClampNeg offset (program offset request) := by
  have ret := retNonneg low request
  have retValue := clampNonneg (Int64.le_iff_toInt_le.mp ret)
  obtain ⟨count,bytes⟩ := lawful.stored ret
  refine ⟨fun done => lawful.ended (of_decide_eq_true done) positive,fun goes => ?_⟩
  have nonzero : (lddRead request offset).ret.toInt ≠ 0 :=
    fun zero => of_decide_eq_false goes (Int64.toInt_inj.mp zero)
  have length := congrArg List.length bytes
  rw [span,List.length_take,List.length_drop] at length
  refine ⟨_,?_,?_,bytes,indexMoved low (retValue ▸ lawful.moved ret)⟩
  · omega
  · omega

end Call

theorem offsetsNonneg {start : Int64} (low : 0 ≤ start.toInt) (requests : List Request) :
    ∀ tr ∈ calls program start requests, 0 ≤ tr.before.toInt :=
  traceKeeps (fun offset : Int64 => 0 ≤ offset.toInt) (fun _ request low => nextOffset low request) requests low

theorem behindStays {start : Int64} (low : 0 ≤ start.toInt) (behind : msg.length ≤ start.toNatClampNeg)
    (requests : List Request) :
    ∀ tr ∈ calls program start requests, msg.length ≤ tr.before.toNatClampNeg := by
  let inv (offset : Int64) : Prop := 0 ≤ offset.toInt ∧ msg.length ≤ offset.toNatClampNeg
  have keeps : ∀ offset request, inv offset → inv (program offset request).next := by
    intro offset request at_
    have stays : (program offset request).next = offset :=
      congrArg LddRead.offset (readBehind at_.1 request at_.2)
    exact stays.symm ▸ at_
  exact fun tr mem => (traceKeeps inv keeps requests ⟨low,behind⟩ tr mem).2

theorem leavesBehind {start : Int64} (low : 0 ≤ start.toInt) (request : Request) :
    msg.length ≤ (lddRead request start).offset.toNatClampNeg := by
  by_cases behind : msg.length ≤ start.toNatClampNeg
  · rw [readBehind low request behind]
    exact behind
  · rw [readBefore low request behind]
    have moved := indexMoved low (movedBefore low behind)
    change msg.length ≤ (advance start msgLen).toNatClampNeg
    rw [moved]
    exact Nat.le_add_left ..

theorem allFit {start : Position} {requests : List Request} (first : FirstFits start requests) :
    ∀ tr ∈ calls program start.val requests, Fits tr.label tr.before := by
  cases requests with
  | nil =>
    intro tr mem
    cases mem
  | cons request rest =>
    intro tr mem
    rcases List.mem_cons.mp mem with rfl | later
    · exact first
    · have next := nextOffset start.property request
      exact .inl (behindStays next (leavesBehind start.property request) rest tr later)

theorem reassemblesExact (start : Position) (requests : List Request) :
    Reassembles start requests ↔ FirstFits start requests := by
  constructor
  · intro holds
    cases requests with
    | nil => trivial
    | cons request rest =>
      exact (lawfulExact start.property request).mp (holds.lawful _ List.mem_cons_self)
  · intro first
    have lows := offsetsNonneg start.property requests
    have lawful : ∀ tr ∈ calls program start.val requests,
        Lawful tr.label tr.before (lddRead tr.label tr.before) :=
      fun tr mem => (lawfulExact (lows tr mem) tr.label).mpr (allFit first tr mem)
    have rest (positive : ∀ request ∈ requests, 0 < request.count.toNat) :=
      readUntilEndRest fun tr mem =>
        lawfulDelivers (lows tr mem) (positive tr.label (traceLabel mem).1) (lawful tr mem)
    exact ⟨lawful,fun positive => (rest positive).1,fun positive => (rest positive).2⟩

theorem oneByteRead : ¬ Reassembles ⟨0,by decide⟩ [⟨1,4096⟩] := by
  intro holds
  have atMost := (holds.lawful _ List.mem_cons_self).atMost
  exact absurd atMost (by decide)

end KernelFacilities.ProcFile
