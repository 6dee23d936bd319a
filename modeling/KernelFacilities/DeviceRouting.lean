import KernelFacilities.CharDriverMultipleDevices
import KernelFacilities.CharDriverMultipleDevicesLoad
import KernelFacilities.StructLayouts
import Mathlib.Data.List.Induction

/-! How a device number leads to a device of the multi-device driver: cdev_add enters
the cdev of a device under its number, opening a node finds a cdev by number, and
pcd_open goes back from the cdev to the structure around it. The kernel's table is a
map from numbers to cdev addresses; what other drivers entered in it stays open. The
spinlock variant has its locks behind the cdev. -/
namespace KernelFacilities.DeviceRouting
open CharDriverMultipleDevices CharDriverMultipleDevicesLoad KernelErrors StructLayouts

def pointer : Member := ⟨8,8⟩
def int : Member := ⟨4,4⟩
def unsigned : Member := ⟨4,4⟩
def devT : Member := ⟨4,4⟩

section Layout
variable (cdev : Member) (locks : List Member) (n : Nat)

def pcdevPrivateData : List Member := [pointer,unsigned,pointer,int,cdev] ++ locks

def pcdrvPrivateData : List Member :=
  [int,devT,pointer,pointer,array (nested (pcdevPrivateData cdev locks)) n]

end Layout

structure Module (n : Nat) where
  cdev : Member
  locks : List Member
  privateDrvData : UInt64
  deviceNumber : UInt32
  sized : 0 < cdev.size
  aligned : Aligned (cdev :: locks)
  fits : privateDrvData.toNat + (nested (pcdrvPrivateData cdev locks n)).size < 2 ^ 64
  region : deviceNumber.toNat + n ≤ 2 ^ 32

variable {n : Nat} (m : Module n)

def Module.width : Nat := (nested (pcdevPrivateData m.cdev m.locks)).size
def Module.pcdevData : Nat := offsetOf (pcdrvPrivateData m.cdev m.locks n) 4
def Module.pcdCdev : Nat := offsetOf (pcdevPrivateData m.cdev m.locks) 4

def Module.device (i : Nat) : UInt64 := memberAddress m.privateDrvData (m.pcdevData + i * m.width)
def Module.cdevOf (i : Nat) : UInt64 := memberAddress (m.device i) m.pcdCdev

def Module.number (i : Nat) : UInt32 := m.deviceNumber + UInt32.ofNat i

abbrev CdevMap := UInt32 → Option UInt64

def Module.enter (map : CdevMap) : Entry → CdevMap
  | .acquired (.cdev i) => Function.update map (m.number i) (some (m.cdevOf i))
  | .released (.cdev i) =>
      if map (m.number i) = some (m.cdevOf i) then Function.update map (m.number i) none else map
  | _ => map

def Module.cdevMap (others : CdevMap) (j : Journal) : CdevMap := j.foldl m.enter others

inductive Opened (n : Nat) where
  | noDevice
  | other (iCdev : UInt64)
  | device (privateData : Fin n) (ret : Int32)
  -- The pointer from container_of is none of the devices, and its perm is read.
  | wild (privateData : UInt64)
  deriving DecidableEq

def Module.pcdOpen (devices : Fin n → PcdevPrivateData) (iCdev : UInt64) (fMode : UInt32) : Opened n :=
  let pcdevData := containerOf iCdev m.pcdCdev
  match (List.finRange n).find? (fun k : Fin n => m.device k = pcdevData) with
  | none => .wild pcdevData
  | some k => .device k (checkPermission (devices k).perm fMode.toInt32)

def Module.chrdevOpen (devices : Fin n → PcdevPrivateData) (map : CdevMap) (iRdev : UInt32) (fMode : UInt32) :
    Opened n :=
  match map iRdev with
  | none => .noDevice
  | some iCdev =>
      if (List.range n).any (fun k => m.cdevOf k = iCdev) then m.pcdOpen devices iCdev fMode else .other iCdev

section Addresses

theorem recordAligned : Aligned (pcdevPrivateData m.cdev m.locks) := by
  intro x mem
  rcases List.mem_append.mp mem with front | lock
  · simp only [List.mem_cons,List.not_mem_nil,or_false] at front
    rcases front with rfl | rfl | rfl | rfl | rfl
    · decide
    · decide
    · decide
    · decide
    · exact m.aligned m.cdev List.mem_cons_self
  · exact m.aligned x (List.mem_cons_of_mem _ lock)

theorem driverAligned : Aligned (pcdrvPrivateData m.cdev m.locks n) := by
  intro x mem
  simp only [pcdrvPrivateData,List.mem_cons,List.not_mem_nil,or_false] at mem
  rcases mem with rfl | rfl | rfl | rfl | rfl
  · decide
  · decide
  · decide
  · decide
  · exact alignSome (pcdevPrivateData m.cdev m.locks)

theorem cdevInside : m.pcdCdev + m.cdev.size ≤ m.width := memberInside (recordAligned m) rfl

theorem devicesInside : m.pcdevData + n * m.width ≤ (nested (pcdrvPrivateData m.cdev m.locks n)).size := by
  have at_ : (pcdrvPrivateData m.cdev m.locks n)[4]? =
      some (array (nested (pcdevPrivateData m.cdev m.locks)) n) := rfl
  have inside := memberInside (driverAligned m) at_
  exact inside

theorem deviceValue {i : Nat} (low : i < n) :
    (m.device i).toNat = m.privateDrvData.toNat + m.pcdevData + i * m.width := by
  have inside := devicesInside m
  have fits := m.fits
  have below : i * m.width ≤ n * m.width := Nat.mul_le_mul_right _ (Nat.le_of_lt low)
  rw [Module.device,addressValue (by omega)]
  omega

theorem devicesApart {i k : Nat} (low : i < n) (low' : k < n) (same : m.device i = m.device k) : i = k := by
  have values : (m.device i).toNat = (m.device k).toNat := congrArg UInt64.toNat same
  rw [deviceValue m low,deviceValue m low'] at values
  have some_ : 0 < m.width := by
    have inside := cdevInside m
    have sized := m.sized
    omega
  exact Nat.eq_of_mul_eq_mul_right some_ (by omega)

theorem numbersApart {i k : Nat} (low : i < n) (low' : k < n) (same : m.number i = m.number k) : i = k := by
  have values : (m.number i).toNat = (m.number k).toNat := congrArg UInt32.toNat same
  have region := m.region
  simp only [Module.number,UInt32.toNat_add,UInt32.toNat_ofNat'] at values
  omega

theorem openOwn (devices : Fin n → PcdevPrivateData) (k : Fin n) (fMode : UInt32) :
    m.pcdOpen devices (m.cdevOf k) fMode = .device k (checkPermission (devices k).perm fMode.toInt32) := by
  have back : containerOf (m.cdevOf k) m.pcdCdev = m.device k := containerOfMember _ _
  unfold Module.pcdOpen
  cases found : (List.finRange n).find? (fun i : Fin n => m.device i = containerOf (m.cdevOf k) m.pcdCdev) with
  | none => exact absurd back.symm (by simpa using List.find?_eq_none.mp found k (List.mem_finRange k))
  | some i =>
    have at_ := List.find?_some found
    simp only [back,decide_eq_true_eq] at at_
    have same : i = k := Fin.ext (devicesApart m i.isLt k.isLt at_)
    subst same
    simp only [found]

end Addresses

section Live

def live (j : Journal) (i : Nat) : Bool := j.foldl (fun before e =>
  if e = .acquired (.cdev i) then true else if e = .released (.cdev i) then false else before) false

theorem liveAfter (j : Journal) (e : Entry) (i : Nat) : live (j ++ [e]) i =
    if e = .acquired (.cdev i) then true else if e = .released (.cdev i) then false else live j i := by
  rw [live,List.foldl_append]
  rfl

theorem liveDown (j : Journal) (i k : Nat) : live (destroyDown j i) k = (decide (i < k) && live j k) := by
  induction i generalizing j with
  | zero =>
    rw [destroyDown,List.append_cons,liveAfter,liveAfter]
    by_cases same : k = 0
    · simp [same]
    · simp [Ne.symm same,Nat.pos_of_ne_zero same]
  | succ i ih =>
    rw [destroyDown,ih,List.append_cons,liveAfter,liveAfter]
    by_cases same : k = i + 1
    · simp [same]
    · have order : i < k ↔ i + 1 < k := by omega
      simp [Ne.symm same,order]

theorem liveUp (j : Journal) (i left k : Nat) :
    live (destroyUp j i left) k = (decide (k < i ∨ i + left ≤ k) && live j k) := by
  induction left generalizing j i with
  | zero =>
    have always : k < i ∨ i + 0 ≤ k := by omega
    simp only [destroyUp,always,decide_true,Bool.true_and]
  | succ left ih =>
    rw [destroyUp,ih,List.append_cons,liveAfter,liveAfter]
    by_cases same : k = i
    · have inside : ¬ (k < i ∨ i + (left + 1) ≤ k) := by omega
      simp only [inside,decide_false,Bool.false_and]
      simp [same]
    · have order : k < i + 1 ∨ i + 1 + left ≤ k ↔ k < i ∨ i + (left + 1) ≤ k := by omega
      simp only [order]
      simp [Ne.symm same]

theorem liveFailed {j : Journal} {i : Nat} (below : ∀ k, live j k = true → k ≤ i) (ret : Errno) (k : Nat) :
    live (classDel j ret i).1 k = false := by
  have others : live (classDel j ret i).1 k = live (destroyDown j i) k := by
    simp only [classDel,unregisterChrdev,out,liveAfter,Entry.released.injEq,reduceCtorEq,if_false]
  rw [others,liveDown]
  by_cases there : live j k = true
  · have low := below k there
    simp only [Nat.not_lt.mpr low,decide_false,Bool.false_and]
  · simp [there]

theorem liveLoop (o : Outcomes) {j : Journal} {i left : Nat} (below : ∀ k, live j k = decide (k < i)) :
    ((initDevices o j i left).2 = 0 ∧ ∀ k, live (initDevices o j i left).1 k = decide (k < i + left)) ∨
    ((initDevices o j i left).2 ≠ 0 ∧ ∀ k, live (initDevices o j i left).1 k = false) := by
  induction left generalizing j i with
  | zero => exact .inl ⟨rfl,below⟩
  | succ left ih =>
    have under : ∀ k, live j k = true → k ≤ i := fun k there => by
      rw [below,decide_eq_true_eq] at there
      exact Nat.le_of_lt there
    cases add : o.cdevAdd i with
    | some e =>
      have done : initDevices o j i (left + 1) = classDel j e i := by simp only [initDevices,add]
      rw [done]
      exact .inr ⟨errnoNonzero e,liveFailed under e⟩
    | none =>
      have grown (k : Nat) : live (j ++ [.acquired (.cdev i)]) k = decide (k < i + 1) := by
        rw [liveAfter,below]
        by_cases same : k = i
        · simp [same]
        · have order : k < i ↔ k < i + 1 := by omega
          simp [Ne.symm same,order]
      cases create : o.deviceCreate i with
      | some e =>
        have done : initDevices o j i (left + 1) = classDel (j ++ [.acquired (.cdev i)]) e i := by
          simp only [initDevices,add,create]
        rw [done]
        refine .inr ⟨errnoNonzero e,liveFailed (fun k there => ?_) e⟩
        rw [grown,decide_eq_true_eq] at there
        exact Nat.le_of_lt_succ there
      | none =>
        have both (k : Nat) : live (j ++ [.acquired (.cdev i),.acquired (.device i)]) k = decide (k < i + 1) := by
          rw [List.append_cons,liveAfter,grown]
          simp
        have high : i + 1 + left = i + (left + 1) := by omega
        rw [goesOn add create,← high]
        exact ih both

theorem liveInit (n : Nat) (o : Outcomes) :
    ((pcdDriverInit n o).2 = 0 ∧ ∀ k, live (pcdDriverInit n o).1 k = decide (k < n)) ∨
    ((pcdDriverInit n o).2 ≠ 0 ∧ ∀ k, live (pcdDriverInit n o).1 k = false) := by
  cases region : o.allocChrdevRegion with
  | some e =>
    simp only [pcdDriverInit,region]
    exact .inr ⟨errnoNonzero e,fun k => rfl⟩
  | none =>
    cases class_ : o.classCreate with
    | some e =>
      simp only [pcdDriverInit,region,class_]
      exact .inr ⟨errnoNonzero e,fun k => by simp [unregisterChrdev,out,live]⟩
    | none =>
      rw [loopReached region class_]
      have empty : ∀ k, live begun k = decide (k < 0) := fun k => by simp [begun,live]
      have loop := @liveLoop o begun 0 n empty
      rwa [Nat.zero_add] at loop

theorem liveExit {n : Nat} {j : Journal} (all : ∀ k, live j k = decide (k < n)) (k : Nat) :
    live (pcdDriverExit n j) k = false := by
  have others : live (pcdDriverExit n j) k = live (destroyUp j 0 n) k := by
    rw [pcdDriverExit,List.append_cons,liveAfter,liveAfter]
    simp
  rw [others,liveUp,all]
  by_cases low : k < n
  · simp [low]
  · simp [low]

end Live

section Entries

def Below (n : Nat) : Entry → Prop
  | .acquired (.cdev i) | .released (.cdev i) => i < n
  | _ => True

theorem downBelow {j : Journal} (before : ∀ e ∈ j, Below n e) {i : Nat} (low : i < n) :
    ∀ e ∈ destroyDown j i, Below n e := by
  induction i generalizing j with
  | zero => exact List.forall_mem_append.mpr ⟨before,by simp [Below,low]⟩
  | succ i ih =>
    have pair : ∀ e ∈ [Entry.released (.device (i + 1)),.released (.cdev (i + 1))], Below n e := by simp [Below,low]
    exact ih (List.forall_mem_append.mpr ⟨before,pair⟩) (Nat.lt_of_succ_lt low)

theorem upBelow {j : Journal} (before : ∀ e ∈ j, Below n e) {i left : Nat} (high : i + left ≤ n) :
    ∀ e ∈ destroyUp j i left, Below n e := by
  induction left generalizing j i with
  | zero => exact before
  | succ left ih =>
    have low : i < n := by omega
    have pair : ∀ e ∈ [Entry.released (.device i),.released (.cdev i)], Below n e := by simp [Below,low]
    exact ih (List.forall_mem_append.mpr ⟨before,pair⟩) (by omega)

theorem failBelow {j : Journal} (before : ∀ e ∈ j, Below n e) (ret : Errno) {i : Nat} (low : i < n) :
    ∀ e ∈ (classDel j ret i).1, Below n e := by
  have class_ : ∀ e ∈ [Entry.released .class_], Below n e := by simp [Below]
  have region : ∀ e ∈ [Entry.released .chrdevRegion], Below n e := by simp [Below]
  exact List.forall_mem_append.mpr ⟨List.forall_mem_append.mpr ⟨downBelow before low,class_⟩,region⟩

theorem loopBelow (o : Outcomes) {j : Journal} (before : ∀ e ∈ j, Below n e) {i left : Nat} (high : i + left ≤ n) :
    ∀ e ∈ (initDevices o j i left).1, Below n e := by
  induction left generalizing j i with
  | zero => exact before
  | succ left ih =>
    have low : i < n := by omega
    have cdev : ∀ e ∈ [Entry.acquired (.cdev i)], Below n e := by simp [Below,low]
    have device : ∀ e ∈ [Entry.acquired (.device i)], Below n e := by simp [Below]
    unfold initDevices
    split
    · exact failBelow before _ low
    · split
      · exact failBelow (List.forall_mem_append.mpr ⟨before,cdev⟩) _ low
      · exact ih (List.forall_mem_append.mpr ⟨List.forall_mem_append.mpr ⟨before,cdev⟩,device⟩) (by omega)

theorem initBelow (n : Nat) (o : Outcomes) : ∀ e ∈ (pcdDriverInit n o).1, Below n e := by
  unfold pcdDriverInit
  split
  · simp [out]
  · split
    · simp [unregisterChrdev,out,Below]
    · exact loopBelow o (by simp [Below]) (Nat.le_of_eq (Nat.zero_add n))

theorem exitBelow {j : Journal} (before : ∀ e ∈ j, Below n e) : ∀ e ∈ pcdDriverExit n j, Below n e := by
  have last : ∀ e ∈ [Entry.released .class_,.released .chrdevRegion], Below n e := by simp [Below]
  exact List.forall_mem_append.mpr ⟨upBelow before (Nat.le_of_eq (Nat.zero_add n)),last⟩

end Entries

section Table
variable {m}

theorem enterOwn (map : CdevMap) {e : Entry} (below : Below n e) {k : Nat} (low : k < n) :
    m.enter map e (m.number k) =
      if e = .acquired (.cdev k) then some (m.cdevOf k)
      else if e = .released (.cdev k) then (if map (m.number k) = some (m.cdevOf k) then none else map (m.number k))
      else map (m.number k) := by
  have apart {i : Nat} (inside : i < n) (other : i ≠ k) : m.number k ≠ m.number i := fun same =>
    other (numbersApart m inside low same.symm)
  cases e with
  | acquired r =>
    cases r with
    | cdev i =>
      by_cases same : i = k
      · simp [Module.enter,same]
      · simp [Module.enter,same,apart below same]
    | _ => simp [Module.enter]
  | released r =>
    cases r with
    | cdev i =>
      by_cases same : i = k
      · simp only [Module.enter,same,reduceCtorEq,if_false,if_true]
        split
        · exact Function.update_self ..
        · rfl
      · simp only [Module.enter,reduceCtorEq,if_false,Entry.released.injEq,Registration.cdev.injEq,same]
        split
        · exact Function.update_of_ne (apart below same) ..
        · rfl
    | _ => simp [Module.enter]

theorem enterElsewhere (map : CdevMap) {e : Entry} (below : Below n e) {d : UInt32}
    (far : ∀ k < n, d ≠ m.number k) : m.enter map e d = map d := by
  unfold Module.enter
  split
  · exact Function.update_of_ne (far _ below) ..
  · split
    · exact Function.update_of_ne (far _ below) ..
    · rfl
  · rfl

structure TableOf (m : Module n) (others : CdevMap) (j : Journal) : Prop where
  own : ∀ k < n, m.cdevMap others j (m.number k) = if live j k then some (m.cdevOf k) else none
  rest : ∀ d, (∀ k < n, d ≠ m.number k) → m.cdevMap others j d = others d

theorem tableFollows {others : CdevMap} (free : ∀ k < n, others (m.number k) = none) {j : Journal}
    (below : ∀ e ∈ j, Below n e) : TableOf m others j := by
  induction j using List.reverseRecOn with
  | nil => exact ⟨fun k low => free k low,fun d _ => rfl⟩
  | append_singleton j e ih =>
    obtain ⟨before,last⟩ := List.forall_mem_append.mp below
    have table := ih before
    have here := last e (List.mem_singleton_self e)
    have entered : m.cdevMap others (j ++ [e]) = m.enter (m.cdevMap others j) e := List.foldl_append
    refine ⟨fun k low => ?_,fun d far => ?_⟩
    · rw [entered,enterOwn _ here low,liveAfter,table.own k low]
      by_cases added : e = .acquired (.cdev k)
      · simp [added]
      · by_cases deleted : e = .released (.cdev k)
        · cases live j k <;> simp [deleted]
        · simp [added,deleted]
    · rw [entered,enterElsewhere _ here far,table.rest d far]

theorem tableEmpty {others : CdevMap} (free : ∀ k < n, others (m.number k) = none) {j : Journal}
    (table : TableOf m others j) (gone : ∀ k, live j k = false) : m.cdevMap others j = others := by
  funext d
  by_cases far : ∀ k < n, d ≠ m.number k
  · exact table.rest d far
  · obtain ⟨k,low,same⟩ : ∃ k, k < n ∧ d = m.number k := by simpa using far
    rw [same,table.own k low,gone,free k low]
    rfl

variable (devices : Fin n → PcdevPrivateData) {others : CdevMap} {j : Journal}

theorem openFollows (table : TableOf m others j) (k : Fin n) (fMode : UInt32) :
    m.chrdevOpen devices (m.cdevMap others j) (m.number k) fMode =
      if live j k then .device k (checkPermission (devices k).perm fMode.toInt32) else .noDevice := by
  rw [Module.chrdevOpen,table.own k k.isLt]
  cases live j k with
  | false => rfl
  | true =>
    have ours : (List.range n).any (fun i => m.cdevOf i = m.cdevOf k) = true :=
      List.any_eq_true.mpr ⟨k,List.mem_range.mpr k.isLt,decide_eq_true rfl⟩
    simp only [if_true,ours,openOwn]

theorem momentBelow {o : Outcomes} {j : Journal}
    (moment : j <+: (pcdDriverInit n o).1 ∨ j <+: pcdDriverExit n (pcdDriverInit n o).1) : ∀ e ∈ j, Below n e := by
  rcases moment with loading | unloading
  · exact fun e mem => initBelow n o e (loading.subset mem)
  · exact fun e mem => exitBelow (initBelow n o) e (unloading.subset mem)

/- After a load every device number of the region leads to the device of its index;
after a failed load, and after an unload, the table is what it was before. At no
moment in between does a number lead to another device or to none of them. -/
theorem numbersReachDevices (o : Outcomes) (free : ∀ k < n, others (m.number k) = none) :
    ((pcdDriverInit n o).2 = 0 →
      (∀ (k : Fin n) (fMode : UInt32),
        m.chrdevOpen devices (m.cdevMap others (pcdDriverInit n o).1) (m.number k) fMode =
          .device k (checkPermission (devices k).perm fMode.toInt32)) ∧
      m.cdevMap others (pcdDriverExit n (pcdDriverInit n o).1) = others) ∧
    ((pcdDriverInit n o).2 ≠ 0 → m.cdevMap others (pcdDriverInit n o).1 = others) ∧
    ∀ j, j <+: (pcdDriverInit n o).1 ∨ j <+: pcdDriverExit n (pcdDriverInit n o).1 →
      (∀ d, (∀ k < n, d ≠ m.number k) → m.cdevMap others j d = others d) ∧
      ∀ (k : Fin n) (fMode : UInt32),
        m.chrdevOpen devices (m.cdevMap others j) (m.number k) fMode = .noDevice ∨
        m.chrdevOpen devices (m.cdevMap others j) (m.number k) fMode =
          .device k (checkPermission (devices k).perm fMode.toInt32) := by
  have loaded := tableFollows (m := m) free (initBelow n o)
  have unloaded := tableFollows (m := m) free (exitBelow (initBelow n o))
  refine ⟨fun success => ?_,fun failed => ?_,fun j moment => ?_⟩
  · rcases liveInit n o with ⟨_,all⟩ | ⟨failed,_⟩
    · refine ⟨fun k fMode => ?_,tableEmpty free unloaded (liveExit all)⟩
      rw [openFollows devices loaded,all,decide_eq_true k.isLt,if_pos rfl]
    · exact absurd success failed
  · rcases liveInit n o with ⟨success,_⟩ | ⟨_,none_⟩
    · exact absurd success failed
    · exact tableEmpty free loaded none_
  · have table := tableFollows (m := m) free (momentBelow moment)
    refine ⟨table.rest,fun k fMode => ?_⟩
    rw [openFollows devices table]
    cases live j k with
    | false => exact .inl rfl
    | true => exact .inr rfl

end Table

def fourDevices : Module noOfDevices where
  cdev := ⟨104,8⟩
  locks := []
  privateDrvData := 0xffffffffc0402000
  deviceNumber := 0x0f000000
  sized := by decide
  aligned := by simp [Aligned]
  fits := by decide
  region := by decide

theorem thirdDeviceReached :
    fourDevices.chrdevOpen pcdevData
      (fourDevices.cdevMap (fun _ => none) (pcdDriverInit noOfDevices ⟨none,none,fun _ => none,fun _ => none⟩).1)
      (fourDevices.number 2) 3 = .device 2 0 :=
  ((numbersReachDevices pcdevData _ (fun _ _ => rfl)).1 (by decide)).1 2 3

/- The user program beside the driver (container_of_macro_demo.c) that works the macro
out on a structure of its own; it prints both addresses if they agree. -/
section Demo

def char : Member := ⟨1,1⟩

def someData : List Member := [char,int,char,int]

def getContainer (data ptr : UInt64) : Option (UInt64 × UInt64) :=
  let data1 := containerOf ptr (offsetOf someData 2)
  if data = data1 then some (data,data1) else none

theorem getContainerPrints (data ptr : UInt64) : getContainer data ptr =
    if ptr = memberAddress data (offsetOf someData 2) then some (data,data) else none := by
  have exact_ := containerOfExact ptr data (offsetOf someData 2)
  unfold getContainer
  by_cases back : containerOf ptr (offsetOf someData 2) = data
  · rw [if_pos back.symm,if_pos (exact_.mp back),back]
  · rw [if_neg (Ne.symm back),if_neg fun at_ => back (exact_.mpr at_)]

example : offsetOf someData 2 = 8 := by decide

end Demo

end KernelFacilities.DeviceRouting
