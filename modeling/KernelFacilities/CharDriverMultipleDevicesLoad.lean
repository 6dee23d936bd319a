import KernelFacilities.MachineIntegers
import Mathlib.Data.Nat.Find

/-! Loading and unloading the multi-device driver (003; the loops of
spinlock/char_driver_multiple_devices.c are the same), for any number of devices.
A journal lists the registrations that succeeded and the releases that were
called, in order. The cleanup starts at the index that failed, not below it. -/
namespace KernelFacilities.CharDriverMultipleDevicesLoad
open KernelErrors

inductive Registration where
  | chrdevRegion
  | class_
  | cdev (i : Nat)
  | device (i : Nat)
  deriving DecidableEq, Repr

inductive Entry where
  | acquired (r : Registration)
  | released (r : Registration)
  deriving DecidableEq, Repr

abbrev Journal := List Entry

structure Outcomes where
  allocChrdevRegion : Option Errno
  classCreate : Option Errno
  cdevAdd : Nat → Option Errno
  deviceCreate : Nat → Option Errno

def destroyDown (j : Journal) : Nat → Journal
  | 0 => j ++ [.released (.device 0),.released (.cdev 0)]
  | i + 1 => destroyDown (j ++ [.released (.device (i + 1)),.released (.cdev (i + 1))]) i

section Labels
variable (j : Journal) (ret : Errno)

def out : Journal × Int32 := (j,ret.val)
def unregisterChrdev : Journal × Int32 := out (j ++ [.released .chrdevRegion]) ret
def classDel (i : Nat) : Journal × Int32 := unregisterChrdev (destroyDown j i ++ [.released .class_]) ret

end Labels

def initDevices (o : Outcomes) (j : Journal) (i : Nat) : Nat → Journal × Int32
  | 0 => (j,0)
  | left + 1 =>
    match o.cdevAdd i with
    | some ret => classDel j ret i
    | none =>
      let j := j ++ [.acquired (.cdev i)]
      match o.deviceCreate i with
      | some ret => classDel j ret i
      | none => initDevices o (j ++ [.acquired (.device i)]) (i + 1) left

def pcdDriverInit (devices : Nat) (o : Outcomes) : Journal × Int32 :=
  match o.allocChrdevRegion with
  | some ret => out [] ret
  | none =>
    match o.classCreate with
    | some ret => unregisterChrdev [.acquired .chrdevRegion] ret
    | none => initDevices o [.acquired .chrdevRegion,.acquired .class_] 0 devices

def destroyUp (j : Journal) (i : Nat) : Nat → Journal
  | 0 => j
  | left + 1 => destroyUp (j ++ [.released (.device i),.released (.cdev i)]) (i + 1) left

def pcdDriverExit (devices : Nat) (j : Journal) : Journal :=
  destroyUp j 0 devices ++ [.released .class_,.released .chrdevRegion]

def Settled (j : Journal) : Prop :=
  ∀ r, j.count (.released r) = j.count (.acquired r) ∧ j.count (.acquired r) ≤ 1

structure RolledBack (devices : Nat) (o : Outcomes) : Prop where
  failed : (pcdDriverInit devices o).2 ≠ 0 → Settled (pcdDriverInit devices o).1
  unloaded : (pcdDriverInit devices o).2 = 0 → Settled (pcdDriverExit devices (pcdDriverInit devices o).1)

def FailsInLoop (devices : Nat) (o : Outcomes) : Prop :=
  o.allocChrdevRegion = none ∧ o.classCreate = none ∧
    ∃ i < devices, o.cdevAdd i ≠ none ∨ o.deviceCreate i ≠ none

def ofDevices (low high : Nat) : Registration → Nat
  | .cdev i | .device i => if low ≤ i ∧ i < high then 1 else 0
  | _ => 0

theorem ofDevicesEmpty (i : Nat) (r : Registration) : ofDevices i i r = 0 := by
  cases r with
  | cdev k | device k => exact if_neg (by omega)
  | _ => rfl

theorem ofDevicesJoin {low mid high : Nat} (first : low ≤ mid) (second : mid ≤ high) (r : Registration) :
    ofDevices low mid r + ofDevices mid high r = ofDevices low high r := by
  cases r with
  | cdev k | device k =>
    simp only [ofDevices]
    split_ifs <;> omega
  | _ => rfl

theorem ofDevicesOne (i : Nat) (r : Registration) :
    ofDevices i (i + 1) r = if r = .cdev i ∨ r = .device i then 1 else 0 := by
  have only (k : Nat) : i ≤ k ∧ k < i + 1 ↔ k = i := by omega
  cases r with
  | cdev k | device k => simp only [ofDevices,only,Registration.cdev.injEq,Registration.device.injEq,
      reduceCtorEq,or_false,false_or]
  | _ => rfl

theorem pairCount {a b : Entry} (apart : a ≠ b) (e : Entry) :
    [a,b].count e = if e = a ∨ e = b then 1 else 0 := by
  rw [List.count_cons,List.count_singleton]
  by_cases first : e = a
  · subst first
    simp [apart.symm]
  · by_cases second : e = b
    · subst second
      simp [apart]
    · simp [first,second,Ne.symm first,Ne.symm second]

theorem deviceUp (i : Nat) (r : Registration) :
    [Entry.acquired (.cdev i),.acquired (.device i)].count (.acquired r) = ofDevices i (i + 1) r := by
  rw [pairCount (by simp),ofDevicesOne]
  simp only [Entry.acquired.injEq]

theorem deviceDown (i : Nat) (r : Registration) :
    [Entry.released (.device i),.released (.cdev i)].count (.acquired r) = 0 ∧
    [Entry.released (.device i),.released (.cdev i)].count (.released r) = ofDevices i (i + 1) r := by
  have apart : Entry.released (.device i) ≠ .released (.cdev i) := by simp
  rw [pairCount apart,pairCount apart,ofDevicesOne]
  simp only [Entry.released.injEq,reduceCtorEq,or_self,if_false,true_and,or_comm]

theorem destroyDownCounts (j : Journal) (i : Nat) (r : Registration) :
    (destroyDown j i).count (.acquired r) = j.count (.acquired r) ∧
    (destroyDown j i).count (.released r) = j.count (.released r) + ofDevices 0 (i + 1) r := by
  induction i generalizing j with
  | zero =>
    obtain ⟨none,one⟩ := deviceDown 0 r
    rw [destroyDown,List.count_append,List.count_append,none,one]
    exact ⟨rfl,rfl⟩
  | succ i ih =>
    obtain ⟨acquired,released⟩ := ih (j ++ [.released (.device (i + 1)),.released (.cdev (i + 1))])
    obtain ⟨none,one⟩ := deviceDown (i + 1) r
    have joined := ofDevicesJoin (Nat.zero_le (i + 1)) (Nat.le_add_right (i + 1) 1) r
    rw [destroyDown,acquired,released,List.count_append,List.count_append,none,one]
    omega

theorem destroyUpCounts (j : Journal) (i left : Nat) (r : Registration) :
    (destroyUp j i left).count (.acquired r) = j.count (.acquired r) ∧
    (destroyUp j i left).count (.released r) = j.count (.released r) + ofDevices i (i + left) r := by
  induction left generalizing j i with
  | zero => exact ⟨rfl,(Nat.add_eq_left.mpr (ofDevicesEmpty i r)).symm⟩
  | succ left ih =>
    obtain ⟨acquired,released⟩ := ih (j ++ [.released (.device i),.released (.cdev i)]) (i + 1)
    obtain ⟨none,one⟩ := deviceDown i r
    have joined := ofDevicesJoin (Nat.le_add_right i 1) (Nat.le_add_right (i + 1) left) r
    have high : i + 1 + left = i + (left + 1) := by omega
    rw [destroyUp,acquired,released,List.count_append,List.count_append,none,one,← high]
    omega

/- The cleanup destroys the device at the failing index, which was not created
there whichever of the two calls failed. -/
theorem classDelOverruns (j : Journal) (ret : Errno) (i : Nat) :
    (classDel j ret i).1.count (.acquired (.device i)) = j.count (.acquired (.device i)) ∧
    (classDel j ret i).1.count (.released (.device i)) = j.count (.released (.device i)) + 1 := by
  obtain ⟨acquired,released⟩ := destroyDownCounts j i (.device i)
  simp [classDel,unregisterChrdev,out,List.count_append,acquired,released,ofDevices]

structure DevicesUp (o : Outcomes) (j : Journal) (i left : Nat) : Prop where
  works : ∀ k, i ≤ k → k < i + left → o.cdevAdd k = none ∧ o.deviceCreate k = none
  ret : (initDevices o j i left).2 = 0
  acquired : ∀ r, (initDevices o j i left).1.count (.acquired r) =
    j.count (.acquired r) + ofDevices i (i + left) r
  released : ∀ r, (initDevices o j i left).1.count (.released r) = j.count (.released r)

structure DeviceFails (o : Outcomes) (j : Journal) (i left k : Nat) : Prop where
  low : i ≤ k
  high : k < i + left
  fails : o.cdevAdd k ≠ none ∨ o.deviceCreate k ≠ none
  ret : ∃ e : Errno, (initDevices o j i left).2 = e.val
  acquired : (initDevices o j i left).1.count (.acquired (.device k)) = j.count (.acquired (.device k))
  released : (initDevices o j i left).1.count (.released (.device k)) = j.count (.released (.device k)) + 1

section Devices
variable {o : Outcomes} {j : Journal} {i left : Nat}

theorem failsHere {before : Journal} {e : Errno} (fails : o.cdevAdd i ≠ none ∨ o.deviceCreate i ≠ none)
    (done : initDevices o j i (left + 1) = classDel before e i)
    (acquired : before.count (.acquired (.device i)) = j.count (.acquired (.device i)))
    (released : before.count (.released (.device i)) = j.count (.released (.device i))) :
    DeviceFails o j i (left + 1) i := by
  obtain ⟨kept,extra⟩ := classDelOverruns before e i
  refine ⟨Nat.le_refl i,by omega,fails,⟨e,by rw [done]; rfl⟩,?_,?_⟩
  · rw [done,kept,acquired]
  · rw [done,extra,released]

section Next
variable (add : o.cdevAdd i = none) (create : o.deviceCreate i = none)
include add create

theorem goesOn : initDevices o j i (left + 1) =
    initDevices o (j ++ [.acquired (.cdev i),.acquired (.device i)]) (i + 1) left := by
  have flat : j ++ [.acquired (.cdev i)] ++ [.acquired (.device i)] =
      j ++ [.acquired (.cdev i),.acquired (.device i)] := List.append_assoc ..
  simp only [initDevices,add,create,flat]

theorem upWithRest (up : DevicesUp o (j ++ [.acquired (.cdev i),.acquired (.device i)]) (i + 1) left) :
    DevicesUp o j i (left + 1) := by
  have done : initDevices o j i (left + 1) = _ := goesOn add create
  refine ⟨fun k low high => ?_,?_,fun r => ?_,fun r => ?_⟩
  · rcases Nat.eq_or_lt_of_le low with rfl | above
    · exact ⟨add,create⟩
    · exact up.works k above (by omega)
  · rw [done]
    exact up.ret
  · have joined := ofDevicesJoin (Nat.le_add_right i 1) (Nat.le_add_right (i + 1) left) r
    have high : i + 1 + left = i + (left + 1) := by omega
    rw [done,up.acquired,List.count_append,deviceUp,← high]
    omega
  · have none : [Entry.acquired (.cdev i),.acquired (.device i)].count (.released r) = 0 := by simp
    rw [done,up.released,List.count_append,none,Nat.add_zero]

theorem failsInRest {k : Nat}
    (fails : DeviceFails o (j ++ [.acquired (.cdev i),.acquired (.device i)]) (i + 1) left k) :
    DeviceFails o j i (left + 1) k := by
  have done : initDevices o j i (left + 1) = _ := goesOn add create
  have low := fails.low
  have high := fails.high
  refine ⟨by omega,by omega,fails.fails,?_,?_,?_⟩
  · rw [done]
    exact fails.ret
  · have other : ofDevices i (i + 1) (.device k) = 0 := if_neg (by omega)
    rw [done,fails.acquired,List.count_append,deviceUp,other,Nat.add_zero]
  · have none : [Entry.acquired (.cdev i),.acquired (.device i)].count (.released (.device k)) = 0 := by simp
    rw [done,fails.released,List.count_append,none,Nat.add_zero]

end Next

end Devices

theorem initDevicesCases (o : Outcomes) (j : Journal) (i left : Nat) :
    DevicesUp o j i left ∨ ∃ k, DeviceFails o j i left k := by
  induction left generalizing j i with
  | zero => exact .inl ⟨fun k low high => by omega,rfl,fun r => (Nat.add_eq_left.mpr (ofDevicesEmpty i r)).symm,
      fun r => rfl⟩
  | succ left ih =>
    cases add : o.cdevAdd i with
    | some e =>
      have done : initDevices o j i (left + 1) = classDel j e i := by simp only [initDevices,add]
      exact .inr ⟨i,failsHere (.inl (by simp [add])) done rfl rfl⟩
    | none =>
      cases create : o.deviceCreate i with
      | some e =>
        have done : initDevices o j i (left + 1) = classDel (j ++ [.acquired (.cdev i)]) e i := by
          simp only [initDevices,add,create]
        exact .inr ⟨i,failsHere (.inr (by simp [create])) done (by simp [List.count_append])
          (by simp [List.count_append])⟩
      | none =>
        rcases ih (j ++ [.acquired (.cdev i),.acquired (.device i)]) (i + 1) with up | ⟨k,fails⟩
        · exact .inl (upWithRest add create up)
        · exact .inr ⟨k,failsInRest add create fails⟩

def begun : Journal := [.acquired .chrdevRegion,.acquired .class_]

theorem loopReached {o : Outcomes} (region : o.allocChrdevRegion = none) (class_ : o.classCreate = none)
    (devices : Nat) : pcdDriverInit devices o = initDevices o begun 0 devices := by
  simp only [pcdDriverInit,region,class_,begun]

theorem unreachedSettled {o : Outcomes} (early : o.allocChrdevRegion ≠ none ∨ o.classCreate ≠ none)
    (devices : Nat) : ∃ e : Errno, (pcdDriverInit devices o).2 = e.val ∧ Settled (pcdDriverInit devices o).1 := by
  cases region : o.allocChrdevRegion with
  | some e =>
    refine ⟨e,by simp [pcdDriverInit,region,out],fun r => ?_⟩
    simp [pcdDriverInit,region,out]
  | none =>
    cases class_ : o.classCreate with
    | some e =>
      refine ⟨e,by simp [pcdDriverInit,region,class_,unregisterChrdev,out],fun r => ?_⟩
      cases r <;> simp [pcdDriverInit,region,class_,unregisterChrdev,out]
    | none => simp [region,class_] at early

theorem exitSettled {o : Outcomes} {devices : Nat} (up : DevicesUp o begun 0 devices) :
    Settled (pcdDriverExit devices (initDevices o begun 0 devices).1) := by
  intro r
  obtain ⟨acquired,released⟩ := destroyUpCounts (initDevices o begun 0 devices).1 0 devices r
  rw [up.acquired] at acquired
  rw [up.released] at released
  rw [pcdDriverExit,List.count_append,List.count_append,acquired,released]
  cases r with
  | chrdevRegion => simp [begun,ofDevices]
  | class_ => simp [begun,ofDevices]
  | cdev i => simp [begun,ofDevices]; split <;> omega
  | device i => simp [begun,ofDevices]; split <;> omega

theorem rollbackExact (devices : Nat) (o : Outcomes) : RolledBack devices o ↔ ¬ FailsInLoop devices o := by
  by_cases reached : o.allocChrdevRegion = none ∧ o.classCreate = none
  · obtain ⟨region,class_⟩ := reached
    have init := loopReached region class_ devices
    rcases initDevicesCases o begun 0 devices with up | ⟨k,fails⟩
    · refine ⟨fun _ broken => ?_,fun _ => ⟨fun failed => ?_,fun _ => ?_⟩⟩
      · obtain ⟨_,_,k,high,fails⟩ := broken
        obtain ⟨adds,creates⟩ := up.works k (Nat.zero_le k) (by omega)
        simp [adds,creates] at fails
      · exact absurd (init ▸ up.ret) failed
      · exact init ▸ exitSettled up
    · have high := fails.high
      have broken : FailsInLoop devices o := ⟨region,class_,k,by omega,fails.fails⟩
      refine ⟨fun rolled _ => ?_,fun sound => absurd broken sound⟩
      obtain ⟨e,ret⟩ := fails.ret
      have settled := rolled.failed (by rw [init,ret]; exact errnoNonzero e) (.device k)
      rw [init,fails.acquired,fails.released] at settled
      simp [begun] at settled
  · have early : o.allocChrdevRegion ≠ none ∨ o.classCreate ≠ none := by
      by_contra neither
      simp only [not_or,Classical.not_not] at neither
      exact reached neither
    obtain ⟨e,ret,settled⟩ := unreachedSettled early devices
    refine ⟨fun _ broken => reached ⟨broken.1,broken.2.1⟩,fun _ => ⟨fun _ => settled,fun success => ?_⟩⟩
    exact absurd (ret ▸ success) (errnoNonzero e)

theorem secondDeviceOverruns : ¬ RolledBack 4
    ⟨none,none,fun i => if i = 1 then some enomem else none,fun _ => none⟩ := by
  intro rolled
  have settled := rolled.failed (by decide) (.device 1)
  exact absurd settled.1 (by decide)

section Accounts
variable {o : Outcomes}

structure FirstFailure (devices : Nat) (o : Outcomes) (k : Nat) : Prop where
  region : o.allocChrdevRegion = none
  class_ : o.classCreate = none
  high : k < devices
  fails : o.cdevAdd k ≠ none ∨ o.deviceCreate k ≠ none
  works : ∀ i < k, o.cdevAdd i = none ∧ o.deviceCreate i = none

def lastCdev (o : Outcomes) (k : Nat) (r : Registration) : Nat :=
  if r = .cdev k ∧ o.cdevAdd k = none then 1 else 0

theorem failsAt {i left k : Nat} (j : Journal) (low : i ≤ k) (high : k < i + left)
    (fails : o.cdevAdd k ≠ none ∨ o.deviceCreate k ≠ none)
    (works : ∀ m, i ≤ m → m < k → o.cdevAdd m = none ∧ o.deviceCreate m = none) :
    ∃ before e, initDevices o j i left = classDel before e k ∧
      (∀ r, before.count (.acquired r) = j.count (.acquired r) + ofDevices i k r + lastCdev o k r) ∧
      ∀ r, before.count (.released r) = j.count (.released r) := by
  induction left generalizing j i with
  | zero => omega
  | succ left ih =>
    rcases Nat.eq_or_lt_of_le low with rfl | above
    · cases add : o.cdevAdd i with
      | some e =>
        refine ⟨j,e,by simp only [initDevices,add],fun r => ?_,fun r => rfl⟩
        simp [ofDevicesEmpty,lastCdev,add]
      | none =>
        cases create : o.deviceCreate i with
        | none => simp [add,create] at fails
        | some e =>
          refine ⟨j ++ [.acquired (.cdev i)],e,by simp only [initDevices,add,create],fun r => ?_,fun r => ?_⟩
          · rw [List.count_append,List.count_singleton,ofDevicesEmpty,lastCdev,add]
            by_cases same : r = .cdev i
            · simp [same]
            · simp [same,Ne.symm same]
          · have none_ : [Entry.acquired (.cdev i)].count (.released r) = 0 := by simp
            rw [List.count_append,none_,Nat.add_zero]
    · obtain ⟨add,create⟩ := works i (Nat.le_refl i) above
      have next : i + 1 ≤ k := above
      obtain ⟨before,e,done,acquired,released⟩ := ih (j ++ [.acquired (.cdev i),.acquired (.device i)]) next
        (by omega) (fun m from_ below => works m (Nat.le_of_succ_le from_) below)
      refine ⟨before,e,(goesOn add create).trans done,fun r => ?_,fun r => ?_⟩
      · have joined := ofDevicesJoin (Nat.le_add_right i 1) next r
        rw [acquired,List.count_append,deviceUp]
        omega
      · have none_ : [Entry.acquired (.cdev i),.acquired (.device i)].count (.released r) = 0 := by simp
        rw [released,List.count_append,none_,Nat.add_zero]

theorem someFailure {devices : Nat} (broken : FailsInLoop devices o) : ∃ k, FirstFailure devices o k := by
  obtain ⟨region,class_,i,high,fails⟩ := broken
  classical
  have some_ : ∃ k, o.cdevAdd k ≠ none ∨ o.deviceCreate k ≠ none := ⟨i,fails⟩
  refine ⟨Nat.find some_,region,class_,Nat.lt_of_le_of_lt (Nat.find_min' some_ fails) high,Nat.find_spec some_,
    fun m below => ?_⟩
  have works := Nat.find_min some_ below
  simpa only [not_or,Classical.not_not] using works

/- An init takes everything once and releases nothing, or gives back what it took, or,
failing first at device k, gives back all that it took and besides calls device_destroy
for k, and cdev_del for k too if it was cdev_add that failed. -/
theorem failedInitAccounts (devices : Nat) (o : Outcomes) :
    ((pcdDriverInit devices o).2 = 0 ∧ ∀ r,
      (pcdDriverInit devices o).1.count (.acquired r) = begun.count (.acquired r) + ofDevices 0 devices r ∧
      (pcdDriverInit devices o).1.count (.released r) = 0) ∨
    Settled (pcdDriverInit devices o).1 ∨
    ∃ k, FirstFailure devices o k ∧ ∀ r,
      (pcdDriverInit devices o).1.count (.acquired r) ≤ 1 ∧
      (pcdDriverInit devices o).1.count (.released r) = (pcdDriverInit devices o).1.count (.acquired r) +
        if r = .device k ∨ (r = .cdev k ∧ o.cdevAdd k ≠ none) then 1 else 0 := by
  by_cases reached : o.allocChrdevRegion = none ∧ o.classCreate = none
  · obtain ⟨region,class_⟩ := reached
    by_cases broken : FailsInLoop devices o
    · obtain ⟨k,first⟩ := someFailure broken
      obtain ⟨before,e,done,acquired,released⟩ := failsAt begun (Nat.zero_le k)
        (Nat.lt_of_lt_of_eq first.high (Nat.zero_add devices).symm) first.fails (fun m _ below => first.works m below)
      refine .inr (.inr ⟨k,first,fun r => ?_⟩)
      obtain ⟨kept,down⟩ := destroyDownCounts before k r
      rw [loopReached first.region first.class_,done]
      simp only [classDel,unregisterChrdev,out,List.count_append,kept,down,acquired,released]
      cases r with
      | chrdevRegion => simp [begun,ofDevices,lastCdev]
      | class_ => simp [begun,ofDevices,lastCdev]
      | cdev m =>
        simp only [begun,ofDevices,lastCdev,List.count_cons,List.count_nil,beq_iff_eq,reduceCtorEq,if_false,
          Entry.acquired.injEq,Entry.released.injEq,Registration.cdev.injEq,false_or]
        by_cases added : o.cdevAdd k = none
        · simp only [added,and_true,not_true_eq_false,and_false,if_false,ne_eq]
          split_ifs <;> omega
        · simp only [added,and_false,not_false_eq_true,and_true,if_false,ne_eq]
          split_ifs <;> omega
      | device m =>
        simp only [begun,ofDevices,lastCdev,List.count_cons,List.count_nil,beq_iff_eq,reduceCtorEq,if_false,
          Entry.acquired.injEq,Entry.released.injEq,Registration.device.injEq,false_and,or_false]
        split_ifs <;> omega
    · rcases initDevicesCases o begun 0 devices with up | ⟨k,fails⟩
      · rw [loopReached region class_]
        refine .inl ⟨up.ret,fun r => ⟨?_,?_⟩⟩
        · rw [up.acquired,Nat.zero_add]
        · rw [up.released]
          cases r <;> simp [begun]
      · have high := fails.high
        exact absurd ⟨region,class_,k,by omega,fails.fails⟩ broken
  · have early : o.allocChrdevRegion ≠ none ∨ o.classCreate ≠ none := not_and_or.mp reached
    obtain ⟨e,ret,settled⟩ := unreachedSettled early devices
    exact .inr (.inl settled)

end Accounts

end KernelFacilities.CharDriverMultipleDevicesLoad
