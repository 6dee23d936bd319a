import KernelFacilities.SentinelScans

/-! The tables that the platform driver of 006 hands to the kernel: the names it
matches and the attributes of its devices. The loops over them are the kernel's: one
ends at an empty name, the other at a NULL. So is the memory behind the tables, of which
nothing is assumed. -/
namespace KernelFacilities.PlatformDriverTables
open SentinelScans

structure PlatformDeviceId where
  name : String
  driverData : UInt64
  deriving DecidableEq, Repr

structure DeviceConfig where
  configItem1 : Int32
  configItem2 : Int32
  deriving DecidableEq, Repr

def pcdevA1x : Nat := 0
def pcdevB1x : Nat := 1

-- `[PCDEV_A1X] = .., [PCDEV_B1X] = ..` in both arrays.
def pcdevConfigs : List DeviceConfig := [⟨60,21⟩,⟨50,22⟩]

def pcdevsIds : List PlatformDeviceId :=
  [⟨"PCDEV-A1X",.ofNat pcdevA1x⟩,⟨"PCDEV-B1X",.ofNat pcdevB1x⟩]

structure Attribute where
  name : String
  mode : UInt16
  deriving DecidableEq, Repr

def sIrugo : UInt16 := 0o444
def sIwusr : UInt16 := 0o200

def pcdAttrs : List (Option Attribute) :=
  [some ⟨"max_size",sIrugo ||| sIwusr⟩,some ⟨"serial_number_attr",sIrugo⟩]

def platformMatchId (memory : List PlatformDeviceId) (name : String) : Scan PlatformDeviceId :=
  scan (fun id => id.name = "") (fun id => id.name = name) memory

def createFiles (memory : List (Option Attribute)) : Scan (Option Attribute) :=
  scan Option.isNone (fun _ => false) memory

def probedConfig (id : PlatformDeviceId) : Option DeviceConfig := pcdevConfigs[id.driverData.toNat]?

structure IdScanned (behind : List PlatformDeviceId) (name : String) : Prop where
  inside : (platformMatchId (pcdevsIds ++ behind) name).last < pcdevsIds.length
  exact_ : (∃ index id, platformMatchId (pcdevsIds ++ behind) name = .found index id) ↔
    ∃ id ∈ pcdevsIds, id.name = name
  config : ∀ index id, platformMatchId (pcdevsIds ++ behind) name = .found index id →
    (probedConfig id).isSome

structure AttrsScanned (behind : List (Option Attribute)) : Prop where
  inside : (createFiles (pcdAttrs ++ behind)).last < pcdAttrs.length
  visited : (pcdAttrs ++ behind).take (createFiles (pcdAttrs ++ behind)).last = pcdAttrs.filter Option.isSome

theorem idsNamed : ∀ id ∈ pcdevsIds, id.name ≠ "" := by decide

theorem idsConfigured : ∀ id ∈ pcdevsIds, (probedConfig id).isSome := by decide

theorem attrsPresent : ∀ attr ∈ pcdAttrs, attr.isNone = false := by decide

theorem idScannedNamed {behind : List PlatformDeviceId} {name : String}
    (named : ∃ id ∈ pcdevsIds, id.name = name) : IdScanned behind name := by
  have meets : ∃ id ∈ pcdevsIds, decide (id.name = "") = true ∨ decide (id.name = name) = true := by
    obtain ⟨id,mem,same⟩ := named
    exact ⟨id,mem,.inr (decide_eq_true same)⟩
  have inside := (scanInside pcdevsIds behind).mpr meets
  obtain ⟨k,id,_,mem,⟨stops,_⟩ | ⟨_,result⟩⟩ := scanMeets 0 meets behind
  · exact absurd (of_decide_eq_true stops) (idsNamed id mem)
  · refine ⟨inside,⟨fun _ => named,fun _ => ⟨_,id,result⟩⟩,fun index other found => ?_⟩
    cases result.symm.trans found
    exact idsConfigured id mem

theorem idScannedExact (behind : List PlatformDeviceId) (name : String) :
    IdScanned behind name ↔ ∃ id ∈ pcdevsIds, id.name = name := by
  constructor
  · intro scanned
    obtain ⟨id,mem,stops | same⟩ := (scanInside pcdevsIds behind).mp scanned.inside
    · exact absurd (of_decide_eq_true stops) (idsNamed id mem)
    · exact ⟨id,mem,of_decide_eq_true same⟩
  · exact idScannedNamed

theorem attrsNeverScanned (behind : List (Option Attribute)) : ¬ AttrsScanned behind := by
  intro scanned
  obtain ⟨attr,mem,null | wanted⟩ := (scanInside pcdAttrs behind).mp scanned.inside
  · rw [attrsPresent attr mem] at null
    exact Bool.false_ne_true null
  · exact Bool.false_ne_true wanted

theorem tablesScanned (ids : List PlatformDeviceId) (attrs : List (Option Attribute)) :
    (∀ name, IdScanned ids name ↔ ∃ id ∈ pcdevsIds, id.name = name) ∧ ¬ AttrsScanned attrs :=
  ⟨idScannedExact ids,attrsNeverScanned attrs⟩

theorem otherDevice : ¬ IdScanned [⟨"",0⟩] "serial8250" ∧ ¬ AttrsScanned [none] := by
  refine ⟨fun scanned => ?_,fun scanned => ?_⟩
  · exact absurd scanned.inside (by decide)
  · exact absurd scanned.inside (by decide)

end KernelFacilities.PlatformDriverTables
