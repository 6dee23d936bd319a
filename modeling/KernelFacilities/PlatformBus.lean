import KernelFacilities.PlatformDriverNumbers
import KernelFacilities.PlatformDriverTables
import KernelFacilities.PlatformModules

/-! The two platform modules (004) on the platform bus: their init and exit functions
step by step, and the probes and removes of the driver core between any two of
these. A driver is attached from its registration until it is unregistered; it
is detached when its last device is gone, and only then its exit goes on. A failing
registration of the driver or of a device is not looked at by either init. The
unregistration of a device that was not registered is only written down here; the
kernel does not survive it, so that a run behind one stands for none of the code. -/
namespace KernelFacilities.PlatformBus
open KernelErrors Ledgers PlatformDriver PlatformDriverNumbers PlatformDriverTables Runs
open PlatformModules (Registration register)

inductive PlatformDevice where
  | platformPcdev1
  | platformPcdev2
  deriving DecidableEq, Repr

namespace PlatformDevice

def name : PlatformDevice → String
  | platformPcdev1 => "PCDEV-A1X"
  | platformPcdev2 => "PCDEV-B1X"

def id : PlatformDevice → Int32
  | platformPcdev1 => 0
  | platformPcdev2 => 1

def rdrw : Int32 := 0x11

def platformData : PlatformDevice → PcdevPlatformData
  | platformPcdev1 => ⟨512,rdrw,"PCDEV_5033"⟩
  | platformPcdev2 => ⟨1024,rdrw,"PCDEV_5034"⟩

def registration : PlatformDevice → Registration
  | platformPcdev1 => .platformPcdev1
  | platformPcdev2 => .platformPcdev2

end PlatformDevice

/- The core asks a driver for a device whose name its table has; the table is that of 006. -/
def idEntry (i : PlatformDevice) : Option PlatformDeviceId := pcdevsIds.find? (fun id => id.name = i.name)

theorem devicesMatch (i : PlatformDevice) : ∃ id, idEntry i = some id ∧ (probedConfig id).isSome := by
  cases i with
  | platformPcdev1 => exact ⟨⟨"PCDEV-A1X",0⟩,by decide,by decide⟩
  | platformPcdev2 => exact ⟨⟨"PCDEV-B1X",1⟩,by decide,by decide⟩

abbrev Base := {n : UInt32 // n.toNat % 2 ^ 20 = 0}

def driver (base : Base) : ReservedDriver PlatformDevice := ⟨⟨base.val,PlatformDevice.id⟩,base.property⟩

inductive DriverPoint where
  | unloaded
  | reserved
  | classed
  | live
  | detaching
  | detached
  | classDestroyed
  deriving DecidableEq, Repr

inductive DevicePoint where
  | unloaded
  | registering
  | live
  | unregistering
  deriving DecidableEq, Repr

structure System (α : Type) where
  driverPoint : DriverPoint
  devicePoint : DevicePoint
  base : Base
  registrations : Ledger Registration
  devices : State PlatformDevice α

inductive Act (α : Type) where
  | allocChrdevRegion (answer : Except Errno Base)
  | classCreate (answer : Option Errno)
  | platformDriverRegister (answer : Option Errno)
  | platformDriverUnregister
  | driverDetached
  | classDestroy
  | unregisterChrdevRegion
  | registerPcdev1 (answer : Option Errno)
  | registerPcdev2 (answer : Option Errno)
  | unregisterPcdev1
  | unregisterPcdev2
  | core (e : PlatformDriver.Event PlatformDevice α)

def fresh {α : Type} : System α := ⟨.unloaded,.unloaded,⟨0,rfl⟩,clear,loaded⟩

variable {α : Type} [DecidableEq α]

def next (s : System α) : Act α → System α
  | .allocChrdevRegion (.error _) => s
  | .allocChrdevRegion (.ok base) =>
      { s with
        driverPoint := .reserved
        base := base
        registrations := s.registrations.acquire .chrdevRegion
        devices := { s.devices with totalDevices := 0 } }
  | .classCreate (some _) =>
      { s with driverPoint := .unloaded, registrations := s.registrations.release .chrdevRegion }
  | .classCreate none => { s with driverPoint := .classed, registrations := s.registrations.acquire .class_ }
  | .platformDriverRegister answer =>
      { s with driverPoint := .live, registrations := register s.registrations .platformDriver answer }
  | .platformDriverUnregister =>
      { s with driverPoint := .detaching, registrations := s.registrations.release .platformDriver }
  | .driverDetached => { s with driverPoint := .detached }
  | .classDestroy => { s with driverPoint := .classDestroyed, registrations := s.registrations.release .class_ }
  | .unregisterChrdevRegion =>
      { s with driverPoint := .unloaded, registrations := s.registrations.release .chrdevRegion }
  | .registerPcdev1 answer =>
      { s with devicePoint := .registering, registrations := register s.registrations .platformPcdev1 answer }
  | .registerPcdev2 answer =>
      { s with devicePoint := .live, registrations := register s.registrations .platformPcdev2 answer }
  | .unregisterPcdev1 =>
      { s with devicePoint := .unregistering, registrations := s.registrations.release .platformPcdev1 }
  | .unregisterPcdev2 =>
      { s with devicePoint := .unloaded, registrations := s.registrations.release .platformPcdev2 }
  | .core e => { s with devices := PlatformDriver.next (driver s.base).toDriver s.devices e }

/- The core probes a device that is on the bus for the driver that is, whenever they
match, and takes devices from the driver again: at an unregistration of either,
which does not return before, or when it is told to. -/
def Allowed (s : System α) : Act α → Prop
  | .allocChrdevRegion _ => s.driverPoint = .unloaded
  | .classCreate _ => s.driverPoint = .reserved
  | .platformDriverRegister _ => s.driverPoint = .classed
  | .platformDriverUnregister => s.driverPoint = .live
  | .driverDetached => s.driverPoint = .detaching ∧ s.devices.bound = ∅
  | .classDestroy => s.driverPoint = .detached
  | .unregisterChrdevRegion => s.driverPoint = .classDestroyed
  | .registerPcdev1 _ => s.devicePoint = .unloaded
  | .registerPcdev2 _ => s.devicePoint = .registering
  | .unregisterPcdev1 => s.devicePoint = .live ∧ .platformPcdev1 ∉ s.devices.bound
  | .unregisterPcdev2 => s.devicePoint = .unregistering ∧ .platformPcdev2 ∉ s.devices.bound
  | .core (.probe i o) => .platformDriver ∈ s.registrations.held ∧ i.registration ∈ s.registrations.held ∧
      (idEntry i).isSome ∧ o.platformData = some i.platformData ∧ PlatformDriver.Allowed s.devices (.probe i o)
  | .core (.remove i) => PlatformDriver.Allowed s.devices (.remove i)

structure Step (s : System α) (a : Act α) (t : System α) : Prop where
  allowed : Allowed s a
  taken : t = next s a

def DriverPoint.Classed : DriverPoint → Prop
  | .classed | .live | .detaching | .detached => True
  | _ => False

structure Placed (driverPoint : DriverPoint) (devicePoint : DevicePoint) (l : Ledger Registration) : Prop where
  region : .chrdevRegion ∈ l.held ↔ driverPoint ≠ .unloaded
  class_ : .class_ ∈ l.held ↔ driverPoint.Classed
  driver : .platformDriver ∈ l.held → driverPoint = .live
  pcdev1 : .platformPcdev1 ∈ l.held → devicePoint = .registering ∨ devicePoint = .live
  pcdev2 : .platformPcdev2 ∈ l.held → devicePoint = .live ∨ devicePoint = .unregistering
  exact : .chrdevRegion ∉ l.unheld ∧ .class_ ∉ l.unheld

structure Attached (s : System α) : Prop where
  accounted : Accounted (driver s.base).toDriver s.devices
  data : ∀ i ∈ s.devices.bound, (s.devices.object i).map (·.pdata) = some i.platformData
  onBus : ∀ i ∈ s.devices.bound, i.registration ∈ s.registrations.held
  point : s.devices.bound ≠ ∅ → s.driverPoint = .live ∨ s.driverPoint = .detaching

structure Sound (s : System α) : Prop where
  placed : Placed s.driverPoint s.devicePoint s.registrations
  attached : Attached s

theorem memRegister (l : Ledger Registration) (r x : Registration) (answer : Option Errno) :
    x ∈ (register l r answer).held ↔ (answer = none ∧ x = r) ∨ x ∈ l.held := by
  cases answer <;> simp [register]

theorem registerUnheld (l : Ledger Registration) (r : Registration) (answer : Option Errno) :
    (register l r answer).unheld = l.unheld := by
  cases answer <;> rfl

theorem placedNext {s : System α} {a : Act α} (allowed : Allowed s a)
    (placed : Placed s.driverPoint s.devicePoint s.registrations) :
    Placed (next s a).driverPoint (next s a).devicePoint (next s a).registrations := by
  obtain ⟨region,class_,driver,pcdev1,pcdev2,exact⟩ := placed
  cases a with
  | core e => exact ⟨region,class_,driver,pcdev1,pcdev2,exact⟩
  | driverDetached =>
    have at_ := allowed.1
    constructor <;> simp_all [next,DriverPoint.Classed]
  | allocChrdevRegion answer =>
    have at_ : s.driverPoint = .unloaded := allowed
    cases answer with
    | error e => exact ⟨region,class_,driver,pcdev1,pcdev2,exact⟩
    | ok base => constructor <;> simp_all [next,DriverPoint.Classed]
  | classCreate answer =>
    have at_ : s.driverPoint = .reserved := allowed
    cases answer <;> constructor <;> simp_all [next,DriverPoint.Classed,memRelease,memUnheld]
  | platformDriverRegister answer =>
    have at_ : s.driverPoint = .classed := allowed
    constructor <;> simp_all [next,DriverPoint.Classed,memRegister,registerUnheld]
  | platformDriverUnregister =>
    have at_ : s.driverPoint = .live := allowed
    constructor <;> simp_all [next,DriverPoint.Classed,memRelease,memUnheld]
  | classDestroy =>
    have at_ : s.driverPoint = .detached := allowed
    constructor <;> simp_all [next,DriverPoint.Classed,memRelease,memUnheld]
  | unregisterChrdevRegion =>
    have at_ : s.driverPoint = .classDestroyed := allowed
    constructor <;> simp_all [next,DriverPoint.Classed,memRelease,memUnheld]
  | registerPcdev1 answer =>
    have at_ : s.devicePoint = .unloaded := allowed
    constructor <;> simp_all [next,memRegister,registerUnheld]
  | registerPcdev2 answer =>
    have at_ : s.devicePoint = .registering := allowed
    constructor <;> simp_all [next,memRegister,registerUnheld]
  | unregisterPcdev1 =>
    have at_ := allowed.1
    constructor <;> simp_all [next,memRelease,memUnheld]
  | unregisterPcdev2 =>
    have at_ := allowed.1
    constructor <;> simp_all [next,memRelease,memUnheld]

omit [DecidableEq α] in
theorem attachedKept {s t : System α} (attached : Attached s) (base : t.base = s.base)
    (devices : t.devices = s.devices) (onBus : ∀ i ∈ s.devices.bound, i.registration ∈ t.registrations.held)
    (point : s.devices.bound ≠ ∅ → t.driverPoint = .live ∨ t.driverPoint = .detaching) : Attached t := by
  refine ⟨?_,?_,?_,?_⟩
  · rw [base,devices]
    exact attached.accounted
  · rw [devices]
    exact attached.data
  · rw [devices]
    exact onBus
  · rw [devices]
    exact point

omit [DecidableEq α] in
theorem idleAccounted {s : State PlatformDevice α} {d d' : Driver PlatformDevice} (accounted : Accounted d s)
    (idle : s.bound = ∅) : Accounted d' { s with totalDevices := 0 } where
  exact := accounted.exact
  devData := accounted.devData
  buffers := accounted.buffers
  cdevs := accounted.cdevs
  nodes := accounted.nodes
  numbered i mem := absurd (idle ▸ mem) (Finset.notMem_empty i)
  total := by simp [idle]
  nothingLeft := accounted.nothingLeft

section Attachments
variable {s : System α} (sound : Sound s)
include sound

omit [DecidableEq α] in
theorem idleUnless (elsewhere : s.driverPoint ≠ .live ∧ s.driverPoint ≠ .detaching) : s.devices.bound = ∅ := by
  by_contra some_
  exact (sound.attached.point some_).elim elsewhere.1 elsewhere.2

theorem coreAttached {e : PlatformDriver.Event PlatformDevice α} (allowed : Allowed s (.core e)) :
    Attached (next s (.core e)) := by
  have accounted := sound.attached.accounted
  cases e with
  | probe i o =>
    obtain ⟨driverOn,deviceOn,_,own,may⟩ := allowed
    have live := sound.placed.driver driverOn
    have objects := probeObjects accounted may
    refine ⟨stepAccounted ⟨may,rfl⟩ accounted,fun j mem => ?_,fun j mem => ?_,fun _ => .inl live⟩
    · rcases objects j mem with ⟨old,same⟩ | ⟨rfl,_,copied⟩
      · exact (congrArg _ same).trans (sound.attached.data j old)
      · exact copied.trans own
    · rcases objects j mem with ⟨old,_⟩ | ⟨rfl,_,_⟩
      · exact sound.attached.onBus j old
      · exact deviceOn
  | remove i =>
    have may : PlatformDriver.Allowed s.devices (.remove i : PlatformDriver.Event PlatformDevice α) := allowed
    obtain ⟨bound,objects⟩ := removeObjects accounted may
    have old : ∀ j ∈ (next s (.core (.remove i))).devices.bound, j ∈ s.devices.bound := by
      intro j mem
      exact Finset.mem_of_mem_erase (bound ▸ mem)
    refine ⟨stepAccounted ⟨may,rfl⟩ accounted,fun j mem => ?_,fun j mem => ?_,fun some_ => ?_⟩
    · exact (congrArg _ (objects j)).trans (sound.attached.data j (old j mem))
    · exact sound.attached.onBus j (old j mem)
    · obtain ⟨j,mem⟩ := Finset.nonempty_iff_ne_empty.mpr some_
      exact sound.attached.point (Finset.ne_empty_of_mem (old j mem))

theorem driverAttached {a : Act α} {driverPoint : DriverPoint} {registrations : Ledger Registration}
    (elsewhere : s.driverPoint ≠ .live ∧ s.driverPoint ≠ .detaching)
    (taken : next s a = { s with driverPoint := driverPoint, registrations := registrations }) :
    Attached (next s a) := by
  have idle := idleUnless sound elsewhere
  rw [taken]
  refine attachedKept sound.attached rfl rfl (fun i mem => ?_) fun some_ => absurd idle some_
  exact absurd (idle ▸ mem) (Finset.notMem_empty i)

theorem busAttached {a : Act α} {driverPoint : DriverPoint} {devicePoint : DevicePoint}
    {registrations : Ledger Registration}
    (taken : next s a = { s with
      driverPoint := driverPoint, devicePoint := devicePoint, registrations := registrations })
    (stays : ∀ i ∈ s.devices.bound, i.registration ∈ s.registrations.held → i.registration ∈ registrations.held)
    (point : s.devices.bound ≠ ∅ → driverPoint = .live ∨ driverPoint = .detaching) : Attached (next s a) := by
  rw [taken]
  exact attachedKept sound.attached rfl rfl (fun i mem => stays i mem (sound.attached.onBus i mem)) point

theorem nextAttached {a : Act α} (allowed : Allowed s a) : Attached (next s a) := by
  have point := sound.attached.point
  cases a with
  | core e => exact coreAttached sound allowed
  | allocChrdevRegion answer =>
    have at_ : s.driverPoint = .unloaded := allowed
    have idle := idleUnless sound (by simp [at_])
    cases answer with
    | error e => exact sound.attached
    | ok base =>
      refine ⟨idleAccounted sound.attached.accounted idle,sound.attached.data,fun i mem => ?_,fun some_ => ?_⟩
      · exact absurd (idle ▸ mem) (Finset.notMem_empty i)
      · exact absurd idle some_
  | classCreate answer =>
    have at_ : s.driverPoint = .reserved := allowed
    cases answer with
    | some e => exact driverAttached sound (by simp [at_]) rfl
    | none => exact driverAttached sound (by simp [at_]) rfl
  | platformDriverRegister answer =>
    have at_ : s.driverPoint = .classed := allowed
    exact driverAttached sound (by simp [at_]) rfl
  | classDestroy =>
    have at_ : s.driverPoint = .detached := allowed
    exact driverAttached sound (by simp [at_]) rfl
  | unregisterChrdevRegion =>
    have at_ : s.driverPoint = .classDestroyed := allowed
    exact driverAttached sound (by simp [at_]) rfl
  | platformDriverUnregister =>
    refine busAttached sound rfl (fun i _ held => (memRelease ..).mpr ⟨?_,held⟩) fun _ => .inr rfl
    cases i <;> simp [PlatformDevice.registration]
  | driverDetached => exact busAttached sound rfl (fun _ _ held => held) fun some_ => absurd allowed.2 some_
  | registerPcdev1 answer => exact busAttached sound rfl (fun _ _ held => (memRegister ..).mpr (.inr held)) point
  | registerPcdev2 answer => exact busAttached sound rfl (fun _ _ held => (memRegister ..).mpr (.inr held)) point
  | unregisterPcdev1 =>
    refine busAttached sound rfl (fun i mem held => (memRelease ..).mpr ⟨fun same => ?_,held⟩) point
    cases i with
    | platformPcdev1 => exact allowed.2 mem
    | platformPcdev2 => cases same
  | unregisterPcdev2 =>
    refine busAttached sound rfl (fun i mem held => (memRelease ..).mpr ⟨fun same => ?_,held⟩) point
    cases i with
    | platformPcdev1 => cases same
    | platformPcdev2 => exact allowed.2 mem

theorem nextSound {a : Act α} (allowed : Allowed s a) : Sound (next s a) :=
  ⟨placedNext allowed sound.placed,nextAttached sound allowed⟩

end Attachments

omit [DecidableEq α] in
theorem freshSound : Sound (fresh : System α) := by
  refine ⟨?_,loadedAccounted _,fun i mem => ?_,fun i mem => ?_,fun some_ => absurd rfl some_⟩
  · constructor <;> simp [fresh,DriverPoint.Classed]
  · exact absurd mem (Finset.notMem_empty i)
  · exact absurd mem (Finset.notMem_empty i)

theorem reachedSound {s : System α} {log} (run : Run Step fresh log s) : Sound s :=
  runKeeps Sound (fun step sound => step.taken ▸ nextSound sound step.allowed) run freshSound

/- What holds of the two modules and the bus between any two steps: a bound device is
on the bus, has a copy of its own data and a number of the reserved ones, and nodes
are made and destroyed while their class and their region are there. -/
structure Backed (s : System α) : Prop where
  accounted : Accounted (driver s.base).toDriver s.devices
  bound : ∀ i ∈ s.devices.bound, i.registration ∈ s.registrations.held ∧ ∃ data, s.devices.object i = some data ∧
    data.pdata = i.platformData ∧ InRegion (driver s.base) data.devNumber
  probing : .platformDriver ∈ s.registrations.held ∨ s.devices.bound ≠ ∅ →
    .class_ ∈ s.registrations.held ∧ .chrdevRegion ∈ s.registrations.held
  driverGone : s.driverPoint = .unloaded → s.devices.ledger.held = ∅ ∧
    ∀ r ∈ s.registrations.held, ∃ i : PlatformDevice, r = i.registration
  devicesGone : s.devicePoint = .unloaded → ∀ i : PlatformDevice,
    i.registration ∉ s.registrations.held ∧ i ∉ s.devices.bound
  exact : .chrdevRegion ∉ s.registrations.unheld ∧ .class_ ∉ s.registrations.unheld

theorem ownNumber (base : Base) (i : PlatformDevice) : InRegion (driver base) ((driver base).devNumber i) := by
  rw [devNumberInRegion]
  show 0 ≤ i.id.toInt ∧ i.id.toInt < maxDeviceNumber
  cases i <;> decide

section Facts
variable {s : System α} (sound : Sound s)
include sound

omit [DecidableEq α]

theorem boundObject {i : PlatformDevice} (mem : i ∈ s.devices.bound) : ∃ data, s.devices.object i = some data ∧
    data.pdata = i.platformData ∧ InRegion (driver s.base) data.devNumber := by
  obtain ⟨data,object,own⟩ := Option.map_eq_some_iff.mp (sound.attached.data i mem)
  have number := sound.attached.accounted.numbered i mem
  rw [object,Option.map_some] at number
  exact ⟨data,object,own,Option.some.inj number ▸ ownNumber s.base i⟩

theorem nothingBound (gone : s.devicePoint = .unloaded) (i : PlatformDevice) :
    i.registration ∉ s.registrations.held ∧ i ∉ s.devices.bound := by
  have absent : i.registration ∉ s.registrations.held := by
    intro held
    cases i with
    | platformPcdev1 => rcases sound.placed.pcdev1 held with at_ | at_ <;> cases gone.symm.trans at_
    | platformPcdev2 => rcases sound.placed.pcdev2 held with at_ | at_ <;> cases gone.symm.trans at_
  exact ⟨absent,fun mem => absent (sound.attached.onBus i mem)⟩

theorem onlyDevices (gone : s.driverPoint = .unloaded) :
    ∀ r ∈ s.registrations.held, ∃ i : PlatformDevice, r = i.registration := by
  intro r held
  have placed := sound.placed
  cases r with
  | chrdevRegion => exact absurd gone (placed.region.mp held)
  | class_ => exact absurd (placed.class_.mp held) (by simp [gone,DriverPoint.Classed])
  | platformDriver => cases gone.symm.trans (placed.driver held)
  | platformPcdev1 => exact ⟨.platformPcdev1,rfl⟩
  | platformPcdev2 => exact ⟨.platformPcdev2,rfl⟩

theorem soundBacked : Backed s := by
  have placed := sound.placed
  refine ⟨sound.attached.accounted,fun i mem => ⟨sound.attached.onBus i mem,boundObject sound mem⟩,fun busy => ?_,
    fun gone => ⟨?_,onlyDevices sound gone⟩,fun gone => nothingBound sound gone,placed.exact⟩
  · have at_ : s.driverPoint = .live ∨ s.driverPoint = .detaching := busy.elim (.inl ∘ placed.driver) sound.attached.point
    rw [placed.class_,placed.region]
    rcases at_ with at_ | at_ <;> simp [at_,DriverPoint.Classed]
  · exact sound.attached.accounted.nothingLeft (idleUnless sound (by simp [gone]))

end Facts

theorem bindingsBacked {s : System α} {log} (run : Run Step fresh log s) : Backed s :=
  soundBacked (reachedSound run)

theorem taken {s : System α} (a : Act α) (allowed : Allowed s a) : Step s a (next s a) := ⟨allowed,rfl⟩

/- While every registration of a device succeeds, any run can be continued to its end,
through the steps of the exit functions and the removes that these wait for. -/
section Unloads

def DeviceFails : Act α → Prop
  | .registerPcdev1 answer | .registerPcdev2 answer => answer ≠ none
  | _ => False

structure SureStep (s : System α) (a : Act α) (t : System α) : Prop extends Step s a t where
  registers : ¬ DeviceFails a

structure Registered (s : System α) : Prop where
  pcdev1 : .platformPcdev1 ∈ s.registrations.held ↔ s.devicePoint = .registering ∨ s.devicePoint = .live
  pcdev2 : .platformPcdev2 ∈ s.registrations.held ↔ s.devicePoint = .live ∨ s.devicePoint = .unregistering
  exact : .platformPcdev1 ∉ s.registrations.unheld ∧ .platformPcdev2 ∉ s.registrations.unheld

omit [DecidableEq α] in
theorem registeredReleases {s t : System α} (registered : Registered s) (r : Registration)
    (other : .platformPcdev1 ≠ r ∧ .platformPcdev2 ≠ r) (point : t.devicePoint = s.devicePoint)
    (released : t.registrations = s.registrations.release r) : Registered t := by
  obtain ⟨pcdev1,pcdev2,exact⟩ := registered
  have ⟨first,second⟩ := other
  refine ⟨?_,?_,?_⟩
  · rw [released,point,memRelease,← pcdev1]
    exact and_iff_right first
  · rw [released,point,memRelease,← pcdev2]
    exact and_iff_right second
  · rw [released,memUnheld,memUnheld]
    exact ⟨not_or.mpr ⟨exact.1,fun same => first same.1⟩,not_or.mpr ⟨exact.2,fun same => second same.1⟩⟩

omit [DecidableEq α] in
theorem registeredRegisters {s t : System α} (registered : Registered s) (r : Registration) (answer : Option Errno)
    (other : .platformPcdev1 ≠ r ∧ .platformPcdev2 ≠ r) (point : t.devicePoint = s.devicePoint)
    (registers : t.registrations = register s.registrations r answer) : Registered t := by
  obtain ⟨pcdev1,pcdev2,exact⟩ := registered
  have ⟨first,second⟩ := other
  refine ⟨?_,?_,?_⟩
  · rw [registers,point,memRegister,← pcdev1]
    exact or_iff_right (fun same => first same.2)
  · rw [registers,point,memRegister,← pcdev2]
    exact or_iff_right (fun same => second same.2)
  · rw [registers,registerUnheld]
    exact exact

theorem registeredNext {s : System α} {a : Act α} (allowed : Allowed s a) (registers : ¬ DeviceFails a)
    (registered : Registered s) : Registered (next s a) := by
  have ⟨pcdev1,pcdev2,exact⟩ := registered
  cases a with
  | core e => exact ⟨pcdev1,pcdev2,exact⟩
  | driverDetached => exact ⟨pcdev1,pcdev2,exact⟩
  | allocChrdevRegion answer => cases answer with
    | error e => exact ⟨pcdev1,pcdev2,exact⟩
    | ok base => exact registeredRegisters registered .chrdevRegion none (by decide) rfl rfl
  | classCreate answer => cases answer with
    | some e => exact registeredReleases registered .chrdevRegion (by decide) rfl rfl
    | none => exact registeredRegisters registered .class_ none (by decide) rfl rfl
  | platformDriverRegister answer => exact registeredRegisters registered .platformDriver answer (by decide) rfl rfl
  | platformDriverUnregister => exact registeredReleases registered .platformDriver (by decide) rfl rfl
  | classDestroy => exact registeredReleases registered .class_ (by decide) rfl rfl
  | unregisterChrdevRegion => exact registeredReleases registered .chrdevRegion (by decide) rfl rfl
  | registerPcdev1 answer =>
    have at_ : s.devicePoint = .unloaded := allowed
    cases not_not.mp registers
    exact ⟨by simp [next,register],by simpa [next,register,at_] using pcdev2,exact⟩
  | registerPcdev2 answer =>
    have at_ : s.devicePoint = .registering := allowed
    cases not_not.mp registers
    exact ⟨by simpa [next,register,at_] using pcdev1,by simp [next,register],exact⟩
  | unregisterPcdev1 =>
    have held := pcdev1.mpr (.inr allowed.1)
    refine ⟨by simp [next,memRelease],by simpa [next,memRelease,allowed.1] using pcdev2,?_⟩
    simpa [next,releaseHeld _ held] using exact
  | unregisterPcdev2 =>
    have held := pcdev2.mpr (.inr allowed.1)
    refine ⟨by simpa [next,memRelease,allowed.1] using pcdev1,by simp [next,memRelease],?_⟩
    simpa [next,releaseHeld _ held] using exact

theorem sure {s : System α} (a : Act α) (allowed : Allowed s a) (registers : ¬ DeviceFails a) :
    SureStep s a (next s a) := ⟨taken a allowed,registers⟩

theorem unbindAll {s : System α} (sound : Sound s) : ∃ log t, Run SureStep s log t ∧ t.devices.bound = ∅ ∧
    t.driverPoint = s.driverPoint ∧ t.devicePoint = s.devicePoint := by
  induction left : s.devices.bound.card generalizing s with
  | zero => exact ⟨[],s,.nil s,Finset.card_eq_zero.mp left,rfl,rfl⟩
  | succ n ih =>
    obtain ⟨i,mem⟩ := Finset.card_pos.mp (by omega : 0 < s.devices.bound.card)
    have allowed : Allowed s (.core (.remove i)) := mem
    have erased := (removeObjects sound.attached.accounted (d := (driver s.base).toDriver) mem).1
    have fewer : (next s (.core (.remove i))).devices.bound.card = n := by
      have one := Finset.card_erase_of_mem mem
      show (PlatformDriver.next (driver s.base).toDriver s.devices (.remove i)).bound.card = n
      rw [erased,one,left]
      rfl
    obtain ⟨log,t,run,rest⟩ := ih (nextSound sound allowed) fewer
    exact ⟨_,t,.cons (sure _ allowed id) run,rest⟩

def DriverGoes (s : System α) : Prop :=
  ∃ log t, Run SureStep s log t ∧ t.driverPoint = .unloaded ∧ t.devicePoint = s.devicePoint ∧ t.devices.bound = ∅

theorem driverGoesOn {s : System α} {a : Act α} (allowed : Allowed s a) (registers : ¬ DeviceFails a)
    (same : (next s a).devicePoint = s.devicePoint) (rest : DriverGoes (next s a)) : DriverGoes s := by
  obtain ⟨log,t,run,unloaded,point,idle⟩ := rest
  exact ⟨_,t,.cons (sure _ allowed registers) run,unloaded,point.trans same,idle⟩

theorem driverGoes {s : System α} (idle : s.devices.bound = ∅) : DriverGoes s := by
  have gone : ∀ t : System α, t.devices.bound = ∅ → t.driverPoint = .unloaded → DriverGoes t :=
    fun t idle at_ => ⟨[],t,.nil t,at_,rfl,idle⟩
  have destroyed : ∀ t : System α, t.devices.bound = ∅ → t.driverPoint = .classDestroyed → DriverGoes t :=
    fun t idle at_ => driverGoesOn (a := .unregisterChrdevRegion) at_ id rfl (gone _ idle rfl)
  have detached : ∀ t : System α, t.devices.bound = ∅ → t.driverPoint = .detached → DriverGoes t :=
    fun t idle at_ => driverGoesOn (a := .classDestroy) at_ id rfl (destroyed _ idle rfl)
  have detaching : ∀ t : System α, t.devices.bound = ∅ → t.driverPoint = .detaching → DriverGoes t :=
    fun t idle at_ => driverGoesOn (a := .driverDetached) ⟨at_,idle⟩ id rfl (detached _ idle rfl)
  have live : ∀ t : System α, t.devices.bound = ∅ → t.driverPoint = .live → DriverGoes t :=
    fun t idle at_ => driverGoesOn (a := .platformDriverUnregister) at_ id rfl (detaching _ idle rfl)
  cases at_ : s.driverPoint with
  | unloaded => exact gone s idle at_
  | reserved => exact driverGoesOn (a := .classCreate (some enomem)) at_ id rfl (gone _ idle rfl)
  | classed => exact driverGoesOn (a := .platformDriverRegister none) at_ id rfl (live _ idle rfl)
  | live => exact live s idle at_
  | detaching => exact detaching s idle at_
  | detached => exact detached s idle at_
  | classDestroyed => exact destroyed s idle at_

theorem devicesGo {s : System α} (idle : s.devices.bound = ∅) : ∃ log t, Run SureStep s log t ∧
    t.devicePoint = .unloaded ∧ t.driverPoint = s.driverPoint := by
  have nobody (i : PlatformDevice) : i ∉ s.devices.bound := idle ▸ Finset.notMem_empty i
  have last : ∀ t : System α, t.devices.bound = ∅ → t.devicePoint = .unregistering →
      Run SureStep t [⟨t,.unregisterPcdev2,next t .unregisterPcdev2⟩] (next t .unregisterPcdev2) :=
    fun t idle at_ => .cons (sure _ ⟨at_,idle ▸ Finset.notMem_empty _⟩ id) (.nil _)
  cases at_ : s.devicePoint with
  | unloaded => exact ⟨[],s,.nil s,at_,rfl⟩
  | registering =>
    exact ⟨_,_,.cons (sure (.registerPcdev2 none) at_ (fun fails => fails rfl))
      (.cons (sure .unregisterPcdev1 ⟨rfl,nobody _⟩ id) (last _ idle rfl)),rfl,rfl⟩
  | live => exact ⟨_,_,.cons (sure .unregisterPcdev1 ⟨at_,nobody _⟩ id) (last _ idle rfl),rfl,rfl⟩
  | unregistering => exact ⟨_,_,last s idle at_,rfl,rfl⟩

theorem keptSound {s t : System α} {log} (run : Run SureStep s log t) (sound : Sound s ∧ Registered s) :
    Sound t ∧ Registered t :=
  runKeeps (fun s => Sound s ∧ Registered s) (fun step both => step.taken ▸
    ⟨nextSound both.1 step.allowed,registeredNext step.allowed step.registers both.2⟩) run sound

theorem unloadLeavesNothing {s : System α} {log} (run : Run SureStep fresh log s) : ∃ more t, Run SureStep s more t ∧
    t.driverPoint = .unloaded ∧ t.devicePoint = .unloaded ∧ t.registrations.held = ∅ ∧
    t.devices.ledger.held = ∅ ∧ t.devices.totalDevices = 0 ∧
    ∀ i : PlatformDevice, i.registration ∉ t.registrations.unheld := by
  have start : Registered (fresh : System α) := by constructor <;> simp [fresh]
  have reached := keptSound run ⟨freshSound,start⟩
  obtain ⟨log1,t1,run1,idle1,_,_⟩ := unbindAll reached.1
  obtain ⟨log2,t2,run2,down,_,idle2⟩ := driverGoes idle1
  obtain ⟨log3,t3,run3,gone,same⟩ := devicesGo idle2
  have ⟨sound3,registered3⟩ := keptSound run3 (keptSound run2 (keptSound run1 reached))
  have idle3 := idleUnless sound3 (by simp [same,down])
  refine ⟨_,t3,runAppend run1 (runAppend run2 run3),same.trans down,gone,?_,?_,?_,fun i => ?_⟩
  · refine Finset.eq_empty_of_forall_notMem fun r held => ?_
    obtain ⟨i,rfl⟩ := onlyDevices sound3 (same.trans down) r held
    exact (nothingBound sound3 gone i).1 held
  · exact sound3.attached.accounted.nothingLeft idle3
  · rw [sound3.attached.accounted.total,idle3]
    rfl
  · cases i with
    | platformPcdev1 => exact registered3.exact.1
    | platformPcdev2 => exact registered3.exact.2

end Unloads

def answers (i : PlatformDevice) (a b : Nat) : Outcome Nat := ⟨⟨some i.platformData,some a,some b,none⟩,none⟩

theorem oneDeviceBinds : ∃ log s, Run Step (fresh : System Nat) log s ∧ s.devices.bound = {.platformPcdev1} ∧
    s.registrations.held = {.chrdevRegion,.class_,.platformDriver,.platformPcdev1} := by
  have run : Run Step (fresh : System Nat) _ _ :=
    .cons (taken (.registerPcdev1 none) rfl) (.cons (taken (.registerPcdev2 (some eexist)) rfl)
      (.cons (taken (.allocChrdevRegion (.ok ⟨0x0fe00000,by decide⟩)) rfl) (.cons (taken (.classCreate none) rfl)
        (.cons (taken (.platformDriverRegister none) rfl)
          (.cons (taken (.core (.probe .platformPcdev1 (answers .platformPcdev1 0 1)))
            ⟨by decide,by decide,by decide,rfl,by decide⟩) (.nil _))))))
  exact ⟨_,_,run,by decide,by decide⟩

theorem oneDeviceBacked : ∃ s : System Nat, s.devices.bound = {.platformPcdev1} ∧ Backed s := by
  obtain ⟨_,s,run,bound,_⟩ := oneDeviceBinds
  exact ⟨s,bound,bindingsBacked run⟩

theorem twoDevicesUnloaded : ∃ s t : System Nat, s.devices.bound = {.platformPcdev1,.platformPcdev2} ∧
    (∃ more, Run SureStep s more t) ∧ t.registrations.held = ∅ ∧ t.devices.ledger.held = ∅ := by
  have run : Run SureStep (fresh : System Nat) _ _ :=
    .cons (sure (.registerPcdev1 none) rfl (fun fails => fails rfl))
      (.cons (sure (.allocChrdevRegion (.ok ⟨0x0fe00000,by decide⟩)) rfl id)
        (.cons (sure (.registerPcdev2 none) rfl (fun fails => fails rfl)) (.cons (sure (.classCreate none) rfl id)
          (.cons (sure (.platformDriverRegister none) rfl id)
            (.cons (sure (.core (.probe .platformPcdev1 (answers .platformPcdev1 0 1)))
                ⟨by decide,by decide,by decide,rfl,by decide⟩ id)
              (.cons (sure (.core (.probe .platformPcdev2 (answers .platformPcdev2 2 3)))
                ⟨by decide,by decide,by decide,rfl,by decide⟩ id) (.nil _)))))))
  obtain ⟨more,t,rest,_,_,registrations,nothing,_⟩ := unloadLeavesNothing run
  exact ⟨_,t,by decide,⟨more,rest⟩,registrations,nothing⟩

end KernelFacilities.PlatformBus
