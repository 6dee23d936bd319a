import KernelFacilities.Ledgers
import KernelFacilities.MachineIntegers
import KernelFacilities.Runs

/-! Loading and unloading the two platform modules (004): pcd_driver_setup with its
region, class and driver registration, pcd_device_setup with its two devices. The
answers of the registration calls are inputs. Both init functions drop the answer
of their last registrations and report success. -/
namespace KernelFacilities.PlatformModules
open KernelErrors Ledgers Runs

inductive Registration where
  | chrdevRegion
  | class_
  | platformDriver
  | platformPcdev1
  | platformPcdev2
  deriving DecidableEq

structure DriverOutcomes where
  allocChrdevRegion : Option Errno
  classCreate : Option Errno
  platformDriverRegister : Option Errno

structure DeviceOutcomes where
  registerPcdev1 : Option Errno
  registerPcdev2 : Option Errno

-- A registration whose answer the caller does not look at.
def register (l : Ledger Registration) (r : Registration) : Option Errno → Ledger Registration
  | some _ => l
  | none => l.acquire r

def pcdDriverInit (o : DriverOutcomes) (l : Ledger Registration) : Ledger Registration × Int32 :=
  match o.allocChrdevRegion with
  | some ret => (l,ret.val)
  | none =>
    let l := l.acquire .chrdevRegion
    match o.classCreate with
    | some ret => (l.release .chrdevRegion,ret.val)
    | none => (register (l.acquire .class_) .platformDriver o.platformDriverRegister,0)

def pcdDriverExit (l : Ledger Registration) : Ledger Registration :=
  ((l.release .platformDriver).release .class_).release .chrdevRegion

def pcdevPlatformInit (o : DeviceOutcomes) (l : Ledger Registration) : Ledger Registration × Int32 :=
  (register (register l .platformPcdev1 o.registerPcdev1) .platformPcdev2 o.registerPcdev2,0)

def pcdevPlatformExit (l : Ledger Registration) : Ledger Registration :=
  (l.release .platformPcdev1).release .platformPcdev2

structure Modules where
  ledger : Ledger Registration
  driverLoaded : Bool
  deviceLoaded : Bool

inductive Event where
  | loadDriver (o : DriverOutcomes)
  | unloadDriver
  | loadDevice (o : DeviceOutcomes)
  | unloadDevice

def next (m : Modules) : Event → Modules
  | .loadDriver o =>
      if m.driverLoaded then m
      else { m with ledger := (pcdDriverInit o m.ledger).1, driverLoaded := (pcdDriverInit o m.ledger).2 == 0 }
  | .unloadDriver =>
      if m.driverLoaded then { m with ledger := pcdDriverExit m.ledger, driverLoaded := false } else m
  | .loadDevice o =>
      if m.deviceLoaded then m
      else { m with
        ledger := (pcdevPlatformInit o m.ledger).1
        deviceLoaded := (pcdevPlatformInit o m.ledger).2 == 0 }
  | .unloadDevice =>
      if m.deviceLoaded then { m with ledger := pcdevPlatformExit m.ledger, deviceLoaded := false } else m

def fresh : Modules := ⟨clear,false,false⟩

def due (driverLoaded deviceLoaded : Bool) : Finset Registration :=
  (if driverLoaded then {.chrdevRegion,.class_,.platformDriver} else ∅) ∪
    (if deviceLoaded then {.platformPcdev1,.platformPcdev2} else ∅)

structure Accounted (m : Modules) : Prop where
  held : m.ledger.held = due m.driverLoaded m.deviceLoaded
  exact : m.ledger.unheld = []

def SilentFailure (m : Modules) : Event → Prop
  | .loadDriver o => m.driverLoaded = false ∧ o.allocChrdevRegion = none ∧ o.classCreate = none ∧
      o.platformDriverRegister ≠ none
  | .loadDevice o => m.deviceLoaded = false ∧ (o.registerPcdev1 ≠ none ∨ o.registerPcdev2 ≠ none)
  | _ => False

def inUse (driverLoaded deviceLoaded : Bool) : Modules :=
  ⟨⟨due driverLoaded deviceLoaded,[]⟩,driverLoaded,deviceLoaded⟩

theorem inUseAccounted (driver device : Bool) : Accounted (inUse driver device) := ⟨rfl,rfl⟩

theorem accountedInUse {m : Modules} (accounted : Accounted m) : ∃ driver device, m = inUse driver device := by
  obtain ⟨⟨held,unheld⟩,driver,device⟩ := m
  exact ⟨driver,device,by simpa [inUse] using And.intro accounted.held accounted.exact⟩

theorem unaccounted {m : Modules} {r : Registration}
    (missing : r ∈ due m.driverLoaded m.deviceLoaded ∧ r ∉ m.ledger.held) : ¬ Accounted m :=
  fun accounted => missing.2 (accounted.held ▸ missing.1)

/- What the init functions make of modules in good order: the release of the region
undoes its reservation, and a registration that failed in silence is missing. -/
theorem driverLoadAccounted (o : DriverOutcomes) (device : Bool) :
    Accounted (next (inUse false device) (.loadDriver o)) ↔
      ¬ SilentFailure (inUse false device) (.loadDriver o) := by
  obtain ⟨region,class_,driver⟩ := o
  cases region with
  | some e =>
    have failed : next (inUse false device) (.loadDriver ⟨some e,class_,driver⟩) = inUse false device := by
      simp [next,inUse,pcdDriverInit,errnoNonzero e]
    rw [failed]
    exact ⟨fun _ => by simp [SilentFailure],fun _ => inUseAccounted false device⟩
  | none =>
    cases class_ with
    | some e =>
      have fresh : .chrdevRegion ∉ (inUse false device).ledger.held := by cases device <;> decide
      have undone := releaseAcquire fresh
      have failed : next (inUse false device) (.loadDriver ⟨none,some e,driver⟩) = inUse false device := by
        simp only [next,pcdDriverInit,undone]
        simp [inUse,errnoNonzero e]
      rw [failed]
      exact ⟨fun _ => by simp [SilentFailure],fun _ => inUseAccounted false device⟩
    | none =>
      cases driver with
      | some e =>
        have silent : next (inUse false device) (.loadDriver ⟨none,none,some e⟩) =
            ⟨((inUse false device).ledger.acquire .chrdevRegion).acquire .class_,true,device⟩ := rfl
        refine ⟨fun accounted => ?_,fun loud => absurd ⟨rfl,rfl,rfl,by simp⟩ loud⟩
        rw [silent] at accounted
        refine absurd accounted (unaccounted (r := .platformDriver) ?_)
        cases device <;> decide
      | none =>
        refine ⟨fun _ => by simp [SilentFailure],fun _ => ⟨?_,rfl⟩⟩
        cases device <;> decide

theorem deviceLoadAccounted (o : DeviceOutcomes) (driver : Bool) :
    Accounted (next (inUse driver false) (.loadDevice o)) ↔
      ¬ SilentFailure (inUse driver false) (.loadDevice o) := by
  obtain ⟨first,second⟩ := o
  have registered : next (inUse driver false) (.loadDevice ⟨first,second⟩) =
      ⟨register (register (inUse driver false).ledger .platformPcdev1 first) .platformPcdev2 second,
        driver,true⟩ := rfl
  rw [registered]
  cases first with
  | some e =>
    refine ⟨fun accounted => ?_,fun loud => absurd ⟨rfl,.inl (by simp)⟩ loud⟩
    refine absurd accounted (unaccounted (r := .platformPcdev1) ?_)
    cases second with
    | some e' => cases driver <;> simp only [register] <;> decide
    | none => cases driver <;> simp only [register] <;> decide
  | none =>
    cases second with
    | some e =>
      refine ⟨fun accounted => ?_,fun loud => absurd ⟨rfl,.inr (by simp)⟩ loud⟩
      refine absurd accounted (unaccounted (r := .platformPcdev2) ?_)
      cases driver <;> simp only [register] <;> decide
    | none =>
      refine ⟨fun _ => by simp [SilentFailure],fun _ => ⟨?_,rfl⟩⟩
      cases driver <;> decide

theorem driverUnloadAccounted (device : Bool) : Accounted (next (inUse true device) .unloadDriver) := by
  cases device <;> exact ⟨by decide,by decide⟩

theorem deviceUnloadAccounted (driver : Bool) : Accounted (next (inUse driver true) .unloadDevice) := by
  cases driver <;> exact ⟨by decide,by decide⟩

theorem stepAccounted {m : Modules} (accounted : Accounted m) (e : Event) :
    Accounted (next m e) ↔ ¬ SilentFailure m e := by
  obtain ⟨driver,device,rfl⟩ := accountedInUse accounted
  cases e with
  | loadDriver o =>
    cases driver with
    | false => exact driverLoadAccounted o device
    | true => exact ⟨fun _ => by simp [SilentFailure,inUse],fun _ => inUseAccounted true device⟩
  | loadDevice o =>
    cases device with
    | false => exact deviceLoadAccounted o driver
    | true => exact ⟨fun _ => by simp [SilentFailure,inUse],fun _ => inUseAccounted driver true⟩
  | unloadDriver =>
    refine ⟨fun _ silent => silent,fun _ => ?_⟩
    cases driver with
    | false => exact inUseAccounted false device
    | true => exact driverUnloadAccounted device
  | unloadDevice =>
    refine ⟨fun _ silent => silent,fun _ => ?_⟩
    cases device with
    | false => exact inUseAccounted driver false
    | true => exact deviceUnloadAccounted driver

theorem registrationsExact (events : List Event) :
    (∀ tr ∈ trace next fresh events, Accounted tr.after) ↔
      ∀ tr ∈ trace next fresh events, ¬ SilentFailure tr.before tr.label :=
  traceExact Accounted (fun m e => ¬ SilentFailure m e) (fun _ e accounted => stepAccounted accounted e)
    (fun _ _ _ accounted => accounted) events (inUseAccounted false false)

theorem loadedWithoutDriver :
    ¬ ∀ tr ∈ trace next fresh [.loadDriver ⟨none,none,some eexist⟩], Accounted tr.after := by
  intro all
  have loaded := all _ List.mem_cons_self
  exact absurd loaded.held (by decide)

end KernelFacilities.PlatformModules
