import KernelFacilities.DeviceFiles
import KernelFacilities.DeviceRouting

/-! The whole life of the multi-device driver (003): loads, at any address and under
any numbers, that may fail at every registration; opens by device number, requests
through the open files, and unloads. The kernel loads a module once, and keeps it as
long as files of it are open. Other drivers come and go in the same table of cdevs. -/
namespace KernelFacilities.DriverLife
open CharDriverMultipleDevices CharDriverMultipleDevicesLoad DeviceFiles DeviceRouting FaultingStore KernelErrors Runs

variable {n : Nat}

def enoent : Int64 := 2
def enxio : Int64 := 6
def eagain : Int64 := 11
def eexist : Int64 := 17

structure Machine (n : Nat) where
  table : CdevMap
  current : Option (Module n)
  system : System (Fin n)

def ofFile {ι : Type} : Request ι → Bool
  | .open .. => false
  | _ => true

inductive Event (n : Nat) where
  | load (place : Module n) (o : Outcomes)
  | unload
  | open (iRdev fMode : UInt32)
  | file (request : {request : Request (Fin n) // ofFile request})
  | other (d : UInt32) (iCdev : Option UInt64)

inductive Response where
  | reply (r : Reply)
  | other (iCdev : UInt64)
  | wild (privateData : UInt64)
  | silent

section Machine
variable (devices : Fin n → PcdevPrivateData) (s : Machine n)

def load (place : Module n) (o : Outcomes) : Machine n × Response :=
  if s.current.isSome then (s,.reply ⟨-eexist,[]⟩)
  else
    let (j,ret) := pcdDriverInit n o
    let table := place.cdevMap s.table j
    if ret = 0 then (⟨table,some place,⟨devices,s.system.files⟩⟩,.reply ⟨ret.toInt64,[]⟩)
    else (⟨table,none,s.system⟩,.reply ⟨ret.toInt64,[]⟩)

def unload : Machine n × Response :=
  match s.current with
  | none => (s,.reply ⟨-enoent,[]⟩)
  | some m =>
      if s.system.files.any Option.isSome then (s,.reply ⟨-eagain,[]⟩)
      else (⟨m.cdevMap s.table (pcdDriverExit n []),none,s.system⟩,.reply ⟨0,[]⟩)

def openNode (iRdev fMode : UInt32) : Machine n × Response :=
  match s.current with
  | none => (s,(s.table iRdev).elim (.reply ⟨-enxio,[]⟩) .other)
  | some m =>
      match m.chrdevOpen s.system.pcdevData s.table iRdev fMode with
      | .noDevice => (s,.reply ⟨-enxio,[]⟩)
      | .other iCdev => (s,.other iCdev)
      | .wild privateData => (s,.wild privateData)
      | .device k _ =>
          let (system,reply) := serve s.system (.open k fMode)
          ({ s with system := system },.reply reply)

def respond : Event n → Machine n × Response
  | .load place o => load devices s place o
  | .unload => unload s
  | .open iRdev fMode => openNode s iRdev fMode
  | .file request =>
      let (system,reply) := serve s.system request.val
      ({ s with system := system },.reply reply)
  | .other d iCdev => ({ s with table := Function.update s.table d iCdev },.silent)

def next (event : Event n) : Machine n := (respond devices s event).1

end Machine

def booted (devices : Fin n → PcdevPrivateData) (others : CdevMap) : Machine n := ⟨others,none,loaded devices⟩

/- What the machine is for: n arrays of bytes that are found under consecutive
numbers while somebody provides them, and cursors on them. -/
structure Service (n : Nat) where
  base : Option UInt32
  others : CdevMap
  store : Store (Fin n) UInt8

inductive Order (n : Nat) where
  | provide (base : UInt32) (refused : Option Errno)
  | withdraw
  | attach (d fMode : UInt32)
  | use (op : Op (Fin n) UInt8)
  | other (d : UInt32) (iCdev : Option UInt64)

inductive Told where
  | provided
  | refused (e : Errno)
  | present
  | withdrawn
  | absent
  | busy
  | nobody
  | other (iCdev : UInt64)
  | answer (a : FaultingStore.Answer UInt8)
  | silent

section Service
variable (devices : Fin n → PcdevPrivateData) (r : Service n)

def Service.device? (d : UInt32) : Option (Fin n) :=
  r.base.bind fun base => (List.finRange n).find? fun k : Fin n => d = base + UInt32.ofNat k

def Service.use (op : Op (Fin n) UInt8) : Service n × Told :=
  let (store,a) := apply (rules devices) r.store op
  ({ r with store := store },.answer a)

def carryOut : Order n → Service n × Told
  | .provide base refused =>
      if r.base.isSome then (r,.present)
      else
        match refused with
        | some e => (r,.refused e)
        | none => (⟨some base,r.others,⟨(initial devices).cells,r.store.cursors⟩⟩,.provided)
  | .withdraw =>
      if r.base.isNone then (r,.absent)
      else if r.store.cursors.any Option.isSome then (r,.busy)
      else ({ r with base := none },.withdrawn)
  | .attach d fMode =>
      match r.device? d with
      | some k => r.use devices (view devices (.open k fMode))
      | none => (r,(r.others d).elim .nobody .other)
  | .use op => r.use devices op
  | .other d iCdev => ({ r with others := Function.update r.others d iCdev },.silent)

def carriedOut (order : Order n) : Service n := (carryOut devices r order).1

end Service

def fresh (devices : Fin n → PcdevPrivateData) (others : CdevMap) : Service n := ⟨none,others,initial devices⟩

def firstFailure (n : Nat) (o : Outcomes) : Option Errno :=
  (o.allocChrdevRegion.or o.classCreate).or
    ((List.range n).findSome? fun i => (o.cdevAdd i).or (o.deviceCreate i))

def order (devices : Fin n → PcdevPrivateData) : Event n → Order n
  | .load place o => .provide place.deviceNumber (firstFailure n o)
  | .unload => .withdraw
  | .open iRdev fMode => .attach iRdev fMode
  | .file request => .use (view devices request.val)
  | .other d iCdev => .other d iCdev

def Means : Response → Told → Prop
  | .reply r, .provided | .reply r, .withdrawn => r.ret = 0
  | .reply r, .refused e => r.ret = e.val.toInt64
  | .reply r, .present => r.ret = -eexist
  | .reply r, .absent => r.ret = -enoent
  | .reply r, .busy => r.ret = -eagain
  | .reply r, .nobody => r.ret = -enxio
  | .reply r, .answer a => Agrees r a
  | .other iCdev, .other iCdev' => iCdev = iCdev'
  | .silent, .silent => True
  | _, _ => False

def Granted (s : Machine n) : Event n → Prop
  | .load place o => s.current = none →
      (o.allocChrdevRegion = none → ∀ k < n, s.table (place.number k) = none) ∧
      ∀ d, ∀ k < n, s.table d ≠ some (place.cdevOf k)
  | .other d iCdev => ∀ m, s.current = some m →
      (∀ k < n, d ≠ m.number k) ∧ ∀ k < n, iCdev ≠ some (m.cdevOf k)
  | _ => True

structure Placed (m : Module n) (others table : CdevMap) : Prop where
  free : ∀ k < n, others (m.number k) = none
  foreign : ∀ d, ∀ k < n, others d ≠ some (m.cdevOf k)
  own : ∀ k < n, table (m.number k) = some (m.cdevOf k)
  rest : ∀ d, (∀ k < n, d ≠ m.number k) → table d = others d

structure Follows (devices : Fin n → PcdevPrivateData) (s : Machine n) (r : Service n) : Prop where
  related : Related devices s.system r.store
  base : r.base = s.current.map Module.deviceNumber
  away : s.current = none → s.table = r.others
  placed : ∀ m, s.current = some m → Placed m r.others s.table

section Load

theorem loopReturns (o : Outcomes) (j : Journal) (i left : Nat) : (initDevices o j i left).2 =
    ((List.range' i left).findSome? fun k => (o.cdevAdd k).or (o.deviceCreate k)).elim 0 Subtype.val := by
  induction left generalizing j i with
  | zero => rfl
  | succ left ih =>
    rw [List.range'_succ,List.findSome?_cons]
    cases add : o.cdevAdd i with
    | some e => simp only [initDevices,add,Option.some_or]; rfl
    | none =>
      cases create : o.deviceCreate i with
      | some e => simp only [initDevices,add,create,Option.none_or]; rfl
      | none =>
        rw [goesOn add create]
        exact ih _ (i + 1)

theorem initReturns (n : Nat) (o : Outcomes) : (pcdDriverInit n o).2 = (firstFailure n o).elim 0 Subtype.val := by
  unfold firstFailure
  cases region : o.allocChrdevRegion with
  | some e => simp only [pcdDriverInit,region,Option.some_or]; rfl
  | none =>
    cases class_ : o.classCreate with
    | some e => simp only [pcdDriverInit,region,class_,Option.none_or,Option.some_or]; rfl
    | none =>
      rw [loopReached region class_,loopReturns,List.range_eq_range']
      rfl

theorem initSucceeds {o : Outcomes} : (pcdDriverInit n o).2 = 0 ↔ firstFailure n o = none := by
  rw [initReturns]
  cases firstFailure n o with
  | none => exact ⟨fun _ => rfl,fun _ => rfl⟩
  | some e => exact ⟨fun zero => absurd zero (errnoNonzero e),fun none_ => by cases none_⟩

end Load

section Table
variable {m : Module n} {others table : CdevMap}

theorem initPlaced {o : Outcomes} (free : ∀ k < n, others (m.number k) = none)
    (foreign : ∀ d, ∀ k < n, others d ≠ some (m.cdevOf k)) (success : (pcdDriverInit n o).2 = 0) :
    Placed m others (m.cdevMap others (pcdDriverInit n o).1) := by
  have follows := tableFollows (m := m) free (initBelow n o)
  rcases liveInit n o with ⟨_,all⟩ | ⟨failed,_⟩
  · refine ⟨free,foreign,fun k low => ?_,follows.rest⟩
    rw [follows.own k low,all,decide_eq_true low,if_pos rfl]
  · exact absurd success failed

theorem initUndone {o : Outcomes} (free : o.allocChrdevRegion = none → ∀ k < n, others (m.number k) = none)
    (failed : (pcdDriverInit n o).2 ≠ 0) : m.cdevMap others (pcdDriverInit n o).1 = others := by
  cases region : o.allocChrdevRegion with
  | some e =>
    simp only [pcdDriverInit,region]
    rfl
  | none =>
    rcases liveInit n o with ⟨success,_⟩ | ⟨_,gone⟩
    · exact absurd success failed
    · exact tableEmpty (free region) (tableFollows (free region) (initBelow n o)) gone

def works : Outcomes := ⟨none,none,fun _ => none,fun _ => none⟩

theorem worksSucceeds : (pcdDriverInit n works).2 = 0 := by
  refine initSucceeds.mpr ?_
  simp [firstFailure,works]

theorem placedTable (placed : Placed m others table) : table = m.cdevMap others (pcdDriverInit n works).1 := by
  have loaded := @initPlaced _ _ _ works placed.free placed.foreign worksSucceeds
  funext d
  by_cases far : ∀ k < n, d ≠ m.number k
  · rw [placed.rest d far,loaded.rest d far]
  · obtain ⟨k,low,same⟩ : ∃ k, k < n ∧ d = m.number k := by simpa using far
    rw [same,placed.own k low,loaded.own k low]

theorem exitAppends (j : Journal) : pcdDriverExit n j = j ++ pcdDriverExit n [] := by
  have up (i left : Nat) (j : Journal) : destroyUp j i left = j ++ destroyUp [] i left := by
    induction left generalizing i j with
    | zero => exact (List.append_nil j).symm
    | succ left ih =>
      rw [destroyUp,destroyUp,ih,ih (i + 1) ([] ++ _),List.nil_append,List.append_assoc]
  rw [pcdDriverExit,pcdDriverExit,up,List.append_assoc]

theorem exitUndone (placed : Placed m others table) : m.cdevMap table (pcdDriverExit n []) = others := by
  rcases liveInit n works with ⟨_,all⟩ | ⟨failed,_⟩
  · have joined : m.cdevMap table (pcdDriverExit n []) =
        m.cdevMap others (pcdDriverExit n (pcdDriverInit n works).1) := by
      rw [exitAppends (pcdDriverInit n works).1,placedTable placed]
      exact List.foldl_append.symm
    rw [joined]
    exact tableEmpty placed.free (tableFollows placed.free (exitBelow (initBelow n works))) (liveExit all)
  · exact absurd worksSucceeds failed

theorem openPlaced (placed : Placed m others table) (devices : Fin n → PcdevPrivateData) (k : Fin n) (fMode : UInt32) :
    m.chrdevOpen devices table (m.number k) fMode = .device k (checkPermission (devices k).perm fMode.toInt32) := by
  rcases liveInit n works with ⟨_,all⟩ | ⟨failed,_⟩
  · rw [placedTable placed,DeviceRouting.openFollows devices (tableFollows placed.free (initBelow n works)),all,
      decide_eq_true k.isLt,if_pos rfl]
  · exact absurd worksSucceeds failed

theorem openElsewhere (placed : Placed m others table) (devices : Fin n → PcdevPrivateData) {d : UInt32}
    (far : ∀ k < n, d ≠ m.number k) (fMode : UInt32) :
    m.chrdevOpen devices table d fMode = (others d).elim .noDevice .other := by
  rw [Module.chrdevOpen,placed.rest d far]
  cases entry : others d with
  | none => rfl
  | some iCdev =>
    have nobody : (List.range n).any (fun k => m.cdevOf k = iCdev) = false := by
      refine List.any_eq_false.mpr fun k mem same => ?_
      have address := of_decide_eq_true same
      exact placed.foreign d k (List.mem_range.mp mem) (entry.trans (congrArg some address.symm))
    simp only [nobody,Bool.false_eq_true,if_false,Option.elim_some]

theorem deviceFound {r : Service n} (base : r.base = some m.deviceNumber) (k : Fin n) :
    r.device? (m.number k) = some k := by
  rw [Service.device?,base,Option.bind_some]
  cases found : (List.finRange n).find? fun i : Fin n => m.number k = m.deviceNumber + UInt32.ofNat i with
  | none => exact absurd (decide_eq_true rfl) (List.find?_eq_none.mp found k (List.mem_finRange k))
  | some i =>
    have named := List.find?_some found
    have same : m.number k = m.number i := of_decide_eq_true named
    exact congrArg some (Fin.ext (numbersApart m i.isLt k.isLt same.symm))

theorem deviceMissing {r : Service n} (base : r.base = some m.deviceNumber) {d : UInt32}
    (far : ∀ k < n, d ≠ m.number k) : r.device? d = none := by
  rw [Service.device?,base,Option.bind_some]
  exact List.find?_eq_none.mpr fun k _ same => far k k.isLt (of_decide_eq_true same)

end Table

section Step
variable {devices : Fin n → PcdevPrivateData} {s : Machine n} {r : Service n} (follows : Follows devices s r)
include follows

theorem usedFollows (request : Request (Fin n)) :
    Follows devices { s with system := (serve s.system request).1 } (r.use devices (view devices request)).1 ∧
    Means (.reply (serve s.system request).2) (r.use devices (view devices request)).2 := by
  obtain ⟨related,agrees⟩ := requestFollows follows.related request
  exact ⟨⟨related,follows.base,follows.away,follows.placed⟩,agrees⟩

theorem loadFollows (place : Module n) (o : Outcomes) (granted : Granted s (.load place o)) :
    Follows devices (load devices s place o).1 (carryOut devices r (order devices (.load place o))).1 ∧
    Means (load devices s place o).2 (carryOut devices r (order devices (.load place o))).2 := by
  have base := follows.base
  cases current : s.current with
  | some m =>
    simp only [current,Option.map_some] at base
    simp only [load,current,order,carryOut,base,Option.isSome_some,if_true]
    exact ⟨follows,rfl⟩
  | none =>
    simp only [current,Option.map_none] at base
    obtain ⟨free,foreign⟩ := granted current
    have away := follows.away current
    rw [away] at free foreign
    have returns := initReturns n o
    simp only [load,current,order,carryOut,base,Option.isSome_none,Bool.false_eq_true,if_false,away]
    cases failure : firstFailure n o with
    | some e =>
      rw [failure,Option.elim_some] at returns
      have failed : (pcdDriverInit n o).2 ≠ 0 := returns ▸ errnoNonzero e
      simp only [failed,if_false]
      refine ⟨⟨follows.related,?_,fun _ => initUndone free failed,fun m there => (by cases there)⟩,?_⟩
      · rw [base,Option.map_none]
      · exact congrArg Int32.toInt64 returns
    | none =>
      have success := initSucceeds.mpr failure
      have region : o.allocChrdevRegion = none := by
        cases taken : o.allocChrdevRegion with
        | none => rfl
        | some e => simp [firstFailure,taken] at failure
      simp only [success,if_true]
      refine ⟨⟨?_,rfl,fun unloaded => (by cases unloaded),fun m there => ?_⟩,rfl⟩
      · have start := loadedRelated devices
        exact ⟨start.shape,start.cells,follows.related.cursors⟩
      · cases there
        exact initPlaced (free region) foreign success

theorem unloadFollows : Follows devices (unload s).1 (carryOut devices r .withdraw).1 ∧
    Means (unload s).2 (carryOut devices r .withdraw).2 := by
  have base := follows.base
  cases current : s.current with
  | none =>
    simp only [current,Option.map_none] at base
    simp only [unload,current,carryOut,base,Option.isNone_none,if_true]
    exact ⟨follows,rfl⟩
  | some m =>
    simp only [current,Option.map_some] at base
    have open_ : r.store.cursors.any Option.isSome = s.system.files.any Option.isSome := by
      rw [follows.related.cursors,List.any_map]
      exact congrArg (s.system.files.any ·) (funext fun entry => Option.isSome_map)
    simp only [unload,current,carryOut,base,Option.isNone_some,Bool.false_eq_true,if_false,open_]
    by_cases busy : s.system.files.any Option.isSome = true
    · simp only [busy,if_true]
      exact ⟨follows,rfl⟩
    · simp only [busy]
      exact ⟨⟨follows.related,rfl,fun _ => exitUndone (follows.placed m current),fun m there => by cases there⟩,rfl⟩

theorem nodeFollows (iRdev fMode : UInt32) :
    Follows devices (openNode s iRdev fMode).1 (carryOut devices r (.attach iRdev fMode)).1 ∧
    Means (openNode s iRdev fMode).2 (carryOut devices r (.attach iRdev fMode)).2 := by
  have base := follows.base
  cases current : s.current with
  | none =>
    simp only [current,Option.map_none] at base
    have nobody : r.device? iRdev = none := by simp only [Service.device?,base,Option.bind_none]
    simp only [openNode,current,carryOut,nobody,follows.away current]
    refine ⟨follows,?_⟩
    cases r.others iRdev <;> rfl
  | some m =>
    simp only [current,Option.map_some] at base
    have placed := follows.placed m current
    by_cases far : ∀ k < n, iRdev ≠ m.number k
    · simp only [openNode,current,openElsewhere placed _ far,carryOut,deviceMissing base far]
      cases r.others iRdev with
      | none => exact ⟨follows,rfl⟩
      | some iCdev => exact ⟨follows,rfl⟩
    · obtain ⟨k,low,same⟩ : ∃ k, k < n ∧ iRdev = m.number k := by simpa using far
      have opened := openPlaced placed s.system.pcdevData ⟨k,low⟩ fMode
      have found := deviceFound base ⟨k,low⟩
      simp only [openNode,current,same,opened,carryOut,found]
      have used := usedFollows follows (.open ⟨k,low⟩ fMode)
      rwa [current] at used

theorem otherFollows (d : UInt32) (iCdev : Option UInt64) (granted : Granted s (.other d iCdev)) :
    Follows devices { s with table := Function.update s.table d iCdev }
      { r with others := Function.update r.others d iCdev } := by
  refine ⟨follows.related,follows.base,fun none_ => ?_,fun m current => ?_⟩
  · exact congrArg (Function.update · d iCdev) (follows.away none_)
  · obtain ⟨outside,foreign⟩ := granted m current
    obtain ⟨free,others,own,rest⟩ := follows.placed m current
    refine ⟨fun k low => ?_,fun e k low => ?_,fun k low => ?_,fun e far => ?_⟩
    · exact (Function.update_of_ne (outside k low).symm ..).trans (free k low)
    · by_cases here : e = d
      · subst here
        simp only [Function.update_self]
        exact foreign k low
      · simp only [Function.update_of_ne here]
        exact others e k low
    · exact (Function.update_of_ne (outside k low).symm ..).trans (own k low)
    · by_cases here : e = d
      · subst here
        simp only [Function.update_self]
      · simp only [Function.update_of_ne here]
        exact rest e far

theorem eventFollows (event : Event n) (granted : Granted s event) :
    Follows devices (respond devices s event).1 (carryOut devices r (order devices event)).1 ∧
    Means (respond devices s event).2 (carryOut devices r (order devices event)).2 := by
  cases event with
  | load place o => exact loadFollows follows place o granted
  | unload => exact unloadFollows follows
  | «open» iRdev fMode => exact nodeFollows follows iRdev fMode
  | file request => exact usedFollows follows request.val
  | other d iCdev => exact ⟨otherFollows follows d iCdev granted,trivial⟩

end Step

structure Lives (devices : Fin n → PcdevPrivateData) (log : List (Transition (Machine n) (Event n)))
    (reference : List (Transition (Service n) (Order n))) : Prop where
  lockstep : List.Forall₂ (fun tr image => image.label = order devices tr.label ∧
    Follows devices tr.before image.before ∧ Follows devices tr.after image.after ∧
    Means (respond devices tr.before tr.label).2 (carryOut devices image.before image.label).2) log reference

theorem bootedFollows (devices : Fin n → PcdevPrivateData) (others : CdevMap) :
    Follows devices (booted devices others) (fresh devices others) :=
  ⟨loadedRelated devices,rfl,fun _ => rfl,fun m there => by cases there⟩

/- Whatever is loaded, fails to load, is opened, read, written and unloaded, and
whatever other drivers do meanwhile: the driver is the service, answer by answer. -/
theorem wholeLife (devices : Fin n → PcdevPrivateData) (others : CdevMap) {events : List (Event n)}
    (granted : ∀ tr ∈ trace (next devices) (booted devices others) events, Granted tr.before tr.label) :
    Lives devices (trace (next devices) (booted devices others) events)
      (trace (carriedOut devices) (fresh devices others) (events.map (order devices))) := by
  refine ⟨(traceFollows (Follows devices) Granted (fun ok follows => (eventFollows follows _ ok).1)
    (bootedFollows devices others) granted).imp ?_⟩
  rintro tr image ⟨before,ok,label,after⟩
  rw [label]
  exact ⟨rfl,before,after,(eventFollows before tr.label ok).2⟩

def oneLife : List (Event noOfDevices) :=
  [.load fourDevices works,.open (fourDevices.number 2) 3,.file ⟨.write 0 none 0x1000 2 [7,8],rfl⟩,.unload,
    .file ⟨.close 0,rfl⟩,.unload,.open (fourDevices.number 2) 3]

theorem oneLifeLived : Lives pcdevData (trace (next pcdevData) (booted pcdevData fun _ => none) oneLife)
    (trace (carriedOut pcdevData) (fresh pcdevData fun _ => none) (oneLife.map (order pcdevData))) := by
  refine wholeLife pcdevData (fun _ => none) fun tr mem => ?_
  simp only [oneLife,trace,List.mem_cons,List.not_mem_nil,or_false] at mem
  rcases mem with rfl | rfl | rfl | rfl | rfl | rfl | rfl
  · exact fun _ => ⟨fun _ _ _ => rfl,fun _ _ _ taken => (by cases taken)⟩
  · trivial
  · trivial
  · trivial
  · trivial
  · trivial
  · trivial

end KernelFacilities.DriverLife
