import KernelFacilities.Ledgers
import KernelFacilities.MachineIntegers
import KernelFacilities.Runs
import Mathlib.Data.Finset.Card

/-! Probe and remove of the platform driver (004). The addresses kzalloc hands out
and the answers of the kernel calls are inputs; device_create also refuses a
node that exists already. The driver core calls probe for unbound devices and
remove for bound ones. The contents of a freed object are not tracked. A cdev is
named by the dev_data it is embedded in, a node by its number: all names are
pcd<id>, and the number is the base plus the id. -/
namespace KernelFacilities.PlatformDriver
open KernelErrors Ledgers Runs

structure PcdevPlatformData where
  size : Int32
  perm : Int32
  serialNumber : String

structure PcdevPrivateData (α : Type) where
  pdata : PcdevPlatformData
  buffer : α
  devNumber : UInt32

inductive Resource (α : Type) where
  | devData (a : α)
  | buffer (a : α)
  | cdev (a : α)
  | node (devNumber : UInt32)
  deriving DecidableEq

structure Driver (ι : Type) where
  deviceBaseNumber : UInt32
  id : ι → Int32

def Driver.devNumber {ι : Type} (d : Driver ι) (i : ι) : UInt32 := d.deviceBaseNumber + (d.id i).toUInt32

structure State (ι α : Type) where
  ledger : Ledger (Resource α)
  objects : α → Option (PcdevPrivateData α)
  drvdata : ι → Option α
  totalDevices : Int32
  bound : Finset ι

structure Setup (α : Type) where
  platformData : Option PcdevPlatformData
  devData : Option α
  buffer : Option α
  cdevAdd : Option Errno

structure Outcome (α : Type) extends Setup α where
  deviceCreate : Option Errno

section Labels
variable {ι α : Type}

structure Unmoved (s t : State ι α) : Prop where
  ledger : t.ledger = s.ledger
  drvdata : t.drvdata = s.drvdata
  totalDevices : t.totalDevices = s.totalDevices
  bound : t.bound = s.bound
  objects : ∀ a, .devData a ∈ s.ledger.held → t.objects a = s.objects a

theorem unmovedRefl (s : State ι α) : Unmoved s s := ⟨rfl,rfl,rfl,rfl,fun _ _ => rfl⟩

variable [DecidableEq α]

def State.hold (s : State ι α) (r : Resource α) : State ι α := { s with ledger := s.ledger.acquire r }
def State.drop (s : State ι α) (r : Resource α) : State ι α := { s with ledger := s.ledger.release r }
def State.store (s : State ι α) (a : α) (data : PcdevPrivateData α) : State ι α :=
  { s with objects := Function.update s.objects a (some data) }

def Embedded (l : Ledger (Resource α)) : Prop := ∀ a, .cdev a ∈ l.held → .devData a ∈ l.held

theorem dropHold {s : State ι α} {r : Resource α} (fresh : r ∉ s.ledger.held) : (s.hold r).drop r = s := by
  simp only [State.drop,State.hold,releaseAcquire fresh]

theorem dropStore (s : State ι α) (a : α) (data : PcdevPrivateData α) (r : Resource α) :
    (s.store a data).drop r = (s.drop r).store a data := rfl

theorem storeUnmoved {s : State ι α} {a : α} (fresh : .devData a ∉ s.ledger.held) (data : PcdevPrivateData α) :
    Unmoved s (s.store a data) := by
  refine ⟨rfl,rfl,rfl,rfl,fun x alive => ?_⟩
  have other : x ≠ a := fun same => fresh (same ▸ alive)
  exact Function.update_of_ne other ..

def deviceCreate (l : Ledger (Resource α)) (devNumber : UInt32) (answer : Option Errno) : Option Errno :=
  if .node devNumber ∈ l.held then some eexist else answer

theorem nodeCreated {l : Ledger (Resource α)} {devNumber : UInt32} {answer : Option Errno}
    (created : deviceCreate l devNumber answer = none) : answer = none ∧ .node devNumber ∉ l.held := by
  unfold deviceCreate at created
  split at created
  · cases created
  · rename_i absent
    exact ⟨created,absent⟩

section Unwind
variable (s : State ι α) (a b : α) (ret : Errno)

def out : State ι α × Int32 := (s,ret.val)
def devDataFree : State ι α × Int32 := out (s.drop (.devData a)) ret
def bufferFree : State ι α × Int32 := devDataFree (s.drop (.buffer b)) a ret
def cdevDeletion : State ι α × Int32 := bufferFree (s.drop (.cdev a)) a b ret

end Unwind

theorem cdevDeletionUndoes {s : State ι α} {a b : α} {data : PcdevPrivateData α}
    (freshData : .devData a ∉ s.ledger.held) (freshBuffer : .buffer b ∉ (s.hold (.devData a)).ledger.held)
    (freshCdev : .cdev a ∉ (((s.hold (.devData a)).hold (.buffer b)).store a data).ledger.held)
    (ret : Errno) :
    cdevDeletion ((((s.hold (.devData a)).hold (.buffer b)).store a data).hold (.cdev a)) a b ret =
      (s.store a data,ret.val) := by
  simp only [cdevDeletion,bufferFree,devDataFree,out,dropHold freshCdev,dropStore,dropHold freshBuffer,
    dropHold freshData]

end Labels

section Setups
variable {ι α : Type} [DecidableEq α]

/- The probe up to cdev_add, with the answer of a probe that went to a label or the
addresses of one that goes on. From here on the device can be opened. -/
def probeToCdev (d : Driver ι) (s : State ι α) (i : ι) (o : Setup α) : State ι α × Except Int32 (α × α) :=
  let failed := fun answer : State ι α × Int32 => (answer.1,Except.error answer.2)
  match o.platformData with
  | none => failed (out s einval)
  | some pdata =>
    match o.devData with
    | none => failed (out s enomem)
    | some a =>
      let s := s.hold (.devData a)
      match o.buffer with
      | none => failed (devDataFree s a enomem)
      | some b =>
        let s := (s.hold (.buffer b)).store a ⟨pdata,b,d.devNumber i⟩
        match o.cdevAdd with
        | some ret => failed (bufferFree s a b ret)
        | none => (s.hold (.cdev a),.ok (a,b))

/- kzalloc answers with memory that is not in use; an empty buffer counts as memory of its own. -/
def Setup.Fresh (o : Setup α) (l : Ledger (Resource α)) : Prop :=
  (∀ a ∈ o.devData, .devData a ∉ l.held) ∧ ∀ b ∈ o.buffer, .buffer b ∉ l.held

instance (o : Setup α) (l) : Decidable (o.Fresh l) := by unfold Setup.Fresh; infer_instance

def Setup.Prepares (o : Setup α) : Prop :=
  o.platformData ≠ none ∧ o.devData ≠ none ∧ o.buffer ≠ none ∧ o.cdevAdd = none

def prepared (d : Driver ι) (s : State ι α) (i : ι) (a b : α) (pdata : PcdevPlatformData) : State ι α :=
  (((s.hold (.devData a)).hold (.buffer b)).store a ⟨pdata,b,d.devNumber i⟩).hold (.cdev a)

variable {d : Driver ι} {s : State ι α} {i : ι}

theorem setupPrepares {o : Setup α} (prepares : o.Prepares) : ∃ pdata a b, o.platformData = some pdata ∧
    o.devData = some a ∧ o.buffer = some b ∧ probeToCdev d s i o = (prepared d s i a b pdata,.ok (a,b)) := by
  obtain ⟨hasData,hasMemory,hasBuffer,add⟩ := prepares
  obtain ⟨pdata,atPdata⟩ := Option.ne_none_iff_exists'.mp hasData
  obtain ⟨a,atData⟩ := Option.ne_none_iff_exists'.mp hasMemory
  obtain ⟨b,atBuffer⟩ := Option.ne_none_iff_exists'.mp hasBuffer
  refine ⟨pdata,a,b,atPdata,atData,atBuffer,?_⟩
  simp only [probeToCdev,atPdata,atData,atBuffer,add]
  rfl

theorem setupFails {o : Setup α} (fails : ¬ o.Prepares) :
    ∃ t, ∃ ret : Errno, probeToCdev d s i o = (t,.error ret.val) := by
  obtain ⟨platformData,devData,buffer,cdevAdd⟩ := o
  cases platformData with
  | none => exact ⟨_,einval,rfl⟩
  | some pdata => cases devData with
    | none => exact ⟨_,enomem,rfl⟩
    | some a => cases buffer with
      | none => exact ⟨_,enomem,rfl⟩
      | some b => cases cdevAdd with
        | some e => exact ⟨_,e,rfl⟩
        | none => exact absurd ⟨by simp,by simp,by simp,rfl⟩ fails

theorem setupRefused {o : Setup α} (fresh : o.Fresh s.ledger) (fails : ¬ o.Prepares) :
    ∃ t, ∃ ret : Errno, probeToCdev d s i o = (t,.error ret.val) ∧ Unmoved s t := by
  obtain ⟨platformData,devData,buffer,cdevAdd⟩ := o
  cases platformData with
  | none => exact ⟨s,einval,rfl,unmovedRefl s⟩
  | some pdata => cases devData with
    | none => exact ⟨s,enomem,rfl,unmovedRefl s⟩
    | some a =>
      have freshData : .devData a ∉ s.ledger.held := fresh.1 a rfl
      cases buffer with
      | none =>
        refine ⟨s,enomem,?_,unmovedRefl s⟩
        simp only [probeToCdev,devDataFree,out,dropHold freshData]
      | some b =>
        have freshBuffer : .buffer b ∉ (s.hold (.devData a)).ledger.held := by
          simpa [State.hold] using fresh.2 b rfl
        cases cdevAdd with
        | none => exact absurd ⟨by simp,by simp,by simp,rfl⟩ fails
        | some e =>
          refine ⟨s.store a ⟨pdata,b,d.devNumber i⟩,e,?_,storeUnmoved freshData _⟩
          simp only [probeToCdev,bufferFree,devDataFree,out,dropStore,dropHold freshBuffer,dropHold freshData]

theorem preparedNode {a b : α} {pdata : PcdevPlatformData} (n : UInt32) :
    .node n ∈ (prepared d s i a b pdata).ledger.held ↔ .node n ∈ s.ledger.held := by
  simp [prepared,State.hold,State.store]

end Setups

section Calls
variable {ι α : Type} [DecidableEq ι] [DecidableEq α]

/- The rest of the probe of both platform drivers, up to `total_devices++`; what the
source does after it is given the state and the addresses. -/
def probeFromCdev (rest : State ι α → α → α → State ι α × Int32) (d : Driver ι) (s : State ι α) (i : ι) (a b : α)
    (answer : Option Errno) : State ι α × Int32 :=
  match deviceCreate s.ledger (d.devNumber i) answer with
  | some ret => cdevDeletion s a b ret
  | none =>
    let s := s.hold (.node (d.devNumber i))
    let s := { s with drvdata := Function.update s.drvdata i (some a) }
    rest { s with totalDevices := s.totalDevices + 1 } a b

def probeThen (rest : State ι α → α → α → State ι α × Int32) (d : Driver ι) (s : State ι α) (i : ι)
    (o : Outcome α) : State ι α × Int32 :=
  match probeToCdev d s i o.toSetup with
  | (s,.error ret) => (s,ret)
  | (s,.ok (a,b)) => probeFromCdev rest d s i a b o.deviceCreate

def pcdPlatformDriverProbe (d : Driver ι) (s : State ι α) (i : ι) (o : Outcome α) : State ι α × Int32 :=
  probeThen (fun s _ _ => (s,0)) d s i o

/- Without drvdata the source would follow a null pointer; the core never asks for that. -/
def pcdPlatformDriverRemove (s : State ι α) (i : ι) : State ι α :=
  match s.drvdata i with
  | none => s
  | some a =>
    match s.objects a with
    | none => s
    | some data =>
      let s := ((s.drop (.node data.devNumber)).drop (.cdev a)).drop (.buffer data.buffer)
      let s := s.drop (.devData a)
      { s with totalDevices := s.totalDevices - 1 }

def State.bindTo (s : State ι α) (i : ι) : State ι α := { s with bound := insert i s.bound }

def bindProbed (i : ι) (answer : State ι α × Int32) : State ι α :=
  if answer.2 = 0 then answer.1.bindTo i else answer.1

def unbind (s : State ι α) (i : ι) : State ι α :=
  { pcdPlatformDriverRemove s i with bound := (pcdPlatformDriverRemove s i).bound.erase i }

inductive Event (ι α : Type) where
  | probe (i : ι) (o : Outcome α)
  | remove (i : ι)

def next (d : Driver ι) (s : State ι α) : Event ι α → State ι α
  | .probe i o => bindProbed i (pcdPlatformDriverProbe d s i o)
  | .remove i => unbind s i

def Allowed (s : State ι α) : Event ι α → Prop
  | .probe i o => i ∉ s.bound ∧ o.Fresh s.ledger
  | .remove i => i ∈ s.bound

instance (s : State ι α) (e) : Decidable (Allowed s e) := by cases e <;> unfold Allowed <;> infer_instance

structure Step (d : Driver ι) (s : State ι α) (e : Event ι α) (t : State ι α) : Prop where
  allowed : Allowed s e
  taken : t = next d s e

def loaded : State ι α := ⟨clear,fun _ => none,fun _ => none,0,∅⟩

def Acquires (d : Driver ι) (s : State ι α) (i : ι) (o : Outcome α) : Prop :=
  o.platformData ≠ none ∧ o.devData ≠ none ∧ o.buffer ≠ none ∧ o.cdevAdd = none ∧
    o.deviceCreate = none ∧ .node (d.devNumber i) ∉ s.ledger.held

def installed (d : Driver ι) (s : State ι α) (i : ι) (a b : α) (pdata : PcdevPlatformData) : State ι α where
  ledger := (((s.ledger.acquire (.devData a)).acquire (.buffer b)).acquire (.cdev a)).acquire
    (.node (d.devNumber i))
  objects := Function.update s.objects a (some ⟨pdata,b,d.devNumber i⟩)
  drvdata := Function.update s.drvdata i (some a)
  totalDevices := s.totalDevices + 1
  bound := s.bound

variable {d : Driver ι} {s : State ι α} {i : ι}

theorem createdFromCdev (rest : State ι α → α → α → State ι α × Int32) {a b : α} {pdata : PcdevPlatformData}
    {answer : Option Errno} (created : deviceCreate (prepared d s i a b pdata).ledger (d.devNumber i) answer = none) :
    probeFromCdev rest d (prepared d s i a b pdata) i a b answer = rest (installed d s i a b pdata) a b := by
  simp only [probeFromCdev,created]
  rfl

theorem refusedFromCdev (rest : State ι α → α → α → State ι α × Int32) {a b : α} {pdata : PcdevPlatformData}
    {answer : Option Errno} {ret : Errno} (embedded : Embedded s.ledger) (freshData : .devData a ∉ s.ledger.held)
    (freshBuffer : .buffer b ∉ s.ledger.held)
    (refused : deviceCreate (prepared d s i a b pdata).ledger (d.devNumber i) answer = some ret) :
    probeFromCdev rest d (prepared d s i a b pdata) i a b answer = (s.store a ⟨pdata,b,d.devNumber i⟩,ret.val) := by
  have freshCdev : .cdev a ∉ s.ledger.held := fun held => freshData (embedded a held)
  simp only [probeFromCdev,refused]
  refine cdevDeletionUndoes freshData ?_ ?_ ret
  · simpa [State.hold] using freshBuffer
  · simpa [State.hold,State.store] using freshCdev

variable {o : Outcome α}

theorem probeInstalls (rest : State ι α → α → α → State ι α × Int32)
    (acquires : Acquires d s i o) : ∃ pdata a b, o.platformData = some pdata ∧ o.devData = some a ∧
      o.buffer = some b ∧ probeThen rest d s i o = rest (installed d s i a b pdata) a b := by
  obtain ⟨hasData,hasMemory,hasBuffer,add,create,absent⟩ := acquires
  obtain ⟨pdata,a,b,atPdata,atData,atBuffer,prepares⟩ :=
    setupPrepares (d := d) (s := s) (i := i) (o := o.toSetup) ⟨hasData,hasMemory,hasBuffer,add⟩
  have created : deviceCreate (prepared d s i a b pdata).ledger (d.devNumber i) o.deviceCreate = none := by
    rw [deviceCreate,if_neg (mt (preparedNode _).mp absent),create]
  refine ⟨pdata,a,b,atPdata,atData,atBuffer,?_⟩
  simp only [probeThen,prepares,createdFromCdev rest created]

theorem probeRefused (rest : State ι α → α → α → State ι α × Int32) (embedded : Embedded s.ledger)
    (fresh : o.Fresh s.ledger) (fails : ¬ Acquires d s i o) :
    ∃ t, ∃ ret : Errno, probeThen rest d s i o = (t,ret.val) ∧ Unmoved s t := by
  by_cases prepares : o.Prepares
  · obtain ⟨pdata,a,b,_,atData,atBuffer,answer⟩ := setupPrepares (d := d) (s := s) (i := i) prepares
    have freshData := fresh.1 a atData
    cases create : deviceCreate (prepared d s i a b pdata).ledger (d.devNumber i) o.deviceCreate with
    | none =>
      obtain ⟨hasData,hasMemory,hasBuffer,add⟩ := prepares
      obtain ⟨answers,absent⟩ := nodeCreated create
      exact absurd ⟨hasData,hasMemory,hasBuffer,add,answers,mt (preparedNode _).mpr absent⟩ fails
    | some ret =>
      refine ⟨_,ret,?_,storeUnmoved freshData ⟨pdata,b,d.devNumber i⟩⟩
      simp only [probeThen,answer,refusedFromCdev rest embedded freshData (fresh.2 b atBuffer) create]
  · obtain ⟨t,ret,answer,unmoved⟩ := setupRefused (d := d) (i := i) fresh prepares
    exact ⟨t,ret,by simp only [probeThen,answer],unmoved⟩

/- A probe either leaves everything as it was, by the labels of the source, or has
all four resources and goes on with what follows the counter. -/
theorem probeCases (rest : State ι α → α → α → State ι α × Int32) (embedded : Embedded s.ledger)
    (fresh : o.Fresh s.ledger) :
    (¬ Acquires d s i o ∧ ∃ t, ∃ ret : Errno, probeThen rest d s i o = (t,ret.val) ∧ Unmoved s t) ∨
    (Acquires d s i o ∧ ∃ a b pdata, o.devData = some a ∧ o.buffer = some b ∧
      probeThen rest d s i o = rest (installed d s i a b pdata) a b) := by
  by_cases acquires : Acquires d s i o
  · obtain ⟨pdata,a,b,_,atData,atBuffer,answer⟩ := probeInstalls rest acquires
    exact .inr ⟨acquires,a,b,pdata,atData,atBuffer,answer⟩
  · exact .inl ⟨acquires,probeRefused rest embedded fresh acquires⟩

theorem fromCdevBound {rest : State ι α → α → α → State ι α × Int32} (quiet : ∀ s a b, (rest s a b).1.bound = s.bound)
    (a b : α) (answer : Option Errno) : (probeFromCdev rest d s i a b answer).1.bound = s.bound := by
  unfold probeFromCdev
  split
  · rfl
  · exact quiet _ _ _

theorem probeBound {rest : State ι α → α → α → State ι α × Int32} (quiet : ∀ s a b, (rest s a b).1.bound = s.bound)
    (o : Outcome α) : (probeThen rest d s i o).1.bound = s.bound := by
  obtain ⟨⟨platformData,devData,buffer,cdevAdd⟩,create⟩ := o
  cases platformData with
  | none => rfl
  | some pdata => cases devData with
    | none => rfl
    | some a => cases buffer with
      | none => rfl
      | some b => cases cdevAdd with
        | some e => rfl
        | none => exact fromCdevBound quiet a b create

omit [DecidableEq α] in
theorem bindProbedBound (answer : State ι α × Int32) (j : ι) :
    j ∈ (bindProbed i answer).bound ↔ (j = i ∧ answer.2 = 0) ∨ j ∈ answer.1.bound := by
  unfold bindProbed
  split
  · rename_i success
    simp [State.bindTo,success]
  · rename_i failure
    simp [failure]

theorem probedBound {rest : State ι α → α → α → State ι α × Int32} (quiet : ∀ s a b, (rest s a b).1.bound = s.bound)
    (o : Outcome α) (j : ι) : j ∈ (bindProbed i (probeThen rest d s i o)).bound ↔
      (j = i ∧ (probeThen rest d s i o).2 = 0) ∨ j ∈ s.bound := by
  rw [bindProbedBound,probeBound quiet]

theorem unbindBound (j : ι) : j ∈ (unbind s i).bound ↔ j ≠ i ∧ j ∈ s.bound := by
  have kept : (pcdPlatformDriverRemove s i).bound = s.bound := by
    unfold pcdPlatformDriverRemove
    split
    · rfl
    · split <;> rfl
  simp only [unbind,kept,Finset.mem_erase]

end Calls

section Accounts
variable {ι α : Type}

def State.object (s : State ι α) (i : ι) : Option (PcdevPrivateData α) := (s.drvdata i).bind s.objects

/- The ledger between calls: everything held belongs to one bound device, through
its own drvdata, and every release so far was of something held. -/
structure Accounted (d : Driver ι) (s : State ι α) : Prop where
  exact : s.ledger.unheld = []
  devData : Corresponds s.bound (fun a => .devData a ∈ s.ledger.held) s.drvdata
  buffers : Corresponds s.bound (fun b => .buffer b ∈ s.ledger.held) fun i => (s.object i).map (·.buffer)
  cdevs : Corresponds s.bound (fun a => .cdev a ∈ s.ledger.held) s.drvdata
  nodes : Corresponds s.bound (fun n => .node n ∈ s.ledger.held) fun i => (s.object i).map (·.devNumber)
  numbered : ∀ i ∈ s.bound, (s.object i).map (·.devNumber) = some (d.devNumber i)
  total : s.totalDevices = Int32.ofNat s.bound.card
  nothingLeft : s.bound = ∅ → s.ledger.held = ∅

variable {d : Driver ι} {s t : State ι α}

theorem loadedAccounted (d : Driver ι) : Accounted d (loaded : State ι α) where
  exact := rfl
  devData := by simpa [loaded] using correspondsNone _
  buffers := by simpa [loaded] using correspondsNone _
  cdevs := by simpa [loaded] using correspondsNone _
  nodes := by simpa [loaded] using correspondsNone _
  numbered i mem := by simp [loaded] at mem
  total := rfl
  nothingLeft _ := rfl

theorem accountedEmbedded (accounted : Accounted d s) : Embedded s.ledger := by
  intro a registered
  obtain ⟨i,mem,own⟩ := accounted.cdevs.only a registered
  obtain ⟨x,own',alive⟩ := accounted.devData.each i mem
  rw [own] at own'
  exact Option.some.inj own' ▸ alive

theorem unmovedObject (accounted : Accounted d s) (unmoved : Unmoved s t) {i : ι} (mem : i ∈ s.bound) :
    t.object i = s.object i := by
  obtain ⟨a,own,alive⟩ := accounted.devData.each i mem
  simp only [State.object,unmoved.drvdata,own,Option.bind_some,unmoved.objects a alive]

theorem unmovedAccounted (accounted : Accounted d s) (unmoved : Unmoved s t) : Accounted d t := by
  have same : ∀ i ∈ s.bound, t.object i = s.object i := fun i => unmovedObject accounted unmoved
  obtain ⟨ledger,drvdata,total,bound,_⟩ := unmoved
  refine ⟨?_,?_,?_,?_,?_,?_,?_,?_⟩
  · rw [ledger]; exact accounted.exact
  · rw [ledger,drvdata,bound]; exact accounted.devData
  · rw [ledger,bound]
    exact correspondsCongr accounted.buffers (fun i mem => by rw [same i mem])
  · rw [ledger,drvdata,bound]; exact accounted.cdevs
  · rw [ledger,bound]
    exact correspondsCongr accounted.nodes (fun i mem => by rw [same i mem])
  · rw [bound]
    intro i mem
    rw [same i mem]
    exact accounted.numbered i mem
  · rw [total,bound]; exact accounted.total
  · rw [ledger,bound]; exact accounted.nothingLeft

structure Owns (s : State ι α) (i : ι) (a : α) (data : PcdevPrivateData α) : Prop where
  drvdata : s.drvdata i = some a
  object : s.object i = some data
  devData : .devData a ∈ s.ledger.held
  buffer : .buffer data.buffer ∈ s.ledger.held
  cdev : .cdev a ∈ s.ledger.held
  node : .node data.devNumber ∈ s.ledger.held

theorem boundOwns (accounted : Accounted d s) {i : ι} (mem : i ∈ s.bound) : ∃ a data, Owns s i a data := by
  obtain ⟨a,own,alive⟩ := accounted.devData.each i mem
  obtain ⟨b,buffer,liveBuffer⟩ := accounted.buffers.each i mem
  obtain ⟨n,number,liveNode⟩ := accounted.nodes.each i mem
  obtain ⟨c,cdev,registered⟩ := accounted.cdevs.each i mem
  cases Option.some.inj (own.symm.trans cdev)
  obtain ⟨data,object,rfl⟩ := Option.map_eq_some_iff.mp buffer
  rw [object,Option.map_some] at number
  cases Option.some.inj number
  exact ⟨a,data,own,object,alive,liveBuffer,registered,liveNode⟩

theorem boundNode (accounted : Accounted d s) (n : UInt32) :
    .node n ∈ s.ledger.held ↔ ∃ i ∈ s.bound, d.devNumber i = n := by
  constructor
  · intro live
    obtain ⟨i,mem,number⟩ := accounted.nodes.only n live
    exact ⟨i,mem,Option.some.inj ((accounted.numbered i mem).symm.trans number)⟩
  · rintro ⟨i,mem,rfl⟩
    obtain ⟨n,number,live⟩ := accounted.nodes.each i mem
    cases Option.some.inj ((accounted.numbered i mem).symm.trans number)
    exact live

theorem emptyLedger {owners : Finset ι} {held : Finset (Resource α)} {f g : ι → Option α} {h : ι → Option UInt32}
    (devData : Corresponds owners (fun a => .devData a ∈ held) f)
    (buffers : Corresponds owners (fun b => .buffer b ∈ held) g)
    (cdevs : Corresponds owners (fun a => .cdev a ∈ held) f)
    (nodes : Corresponds owners (fun n => .node n ∈ held) h) (none_ : owners = ∅) : held = ∅ := by
  subst none_
  refine Finset.eq_empty_of_forall_notMem (fun r mem => ?_)
  cases r with
  | devData a => obtain ⟨i,impossible,_⟩ := devData.only a mem; cases impossible
  | buffer b => obtain ⟨i,impossible,_⟩ := buffers.only b mem; cases impossible
  | cdev a => obtain ⟨i,impossible,_⟩ := cdevs.only a mem; cases impossible
  | node n => obtain ⟨i,impossible,_⟩ := nodes.only n mem; cases impossible

variable [DecidableEq ι] [DecidableEq α]

theorem installedAccounted (accounted : Accounted d s) {i : ι} {a b : α} (new : i ∉ s.bound)
    (freshData : .devData a ∉ s.ledger.held) (freshBuffer : .buffer b ∉ s.ledger.held)
    (freshNode : .node (d.devNumber i) ∉ s.ledger.held) (pdata : PcdevPlatformData) :
    Accounted d ((installed d s i a b pdata).bindTo i) := by
  have freshCdev : .cdev a ∉ s.ledger.held := fun held => freshData (accountedEmbedded accounted a held)
  have apart : ∀ j ∈ s.bound, j ≠ i := by
    rintro j mem rfl
    exact new mem
  have own : ∀ j ∈ s.bound, Function.update s.drvdata i (some a) j = s.drvdata j :=
    fun j mem => Function.update_of_ne (apart j mem) ..
  have kept : ∀ j ∈ s.bound, ((installed d s i a b pdata).bindTo i).object j = s.object j := by
    intro j mem
    obtain ⟨x,at_,alive⟩ := accounted.devData.each j mem
    have other : x ≠ a := fun same => freshData (same ▸ alive)
    simp only [State.object,State.bindTo,installed,own j mem,at_,Option.bind_some,
      Function.update_of_ne other]
  have here : ((installed d s i a b pdata).bindTo i).object i = some ⟨pdata,b,d.devNumber i⟩ := by
    simp only [State.object,State.bindTo,installed,Function.update_self,Option.bind_some]
  have devData : Corresponds (insert i s.bound) (fun x => .devData x ∈ (installed d s i a b pdata).ledger.held)
      (Function.update s.drvdata i (some a)) :=
    correspondsInsert accounted.devData new freshData (Function.update_self ..) own
      (fun x => by simp [installed])
  have buffers : Corresponds (insert i s.bound) (fun x => .buffer x ∈ (installed d s i a b pdata).ledger.held)
      (fun j => (((installed d s i a b pdata).bindTo i).object j).map (·.buffer)) :=
    correspondsInsert accounted.buffers new freshBuffer (by rw [here]; rfl) (fun j mem => by rw [kept j mem])
      (fun x => by simp [installed])
  have cdevs : Corresponds (insert i s.bound) (fun x => .cdev x ∈ (installed d s i a b pdata).ledger.held)
      (Function.update s.drvdata i (some a)) :=
    correspondsInsert accounted.cdevs new freshCdev (Function.update_self ..) own
      (fun x => by simp [installed])
  have nodes : Corresponds (insert i s.bound) (fun x => .node x ∈ (installed d s i a b pdata).ledger.held)
      (fun j => (((installed d s i a b pdata).bindTo i).object j).map (·.devNumber)) :=
    correspondsInsert accounted.nodes new freshNode (by rw [here]; rfl) (fun j mem => by rw [kept j mem])
      (fun x => by simp [installed])
  refine ⟨accounted.exact,devData,buffers,cdevs,nodes,fun j mem => ?_,?_,emptyLedger devData buffers cdevs nodes⟩
  · rcases Finset.mem_insert.mp mem with rfl | old
    · rw [here]; rfl
    · rw [kept j old]
      exact accounted.numbered j old
  · change s.totalDevices + 1 = Int32.ofNat (insert i s.bound).card
    rw [Finset.card_insert_of_notMem new,Int32.ofNat_add,accounted.total]
    rfl

def remaining (held : Finset (Resource α)) (a : α) (data : PcdevPrivateData α) : Finset (Resource α) :=
  (((held.erase (.node data.devNumber)).erase (.cdev a)).erase (.buffer data.buffer)).erase (.devData a)

@[simp] theorem memRemaining {held : Finset (Resource α)} {a : α} {data : PcdevPrivateData α} {r : Resource α} :
    r ∈ remaining held a data ↔ r ≠ .devData a ∧ r ≠ .buffer data.buffer ∧ r ≠ .cdev a ∧
      r ≠ .node data.devNumber ∧ r ∈ held := by
  simp only [remaining,Finset.mem_erase]

theorem removeReleases {i : ι} {a : α} {data : PcdevPrivateData α} (owns : Owns s i a data) :
    unbind s i = { s with
      ledger := ⟨remaining s.ledger.held a data,s.ledger.unheld⟩
      totalDevices := s.totalDevices - 1
      bound := s.bound.erase i } := by
  have object : s.objects a = some data := by simpa [State.object,owns.drvdata] using owns.object
  have cdev : .cdev a ∈ s.ledger.held.erase (.node data.devNumber) := by simp [owns.cdev]
  have buffer : .buffer data.buffer ∈ (s.ledger.held.erase (.node data.devNumber)).erase (.cdev a) := by
    simp [owns.buffer]
  have memory : .devData a ∈ ((s.ledger.held.erase (.node data.devNumber)).erase (.cdev a)).erase
      (.buffer data.buffer) := by simp [owns.devData]
  simp only [unbind,pcdPlatformDriverRemove,owns.drvdata,object,State.drop,releaseHeld s.ledger owns.node]
  rw [releaseEntry cdev,releaseEntry buffer,releaseEntry memory,remaining]

theorem removedAccounted (accounted : Accounted d s) {i : ι} (mem : i ∈ s.bound) :
    Accounted d (unbind s i) := by
  obtain ⟨a,data,owns⟩ := boundOwns accounted mem
  rw [removeReleases owns]
  have buffer : (s.object i).map (·.buffer) = some data.buffer := by rw [owns.object]; rfl
  have number : (s.object i).map (·.devNumber) = some data.devNumber := by rw [owns.object]; rfl
  have devData : Corresponds (s.bound.erase i) (fun x => .devData x ∈ remaining s.ledger.held a data) s.drvdata :=
    correspondsErase accounted.devData mem owns.drvdata (fun _ _ _ => rfl) (fun x => by simp)
  have buffers : Corresponds (s.bound.erase i) (fun x => .buffer x ∈ remaining s.ledger.held a data)
      (fun j => (s.object j).map (·.buffer)) :=
    correspondsErase accounted.buffers mem buffer (fun _ _ _ => rfl) (fun x => by simp)
  have cdevs : Corresponds (s.bound.erase i) (fun x => .cdev x ∈ remaining s.ledger.held a data) s.drvdata :=
    correspondsErase accounted.cdevs mem owns.drvdata (fun _ _ _ => rfl) (fun x => by simp)
  have nodes : Corresponds (s.bound.erase i) (fun x => .node x ∈ remaining s.ledger.held a data)
      (fun j => (s.object j).map (·.devNumber)) :=
    correspondsErase accounted.nodes mem number (fun _ _ _ => rfl) (fun x => by simp)
  refine ⟨accounted.exact,devData,buffers,cdevs,nodes,fun j left => ?_,?_,emptyLedger devData buffers cdevs nodes⟩
  · exact accounted.numbered j (Finset.mem_of_mem_erase left)
  · change s.totalDevices - 1 = Int32.ofNat (s.bound.erase i).card
    rw [accounted.total,← Finset.card_erase_add_one mem,Int32.ofNat_add]
    exact Int32.add_sub_cancel ..

theorem probeObjects (accounted : Accounted d s) {i : ι} {o : Outcome α} (allowed : Allowed s (.probe i o)) :
    ∀ j ∈ (next d s (.probe i o)).bound, (j ∈ s.bound ∧ (next d s (.probe i o)).object j = s.object j) ∨
      (j = i ∧ Acquires d s i o ∧ ((next d s (.probe i o)).object j).map (·.pdata) = o.platformData) := by
  intro j mem
  have embedded := accountedEmbedded accounted
  by_cases acquires : Acquires d s i o
  · obtain ⟨pdata,a,b,atPdata,atData,_,answer⟩ := probeInstalls (fun s _ _ => (s,0)) acquires
    have done : next d s (.probe i o) = (installed d s i a b pdata).bindTo i := by
      simp only [next,pcdPlatformDriverProbe,answer,bindProbed,if_true]
    rw [done] at mem ⊢
    by_cases same : j = i
    · subst same
      refine .inr ⟨rfl,acquires,?_⟩
      simp only [State.object,State.bindTo,installed,Function.update_self,Option.bind_some,Option.map_some,atPdata]
    · have old : j ∈ s.bound := (Finset.mem_insert.mp mem).resolve_left same
      obtain ⟨x,own,alive⟩ := accounted.devData.each j old
      have other : x ≠ a := fun here => allowed.2.1 a atData (here ▸ alive)
      refine .inl ⟨old,?_⟩
      simp only [State.object,State.bindTo,installed,Function.update_of_ne same,own,Option.bind_some,
        Function.update_of_ne other]
  · obtain ⟨t,ret,answer,unmoved⟩ := probeRefused (fun s _ _ => (s,0)) embedded allowed.2 acquires
    have done : next d s (.probe i o) = t := by
      simp only [next,pcdPlatformDriverProbe,answer,bindProbed,errnoNonzero ret,if_false]
    rw [done] at mem ⊢
    rw [unmoved.bound] at mem
    exact .inl ⟨mem,unmovedObject accounted unmoved mem⟩

theorem removeObjects (accounted : Accounted d s) {i : ι} (allowed : Allowed s (.remove i : Event ι α)) :
    (next d s (.remove i)).bound = s.bound.erase i ∧
    ∀ j, (next d s (.remove i)).object j = s.object j := by
  obtain ⟨a,data,owns⟩ := boundOwns accounted allowed
  rw [next,removeReleases owns]
  exact ⟨rfl,fun _ => rfl⟩

theorem stepAccounted {e : Event ι α} (step : Step d s e t) (accounted : Accounted d s) : Accounted d t := by
  obtain ⟨allowed,rfl⟩ := step
  cases e with
  | probe i o =>
    obtain ⟨new,fresh⟩ := allowed
    rcases probeCases (fun s _ _ => (s,0)) (d := d) (i := i) (accountedEmbedded accounted) fresh with
      ⟨_,u,ret,answer,unmoved⟩ | ⟨acquires,a,b,pdata,atData,atBuffer,answer⟩
    · simp only [next,pcdPlatformDriverProbe,answer,bindProbed,errnoNonzero ret,if_false]
      exact unmovedAccounted accounted unmoved
    · simp only [next,pcdPlatformDriverProbe,answer,bindProbed,if_true]
      exact installedAccounted accounted new (fresh.1 a atData) (fresh.2 b atBuffer) acquires.2.2.2.2.2 pdata
  | remove i => exact removedAccounted accounted allowed

def ProbeAnswered (d : Driver ι) (i : ι) (tr : Transition (State ι α) (Event ι α)) : Prop :=
  ∃ o, tr.label = .probe i o ∧ (pcdPlatformDriverProbe d tr.before i o).2 = 0

def Removed (i : ι) (tr : Transition (State ι α) (Event ι α)) : Prop := tr.label = .remove i

theorem boundMoves (e : Event ι α) (j : ι) : j ∈ (next d s e).bound ↔
    ProbeAnswered d j ⟨s,e,next d s e⟩ ∨ (j ∈ s.bound ∧ ¬ Removed j ⟨s,e,next d s e⟩) := by
  cases e with
  | probe i o =>
    have here : ProbeAnswered d j ⟨s,.probe i o,next d s (.probe i o)⟩ ↔
        j = i ∧ (pcdPlatformDriverProbe d s i o).2 = 0 := by
      constructor
      · rintro ⟨o',label,success⟩
        cases label
        exact ⟨rfl,success⟩
      · rintro ⟨rfl,success⟩
        exact ⟨o,rfl,success⟩
    have after : j ∈ (next d s (.probe i o)).bound ↔
        (j = i ∧ (pcdPlatformDriverProbe d s i o).2 = 0) ∨ j ∈ s.bound := probedBound (fun _ _ _ => rfl) o j
    rw [here,after]
    simp [Removed]
  | remove i =>
    have after : j ∈ (next d s (.remove i)).bound ↔ _ := unbindBound j
    rw [after]
    simp [ProbeAnswered,Removed,and_comm,eq_comm]

/- Between any two calls the ledger is that of the devices whose last probe answered 0
and that have not been removed since. -/
theorem probesAndRemovesAccounted (d : Driver ι) {log t} (run : Run (Step d) (loaded : State ι α) log t) :
    Accounted d t ∧ ∀ i, i ∈ t.bound ↔ Since (ProbeAnswered d i) (Removed i) log := by
  refine ⟨runKeeps (Accounted d) stepAccounted run (loadedAccounted d),fun i => ?_⟩
  have since := runSince (ProbeAnswered d i) (Removed i) (fun s => i ∈ s.bound)
    (fun step => step.taken ▸ boundMoves _ i) run
  simpa [loaded] using since

end Accounts

def twoDevices : Driver Bool := ⟨0x0fe00000,fun i => if i then 0 else 1⟩

def granted (a b : Nat) : Outcome Nat := ⟨⟨some ⟨512,0x11,"PCDEV_5033"⟩,some a,some b,none⟩,none⟩

theorem failedProbeRetried :
    ∃ log t, Run (Step twoDevices) (loaded : State Bool Nat) log t ∧ t.totalDevices = 0 ∧ t.ledger.held = ∅ ∧
      Accounted twoDevices t ∧ ∀ i, i ∈ t.bound ↔ Since (ProbeAnswered twoDevices i) (Removed i) log := by
  have run : Run (Step twoDevices) (loaded : State Bool Nat) _ _ :=
    .cons (a := .probe true (granted 0 1)) ⟨by decide,rfl⟩
      (.cons (a := .probe false { granted 2 3 with deviceCreate := some enomem }) ⟨by decide,rfl⟩
        (.cons (a := .probe false (granted 2 3)) ⟨by decide,rfl⟩
          (.cons (a := .remove true) ⟨by decide,rfl⟩ (.cons (a := .remove false) ⟨by decide,rfl⟩ (.nil _)))))
  have accounted := probesAndRemovesAccounted twoDevices run
  exact ⟨_,_,run,by decide,accounted.1.nothingLeft (by decide),accounted⟩

end KernelFacilities.PlatformDriver
