import KernelFacilities.Ledgers
import KernelFacilities.MachineIntegers
import KernelFacilities.Runs

/-! Loading and unloading the single-device driver (002; spinlock/char_driver.c
repeats the same init and exit). What every kernel call answers is an input, apart
from class_create, which also refuses a name that is still registered. The label
class_del of the source destroys the device once more and leaves the class. -/
namespace KernelFacilities.CharDriverLoad
open KernelErrors Ledgers Runs

inductive Registration where
  | chrdevRegion
  | cdev
  | class_
  | device
  deriving DecidableEq

abbrev everything : Finset Registration := {.device,.class_,.cdev,.chrdevRegion}

structure Outcomes where
  allocChrdevRegion : Option Errno
  cdevAdd : Option Errno
  classCreate : Option Errno
  deviceCreate : Option Errno

def classCreate (l : Ledger Registration) (answer : Option Errno) : Option Errno :=
  if .class_ ∈ l.held then some eexist else answer

section Init
variable (l : Ledger Registration) (ret : Errno)

def out : Ledger Registration × Int32 := (l,ret.val)
def unregisterChrdev : Ledger Registration × Int32 := out (l.release .chrdevRegion) ret
def cdevDel : Ledger Registration × Int32 := unregisterChrdev (l.release .cdev) ret
def classDel : Ledger Registration × Int32 := cdevDel (l.release .device) ret

end Init

def pcdDriverInit (o : Outcomes) (l : Ledger Registration) : Ledger Registration × Int32 :=
  match o.allocChrdevRegion with
  | some ret => out l ret
  | none =>
    let l := l.acquire .chrdevRegion
    match o.cdevAdd with
    | some ret => unregisterChrdev l ret
    | none =>
      let l := l.acquire .cdev
      match classCreate l o.classCreate with
      | some ret => cdevDel l ret
      | none =>
        let l := l.acquire .class_
        match o.deviceCreate with
        | some ret => classDel l ret
        | none => (l.acquire .device,0)

def pcdDriverExit (l : Ledger Registration) : Ledger Registration :=
  (((l.release .device).release .class_).release .cdev).release .chrdevRegion

structure Module where
  ledger : Ledger Registration
  loaded : Bool

inductive Event where
  | load (o : Outcomes)
  | unload

def next (m : Module) : Event → Module
  | .load o =>
      if m.loaded then m
      else ⟨(pcdDriverInit o m.ledger).1,decide ((pcdDriverInit o m.ledger).2 = 0)⟩
  | .unload => if m.loaded then ⟨pcdDriverExit m.ledger,false⟩ else m

def fresh : Module := ⟨clear,false⟩

def Succeeds (o : Outcomes) : Prop :=
  o.allocChrdevRegion = none ∧ o.cdevAdd = none ∧ o.classCreate = none ∧ o.deviceCreate = none

def OnlyDeviceFails (o : Outcomes) : Prop :=
  o.allocChrdevRegion = none ∧ o.cdevAdd = none ∧ o.classCreate = none ∧ o.deviceCreate ≠ none

structure Clean (tr : Transition Module Event) : Prop where
  empty : tr.after.loaded = false → tr.after.ledger.held = ∅
  exact : tr.after.ledger.unheld = []
  unhindered : ∀ o, tr.label = .load o → tr.before.loaded = false →
    (tr.after.loaded = true ↔ Succeeds o)

def DeviceNeverFailsAlone (m : Module) : Event → Prop
  | .load o => m.loaded = false → ¬ OnlyDeviceFails o
  | .unload => True

structure Sound (m : Module) : Prop where
  idle : m.loaded = false → m.ledger = clear
  full : m.loaded = true → m.ledger = ⟨everything,[]⟩

theorem initClean (o : Outcomes) (undone : ¬ OnlyDeviceFails o) :
    (Succeeds o ∧ pcdDriverInit o clear = (⟨everything,[]⟩,0)) ∨
    (¬ Succeeds o ∧ ∃ e : Errno, pcdDriverInit o clear = (clear,e.val)) := by
  obtain ⟨alloc,add,create,device⟩ := o
  cases alloc with
  | some e => exact .inr ⟨by simp [Succeeds],e,rfl⟩
  | none => cases add with
    | some e => exact .inr ⟨by simp [Succeeds],e,rfl⟩
    | none => cases create with
      | some e => exact .inr ⟨by simp [Succeeds],e,rfl⟩
      | none => cases device with
        | some e => exact absurd ⟨rfl,rfl,rfl,by simp⟩ undone
        | none => exact .inl ⟨⟨rfl,rfl,rfl,rfl⟩,rfl⟩

theorem initLeaks {o : Outcomes} (only : OnlyDeviceFails o) :
    ∃ e : Errno, pcdDriverInit o clear = (⟨{.class_},[.device]⟩,e.val) := by
  obtain ⟨alloc,add,create,device⟩ := o
  obtain ⟨rfl,rfl,rfl,fails⟩ := only
  cases device with
  | none => exact absurd rfl fails
  | some e => exact ⟨e,rfl⟩

theorem exitClears : pcdDriverExit ⟨everything,[]⟩ = clear := by rfl

theorem loadNext {o : Outcomes} {m : Module} (sound : Sound m) (idle : m.loaded = false) :
    next m (.load o) = ⟨(pcdDriverInit o clear).1,decide ((pcdDriverInit o clear).2 = 0)⟩ := by
  simp only [next,idle,sound.idle idle,Bool.false_eq_true,if_false]

theorem loadClean {o : Outcomes} {m : Module} (sound : Sound m) (idle : m.loaded = false) :
    Clean ⟨m,.load o,next m (.load o)⟩ ↔ ¬ OnlyDeviceFails o := by
  rw [loadNext sound idle]
  constructor
  · intro clean only
    obtain ⟨e,leaks⟩ := initLeaks only
    have exact := clean.exact
    simp [leaks] at exact
  · intro undone
    rcases initClean o undone with ⟨succeeds,done⟩ | ⟨fails,e,done⟩
    · rw [done]
      refine ⟨fun unloaded => by simp at unloaded,rfl,fun o' label _ => ?_⟩
      cases label
      simp [succeeds]
    · rw [done]
      refine ⟨fun _ => rfl,rfl,fun o' label _ => ?_⟩
      cases label
      simp [errnoNonzero e,fails]

theorem stepClean {m : Module} (sound : Sound m) (e : Event) :
    Clean ⟨m,e,next m e⟩ ↔ DeviceNeverFailsAlone m e := by
  cases loaded : m.loaded with
  | false =>
    cases e with
    | load o => simp only [loadClean sound loaded,DeviceNeverFailsAlone,loaded,true_implies]
    | unload =>
      refine ⟨fun _ => trivial,fun _ => ⟨?_,?_,fun o label => by cases label⟩⟩
      · simp [next,loaded,sound.idle loaded]
      · simp [next,loaded,sound.idle loaded]
  | true =>
    cases e with
    | load o =>
      refine ⟨fun _ => ?_,fun _ => ⟨?_,?_,fun o' label idle => ?_⟩⟩
      · simp [DeviceNeverFailsAlone,loaded]
      · simp [next,loaded]
      · simp [next,loaded,sound.full loaded]
      · simp [loaded] at idle
    | unload =>
      refine ⟨fun _ => trivial,fun _ => ⟨?_,?_,fun o label => by cases label⟩⟩
      · simp [next,loaded,sound.full loaded,exitClears]
      · simp [next,loaded,sound.full loaded,exitClears]

theorem stepSound {m : Module} (sound : Sound m) {e : Event} (met : DeviceNeverFailsAlone m e) :
    Sound (next m e) := by
  cases loaded : m.loaded with
  | false =>
    cases e with
    | load o =>
      rw [loadNext sound loaded]
      rcases initClean o (met loaded) with ⟨_,done⟩ | ⟨_,e,done⟩
      · rw [done]
        exact ⟨fun unloaded => by simp at unloaded,fun _ => rfl⟩
      · rw [done]
        exact ⟨fun _ => rfl,fun loaded => by simp [errnoNonzero e] at loaded⟩
    | unload => simpa only [next,loaded,Bool.false_eq_true,if_false] using sound
  | true =>
    cases e with
    | load o => simpa only [next,loaded,if_true] using sound
    | unload =>
      simp only [next,loaded,if_true,sound.full loaded,exitClears]
      exact ⟨fun _ => rfl,fun loaded => by simp at loaded⟩

theorem loadsLeaveNothing (events : List Event) :
    (∀ tr ∈ trace next fresh events, Clean tr) ↔
      ∀ tr ∈ trace next fresh events, DeviceNeverFailsAlone tr.before tr.label := by
  have start : Sound fresh := ⟨fun _ => rfl,fun loaded => by cases loaded⟩
  exact traceExact Sound DeviceNeverFailsAlone (fun _ e sound => stepClean sound e)
    (fun _ e sound clean => stepSound sound ((stepClean sound e).mp clean)) events start

theorem deviceFailureBlocksReload :
    ¬ ∀ tr ∈ trace next fresh [.load ⟨none,none,none,some enomem⟩,.load ⟨none,none,none,none⟩], Clean tr := by
  intro clean
  have second := clean ⟨⟨⟨{.class_},[.device]⟩,false⟩,.load ⟨none,none,none,none⟩,
    ⟨⟨{.class_},[.device]⟩,false⟩⟩ (.tail _ (.head _))
  have loads := (second.unhindered _ rfl rfl).mpr ⟨rfl,rfl,rfl,rfl⟩
  cases loads

/- What a device_create that failed alone leaves: the class, whose name then refuses
every load. The device number and the cdev of such a load are given back each time. -/
section Lockout

def up : Module := ⟨⟨everything,[]⟩,true⟩

def leaked : Module := ⟨⟨{.class_},[.device]⟩,false⟩

theorem leakedInit (o : Outcomes) : ∃ e : Errno, pcdDriverInit o ⟨{.class_},[.device]⟩ = (⟨{.class_},[.device]⟩,e.val) := by
  obtain ⟨alloc,add,create,device⟩ := o
  cases alloc with
  | some e => exact ⟨e,rfl⟩
  | none => cases add with
    | some e => exact ⟨e,rfl⟩
    | none => exact ⟨eexist,rfl⟩

theorem leakedStays (later : List Event) : later.foldl next leaked = leaked := by
  induction later with
  | nil => rfl
  | cons e rest ih =>
    have here : next leaked e = leaked := by
      cases e with
      | load o =>
        obtain ⟨e,refused⟩ := leakedInit o
        have failed : e.val ≠ 0 := errnoNonzero e
        simp only [next,leaked,Bool.false_eq_true,if_false,refused,failed,decide_false]
      | unload => rfl
    rw [List.foldl_cons,here,ih]

theorem notSoundLeaked : ¬ Sound leaked := by
  intro sound
  exact absurd (congrArg Ledger.unheld (sound.idle rfl)) (by simp [leaked])

theorem soundStates {m : Module} (sound : Sound m) : m = fresh ∨ m = up := by
  obtain ⟨ledger,loaded⟩ := m
  cases loaded with
  | false => exact .inl (congrArg (Module.mk · false) (sound.idle rfl))
  | true => exact .inr (congrArg (Module.mk · true) (sound.full rfl))

theorem stepLeaks {m : Module} (sound : Sound m) {e : Event} (unmet : ¬ DeviceNeverFailsAlone m e) :
    next m e = leaked := by
  cases e with
  | unload => exact absurd trivial unmet
  | load o =>
    simp only [DeviceNeverFailsAlone,Classical.not_imp,Classical.not_not] at unmet
    obtain ⟨idle,only⟩ := unmet
    obtain ⟨e,leaks⟩ := initLeaks only
    have failed : e.val ≠ 0 := errnoNonzero e
    simp only [loadNext sound idle,leaks,failed,decide_false,leaked]

theorem historyFrom {m : Module} (sound : Sound m) (events : List Event) :
    (events.foldl next m = leaked ∧ ∃ tr ∈ trace next m events, ¬ DeviceNeverFailsAlone tr.before tr.label) ∨
    (Sound (events.foldl next m) ∧ ∀ tr ∈ trace next m events, DeviceNeverFailsAlone tr.before tr.label) := by
  induction events generalizing m with
  | nil => exact .inr ⟨sound,by simp [trace]⟩
  | cons e rest ih =>
    by_cases met : DeviceNeverFailsAlone m e
    · rcases ih (stepSound sound met) with ⟨ends,tr,mem,unmet⟩ | ⟨kept,all⟩
      · exact .inl ⟨ends,tr,List.mem_cons_of_mem _ mem,unmet⟩
      · exact .inr ⟨kept,List.forall_mem_cons.mpr ⟨met,all⟩⟩
    · refine .inl ⟨?_,_,List.mem_cons_self,met⟩
      rw [List.foldl_cons,stepLeaks sound met,leakedStays]

/- Every history of loads and unloads leaves the module in one of three states, and
in the third, which is for ever, exactly if a device_create failed alone in it. -/
theorem historiesEnd (events : List Event) :
    (events.foldl next fresh = fresh ∨ events.foldl next fresh = up ∨ events.foldl next fresh = leaked) ∧
    (events.foldl next fresh = leaked ↔
      ∃ tr ∈ trace next fresh events, ¬ DeviceNeverFailsAlone tr.before tr.label) ∧
    (events.foldl next fresh = leaked → ∀ later, (events ++ later).foldl next fresh = leaked) := by
  have start : Sound fresh := ⟨fun _ => rfl,fun loaded => by cases loaded⟩
  refine ⟨?_,⟨fun ends => ?_,?_⟩,fun ends later => by rw [List.foldl_append,ends,leakedStays]⟩
  · rcases historyFrom start events with ⟨ends,_⟩ | ⟨sound,_⟩
    · exact .inr (.inr ends)
    · exact (soundStates sound).imp_right .inl
  · rcases historyFrom start events with ⟨_,leaks⟩ | ⟨sound,_⟩
    · exact leaks
    · exact absurd (ends ▸ sound) notSoundLeaked
  · rintro ⟨tr,mem,unmet⟩
    rcases historyFrom start events with ⟨ends,_⟩ | ⟨_,all⟩
    · exact ends
    · exact absurd (all tr mem) unmet

end Lockout

end KernelFacilities.CharDriverLoad
