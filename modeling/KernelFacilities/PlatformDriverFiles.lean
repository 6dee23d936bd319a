import KernelFacilities.PlatformDriver

/-! Open files over the platform driver (004). A device can be opened as soon as its
probe has done cdev_add, by the number its cdev is registered under; device_create
may still fail then, and other devices are probed and removed meanwhile. An open
file keeps the address of the registered cdev it was opened through until it is
closed; pcd_open and pcd_release answer 0 and touch nothing. The kernel lets remove
run while files are open. An open that falls inside of remove or of the labels
finds the cdev before cdev_del or not at all, so both are one event. -/
namespace KernelFacilities.PlatformDriverFiles
open KernelErrors Ledgers PlatformDriver Runs

structure System (ι α : Type) where
  driver : State ι α
  probing : ι → Option (α × α)
  files : List (Option α)

inductive Event (ι α : Type) where
  | probe (i : ι) (o : Setup α)
  | deviceCreate (i : ι) (answer : Option Errno)
  | remove (i : ι)
  | open (cdev : α)
  | close (file : Nat)

variable {ι α : Type} [DecidableEq ι] [DecidableEq α]

def probe (d : Driver ι) (s : System ι α) (i : ι) (o : Setup α) : System ι α :=
  match probeToCdev d s.driver i o with
  | (driver,.error _) => { s with driver := driver }
  | (driver,.ok addresses) => { s with driver := driver, probing := Function.update s.probing i (some addresses) }

def finish (d : Driver ι) (s : System ι α) (i : ι) (answer : Option Errno) : System ι α :=
  match s.probing i with
  | none => s
  | some (a,b) => { s with
      driver := bindProbed i (probeFromCdev (fun s _ _ => (s,0)) d s.driver i a b answer)
      probing := Function.update s.probing i none }

def next (d : Driver ι) (s : System ι α) : Event ι α → System ι α
  | .probe i o => probe d s i o
  | .deviceCreate i answer => finish d s i answer
  | .remove i => { s with driver := unbind s.driver i }
  | .open cdev => { s with files := s.files ++ [some cdev] }
  | .close file => { s with files := s.files.set file none }

def Allowed (s : System ι α) : Event ι α → Prop
  | .probe i o => i ∉ s.driver.bound ∧ s.probing i = none ∧ o.Fresh s.driver.ledger
  | .deviceCreate i _ => (s.probing i).isSome
  | .remove i => i ∈ s.driver.bound
  | .open cdev => .cdev cdev ∈ s.driver.ledger.held
  | .close file => (s.files[file]?).join.isSome

instance (s : System ι α) (e) : Decidable (Allowed s e) := by cases e <;> unfold Allowed <;> infer_instance

structure Step (d : Driver ι) (s : System ι α) (e : Event ι α) (t : System ι α) : Prop where
  allowed : Allowed s e
  taken : t = next d s e

def empty : System ι α := ⟨loaded,fun _ => none,[]⟩

def KeptWhileOpen (tr : Transition (System ι α) (Event ι α)) : Prop :=
  ∀ a, some a ∈ tr.before.files → .devData a ∈ tr.after.driver.ledger.held

/- The device of an open file goes away: it is removed, or the probe it was opened
under gets no device node. -/
def FreesWhileOpen (d : Driver ι) (s : System ι α) : Event ι α → Prop
  | .remove i => ∃ a, s.driver.drvdata i = some a ∧ some a ∈ s.files
  | .deviceCreate i answer => ∃ a b, s.probing i = some (a,b) ∧ some a ∈ s.files ∧
      deviceCreate s.driver.ledger (d.devNumber i) answer ≠ none
  | _ => False

structure Sound (s : System ι α) : Prop where
  embedded : Embedded s.driver.ledger
  bound : ∀ i ∈ s.driver.bound, ∃ a, s.driver.drvdata i = some a ∧ (s.driver.objects a).isSome
  probing : ∀ i a b, s.probing i = some (a,b) → (s.driver.objects a).isSome
  alive : ∀ a, some a ∈ s.files → .devData a ∈ s.driver.ledger.held

structure Freed (a : α) (l l' : Ledger (Resource α)) : Prop where
  devData : ∀ x, .devData x ∈ l'.held ↔ x ≠ a ∧ .devData x ∈ l.held
  cdev : ∀ x, .cdev x ∈ l'.held ↔ x ≠ a ∧ .cdev x ∈ l.held

section Frees
variable {a b : α} {l l' : Ledger (Resource α)}

omit [DecidableEq ι] in
theorem labelsFree (s : State ι α) (ret : Errno) : Freed a s.ledger (cdevDeletion s a b ret).1.ledger := by
  have ledger : (cdevDeletion s a b ret).1.ledger =
      ((s.ledger.release (.cdev a)).release (.buffer b)).release (.devData a) := rfl
  constructor <;> intro x <;> simp [ledger,memRelease]

theorem removeFrees {s : State ι α} {i : ι} (own : s.drvdata i = some a) (object : (s.objects a).isSome) :
    Freed a s.ledger (unbind s i).ledger := by
  obtain ⟨data,object⟩ := Option.isSome_iff_exists.mp object
  have ledger : (unbind s i).ledger = (((s.ledger.release (.node data.devNumber)).release (.cdev a)).release
      (.buffer data.buffer)).release (.devData a) := by
    simp only [unbind,pcdPlatformDriverRemove,own,object]
    rfl
  constructor <;> intro x <;> simp [ledger,memRelease]

theorem unbindKeeps (s : State ι α) (i : ι) : (unbind s i).drvdata = s.drvdata ∧ (unbind s i).objects = s.objects := by
  unfold unbind pcdPlatformDriverRemove
  split
  · exact ⟨rfl,rfl⟩
  · split <;> exact ⟨rfl,rfl⟩

omit [DecidableEq α] in
theorem freedKept (freed : Freed a l l') {files : List (Option α)}
    (alive : ∀ x, some x ∈ files → .devData x ∈ l.held) :
    (∀ x, some x ∈ files → .devData x ∈ l'.held) ↔ some a ∉ files := by
  constructor
  · intro kept mem
    exact ((freed.devData a).mp (kept a mem)).1 rfl
  · intro closed x mem
    exact (freed.devData x).mpr ⟨fun same => closed (same ▸ mem),alive x mem⟩

omit [DecidableEq α] in
theorem freedEmbedded (freed : Freed a l l') (embedded : Embedded l) : Embedded l' := by
  intro x registered
  obtain ⟨other,old⟩ := (freed.cdev x).mp registered
  exact (freed.devData x).mpr ⟨other,embedded x old⟩

end Frees

section Steps
variable {d : Driver ι} {s : System ι α}

omit [DecidableEq ι] in
theorem setupStores {s : State ι α} {i : ι} (o : Setup α) {x : α} (object : (s.objects x).isSome) :
    ((probeToCdev d s i o).1.objects x).isSome := by
  have stored (a : α) (data : PcdevPrivateData α) : (Function.update s.objects a (some data) x).isSome := by
    by_cases same : x = a
    · simp [same]
    · simpa [same] using object
  obtain ⟨platformData,devData,buffer,cdevAdd⟩ := o
  cases platformData with
  | none => exact object
  | some pdata => cases devData with
    | none => exact object
    | some a => cases buffer with
      | none => exact object
      | some b => cases cdevAdd with
        | some e => exact stored a _
        | none => exact stored a _

theorem probeSound (sound : Sound s) {i : ι} {o : Setup α} (allowed : Allowed s (.probe i o)) :
    Sound (next d s (.probe i o)) ∧
    ∀ a, .devData a ∈ s.driver.ledger.held → .devData a ∈ (next d s (.probe i o)).driver.ledger.held := by
  obtain ⟨_,_,fresh⟩ := allowed
  have stored : ∀ x, (s.driver.objects x).isSome → ((probeToCdev d s.driver i o).1.objects x).isSome :=
    fun _ object => setupStores o object
  by_cases prepares : o.Prepares
  · obtain ⟨pdata,a,b,_,_,_,answer⟩ := setupPrepares (d := d) (s := s.driver) (i := i) prepares
    have held (r : Resource α) : r ∈ (prepared d s.driver i a b pdata).ledger.held ↔
        r = .cdev a ∨ r = .buffer b ∨ r = .devData a ∨ r ∈ s.driver.ledger.held := by
      simp [prepared,State.hold,State.store]
    have kept (x : α) (old : .devData x ∈ s.driver.ledger.held) :
        .devData x ∈ (prepared d s.driver i a b pdata).ledger.held := by simp [held,old]
    rw [answer] at stored
    simp only [next,probe,answer]
    refine ⟨⟨fun x registered => ?_,fun j mem => ?_,fun j x y at_ => ?_,fun x mem => kept x (sound.alive x mem)⟩,kept⟩
    · rcases (by simpa [held] using registered) with rfl | old
      · simp [held]
      · exact kept x (sound.embedded x old)
    · obtain ⟨x,own,object⟩ := sound.bound j mem
      exact ⟨x,own,stored x object⟩
    · by_cases same : j = i
      · obtain ⟨rfl,rfl⟩ : a = x ∧ b = y := by simpa [same] using at_
        simp [prepared,State.hold,State.store]
      · exact stored x (sound.probing j x y (by simpa [same] using at_))
  · obtain ⟨t,ret,answer,unmoved⟩ := setupRefused (d := d) (i := i) fresh prepares
    rw [answer] at stored
    simp only [next,probe,answer]
    refine ⟨⟨?_,fun j mem => ?_,fun j x y at_ => stored x (sound.probing j x y at_),?_⟩,?_⟩
    · rw [unmoved.ledger]
      exact sound.embedded
    · rw [unmoved.bound] at mem
      obtain ⟨x,own,object⟩ := sound.bound j mem
      exact ⟨x,unmoved.drvdata ▸ own,stored x object⟩
    · rw [unmoved.ledger]
      exact sound.alive
    · rw [unmoved.ledger]
      exact fun _ old => old

theorem finishRefused {i : ι} {a b : α} {answer : Option Errno} {ret : Errno} (at_ : s.probing i = some (a,b))
    (refused : deviceCreate s.driver.ledger (d.devNumber i) answer = some ret) :
    next d s (.deviceCreate i answer) = { s with
      driver := (cdevDeletion s.driver a b ret).1, probing := Function.update s.probing i none } := by
  have failed : (cdevDeletion s.driver a b ret).2 ≠ 0 := errnoNonzero ret
  simp only [next,finish,at_,probeFromCdev,refused,bindProbed,failed,if_false]

theorem finishCreated {i : ι} {a b : α} {answer : Option Errno} (at_ : s.probing i = some (a,b))
    (created : deviceCreate s.driver.ledger (d.devNumber i) answer = none) :
    next d s (.deviceCreate i answer) = { s with
      driver := { s.driver with
        ledger := s.driver.ledger.acquire (.node (d.devNumber i))
        drvdata := Function.update s.driver.drvdata i (some a)
        totalDevices := s.driver.totalDevices + 1
        bound := insert i s.driver.bound }
      probing := Function.update s.probing i none } := by
  simp only [next,finish,at_,probeFromCdev,created,bindProbed,if_true]
  rfl

omit [DecidableEq α] in
theorem probingElse {i j : ι} {x : α × α} (at_ : Function.update s.probing i none j = some x) :
    s.probing j = some x := by
  by_cases same : j = i
  · simp [same] at at_
  · simpa [same] using at_

theorem stepKept (sound : Sound s) {e : Event ι α} (allowed : Allowed s e) :
    KeptWhileOpen ⟨s,e,next d s e⟩ ↔ ¬ FreesWhileOpen d s e := by
  cases e with
  | «open» cdev => exact ⟨fun _ fails => fails,fun _ a mem => sound.alive a mem⟩
  | close file => exact ⟨fun _ fails => fails,fun _ a mem => sound.alive a mem⟩
  | probe i o =>
    exact ⟨fun _ fails => fails,fun _ a mem => (probeSound sound allowed).2 a (sound.alive a mem)⟩
  | remove i =>
    obtain ⟨a,own,object⟩ := sound.bound i allowed
    refine (freedKept (removeFrees own object) sound.alive).trans (not_congr ⟨fun mem => ⟨a,own,mem⟩,?_⟩)
    rintro ⟨x,own',mem⟩
    cases Option.some.inj (own.symm.trans own')
    exact mem
  | deviceCreate i answer =>
    obtain ⟨⟨a,b⟩,at_⟩ := Option.isSome_iff_exists.mp allowed
    cases answered : deviceCreate s.driver.ledger (d.devNumber i) answer with
    | some ret =>
      rw [finishRefused at_ answered]
      refine (freedKept (labelsFree s.driver ret) sound.alive).trans (not_congr ⟨fun mem => ?_,?_⟩)
      · exact ⟨a,b,at_,mem,by simp [answered]⟩
      · rintro ⟨x,y,at',mem,_⟩
        cases Option.some.inj (at_.symm.trans at')
        exact mem
    | none =>
      rw [finishCreated at_ answered]
      refine ⟨fun _ fails => ?_,fun _ x mem => ?_⟩
      · obtain ⟨_,_,_,_,refused⟩ := fails
        exact refused answered
      · simpa using sound.alive x mem

theorem stepSound (sound : Sound s) {e : Event ι α} (allowed : Allowed s e)
    (kept : KeptWhileOpen ⟨s,e,next d s e⟩) : Sound (next d s e) := by
  cases e with
  | probe i o => exact (probeSound sound allowed).1
  | «open» cdev =>
    refine ⟨sound.embedded,sound.bound,sound.probing,fun a mem => ?_⟩
    rcases List.mem_append.mp mem with old | new
    · exact sound.alive a old
    · cases List.mem_singleton.mp new
      exact sound.embedded _ allowed
  | close file =>
    refine ⟨sound.embedded,sound.bound,sound.probing,fun a mem => ?_⟩
    rcases List.mem_or_eq_of_mem_set mem with old | closed
    · exact sound.alive a old
    · cases closed
  | remove i =>
    obtain ⟨a,own,object⟩ := sound.bound i allowed
    obtain ⟨drvdata,objects⟩ := unbindKeeps s.driver i
    refine ⟨freedEmbedded (removeFrees own object) sound.embedded,fun j mem => ?_,fun j x y at_ => ?_,kept⟩
    · rw [next,drvdata,objects]
      exact sound.bound j ((unbindBound j).mp mem).2
    · rw [next,objects]
      exact sound.probing j x y at_
  | deviceCreate i answer =>
    obtain ⟨⟨a,b⟩,at_⟩ := Option.isSome_iff_exists.mp allowed
    cases answered : deviceCreate s.driver.ledger (d.devNumber i) answer with
    | some ret =>
      rw [finishRefused at_ answered] at kept ⊢
      refine ⟨freedEmbedded (labelsFree s.driver ret) sound.embedded,sound.bound,fun j x y at' => ?_,kept⟩
      exact sound.probing j x y (probingElse at')
    | none =>
      rw [finishCreated at_ answered] at kept ⊢
      refine ⟨fun x registered => ?_,fun j mem => ?_,fun j x y at' => sound.probing j x y (probingElse at'),kept⟩
      · have old := sound.embedded x (by simpa using registered)
        simpa using old
      · by_cases same : j = i
        · exact ⟨a,by simp [same],sound.probing i a b at_⟩
        · obtain ⟨x,own,object⟩ := sound.bound j ((Finset.mem_insert.mp mem).resolve_left same)
          exact ⟨x,by simpa [same] using own,object⟩

theorem dataKeptExactly (d : Driver ι) {log t} (run : Run (Step d) (empty : System ι α) log t) :
    (∀ tr ∈ log, KeptWhileOpen tr) ↔ ∀ tr ∈ log, ¬ FreesWhileOpen d tr.before tr.label := by
  have start : Sound (empty : System ι α) := by
    refine ⟨fun a registered => ?_,fun i mem => ?_,fun i a b at_ => ?_,fun a mem => ?_⟩
    · simp [empty,loaded] at registered
    · simp [empty,loaded] at mem
    · cases at_
    · cases mem
  refine runExact Sound (fun s e => ¬ FreesWhileOpen d s e) ?_ ?_ run start
  · rintro s e t ⟨allowed,rfl⟩ sound
    exact stepKept sound allowed
  · rintro s e t ⟨allowed,rfl⟩ sound kept
    exact stepSound sound allowed kept

/- With nothing between them the two halves are the probe that the driver core calls. -/
theorem halvesProbe (s : System ι α) {i : ι} (idle : s.probing i = none) (o : Outcome α) :
    finish d (probe d s i o.toSetup) i o.deviceCreate =
      { s with driver := PlatformDriver.next d s.driver (.probe i o) } := by
  by_cases prepares : o.Prepares
  · obtain ⟨pdata,a,b,_,_,_,answer⟩ := setupPrepares (d := d) (s := s.driver) (i := i) prepares
    have settled : Function.update (Function.update s.probing i (some (a,b))) i none = s.probing := by
      rw [Function.update_idem,← idle,Function.update_eq_self]
    simp only [probe,answer,finish,Function.update_self,PlatformDriver.next,pcdPlatformDriverProbe,probeThen,settled]
  · obtain ⟨t,ret,answer⟩ := setupFails (d := d) (s := s.driver) (i := i) prepares
    simp only [probe,answer,finish,idle,PlatformDriver.next,pcdPlatformDriverProbe,probeThen,bindProbed,
      errnoNonzero ret,if_false]

end Steps

theorem closedBeforeFreed :
    ∃ log t, Run (Step twoDevices) (empty : System Bool Nat) log t ∧ t.driver.ledger.held = ∅ ∧
      ((∀ tr ∈ log, KeptWhileOpen tr) ↔ ∀ tr ∈ log, ¬ FreesWhileOpen twoDevices tr.before tr.label) := by
  have run : Run (Step twoDevices) (empty : System Bool Nat) _ _ :=
    .cons (a := .probe true (granted 0 1).toSetup) ⟨by decide,rfl⟩ (.cons (a := .open 0) ⟨by decide,rfl⟩
      (.cons (a := .probe false (granted 2 3).toSetup) ⟨by decide,rfl⟩
        (.cons (a := .deviceCreate true none) ⟨by decide,rfl⟩ (.cons (a := .close 0) ⟨by decide,rfl⟩
          (.cons (a := .deviceCreate false (some enomem)) ⟨by decide,rfl⟩
            (.cons (a := .remove true) ⟨by decide,rfl⟩ (.nil _)))))))
  exact ⟨_,_,run,by decide,dataKeptExactly twoDevices run⟩

theorem removedUnderOpenFile :
    ¬ ∀ log t, Run (Step twoDevices) (empty : System Bool Nat) log t → ∀ tr ∈ log, KeptWhileOpen tr := by
  intro always
  have run : Run (Step twoDevices) (empty : System Bool Nat) _ _ :=
    .cons (a := .probe true (granted 0 1).toSetup) ⟨by decide,rfl⟩
      (.cons (a := .deviceCreate true none) ⟨by decide,rfl⟩ (.cons (a := .open 0) ⟨by decide,rfl⟩
        (.cons (a := .remove true) ⟨by decide,rfl⟩ (.nil _))))
  have freed := always _ _ run _ (.tail _ (.tail _ (.tail _ (.head _)))) 0 (.head _)
  exact absurd freed (by decide)

example : ∃ log t, Run (Step twoDevices) (empty : System Bool Nat) log t ∧
    some 0 ∈ t.files ∧ .devData 0 ∉ t.driver.ledger.held ∧ t.driver.bound = ∅ := by
  have run : Run (Step twoDevices) (empty : System Bool Nat) _ _ :=
    .cons (a := .probe true (granted 0 1).toSetup) ⟨by decide,rfl⟩ (.cons (a := .open 0) ⟨by decide,rfl⟩
      (.cons (a := .deviceCreate true (some enomem)) ⟨by decide,rfl⟩ (.nil _)))
  exact ⟨_,_,run,by decide,by decide,by decide⟩

end KernelFacilities.PlatformDriverFiles
