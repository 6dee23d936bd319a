import KernelFacilities.Runs
import Mathlib.Data.List.Basic
import Mathlib.Logic.Function.Basic

/-! Opens that meet the multi-device driver while it is being loaded or unloaded
(spinlock/char_driver_multiple_devices.c; the loops of 003 are the same without the
mutexes), for any number of devices. A registered cdev can be opened at once, before
pcd_driver_init has returned; an open is one that check_permission grants, since no
other leaves a file. An open file holds a reference on the module until it is closed;
a going module grants none and a referenced one is not unloaded, but a module whose
init failed is freed whoever still refers to it: its files are the orphans. The calls of
mutex_init are counted within one load. -/
namespace KernelFacilities.LoadRaces
open Runs

inductive Point where
  | unloaded
  | allocChrdevRegion
  | classCreate
  | cdevInit (i : Nat)
  | mutexInit (i : Nat)
  | cdevAdd (i : Nat)
  | deviceCreate (i : Nat)
  | loaded
  | deviceDestroy (i : Nat)
  | cdevDel (i : Nat)
  | classDestroy
  | unregisterChrdev
  | exitDevice (i : Nat)
  | exitCdev (i : Nat)
  | exitClass
  | exitChrdev
  deriving DecidableEq, Repr

def Point.Exiting : Point → Prop
  | .exitDevice _ | .exitCdev _ | .exitClass | .exitChrdev => True
  | _ => False

instance (p : Point) : Decidable p.Exiting := by cases p <;> unfold Point.Exiting <;> infer_instance

structure State where
  point : Point
  cdevs : Nat → Bool
  mutexInits : Nat → Nat
  files : List Nat
  orphans : List Nat

def start : State := ⟨.unloaded,fun _ => false,fun _ => 0,[],[]⟩

def State.freed (s : State) : State :=
  { s with point := .unloaded, files := [], orphans := s.orphans ++ s.files }

section Next
variable (devices : Nat)

def initFrom (i : Nat) : Point := if i < devices then .cdevInit i else .loaded
def exitFrom (i : Nat) : Point := if i < devices then .exitDevice i else .exitClass

def proceed (s : State) (ok : Bool) : State :=
  match s.point with
  | .unloaded | .loaded => s
  | .allocChrdevRegion => if ok then { s with point := .classCreate } else s.freed
  | .classCreate => if ok then { s with point := initFrom devices 0 } else { s with point := .unregisterChrdev }
  | .cdevInit i => { s with point := .mutexInit i }
  | .mutexInit i =>
      { s with point := .cdevAdd i, mutexInits := Function.update s.mutexInits i (s.mutexInits i + 1) }
  | .cdevAdd i =>
      if ok then { s with point := .deviceCreate i, cdevs := Function.update s.cdevs i true }
      else { s with point := .deviceDestroy i }
  | .deviceCreate i => if ok then { s with point := initFrom devices (i + 1) } else { s with point := .deviceDestroy i }
  | .deviceDestroy i => { s with point := .cdevDel i }
  | .cdevDel i =>
      { s with
        point := match i with
          | 0 => .classDestroy
          | i + 1 => .deviceDestroy i
        cdevs := Function.update s.cdevs i false }
  | .classDestroy => { s with point := .unregisterChrdev }
  | .unregisterChrdev => s.freed
  | .exitDevice i => { s with point := .exitCdev i }
  | .exitCdev i => { s with point := exitFrom devices (i + 1), cdevs := Function.update s.cdevs i false }
  | .exitClass => { s with point := .exitChrdev }
  | .exitChrdev => s.freed

inductive Act where
  | load
  | call (ok : Bool)
  | unload
  | open (i : Nat)
  | close (i : Nat)
  deriving DecidableEq, Repr

def next (s : State) : Act → State
  | .load => if s.point = .unloaded then { s with point := .allocChrdevRegion, mutexInits := fun _ => 0 } else s
  | .call ok => proceed devices s ok
  | .unload => if s.point = .loaded ∧ s.files = [] then { s with point := exitFrom devices 0 } else s
  | .open i => if s.cdevs i ∧ ¬ s.point.Exiting then { s with files := i :: s.files } else s
  | .close i => { s with files := s.files.erase i }

def May : Point → Nat → Prop
  | .cdevInit i, j | .mutexInit i, j | .cdevAdd i, j => j < i
  | .deviceCreate i, j | .deviceDestroy i, j | .cdevDel i, j => j ≤ i
  | .loaded, j => j < devices
  | .exitDevice i, j | .exitCdev i, j => i ≤ j ∧ j < devices
  | _, _ => False

def Must : Point → Nat → Prop
  | .cdevInit i, j | .mutexInit i, j | .cdevAdd i, j => j < i
  | .deviceCreate i, j => j ≤ i
  | .loaded, j => j < devices
  | _, _ => False

def Untouched : Point → Nat → Prop
  | .allocChrdevRegion, _ | .classCreate, _ => True
  | .cdevInit i, j | .mutexInit i, j => i ≤ j
  | .cdevAdd i, j | .deviceCreate i, j => i < j
  | _, _ => False

def InRange : Point → Prop
  | .cdevInit i | .mutexInit i | .cdevAdd i | .deviceCreate i | .deviceDestroy i | .cdevDel i
  | .exitDevice i | .exitCdev i => i < devices
  | _ => True

structure Sound (s : State) : Prop where
  may : ∀ j, s.cdevs j = true → May devices s.point j
  must : ∀ j, Must devices s.point j → s.cdevs j = true
  range : InRange devices s.point
  untouched : ∀ j, Untouched s.point j → s.mutexInits j = 0
  cdevsReady : ∀ j, s.cdevs j = true → s.mutexInits j = 1
  adding : ∀ j, s.point = .cdevAdd j → s.mutexInits j = 1
  filesReady : ∀ j ∈ s.files, s.mutexInits j = 1
  idle : s.point = .unloaded ∨ s.point = .allocChrdevRegion ∨ s.point.Exiting → s.files = []

end Next

section Steps
variable {devices : Nat} {s : State}

structure Onward (devices : Nat) (p q : Point) : Prop where
  may : ∀ j, May devices p j → May devices q j
  must : ∀ j, Must devices q j → Must devices p j
  untouched : ∀ j, Untouched q j → Untouched p j
  notAdding : ∀ j, q ≠ .cdevAdd j

theorem movedSound (sound : Sound devices s) {p q : Point} (at_ : s.point = p) (onward : Onward devices p q)
    (range : InRange devices q) (idle : q = .unloaded ∨ q = .allocChrdevRegion ∨ q.Exiting → s.files = []) :
    Sound devices { s with point := q } := by
  subst at_
  exact ⟨fun j up => onward.may j (sound.may j up),fun j needed => sound.must j (onward.must j needed),range,
    fun j fresh => sound.untouched j (onward.untouched j fresh),sound.cdevsReady,
    fun j same => absurd same (onward.notAdding j),sound.filesReady,idle⟩

theorem freedSound (sound : Sound devices s) (none_ : ∀ j, ¬ May devices s.point j) : Sound devices s.freed :=
  ⟨fun j up => (none_ j (sound.may j up)).elim,fun j needed => needed.elim,trivial,fun j fresh => fresh.elim,
    sound.cdevsReady,fun j at_ => (by cases at_),fun j mem => absurd mem List.not_mem_nil,fun _ => rfl⟩

theorem initFromSound (sound : Sound devices s) {i : Nat} (within : i ≤ devices)
    (may : ∀ j, May devices s.point j → j < i) (must : ∀ j, j < i → Must devices s.point j)
    (untouched : ∀ j, i ≤ j → Untouched s.point j) : Sound devices { s with point := initFrom devices i } := by
  unfold initFrom
  split
  · rename_i more
    exact movedSound sound rfl ⟨may,must,untouched,by simp⟩ more (by simp [Point.Exiting])
  · have all : i = devices := by omega
    subst all
    exact movedSound sound rfl ⟨may,must,fun j fresh => fresh.elim,by simp⟩ trivial (by simp [Point.Exiting])

theorem mutexInitSound (sound : Sound devices s) {i : Nat} (at_ : s.point = .mutexInit i) :
    Sound devices { s with point := .cdevAdd i, mutexInits := Function.update s.mutexInits i (s.mutexInits i + 1) } := by
  have zero : s.mutexInits i = 0 := sound.untouched i (by rw [at_]; exact Nat.le_refl i)
  have other : ∀ j, s.mutexInits j = 1 → j ≠ i := by
    rintro j one rfl
    omega
  have range := sound.range
  rw [at_] at range
  refine ⟨fun j up => ?_,fun j needed => ?_,range,fun j fresh => ?_,fun j up => ?_,fun j same => ?_,fun j mem => ?_,?_⟩
  · have before := sound.may j up
    rw [at_] at before
    exact before
  · exact sound.must j (by rw [at_]; exact needed)
  · have above : i < j := fresh
    have before := sound.untouched j (by rw [at_]; exact Nat.le_of_lt above)
    exact (Function.update_of_ne (Nat.ne_of_gt above) ..).trans before
  · have one := sound.cdevsReady j up
    exact (Function.update_of_ne (other j one) ..).trans one
  · cases same
    change Function.update s.mutexInits i (s.mutexInits i + 1) i = 1
    rw [Function.update_self,zero]
  · have one := sound.filesReady j mem
    exact (Function.update_of_ne (other j one) ..).trans one
  · simp [Point.Exiting]

theorem cdevAddSound (sound : Sound devices s) {i : Nat} (at_ : s.point = .cdevAdd i) :
    Sound devices { s with point := .deviceCreate i, cdevs := Function.update s.cdevs i true } := by
  have range := sound.range
  rw [at_] at range
  refine ⟨fun j up => ?_,fun j needed => ?_,range,fun j fresh => ?_,fun j up => ?_,by simp,sound.filesReady,
    by simp [Point.Exiting]⟩
  · by_cases same : j = i
    · exact Nat.le_of_eq same
    · have before := sound.may j ((Function.update_of_ne same ..).symm.trans up)
      rw [at_] at before
      exact Nat.le_of_lt before
  · by_cases same : j = i
    · subst same
      exact Function.update_self ..
    · have below : j ≤ i := needed
      have before := sound.must j (by rw [at_]; exact Nat.lt_of_le_of_ne below same)
      exact (Function.update_of_ne same ..).trans before
  · exact sound.untouched j (by rw [at_]; exact fresh)
  · by_cases same : j = i
    · subst same
      exact sound.adding j at_
    · exact sound.cdevsReady j ((Function.update_of_ne same ..).symm.trans up)

theorem cdevDelSound (sound : Sound devices s) {i : Nat} {p : Point}
    (may : ∀ j, j ≠ i → May devices s.point j → May devices p j) (must : ∀ j, ¬ Must devices p j) (range : InRange devices p)
    (untouched : ∀ j, ¬ Untouched p j) (notAdding : ∀ j, p ≠ .cdevAdd j)
    (idle : p = .unloaded ∨ p = .allocChrdevRegion ∨ p.Exiting → s.files = []) :
    Sound devices { s with point := p, cdevs := Function.update s.cdevs i false } := by
  have up : ∀ j, Function.update s.cdevs i false j = true → j ≠ i ∧ s.cdevs j = true := by
    intro j up
    by_cases same : j = i
    · subst same
      rw [Function.update_self] at up
      cases up
    · exact ⟨same,(Function.update_of_ne same ..).symm.trans up⟩
  exact ⟨fun j set => may j (up j set).1 (sound.may j (up j set).2),fun j needed => absurd needed (must j),range,
    fun j fresh => absurd fresh (untouched j),fun j set => sound.cdevsReady j (up j set).2,
    fun j same => absurd same (notAdding j),sound.filesReady,idle⟩

theorem exitFromSound (sound : Sound devices s) {i : Nat} (may : ∀ j, May devices s.point j → i ≤ j ∧ j < devices)
    (none_ : s.files = []) : Sound devices { s with point := exitFrom devices i } := by
  unfold exitFrom
  split
  · rename_i more
    exact movedSound sound rfl ⟨may,fun j needed => needed.elim,fun j fresh => fresh.elim,by simp⟩ more
      (fun _ => none_)
  · refine movedSound sound rfl ⟨fun j up => ?_,fun j needed => needed.elim,fun j fresh => fresh.elim,by simp⟩ trivial
      (fun _ => none_)
    have both := may j up
    exact absurd both.2 (by omega)

theorem proceedSound (sound : Sound devices s) (ok : Bool) : Sound devices (proceed devices s ok) := by
  have range := sound.range
  have pinned : s.point.Exiting → s.files = [] := fun exiting => sound.idle (.inr (.inr exiting))
  unfold proceed
  cases at_ : s.point with
  | unloaded | loaded => exact sound
  | allocChrdevRegion =>
    cases ok with
    | false => exact freedSound sound (by simp [at_,May])
    | true =>
      have onward : Onward devices .allocChrdevRegion .classCreate :=
        ⟨by simp [May],by simp [Must],by simp [Untouched],by simp⟩
      exact movedSound sound at_ onward trivial (by simp [Point.Exiting])
  | classCreate =>
    cases ok with
    | false =>
      have onward : Onward devices .classCreate .unregisterChrdev :=
        ⟨by simp [May],by simp [Must],by simp [Untouched],by simp⟩
      exact movedSound sound at_ onward trivial (by simp [Point.Exiting])
    | true => exact initFromSound sound (Nat.zero_le _) (by simp [at_,May]) (by simp) (by simp [at_,Untouched])
  | cdevInit i =>
    rw [at_] at range
    have onward : Onward devices (.cdevInit i) (.mutexInit i) := ⟨fun _ => id,fun _ => id,fun _ => id,by simp⟩
    exact movedSound sound at_ onward range (by simp [Point.Exiting])
  | mutexInit i => exact mutexInitSound sound at_
  | cdevAdd i =>
    rw [at_] at range
    cases ok with
    | false =>
      have onward : Onward devices (.cdevAdd i) (.deviceDestroy i) :=
        ⟨fun j below => Nat.le_of_lt below,by simp [Must],by simp [Untouched],by simp⟩
      exact movedSound sound at_ onward range (by simp [Point.Exiting])
    | true => exact cdevAddSound sound at_
  | deviceCreate i =>
    rw [at_] at range
    cases ok with
    | false =>
      have onward : Onward devices (.deviceCreate i) (.deviceDestroy i) :=
        ⟨fun _ => id,by simp [Must],by simp [Untouched],by simp⟩
      exact movedSound sound at_ onward range (by simp [Point.Exiting])
    | true =>
      refine initFromSound sound range (fun j up => ?_) (fun j below => ?_) (fun j above => ?_)
      · rw [at_] at up
        exact Nat.lt_succ_of_le up
      · rw [at_]
        exact Nat.le_of_lt_succ below
      · rw [at_]
        exact above
  | deviceDestroy i =>
    rw [at_] at range
    have onward : Onward devices (.deviceDestroy i) (.cdevDel i) :=
      ⟨fun _ => id,by simp [Must],by simp [Untouched],by simp⟩
    exact movedSound sound at_ onward range (by simp [Point.Exiting])
  | cdevDel i =>
    rw [at_] at range
    cases i with
    | zero =>
      refine cdevDelSound sound (fun j other up => ?_) (by simp [Must]) trivial (by simp [Untouched]) (by simp)
        (by simp [Point.Exiting])
      rw [at_] at up
      exact other (Nat.le_zero.mp up)
    | succ i =>
      refine cdevDelSound sound (fun j other up => ?_) (by simp [Must]) (Nat.lt_of_succ_lt range)
        (by simp [Untouched]) (by simp) (by simp [Point.Exiting])
      rw [at_] at up
      exact Nat.le_of_lt_succ (Nat.lt_of_le_of_ne up other)
  | classDestroy =>
    have onward : Onward devices .classDestroy .unregisterChrdev :=
      ⟨by simp [May],by simp [Must],by simp [Untouched],by simp⟩
    exact movedSound sound at_ onward trivial (by simp [Point.Exiting])
  | unregisterChrdev => exact freedSound sound (by simp [at_,May])
  | exitDevice i =>
    rw [at_] at range pinned
    have onward : Onward devices (.exitDevice i) (.exitCdev i) :=
      ⟨fun _ => id,by simp [Must],by simp [Untouched],by simp⟩
    exact movedSound sound at_ onward range (fun _ => pinned trivial)
  | exitCdev i =>
    rw [at_] at pinned
    have up : ∀ j, j ≠ i → May devices s.point j → i + 1 ≤ j ∧ j < devices := by
      intro j other up
      rw [at_] at up
      exact ⟨Nat.lt_of_le_of_ne up.1 (Ne.symm other),up.2⟩
    show Sound devices { s with point := exitFrom devices (i + 1), cdevs := Function.update s.cdevs i false }
    unfold exitFrom
    split
    · rename_i more
      exact cdevDelSound sound up (by simp [Must]) more (by simp [Untouched]) (by simp) (fun _ => pinned trivial)
    · refine cdevDelSound sound (fun j other at_ => ?_) (by simp [Must]) trivial (by simp [Untouched]) (by simp)
        (fun _ => pinned trivial)
      obtain ⟨low,high⟩ := up j other at_
      exact absurd high (by omega)
  | exitClass =>
    rw [at_] at pinned
    have onward : Onward devices .exitClass .exitChrdev :=
      ⟨by simp [May],by simp [Must],by simp [Untouched],by simp⟩
    exact movedSound sound at_ onward trivial (fun _ => pinned trivial)
  | exitChrdev => exact freedSound sound (by simp [at_,May])

theorem stepSound (sound : Sound devices s) (a : Act) : Sound devices (next devices s a) := by
  cases a with
  | load =>
    simp only [next]
    split
    · rename_i at_
      have none_ := sound.idle (.inl at_)
      have down : ∀ j, s.cdevs j ≠ true := by
        intro j up
        have may := sound.may j up
        rw [at_] at may
        exact may
      exact ⟨fun j up => absurd up (down j),fun j needed => needed.elim,trivial,fun _ _ => rfl,
        fun j up => absurd up (down j),by simp,fun j mem => absurd (none_ ▸ mem) List.not_mem_nil,fun _ => none_⟩
    · exact sound
  | call ok => exact proceedSound sound ok
  | unload =>
    simp only [next]
    split
    · rename_i both
      refine exitFromSound sound (fun j up => ?_) both.2
      rw [both.1] at up
      exact ⟨Nat.zero_le j,up⟩
    · exact sound
  | «open» i =>
    simp only [next]
    split
    · rename_i both
      refine ⟨sound.may,sound.must,sound.range,sound.untouched,sound.cdevsReady,sound.adding,fun j mem => ?_,
        fun outside => ?_⟩
      · rcases List.mem_cons.mp mem with rfl | old
        · exact sound.cdevsReady _ both.1
        · exact sound.filesReady j old
      · have may := sound.may i both.1
        rcases outside with at_ | at_ | exiting
        · rw [show s.point = .unloaded from at_] at may
          exact may.elim
        · rw [show s.point = .allocChrdevRegion from at_] at may
          exact may.elim
        · exact absurd exiting both.2
    · exact sound
  | close i =>
    refine ⟨sound.may,sound.must,sound.range,sound.untouched,sound.cdevsReady,sound.adding,
      fun j mem => sound.filesReady j (List.mem_of_mem_erase mem),fun outside => ?_⟩
    show s.files.erase i = []
    rw [sound.idle outside]
    rfl

end Steps

section Orphans
variable {devices : Nat} {s : State}

def Strands (tr : Transition State Act) : Prop :=
  tr.before.point = .unregisterChrdev ∧ (∃ ok, tr.label = .call ok) ∧ tr.before.files ≠ []

theorem orphansStep (sound : Sound devices s) (a : Act) :
    (next devices s a).orphans ≠ [] ↔ s.orphans ≠ [] ∨ Strands ⟨s,a,next devices s a⟩ := by
  cases a with
  | load => simp only [next,Strands]; split <;> simp
  | unload => simp only [next,Strands]; split <;> simp
  | «open» i => simp only [next,Strands]; split <;> simp
  | close i => simp [next,Strands]
  | call ok =>
    have idle := sound.idle
    simp only [next,proceed,Strands,State.freed]
    cases at_ : s.point with
    | unregisterChrdev => simp only [ne_eq,List.append_eq_nil_iff,true_and]; grind
    | exitChrdev => simp [idle (by simp [at_,Point.Exiting])]
    | allocChrdevRegion => cases ok <;> simp [idle (.inr (.inl at_))]
    | classCreate | cdevAdd | deviceCreate => cases ok <;> simp
    | _ => simp

theorem orphansExactly (sound : Sound devices s) (acts : List Act) :
    (acts.foldl (next devices) s).orphans ≠ [] ↔
      s.orphans ≠ [] ∨ ∃ tr ∈ trace (next devices) s acts, Strands tr := by
  induction acts generalizing s with
  | nil => simp [trace]
  | cons a rest ih =>
    rw [List.foldl_cons,ih (stepSound sound a),orphansStep sound a,or_assoc]
    simp only [trace,List.exists_mem_cons_iff]

theorem lateOpensPinned {a : Act} (late : ∀ i, a = .open i → s.point = .loaded)
    (pinned : s.files ≠ [] → s.point = .loaded) :
    (next devices s a).files ≠ [] → (next devices s a).point = .loaded := by
  cases a with
  | load => simp only [next]; grind
  | unload => simp only [next]; grind
  | «open» i => simp only [next]; grind
  | close i =>
    intro some_
    exact pinned fun none_ => some_ (by simp only [next,none_]; rfl)
  | call ok =>
    intro some_
    by_cases at_ : s.point = .loaded
    · simp only [next,proceed,at_]
    · have none_ : s.files = [] := by_contra fun some_ => at_ (pinned some_)
      refine absurd ?_ some_
      simp only [next,proceed,State.freed]
      cases s.point <;> simp only [none_] <;> split <;> simp

theorem startSound (devices : Nat) : Sound devices start :=
  ⟨fun j up => (by cases up),fun j needed => needed.elim,trivial,fun _ _ => rfl,fun j up => (by cases up),
    fun j at_ => (by cases at_),fun j mem => absurd mem List.not_mem_nil,fun _ => rfl⟩

end Orphans

/- Every file that is open refers to a device whose mutex was initialised exactly once
in this load; an unloaded module has no cdev left and a loaded one all of them; no
file is open during the exit. A file outlives the module exactly when an init that
fails returns with it still open, and never when opens wait for the init to return. -/
theorem opensDuringLoad (devices : Nat) (acts : List Act) :
    (∀ tr ∈ trace (next devices) start acts,
      (∀ i ∈ tr.before.files, tr.before.mutexInits i = 1) ∧
      (tr.before.point = .unloaded → ∀ i, tr.before.cdevs i = false) ∧
      (tr.before.point = .loaded → ∀ i, tr.before.cdevs i = true ↔ i < devices) ∧
      (tr.before.point.Exiting → tr.before.files = [])) ∧
    ((acts.foldl (next devices) start).orphans ≠ [] ↔ ∃ tr ∈ trace (next devices) start acts, Strands tr) ∧
    ((∀ tr ∈ trace (next devices) start acts, ∀ i, tr.label = .open i → tr.before.point = .loaded) →
      (acts.foldl (next devices) start).orphans = []) := by
  have exactly := orphansExactly (startSound devices) acts
  have none_ : start.orphans = [] := rfl
  rw [none_] at exactly
  simp only [ne_eq,not_true_eq_false,false_or] at exactly
  refine ⟨fun tr mem => ?_,exactly,fun late => ?_⟩
  · have sound := traceKeeps (Sound devices) (fun _ a sound => stepSound sound a) acts (startSound devices) tr mem
    refine ⟨sound.filesReady,fun at_ i => ?_,fun at_ i => ⟨fun up => ?_,fun below => ?_⟩,
      fun exiting => sound.idle (.inr (.inr exiting))⟩
    · refine Bool.eq_false_iff.mpr fun up => ?_
      have may := sound.may i up
      rw [at_] at may
      exact may
    · have may := sound.may i up
      rw [at_] at may
      exact may
    · refine sound.must i ?_
      rw [at_]
      exact below
  · by_contra some_
    obtain ⟨tr,mem,at_,_,open_⟩ := exactly.mp some_
    have pinned := traceKeepsWhile (fun s => s.files ≠ [] → s.point = .loaded)
      (fun s a => ∀ i, a = .open i → s.point = .loaded) (fun _ _ pinned late => lateOpensPinned late pinned)
      (fun some_ => absurd rfl some_) late tr mem open_
    rw [at_] at pinned
    cases pinned

example : ([Act.load,.call true,.call true,.call true,.call true,.call true,.call true,.call true,.call true,.call true,
    .call true,.call true,.call true,.call true,.open 2,.call false,.call true,.call true,.call true,.call true,
    .call true,.call true,.call true,.call true].foldl (next 4) start).orphans = [2] := by decide

end KernelFacilities.LoadRaces
