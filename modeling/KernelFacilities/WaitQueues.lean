import KernelFacilities.Runs

/-! The wait-queue module (Kernel_facilities_course/Wait_Queues/driver.c): dog_init
queues simulate_io and waits for its condition, dog_exit only says goodbye. Steps of
the process, of the worker and signals interleave freely. dog_init drops what the wait
returned, and the points after the wait remember it here. Memory is sequentially
consistent, and what a worker does in code that is gone is not followed. -/
namespace KernelFacilities.WaitQueues
open Runs

inductive Work where
  | idle
  | queued
  | entered
  | slept
  | conditionSet
  | woken
  deriving DecidableEq, Repr

inductive Process where
  | unloaded
  | entered
  | waiting
  | waited (interrupted : Bool)
  | live (interrupted : Bool)
  | exiting (interrupted : Bool)
  deriving DecidableEq, Repr

structure State where
  process : Process
  work : Work
  wakeCondition : Int32
  signalPending : Bool
  deriving DecidableEq, Repr

inductive Act where
  | load
  | scheduleWork
  | signal
  | seeCondition
  | seeSignal
  | initReturns
  | exitCalled
  | exitReturns
  | start
  | msleep
  | setCondition
  | wakeUp
  | finish
  deriving DecidableEq, Repr

def unloaded : State := ⟨.unloaded,.idle,0,false⟩

inductive Step : State → Act → State → Prop where
  | load {s} (gone : s.process = .unloaded) : Step s .load ⟨.entered,.idle,0,false⟩
  | scheduleWork {s} (at_ : s.process = .entered) :
      Step s .scheduleWork { s with process := .waiting, work := .queued }
  | signal {s} (at_ : s.process = .waiting) : Step s .signal { s with signalPending := true }
  -- The wait looks at the condition first, and at the signals only while it is 0.
  | seeCondition {s} (at_ : s.process = .waiting) (set : s.wakeCondition ≠ 0) :
      Step s .seeCondition { s with process := .waited false }
  | seeSignal {s} (at_ : s.process = .waiting) (unset : s.wakeCondition = 0) (pending : s.signalPending = true) :
      Step s .seeSignal { s with process := .waited true }
  | initReturns {s r} (at_ : s.process = .waited r) : Step s .initReturns { s with process := .live r }
  | exitCalled {s r} (at_ : s.process = .live r) : Step s .exitCalled { s with process := .exiting r }
  | exitReturns {s r} (at_ : s.process = .exiting r) : Step s .exitReturns { s with process := .unloaded }
  | start {s} (code : s.process ≠ .unloaded) (at_ : s.work = .queued) : Step s .start { s with work := .entered }
  | msleep {s} (code : s.process ≠ .unloaded) (at_ : s.work = .entered) : Step s .msleep { s with work := .slept }
  | setCondition {s} (code : s.process ≠ .unloaded) (at_ : s.work = .slept) :
      Step s .setCondition { s with work := .conditionSet, wakeCondition := 1 }
  | wakeUp {s} (code : s.process ≠ .unloaded) (at_ : s.work = .conditionSet) :
      Step s .wakeUp { s with work := .woken }
  | finish {s} (code : s.process ≠ .unloaded) (at_ : s.work = .woken) : Step s .finish { s with work := .idle }

def SafeUnload (tr : Transition State Act) : Prop := tr.label = .exitReturns → tr.after.work = .idle

def Process.result : Process → Option Bool
  | .waited r | .live r | .exiting r => some r
  | _ => none

/- dog_exit returns after a wait that a signal ended, with the condition still unset,
or between the setting of the condition and the last message of simulate_io. -/
def EarlyUnload (s : State) (a : Act) : Prop :=
  a = .exitReturns ∧ ((s.process.result = some true ∧ s.wakeCondition = 0) ∨
    s.work = .conditionSet ∨ s.work = .woken)

def Work.Before : Work → Prop
  | .queued | .entered | .slept => True
  | _ => False

def Process.Queued : Process → Prop
  | .unloaded | .entered => False
  | _ => True

/- The condition is the mirror of the worker's progress, and a wait that no signal
ended has seen it set. -/
structure Sound (s : State) : Prop where
  unqueued : ¬ s.process.Queued → s.work = .idle ∧ (s.process = .entered → s.wakeCondition = 0)
  tracks : s.process.Queued → (s.wakeCondition = 0 ↔ s.work.Before)
  seen : s.process.result = some false → s.wakeCondition ≠ 0

theorem unloadedSound : Sound unloaded := by
  refine ⟨fun _ => ⟨rfl,fun at_ => ?_⟩,fun queued => queued.elim,fun result => ?_⟩
  · cases at_
  · cases result

theorem exitEarly {s : State} {r : Bool} (sound : Sound s) (at_ : s.process = .exiting r) :
    s.work = .idle ↔ ¬ EarlyUnload s .exitReturns := by
  have queued : s.process.Queued := by rw [at_]; trivial
  have tracks := sound.tracks queued
  have seen := sound.seen
  have result : s.process.result = some r := by rw [at_]; rfl
  simp only [EarlyUnload,result,true_and] at seen ⊢
  cases work : s.work with
  | idle =>
    rw [work] at tracks
    have set : s.wakeCondition ≠ 0 := fun zero => tracks.mp zero
    simp [set]
  | queued | entered | slept =>
    rw [work] at tracks
    have zero : s.wakeCondition = 0 := tracks.mpr trivial
    cases r with
    | false => exact absurd zero (seen rfl)
    | true => simp [zero]
  | conditionSet | woken => simp

theorem stepSafe {s t : State} {a : Act} (step : Step s a t) (sound : Sound s) :
    SafeUnload ⟨s,a,t⟩ ↔ ¬ EarlyUnload s a := by
  cases step with
  | exitReturns at_ =>
    rw [← exitEarly sound at_]
    exact ⟨fun safe => safe rfl,fun idle _ => idle⟩
  | _ =>
    refine ⟨fun _ early => ?_,fun _ label => ?_⟩
    · cases early.1
    · cases label

theorem workSound {s : State} (sound : Sound s) {work : Work} {condition : Int32}
    (busy : s.work ≠ .idle) (tracks : condition = 0 ↔ work.Before)
    (grows : condition = 0 → s.wakeCondition = 0) : Sound { s with work := work, wakeCondition := condition } := by
  have queued : s.process.Queued := by
    by_contra unqueued
    exact busy (sound.unqueued unqueued).1
  exact ⟨fun unqueued => absurd queued unqueued,fun _ => tracks,fun result => mt grows (sound.seen result)⟩

theorem processSound {s : State} (sound : Sound s) {process : Process} (before : s.process.Queued)
    (after : process.Queued) (seen : process.result = some false → s.wakeCondition ≠ 0) :
    Sound { s with process := process } :=
  ⟨fun unqueued => absurd after unqueued,fun _ => sound.tracks before,seen⟩

theorem stepSound {s t : State} {a : Act} (step : Step s a t) (sound : Sound s) (safe : SafeUnload ⟨s,a,t⟩) :
    Sound t := by
  cases step with
  | load gone => exact ⟨fun _ => ⟨rfl,fun _ => rfl⟩,fun queued => queued.elim,fun result => by cases result⟩
  | scheduleWork at_ =>
    have zero : s.wakeCondition = 0 := (sound.unqueued (by rw [at_]; exact id)).2 at_
    refine ⟨fun unqueued => absurd trivial unqueued,fun _ => ⟨fun _ => trivial,fun _ => zero⟩,fun result => ?_⟩
    cases result
  | signal at_ => exact ⟨sound.unqueued,sound.tracks,sound.seen⟩
  | seeCondition at_ set => exact processSound sound (by rw [at_]; trivial) trivial (fun _ => set)
  | seeSignal at_ unset pending =>
    exact processSound sound (by rw [at_]; trivial) trivial (fun result => by cases result)
  | initReturns at_ =>
    exact processSound sound (by rw [at_]; trivial) trivial (fun result => sound.seen (by rw [at_]; exact result))
  | exitCalled at_ =>
    exact processSound sound (by rw [at_]; trivial) trivial (fun result => sound.seen (by rw [at_]; exact result))
  | exitReturns at_ =>
    exact ⟨fun _ => ⟨safe rfl,fun entered => by cases entered⟩,fun queued => queued.elim,
      fun result => by cases result⟩
  | start code at_ | msleep code at_ | wakeUp code at_ | finish code at_ =>
    have queued : s.process.Queued := by
      by_contra unqueued
      rw [(sound.unqueued unqueued).1] at at_
      cases at_
    have tracks := sound.tracks queued
    rw [at_] at tracks
    exact workSound sound (by rw [at_]; simp) tracks id
  | setCondition code at_ =>
    have set : (1 : Int32) ≠ 0 := by decide
    exact workSound sound (by rw [at_]; simp) ⟨fun zero => absurd zero set,fun before => before.elim⟩
      (fun zero => absurd zero set)

theorem unloadsExact {log t} (run : Run Step unloaded log t) :
    (∀ tr ∈ log, SafeUnload tr) ↔ ∀ tr ∈ log, ¬ EarlyUnload tr.before tr.label :=
  runExact Sound (fun s a => ¬ EarlyUnload s a) (fun step sound => stepSafe step sound)
    (fun step sound safe => stepSound step sound safe) run unloadedSound

theorem waitedToTheEnd :
    ∃ log, Run Step unloaded log { unloaded with wakeCondition := 1 } ∧
      ((∀ tr ∈ log, SafeUnload tr) ↔ ∀ tr ∈ log, ¬ EarlyUnload tr.before tr.label) := by
  have run : Run Step unloaded _ { unloaded with wakeCondition := 1 } :=
    .cons (.load rfl) (.cons (.scheduleWork rfl) (.cons (.start (by decide) rfl) (.cons (.msleep (by decide) rfl)
      (.cons (.setCondition (by decide) rfl) (.cons (.wakeUp (by decide) rfl)
        (.cons (.seeCondition rfl (by decide)) (.cons (.initReturns rfl) (.cons (.finish (by decide) rfl)
          (.cons (.exitCalled rfl) (.cons (.exitReturns rfl) (.nil _)))))))))))
  exact ⟨_,run,unloadsExact run⟩

theorem signalUnloadsQueued : ¬ ∀ log t, Run Step unloaded log t → ∀ tr ∈ log, SafeUnload tr := by
  intro always
  have run : Run Step unloaded _ _ :=
    .cons (.load rfl) (.cons (.scheduleWork rfl) (.cons (.signal rfl) (.cons (.seeSignal rfl rfl rfl)
      (.cons (.initReturns rfl) (.cons (.exitCalled rfl) (.cons (.exitReturns rfl) (.nil _)))))))
  have safe := always _ _ run _ (.tail _ (.tail _ (.tail _ (.tail _ (.tail _ (.tail _ (.head _))))))) rfl
  cases safe

end KernelFacilities.WaitQueues
