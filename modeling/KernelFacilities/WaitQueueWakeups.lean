import KernelFacilities.WaitQueues

/-! The wait of the wait-queue module, one kernel step after another: the entry on the
queue, the state of the task, the condition looked at again before the task gives
up the processor. A task that sleeps runs again when it is woken or signalled. That
a step which can be taken is taken in the end is for the scheduler. -/
namespace KernelFacilities.WaitQueueWakeups
open Runs WaitQueues

inductive Point where
  | unloaded
  | entered
  | checking
  | preparing
  | prepared (signalled : Bool)
  | scheduling
  | waited (interrupted : Bool)
  | live (interrupted : Bool)
  | exiting (interrupted : Bool)
  deriving DecidableEq, Repr

structure Task where
  point : Point
  work : Work
  wakeCondition : Int32
  signalPending : Bool
  running : Bool
  queued : Bool
  deriving DecidableEq, Repr

inductive Move where
  | load
  | scheduleWork
  | signal
  | checkFirst
  | prepareToWait
  | checkAgain
  | schedule
  | initReturns
  | exitCalled
  | exitReturns
  | start
  | msleep
  | setCondition
  | wakeUp
  | finish
  deriving DecidableEq, Repr

def Point.Waiting : Point → Prop
  | .checking | .preparing | .prepared _ | .scheduling => True
  | _ => False

def gone : Task := ⟨.unloaded,.idle,0,false,true,false⟩

def justLoaded : Task := ⟨.entered,.idle,0,false,true,false⟩

inductive Moves : Task → Move → Task → Prop where
  | load {s} (at_ : s.point = .unloaded) : Moves s .load justLoaded
  | scheduleWork {s} (at_ : s.point = .entered) :
      Moves s .scheduleWork { s with point := .checking, work := .queued }
  | signal {s} (at_ : s.point.Waiting) : Moves s .signal { s with signalPending := true, running := true }
  | seeFirst {s} (at_ : s.point = .checking) (set : s.wakeCondition ≠ 0) :
      Moves s .checkFirst { s with point := .waited false }
  | missFirst {s} (at_ : s.point = .checking) (unset : s.wakeCondition = 0) :
      Moves s .checkFirst { s with point := .preparing }
  | prepareSignalled {s} (at_ : s.point = .preparing) (pending : s.signalPending = true) :
      Moves s .prepareToWait { s with point := .prepared true, queued := false }
  | prepare {s} (at_ : s.point = .preparing) (calm : s.signalPending = false) :
      Moves s .prepareToWait { s with point := .prepared false, running := false, queued := true }
  | seeAgain {s r} (at_ : s.point = .prepared r) (set : s.wakeCondition ≠ 0) :
      Moves s .checkAgain { s with point := .waited false, running := true, queued := false }
  | giveUp {s} (at_ : s.point = .prepared true) (unset : s.wakeCondition = 0) :
      Moves s .checkAgain { s with point := .waited true }
  | missAgain {s} (at_ : s.point = .prepared false) (unset : s.wakeCondition = 0) :
      Moves s .checkAgain { s with point := .scheduling }
  | schedule {s} (at_ : s.point = .scheduling) (runs : s.running = true) :
      Moves s .schedule { s with point := .preparing }
  | initReturns {s r} (at_ : s.point = .waited r) : Moves s .initReturns { s with point := .live r }
  | exitCalled {s r} (at_ : s.point = .live r) : Moves s .exitCalled { s with point := .exiting r }
  | exitReturns {s r} (at_ : s.point = .exiting r) : Moves s .exitReturns { s with point := .unloaded }
  | start {s} (code : s.point ≠ .unloaded) (at_ : s.work = .queued) : Moves s .start { s with work := .entered }
  | msleep {s} (code : s.point ≠ .unloaded) (at_ : s.work = .entered) : Moves s .msleep { s with work := .slept }
  | setCondition {s} (code : s.point ≠ .unloaded) (at_ : s.work = .slept) :
      Moves s .setCondition { s with work := .conditionSet, wakeCondition := 1 }
  | wakeUp {s} (code : s.point ≠ .unloaded) (at_ : s.work = .conditionSet) :
      Moves s .wakeUp { s with work := .woken, running := s.running || s.queued, queued := false }
  | finish {s} (code : s.point ≠ .unloaded) (at_ : s.work = .woken) : Moves s .finish { s with work := .idle }

def Point.Queued : Point → Prop
  | .unloaded | .entered => False
  | _ => True

structure Awaited (s : Task) : Prop where
  fresh : s.point = .entered → s.work = .idle ∧ s.wakeCondition = 0 ∧ s.signalPending = false
  tracks : s.point.Queued → (s.wakeCondition = 0 ↔ s.work.Before)
  signalled : s.point = .prepared true → s.signalPending = true
  asleep : s.point = .prepared false ∨ s.point = .scheduling → s.running = false →
    s.queued = true ∧ s.signalPending = false
  toCome : s.point = .scheduling → s.running = false → s.work.Before ∨ s.work = .conditionSet
  seen : s.point = .waited false → s.wakeCondition ≠ 0

theorem goneAwaited : Awaited gone := by
  constructor <;> simp [gone,Point.Queued]

theorem waitingQueued {p : Point} (waits : p.Waiting) : p.Queued ∧ p ≠ .entered := by
  cases p <;> simp_all [Point.Waiting,Point.Queued]

theorem awakeAwaited {t : Task} (started : t.point ≠ .entered) (signalled : t.point ≠ .prepared true)
    (unprepared : t.point ≠ .prepared false) (unscheduled : t.point ≠ .scheduling)
    (tracks : t.point.Queued → (t.wakeCondition = 0 ↔ t.work.Before))
    (seen : t.point = .waited false → t.wakeCondition ≠ 0) : Awaited t :=
  ⟨fun at_ => absurd at_ started,tracks,fun at_ => absurd at_ signalled,
    fun at_ => absurd at_ (not_or.mpr ⟨unprepared,unscheduled⟩),fun at_ => absurd at_ unscheduled,seen⟩

theorem workerAwaited {s : Task} (awaited : Awaited s) (busy : s.work ≠ .idle) {work : Work} {condition : Int32}
    (tracks : s.point.Queued → (condition = 0 ↔ work.Before))
    (toCome : s.work.Before ∨ s.work = .conditionSet → work.Before ∨ work = .conditionSet)
    (grows : condition = 0 → s.wakeCondition = 0) : Awaited { s with work := work, wakeCondition := condition } :=
  ⟨fun at_ => absurd (awaited.fresh at_).1 busy,tracks,awaited.signalled,awaited.asleep,
    fun at_ sleeps => toCome (awaited.toCome at_ sleeps),fun at_ => mt grows (awaited.seen at_)⟩

theorem queuedBefore {s : Task} (awaited : Awaited s) (queued : s.point.Queued) {work : Work}
    (same : s.work.Before ↔ work.Before) : s.wakeCondition = 0 ↔ work.Before :=
  (awaited.tracks queued).trans same

theorem moveAwaited {s t : Task} {m : Move} (moves : Moves s m t) (awaited : Awaited s) : Awaited t := by
  have tracks := awaited.tracks
  cases moves with
  | load at_ => constructor <;> simp [justLoaded,Point.Queued]
  | scheduleWork at_ =>
    obtain ⟨_,zero,_⟩ := awaited.fresh at_
    exact awakeAwaited (by simp) (by simp) (by simp) (by simp) (fun _ => ⟨fun _ => trivial,fun _ => zero⟩) (by simp)
  | signal at_ =>
    obtain ⟨queued,started⟩ := waitingQueued at_
    refine ⟨fun here => absurd here started,tracks,fun _ => rfl,fun _ sleeps => ?_,fun _ sleeps => ?_,awaited.seen⟩
    · cases sleeps
    · cases sleeps
  | seeFirst at_ set | seeAgain at_ set =>
    exact awakeAwaited (by simp) (by simp) (by simp) (by simp) (fun _ => tracks (by rw [at_]; trivial)) fun _ => set
  | missFirst at_ unset | giveUp at_ unset =>
    exact awakeAwaited (by simp) (by simp) (by simp) (by simp) (fun _ => tracks (by rw [at_]; trivial)) (by simp)
  | prepareSignalled at_ pending =>
    refine ⟨by simp,fun _ => tracks (by rw [at_]; trivial),fun _ => pending,by simp,by simp,by simp⟩
  | prepare at_ calm =>
    exact ⟨by simp,fun _ => tracks (by rw [at_]; trivial),by simp,fun _ _ => ⟨rfl,calm⟩,by simp,by simp⟩
  | missAgain at_ unset =>
    -- The condition was still 0 after the task went on the queue, so the worker has not woken it yet.
    have before := (tracks (by rw [at_]; trivial)).mp unset
    exact ⟨by simp,fun _ => tracks (by rw [at_]; trivial),by simp,fun _ => awaited.asleep (.inl at_),
      fun _ _ => .inl before,by simp⟩
  | schedule at_ runs | initReturns at_ | exitCalled at_ =>
    exact awakeAwaited (by simp) (by simp) (by simp) (by simp) (fun _ => tracks (by rw [at_]; trivial)) (by simp)
  | exitReturns at_ =>
    exact awakeAwaited (by simp) (by simp) (by simp) (by simp) (fun queued => queued.elim) (by simp)
  | start code at_ | msleep code at_ =>
    refine workerAwaited awaited (by simp [at_]) (fun queued => ?_) (fun _ => .inl trivial) id
    exact queuedBefore awaited queued (by simp [at_,Work.Before])
  | setCondition code at_ =>
    have set : (1 : Int32) ≠ 0 := by decide
    exact workerAwaited awaited (by simp [at_]) (fun _ => ⟨fun zero => absurd zero set,fun before => before.elim⟩)
      (fun _ => .inr rfl) fun zero => absurd zero set
  | wakeUp code at_ =>
    have awake : s.point = .prepared false ∨ s.point = .scheduling → (s.running || s.queued) = true := by
      intro here
      cases running : s.running with
      | true => rfl
      | false => exact (awaited.asleep here running).1
    refine ⟨fun here => absurd (awaited.fresh here).1 (by simp [at_]),fun queued => ?_,awaited.signalled,
      fun here sleeps => ?_,fun here sleeps => ?_,awaited.seen⟩
    · exact queuedBefore awaited queued (by simp [at_,Work.Before])
    · cases (awake here).symm.trans sleeps
    · cases (awake (.inr here)).symm.trans sleeps
  | finish code at_ =>
    refine ⟨fun here => absurd (awaited.fresh here).1 (by simp [at_]),fun queued => ?_,awaited.signalled,
      awaited.asleep,fun here sleeps => ?_,awaited.seen⟩
    · exact queuedBefore awaited queued (by simp [at_,Work.Before])
    · have toCome := awaited.toCome here sleeps
      simp [at_,Work.Before] at toCome

def Point.process : Point → Process
  | .unloaded => .unloaded
  | .entered => .entered
  | .checking | .preparing | .prepared _ | .scheduling => .waiting
  | .waited r => .waited r
  | .live r => .live r
  | .exiting r => .exiting r

def view (s : Task) : State := ⟨s.point.process,s.work,s.wakeCondition,s.signalPending⟩

theorem stillLoaded {p : Point} (loaded : p ≠ .unloaded) : p.process ≠ .unloaded := by
  cases p <;> simp_all [Point.process]

theorem waitingProcess {p : Point} (waits : p.Waiting) : p.process = .waiting := by
  cases p <;> simp_all [Point.process,Point.Waiting]

theorem moveRefines {s t : Task} {m : Move} (moves : Moves s m t) (awaited : Awaited s) :
    ∃ log, Run WaitQueues.Step (view s) log (view t) := by
  have one : ∀ {a}, WaitQueues.Step (view s) a (view t) → ∃ log, Run WaitQueues.Step (view s) log (view t) :=
    fun step => ⟨_,.cons step (.nil _)⟩
  have same : view t = view s → ∃ log, Run WaitQueues.Step (view s) log (view t) := fun eq => eq ▸ ⟨[],.nil _⟩
  cases moves with
  | load at_ => exact one (.load (congrArg Point.process at_))
  | scheduleWork at_ => exact one (.scheduleWork (congrArg Point.process at_))
  | signal at_ => exact one (.signal (waitingProcess at_))
  | seeFirst at_ set => exact one (.seeCondition (congrArg Point.process at_) set)
  | missFirst at_ unset => exact same (by simp [view,at_,Point.process])
  | prepareSignalled at_ pending => exact same (by simp [view,at_,Point.process])
  | prepare at_ calm => exact same (by simp [view,at_,Point.process])
  | seeAgain at_ set => exact one (.seeCondition (congrArg Point.process at_) set)
  | giveUp at_ unset => exact one (.seeSignal (congrArg Point.process at_) unset (awaited.signalled at_))
  | missAgain at_ unset => exact same (by simp [view,at_,Point.process])
  | schedule at_ runs => exact same (by simp [view,at_,Point.process])
  | initReturns at_ => exact one (.initReturns (congrArg Point.process at_))
  | exitCalled at_ => exact one (.exitCalled (congrArg Point.process at_))
  | exitReturns at_ => exact one (.exitReturns (congrArg Point.process at_))
  | start code at_ => exact one (.start (stillLoaded code) at_)
  | msleep code at_ => exact one (.msleep (stillLoaded code) at_)
  | setCondition code at_ => exact one (.setCondition (stillLoaded code) at_)
  | wakeUp code at_ => exact one (.wakeUp (stillLoaded code) at_)
  | finish code at_ => exact one (.finish (stillLoaded code) at_)

theorem runRefines {log t} (run : Run Moves gone log t) :
    ∃ image, Run WaitQueues.Step WaitQueues.unloaded image (view t) := by
  let rel (s : Task) (u : State) : Prop := u = view s ∧ Awaited s
  have follows : ∀ {s a t u}, Moves s a t → rel s u → ∃ some v, Run WaitQueues.Step u some v ∧ rel t v := by
    rintro s a t _ moves ⟨rfl,awaited⟩
    obtain ⟨steps,matched⟩ := moveRefines moves awaited
    exact ⟨steps,_,matched,rfl,moveAwaited moves awaited⟩
  obtain ⟨image,_,matched,rfl,_⟩ := runMatched rel follows run ⟨rfl,goneAwaited⟩
  exact ⟨image,matched⟩

structure NoLostWakeUp (s : Task) : Prop where
  toCome : s.point = .scheduling → s.running = false →
    s.queued = true ∧ s.signalPending = false ∧ (s.work.Before ∨ s.work = .conditionSet)
  ended : s.point = .waited false → s.wakeCondition ≠ 0
  refines : ∃ image, Run WaitQueues.Step WaitQueues.unloaded image (view s)

theorem wakeUpNeverLost {log t} (run : Run Moves gone log t) : NoLostWakeUp t := by
  have awaited : Awaited t := runKeeps Awaited moveAwaited run goneAwaited
  refine ⟨fun at_ sleeps => ?_,awaited.seen,runRefines run⟩
  obtain ⟨queued,calm⟩ := awaited.asleep (.inr at_) sleeps
  exact ⟨queued,calm,awaited.toCome at_ sleeps⟩

/- What is left to do at most: of the worker, of the wait, one more round after a
signal, and one after the wake-up. -/
def workLeft : Work → Nat
  | .queued => 8
  | .entered => 7
  | .slept => 6
  | .conditionSet => 5
  | .woken => 1
  | .idle => 0

def roundLeft (running : Bool) : Point → Nat
  | .checking => 4
  | .preparing => 3
  | .prepared true => 2
  | .prepared false => if running then 5 else 2
  | .scheduling => if running then 4 else 1
  | .waited _ => 1
  | _ => 0

def Task.left (s : Task) : Nat :=
  if s.point = .entered then 16
  else workLeft s.work + roundLeft s.running s.point + if s.signalPending then 0 else 3

def Inside : Point → Prop
  | .unloaded | .exiting _ => False
  | _ => True

theorem roundShrinks (running : Bool) (p : Point) : roundLeft running p ≤ roundLeft true p ∧
    roundLeft true p ≤ roundLeft running p + 3 := by
  cases p with
  | prepared r => cases r <;> cases running <;> decide
  | scheduling => cases running <;> decide
  | _ => exact ⟨Nat.le_refl _,Nat.le_add_right ..⟩

theorem moveSpends {s t : Task} {m : Move} (moves : Moves s m t) (awaited : Awaited s) (inside : Inside s.point)
    (stays : m ≠ .exitCalled) : Inside t.point ∧ t.left + (if m = .signal then 0 else 1) ≤ s.left := by
  have notEntered : ∀ {w : Work}, s.work = w → w ≠ .idle → s.point ≠ .entered :=
    fun at_ busy here => busy (at_.symm.trans (awaited.fresh here).1)
  cases moves with
  | load at_ => rw [at_] at inside; exact inside.elim
  | exitReturns at_ => rw [at_] at inside; exact inside.elim
  | exitCalled at_ => exact absurd rfl stays
  | scheduleWork at_ =>
    obtain ⟨_,_,calm⟩ := awaited.fresh at_
    simp [Inside,Task.left,at_,calm,workLeft,roundLeft]
  | signal at_ =>
    obtain ⟨_,started⟩ := waitingQueued at_
    refine ⟨inside,?_⟩
    have most := (roundShrinks s.running s.point).2
    have already : s.signalPending = true → roundLeft true s.point = roundLeft s.running s.point := by
      intro pending
      cases running : s.running with
      | true => rfl
      | false =>
        have asleep := fun here => (awaited.asleep here running).2.symm.trans pending
        cases point : s.point <;> simp_all [roundLeft]
    cases pending : s.signalPending with
    | true => simp [Task.left,started,pending,already pending]
    | false =>
      simp [Task.left,started,pending]
      omega
  | seeFirst at_ set | missFirst at_ unset | giveUp at_ unset | initReturns at_ =>
    refine ⟨trivial,?_⟩
    simp only [Task.left,at_,roundLeft,reduceCtorEq,if_false]
    omega
  | prepareSignalled at_ pending | prepare at_ calm =>
    refine ⟨trivial,?_⟩
    simp only [Task.left,at_,roundLeft,reduceCtorEq,if_false]
    omega
  | @seeAgain r at_ set =>
    refine ⟨trivial,?_⟩
    have one : roundLeft true (.waited false) = 1 := rfl
    have least : 2 ≤ roundLeft s.running (.prepared r) := by
      cases r with
      | true => exact Nat.le_refl 2
      | false => cases s.running <;> decide
    simp only [Task.left,at_,one,reduceCtorEq,if_false]
    omega
  | missAgain at_ unset =>
    refine ⟨trivial,?_⟩
    cases running : s.running with
    | true =>
      simp only [Task.left,at_,running,roundLeft,reduceCtorEq,if_false,if_true]
      omega
    | false =>
      simp only [Task.left,at_,running,roundLeft,reduceCtorEq,if_false,Bool.false_eq_true]
      omega
  | schedule at_ runs =>
    refine ⟨trivial,?_⟩
    simp only [Task.left,at_,runs,roundLeft,reduceCtorEq,if_false,if_true]
    omega
  | start code at_ | msleep code at_ | setCondition code at_ | finish code at_ =>
    have busy := notEntered at_ (by simp)
    refine ⟨inside,?_⟩
    simp only [Task.left,busy,at_,workLeft,reduceCtorEq,if_false]
    omega
  | wakeUp code at_ =>
    have busy := notEntered at_ (by simp)
    have most := (roundShrinks (s.running || s.queued) s.point).1
    have least := (roundShrinks s.running s.point).2
    refine ⟨inside,?_⟩
    simp only [Task.left,busy,at_,workLeft,reduceCtorEq,if_false]
    omega

def own (tr : Transition Task Move) : Bool := tr.label != .signal

theorem runSpends {log s t} (run : Run Moves s log t) (awaited : Awaited s) (inside : Inside s.point)
    (stays : ∀ tr ∈ log, tr.label ≠ .exitCalled) :
    Awaited t ∧ Inside t.point ∧ t.left + log.countP own ≤ s.left := by
  induction run with
  | nil => exact ⟨awaited,inside,Nat.le_refl _⟩
  | @cons s m t log u head tail ih =>
    obtain ⟨next,less⟩ := moveSpends head awaited inside (stays _ List.mem_cons_self)
    obtain ⟨last,within,rest⟩ := ih (moveAwaited head awaited) next fun tr mem => stays tr (List.mem_cons_of_mem _ mem)
    refine ⟨last,within,?_⟩
    rw [List.countP_cons]
    by_cases signalled : m = .signal
    · have foreign : own ⟨s,m,t⟩ = false := by simp [own,signalled]
      rw [if_pos signalled] at less
      rw [foreign,if_neg Bool.false_ne_true]
      omega
    · have counts : own ⟨s,m,t⟩ = true := by simp [own,signalled]
      rw [if_neg signalled] at less
      rw [if_pos counts]
      omega

theorem stuckDone {t : Task} (awaited : Awaited t) (inside : Inside t.point)
    (stuck : ∀ m u, Moves t m u → m = .signal ∨ m = .exitCalled) : (∃ r, t.point = .live r) ∧ t.work = .idle := by
  have halted : ∀ {m u}, Moves t m u → m ≠ .signal → m ≠ .exitCalled → False :=
    fun moves calm stays => (stuck _ _ moves).elim calm stays
  have loaded : t.point ≠ .unloaded := fun gone => by rw [gone] at inside; exact inside
  have idle : t.work = .idle := by
    cases at_ : t.work with
    | idle => rfl
    | queued => exact (halted (.start loaded at_) (by simp) (by simp)).elim
    | entered => exact (halted (.msleep loaded at_) (by simp) (by simp)).elim
    | slept => exact (halted (.setCondition loaded at_) (by simp) (by simp)).elim
    | conditionSet => exact (halted (.wakeUp loaded at_) (by simp) (by simp)).elim
    | woken => exact (halted (.finish loaded at_) (by simp) (by simp)).elim
  refine ⟨?_,idle⟩
  cases at_ : t.point with
  | live r => exact ⟨r,rfl⟩
  | unloaded => exact absurd at_ loaded
  | exiting r => rw [at_] at inside; exact inside.elim
  | entered => exact (halted (.scheduleWork at_) (by simp) (by simp)).elim
  | waited r => exact (halted (.initReturns at_) (by simp) (by simp)).elim
  | checking =>
    by_cases zero : t.wakeCondition = 0
    · exact (halted (.missFirst at_ zero) (by simp) (by simp)).elim
    · exact (halted (.seeFirst at_ zero) (by simp) (by simp)).elim
  | preparing =>
    cases pending : t.signalPending with
    | true => exact (halted (.prepareSignalled at_ pending) (by simp) (by simp)).elim
    | false => exact (halted (.prepare at_ pending) (by simp) (by simp)).elim
  | prepared r =>
    by_cases zero : t.wakeCondition = 0
    · cases r with
      | true => exact (halted (.giveUp at_ zero) (by simp) (by simp)).elim
      | false => exact (halted (.missAgain at_ zero) (by simp) (by simp)).elim
    · exact (halted (.seeAgain at_ zero) (by simp) (by simp)).elim
  | scheduling =>
    cases running : t.running with
    | true => exact (halted (.schedule at_ running) (by simp) (by simp)).elim
    | false =>
      have toCome := awaited.toCome at_ running
      simp [idle,Work.Before] at toCome

/- However the steps and the signals interleave, dog_init and simulate_io take no more
than sixteen steps together, and when they can take no other, both have returned. -/
theorem waitEnds {log t} (run : Run Moves justLoaded log t) (stays : ∀ tr ∈ log, tr.label ≠ .exitCalled) :
    log.countP own ≤ 16 ∧
    ((∀ m u, Moves t m u → m = .signal ∨ m = .exitCalled) → (∃ r, t.point = .live r) ∧ t.work = .idle) := by
  have start : Awaited justLoaded := moveAwaited (.load rfl) goneAwaited
  obtain ⟨awaited,inside,less⟩ := runSpends run start trivial stays
  have all : justLoaded.left = 16 := rfl
  exact ⟨by omega,stuckDone awaited inside⟩

theorem wokenBeforeSleep : ∃ log t, Run Moves gone log t ∧ t.point = .waited false ∧ NoLostWakeUp t := by
  have run : Run Moves gone _ _ :=
    .cons (.load rfl) (.cons (.scheduleWork rfl) (.cons (.missFirst rfl rfl) (.cons (.start (by decide) rfl)
      (.cons (.msleep (by decide) rfl) (.cons (.prepare rfl rfl) (.cons (.missAgain rfl rfl)
        (.cons (.setCondition (by decide) rfl) (.cons (.wakeUp (by decide) rfl) (.cons (.schedule rfl rfl)
          (.cons (.prepare rfl rfl) (.cons (.seeAgain rfl (by decide)) (.nil _))))))))))))
  exact ⟨_,_,run,rfl,wakeUpNeverLost run⟩

theorem signalEndsWait : ∃ log t, Run Moves justLoaded log t ∧ t.point = .live true ∧
    log.countP own ≤ 16 := by
  have run : Run Moves justLoaded _ _ :=
    .cons (.scheduleWork rfl) (.cons (.missFirst rfl rfl) (.cons (.prepare rfl rfl) (.cons (.missAgain rfl rfl)
      (.cons (.signal trivial) (.cons (.schedule rfl rfl) (.cons (.prepareSignalled rfl rfl)
        (.cons (.giveUp rfl rfl) (.cons (.initReturns rfl) (.nil _)))))))))
  exact ⟨_,_,run,rfl,(waitEnds run (by simp)).1⟩

end KernelFacilities.WaitQueueWakeups
