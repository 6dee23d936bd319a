import KernelFacilities.Runs
import Mathlib.Data.List.Nodup
import Mathlib.Logic.Function.Basic

/-! Critical sections, one mutex for each object. Any number of calls run a code
between acquiring the mutex of their object and giving it back, and their steps
interleave freely; a code may also return with the mutex still held. The lists of those
that acquired and released are histories, which no step reads. Memory is sequentially
consistent here, and no fairness is assumed. -/
namespace KernelFacilities.LockedSections
open Runs

variable {ι κ σ Λ ρ : Type*}

inductive Exit where
  | unlocks
  | keeps
  deriving DecidableEq, Repr

inductive Move (σ Λ ρ : Type*) where
  | work (object : σ) (next : Λ)
  | exit (how : Exit) (result : ρ)

inductive Finishes (code : σ → Λ → Move σ Λ ρ) : σ → Λ → σ → Exit → ρ → Prop where
  | exit {o l how r} (ends : code o l = .exit how r) : Finishes code o l o how r
  | work {o l o' l' u how r} (moves : code o l = .work o' l') (rest : Finishes code o' l' u how r) :
      Finishes code o l u how r

theorem finishesWork {code : σ → Λ → Move σ Λ ρ} {o l o' l' u how r}
    (moves : code o l = .work o' l') (finishes : Finishes code o l u how r) :
    Finishes code o' l' u how r := by
  cases finishes with
  | exit ends => rw [moves] at ends; cases ends
  | work other rest =>
    rw [moves] at other
    cases other
    exact rest

theorem finishesExit {code : σ → Λ → Move σ Λ ρ} {o l u how how' r r'}
    (ends : code o l = .exit how' r') (finishes : Finishes code o l u how r) :
    u = o ∧ how' = how ∧ r' = r := by
  cases finishes with
  | exit other =>
    rw [ends] at other
    cases other
    exact ⟨rfl,rfl,rfl⟩
  | work moves rest => rw [ends] at moves; cases moves

/- What a call does between acquire and return, with the proof that alone it
always ends, how it ends, and what it then has done to the object. -/
structure CriticalSection (σ Λ ρ : Type*) where
  enter : Λ
  code : σ → Λ → Move σ Λ ρ
  interrupted : Option ρ
  alone : σ → σ × ρ
  exit : Exit
  finishes : ∀ o, Finishes code o enter (alone o).1 exit (alone o).2

structure Program (ι κ σ Λ ρ : Type*) where
  lockOf : ι → κ
  body : ι → CriticalSection σ Λ ρ

inductive Phase (Λ ρ : Type*) where
  | waiting
  | holding (at_ : Λ)
  | leaving (result : ρ)
  | returned (result : ρ)

def Phase.Returned : Phase Λ ρ → Prop
  | .returned _ => True
  | _ => False

def Phase.Settled : Phase Λ ρ → Prop
  | .waiting | .returned _ => True
  | _ => False

structure State (ι κ σ Λ ρ : Type*) where
  objects : κ → σ
  holder : κ → Option ι
  phase : ι → Phase Λ ρ
  acquired : List ι
  released : List ι

def start (objects : κ → σ) : State ι κ σ Λ ρ := ⟨objects,fun _ => none,fun _ => .waiting,[],[]⟩

inductive Act (ι : Type*) where
  | acquire (call : ι)
  | interrupt (call : ι)
  | work (call : ι)
  | unlock (call : ι)
  | leak (call : ι)
  | ret (call : ι)
  deriving DecidableEq, Repr

variable [DecidableEq κ]

def after (p : Program ι κ σ Λ ρ) (objects : κ → σ) : List ι → κ → σ
  | [] => objects
  | i :: rest => after p
      (Function.update objects (p.lockOf i) ((p.body i).alone (objects (p.lockOf i))).1) rest

def replies (p : Program ι κ σ Λ ρ) (objects : κ → σ) : List ι → List (ι × ρ)
  | [] => []
  | i :: rest => (i,((p.body i).alone (objects (p.lockOf i))).2) :: replies p
      (Function.update objects (p.lockOf i) ((p.body i).alone (objects (p.lockOf i))).1) rest

theorem afterSnoc (p : Program ι κ σ Λ ρ) (objects : κ → σ) (order : List ι) (i : ι) :
    after p objects (order ++ [i]) = Function.update (after p objects order) (p.lockOf i)
      ((p.body i).alone (after p objects order (p.lockOf i))).1 := by
  induction order generalizing objects with
  | nil => rfl
  | cons j rest ih => exact ih _

theorem repliesSnoc (p : Program ι κ σ Λ ρ) (objects : κ → σ) (order : List ι) (i : ι) :
    replies p objects (order ++ [i]) = replies p objects order ++
      [(i,((p.body i).alone (after p objects order (p.lockOf i))).2)] := by
  induction order generalizing objects with
  | nil => rfl
  | cons j rest ih =>
    simp only [List.cons_append,replies,after]
    rw [ih]

theorem repliesOrder (p : Program ι κ σ Λ ρ) (objects : κ → σ) (order : List ι) :
    (replies p objects order).map Prod.fst = order := by
  induction order generalizing objects with
  | nil => rfl
  | cons j rest ih => simp only [replies,List.map_cons,ih]

theorem acquiredReplies (p : Program ι κ σ Λ ρ) (objects : κ → σ) {order : List ι} {i} (mem : i ∈ order) :
    ∃ r, (i,r) ∈ replies p objects order := by
  rw [← repliesOrder p objects order] at mem
  obtain ⟨⟨j,r⟩,inside,rfl⟩ := List.mem_map.mp mem
  exact ⟨r,inside⟩

variable [DecidableEq ι]

inductive Step (p : Program ι κ σ Λ ρ) :
    State ι κ σ Λ ρ → Act ι → State ι κ σ Λ ρ → Prop where
  | acquire {s} (i) (waits : s.phase i = .waiting) (free : s.holder (p.lockOf i) = none) :
      Step p s (.acquire i) { s with
        holder := Function.update s.holder (p.lockOf i) (some i)
        phase := Function.update s.phase i (.holding (p.body i).enter)
        acquired := s.acquired ++ [i] }
  | interrupt {s r} (i) (waits : s.phase i = .waiting) (may : (p.body i).interrupted = some r) :
      Step p s (.interrupt i) { s with phase := Function.update s.phase i (.returned r) }
  | work {s l o l'} (i) (inside : s.phase i = .holding l)
      (moves : (p.body i).code (s.objects (p.lockOf i)) l = .work o l') :
      Step p s (.work i) { s with
        objects := Function.update s.objects (p.lockOf i) o
        phase := Function.update s.phase i (.holding l') }
  | unlock {s l r} (i) (inside : s.phase i = .holding l)
      (ends : (p.body i).code (s.objects (p.lockOf i)) l = .exit .unlocks r) :
      Step p s (.unlock i) { s with
        holder := Function.update s.holder (p.lockOf i) none
        phase := Function.update s.phase i (.leaving r)
        released := s.released ++ [i] }
  | leak {s l r} (i) (inside : s.phase i = .holding l)
      (ends : (p.body i).code (s.objects (p.lockOf i)) l = .exit .keeps r) :
      Step p s (.leak i) { s with phase := Function.update s.phase i (.returned r) }
  | ret {s r} (i) (leaves : s.phase i = .leaving r) :
      Step p s (.ret i) { s with phase := Function.update s.phase i (.returned r) }

def State.Owns (s : State ι κ σ Λ ρ) (i : ι) : Prop := s.released.count i < s.acquired.count i

def Balanced (body : CriticalSection σ Λ ρ) : Phase Λ ρ → Nat → Nat → Prop
  | .waiting, acquires, releases => acquires = 0 ∧ releases = 0
  | .holding _, acquires, releases => acquires = 1 ∧ releases = 0
  | .leaving _, acquires, releases => acquires = 1 ∧ releases = 1 ∧ body.exit = .unlocks
  | .returned r, acquires, releases =>
      (acquires = 1 ∧ releases = if body.exit = .unlocks then 1 else 0) ∨
        (acquires = 0 ∧ releases = 0 ∧ body.interrupted = some r)

/- The acquired calls are accounted for as if each had run to its end at the moment
it acquired: one still inside has exactly the rest of that run before it. -/
def Due (p : Program ι κ σ Λ ρ) (base : κ → σ) (s : State ι κ σ Λ ρ) (i : ι) (r : ρ) : Prop :=
  match s.phase i with
  | .waiting => False
  | .holding l => Finishes (p.body i).code (s.objects (p.lockOf i)) l
      (after p base s.acquired (p.lockOf i)) (p.body i).exit r
  | .leaving r' | .returned r' => r' = r

structure Inv (p : Program ι κ σ Λ ρ) (base : κ → σ) (s : State ι κ σ Λ ρ) : Prop where
  owner : ∀ k i, s.holder k = some i ↔ p.lockOf i = k ∧ s.Owns i
  balanced : ∀ i, Balanced (p.body i) (s.phase i) (s.acquired.count i) (s.released.count i)
  idle : ∀ k, (∀ i l, s.phase i = .holding l → p.lockOf i ≠ k) → s.objects k = after p base s.acquired k
  due : ∀ i r, (i,r) ∈ replies p base s.acquired → Due p base s i r

section Facts
variable {p : Program ι κ σ Λ ρ} {base : κ → σ} {s t : State ι κ σ Λ ρ} {a : Act ι}

theorem insideOwns (inv : Inv p base s) {i l} (inside : s.phase i = .holding l) : s.Owns i := by
  have balanced := inv.balanced i
  rw [inside] at balanced
  obtain ⟨acquires,releases⟩ := balanced
  unfold State.Owns
  omega

theorem insideHolds (inv : Inv p base s) {i l} (inside : s.phase i = .holding l) :
    s.holder (p.lockOf i) = some i :=
  (inv.owner _ i).mpr ⟨rfl,insideOwns inv inside⟩

theorem exclusive (inv : Inv p base s) {i j l l'} (inside : s.phase i = .holding l)
    (other : s.phase j = .holding l') (same : p.lockOf j = p.lockOf i) : j = i := by
  have first := insideHolds inv inside
  have second := insideHolds inv other
  rw [same,first] at second
  exact (Option.some.inj second).symm

theorem freeNobody (inv : Inv p base s) {k} (free : s.holder k = none) {i l}
    (inside : s.phase i = .holding l) : p.lockOf i ≠ k := by
  rintro rfl
  rw [insideHolds inv inside] at free
  cases free

theorem insideDue (inv : Inv p base s) {i l} (inside : s.phase i = .holding l) :
    ∃ r, (i,r) ∈ replies p base s.acquired ∧ Finishes (p.body i).code (s.objects (p.lockOf i)) l
      (after p base s.acquired (p.lockOf i)) (p.body i).exit r := by
  have owns := insideOwns inv inside
  obtain ⟨r,replied⟩ := acquiredReplies p base (List.count_pos_iff.mp (Nat.zero_lt_of_lt owns))
  have due := inv.due i r replied
  unfold Due at due
  rw [inside] at due
  exact ⟨r,replied,due⟩

omit [DecidableEq κ] in
theorem outsideStays {i j} (outside : ∀ l, s.phase i ≠ .holding l) {l}
    (inside : s.phase j = .holding l) (next : Phase Λ ρ) :
    Function.update s.phase i next j = .holding l := by
  have other : j ≠ i := fun same => outside l (same ▸ inside)
  rw [Function.update_of_ne other,inside]

theorem acquireOwns (inv : Inv p base s) {i} (waits : s.phase i = .waiting) (j : ι) :
    s.released.count j < (s.acquired ++ [i]).count j ↔ j = i ∨ s.Owns j := by
  have balanced := inv.balanced i
  rw [waits] at balanced
  rw [List.count_append,List.count_singleton]
  by_cases same : j = i
  · subst same
    simp [balanced.2]
  · simp [State.Owns,same,Ne.symm same]

theorem unlockOwns (inv : Inv p base s) {i l} (inside : s.phase i = .holding l) (j : ι) :
    (s.released ++ [i]).count j < s.acquired.count j ↔ j ≠ i ∧ s.Owns j := by
  have balanced := inv.balanced i
  rw [inside] at balanced
  rw [List.count_append,List.count_singleton]
  by_cases same : j = i
  · subst same
    simp [balanced.1]
  · simp [State.Owns,same,Ne.symm same]

theorem ownerKept (inv : Inv p base s) (step : Step p s a t) :
    ∀ k i, t.holder k = some i ↔ p.lockOf i = k ∧ t.Owns i := by
  intro k j
  have old := inv.owner k j
  cases step with
  | interrupt | work | leak | ret => exact old
  | acquire i waits free =>
    change Function.update s.holder (p.lockOf i) (some i) k = some j ↔
      p.lockOf j = k ∧ s.released.count j < (s.acquired ++ [i]).count j
    rw [acquireOwns inv waits,Function.update_apply]
    split
    · rename_i here
      subst here
      rw [free] at old
      grind
    · grind
  | unlock i inside ends =>
    have held := insideHolds inv inside
    change Function.update s.holder (p.lockOf i) none k = some j ↔
      p.lockOf j = k ∧ (s.released ++ [i]).count j < s.acquired.count j
    rw [unlockOwns inv inside,Function.update_apply]
    split
    · rename_i here
      subst here
      rw [held] at old
      grind
    · grind

theorem balancedKept (inv : Inv p base s) (step : Step p s a t) :
    ∀ i, Balanced (p.body i) (t.phase i) (t.acquired.count i) (t.released.count i) := by
  intro j
  have old := inv.balanced j
  cases step with
  | acquire i waits free =>
    by_cases same : j = i
    · subst same
      rw [waits] at old
      simpa [Balanced,List.count_append] using old
    · simpa [Function.update_of_ne same,List.count_append,List.count_singleton,Ne.symm same] using old
  | interrupt i waits may =>
    by_cases same : j = i
    · subst same
      rw [waits] at old
      simp [Balanced,old.1,old.2,may]
    · simpa [Function.update_of_ne same] using old
  | work i inside moves =>
    by_cases same : j = i
    · subst same
      rw [inside] at old
      simpa [Balanced] using old
    · simpa [Function.update_of_ne same] using old
  | unlock i inside ends =>
    obtain ⟨r,_,finishes⟩ := insideDue inv inside
    obtain ⟨_,how,_⟩ := finishesExit ends finishes
    by_cases same : j = i
    · subst same
      rw [inside] at old
      simp [Balanced,old.1,old.2,how]
    · simpa [Function.update_of_ne same,List.count_append,List.count_singleton,Ne.symm same] using old
  | leak i inside ends =>
    obtain ⟨r,_,finishes⟩ := insideDue inv inside
    obtain ⟨_,how,_⟩ := finishesExit ends finishes
    by_cases same : j = i
    · subst same
      rw [inside] at old
      simp [Balanced,old.1,old.2,← how]
    · simpa [Function.update_of_ne same] using old
  | ret i leaves =>
    by_cases same : j = i
    · subst same
      rw [leaves] at old
      simp [Balanced,old.1,old.2.1,old.2.2]
    · simpa [Function.update_of_ne same] using old

theorem exitIdle (inv : Inv p base s) {i l how r} (inside : s.phase i = .holding l)
    (ends : (p.body i).code (s.objects (p.lockOf i)) l = .exit how r) {next : Phase Λ ρ} {k}
    (nobody : ∀ j l, Function.update s.phase i next j = .holding l → p.lockOf j ≠ k) :
    s.objects k = after p base s.acquired k := by
  obtain ⟨r',_,finishes⟩ := insideDue inv inside
  by_cases here : p.lockOf i = k
  · subst here
    exact (finishesExit ends finishes).1.symm
  · refine inv.idle k (fun j l' inside' => ?_)
    by_cases same : j = i
    · exact same ▸ here
    · exact nobody j l' ((Function.update_of_ne same ..).trans inside')

theorem idleKept (inv : Inv p base s) (step : Step p s a t) :
    ∀ k, (∀ i l, t.phase i = .holding l → p.lockOf i ≠ k) → t.objects k = after p base t.acquired k := by
  intro k nobody
  cases step with
  | acquire i waits free =>
    have apart : p.lockOf i ≠ k := nobody i _ (Function.update_self ..)
    change s.objects k = after p base (s.acquired ++ [i]) k
    rw [afterSnoc,Function.update_of_ne (Ne.symm apart)]
    refine inv.idle k (fun j l inside => nobody j l ?_)
    exact outsideStays (by simp [waits]) inside _
  | interrupt i waits may =>
    exact inv.idle k (fun j l inside => nobody j l (outsideStays (by simp [waits]) inside _))
  | ret i leaves =>
    exact inv.idle k (fun j l inside => nobody j l (outsideStays (by simp [leaves]) inside _))
  | work i inside moves =>
    have apart : p.lockOf i ≠ k := nobody i _ (Function.update_self ..)
    change Function.update s.objects (p.lockOf i) _ k = after p base s.acquired k
    rw [Function.update_of_ne (Ne.symm apart)]
    refine inv.idle k (fun j l inside' => ?_)
    by_cases same : j = i
    · exact same ▸ apart
    · exact nobody j l ((Function.update_of_ne same ..).trans inside')
  | unlock i inside ends => exact exitIdle inv inside ends nobody
  | leak i inside ends => exact exitIdle inv inside ends nobody

omit [DecidableEq ι] in
theorem dueElsewhere {i r} (due : Due p base s i r) (same : t.phase i = s.phase i)
    (frame : ∀ l, s.phase i = .holding l → t.objects (p.lockOf i) = s.objects (p.lockOf i) ∧
      after p base t.acquired (p.lockOf i) = after p base s.acquired (p.lockOf i)) :
    Due p base t i r := by
  unfold Due at due ⊢
  rw [same]
  split at due
  · exact due
  · rename_i l inside
    obtain ⟨object,reference⟩ := frame l inside
    rw [object,reference]
    exact due
  · exact due
  · exact due

theorem dueKept (inv : Inv p base s) (step : Step p s a t) :
    ∀ i r, (i,r) ∈ replies p base t.acquired → Due p base t i r := by
  intro j r replied
  cases step with
  | acquire i waits free =>
    change (j,r) ∈ replies p base (s.acquired ++ [i]) at replied
    rw [repliesSnoc] at replied
    rcases List.mem_append.mp replied with old | new
    · have due := inv.due j r old
      have other : j ≠ i := by
        rintro rfl
        simp only [Due,waits] at due
      refine dueElsewhere due (Function.update_of_ne other ..) (fun l inside => ⟨rfl,?_⟩)
      exact (congrFun (afterSnoc ..) _).trans (Function.update_of_ne (freeNobody inv free inside) ..)
    · cases List.mem_singleton.mp new
      have reference := inv.idle (p.lockOf j) (fun _ _ => freeNobody inv free)
      simp only [Due,Function.update_self,afterSnoc,reference]
      exact (p.body j).finishes _
  | interrupt i waits may =>
    have due := inv.due j r replied
    have other : j ≠ i := by
      rintro rfl
      simp only [Due,waits] at due
    exact dueElsewhere due (Function.update_of_ne other ..) (fun _ _ => ⟨rfl,rfl⟩)
  | work i inside moves =>
    have due := inv.due j r replied
    by_cases same : j = i
    · subst same
      simp only [Due,inside] at due
      simp only [Due,Function.update_self]
      exact finishesWork moves due
    · refine dueElsewhere due (Function.update_of_ne same ..) (fun l other => ⟨?_,rfl⟩)
      have apart : p.lockOf j ≠ p.lockOf i := fun lock => same (exclusive inv inside other lock)
      exact Function.update_of_ne apart ..
  | unlock i inside ends =>
    have due := inv.due j r replied
    by_cases same : j = i
    · subst same
      simp only [Due,inside] at due
      simp only [Due,Function.update_self]
      exact (finishesExit ends due).2.2
    · exact dueElsewhere due (Function.update_of_ne same ..) (fun _ _ => ⟨rfl,rfl⟩)
  | leak i inside ends =>
    have due := inv.due j r replied
    by_cases same : j = i
    · subst same
      simp only [Due,inside] at due
      simp only [Due,Function.update_self]
      exact (finishesExit ends due).2.2
    · exact dueElsewhere due (Function.update_of_ne same ..) (fun _ _ => ⟨rfl,rfl⟩)
  | ret i leaves =>
    have due := inv.due j r replied
    by_cases same : j = i
    · subst same
      simp only [Due,leaves] at due
      simp only [Due,Function.update_self,due]
    · exact dueElsewhere due (Function.update_of_ne same ..) (fun _ _ => ⟨rfl,rfl⟩)

theorem stepKeeps (step : Step p s a t) (inv : Inv p base s) : Inv p base t :=
  ⟨ownerKept inv step,balancedKept inv step,idleKept inv step,dueKept inv step⟩

theorem startInv (p : Program ι κ σ Λ ρ) (base : κ → σ) : Inv p base (start base) :=
  ⟨fun k i => by simp [start,State.Owns],fun i => ⟨rfl,rfl⟩,fun _ _ => rfl,
    fun i r replied => by simp [start,replies] at replied⟩

theorem reachedInv {log} (run : Run (Step p) (start base) log t) : Inv p base t :=
  runKeeps (Inv p base) stepKeeps run (startInv p base)

structure Disciplined (p : Program ι κ σ Λ ρ) (s : State ι κ σ Λ ρ) : Prop where
  holder : ∀ k i, s.holder k = some i → p.lockOf i = k ∧ ¬ (s.phase i).Returned
  once : ∀ i, s.acquired.count i ≤ 1
  balance : ∀ i, (s.phase i).Returned → s.released.count i = s.acquired.count i
  free : (∀ i, i ∈ s.acquired → (s.phase i).Returned) → ∀ k, s.holder k = none

theorem returnedBalance (inv : Inv p base s) {i} (done : (s.phase i).Returned) :
    (i ∈ s.acquired ∧ s.acquired.count i = 1 ∧
        s.released.count i = if (p.body i).exit = .unlocks then 1 else 0) ∨
      (i ∉ s.acquired ∧ s.released.count i = 0 ∧
        ∃ r, s.phase i = .returned r ∧ (p.body i).interrupted = some r) := by
  have balanced := inv.balanced i
  cases at_ : s.phase i with
  | waiting | holding | leaving => rw [at_] at done; cases done
  | returned r =>
    rw [at_] at balanced
    rcases balanced with ⟨once,releases⟩ | ⟨never,releases,interrupted⟩
    · exact .inl ⟨List.count_pos_iff.mp (by omega),once,releases⟩
    · exact .inr ⟨List.count_eq_zero.mp never,releases,r,rfl,interrupted⟩

theorem acquiresOnce (inv : Inv p base s) (i : ι) : s.acquired.count i ≤ 1 := by
  have balanced := inv.balanced i
  cases point : s.phase i with
  | waiting | holding | leaving =>
    rw [point] at balanced
    have acquires := balanced.1
    omega
  | returned r =>
    rw [point] at balanced
    rcases balanced with ⟨once,_⟩ | ⟨never,_⟩
    · exact Nat.le_of_eq once
    · omega

theorem disciplinedExactly (inv : Inv p base s) :
    Disciplined p s ↔ ∀ i ∈ s.acquired, (s.phase i).Returned → (p.body i).exit = .unlocks := by
  constructor
  · intro disciplined i acquired done
    have balance := disciplined.balance i done
    rcases returnedBalance inv done with ⟨_,once,releases⟩ | ⟨never,_⟩
    · by_contra keeps
      rw [if_neg keeps] at releases
      omega
    · exact absurd acquired never
  · intro unlocks
    have inside : ∀ k i, s.holder k = some i → p.lockOf i = k ∧ ¬ (s.phase i).Returned := by
      intro k i held
      obtain ⟨lock,owns⟩ := (inv.owner k i).mp held
      refine ⟨lock,fun done => ?_⟩
      unfold State.Owns at owns
      rcases returnedBalance inv done with ⟨acquired,once,releases⟩ | ⟨never,releases,_⟩
      · rw [if_pos (unlocks i acquired done)] at releases
        omega
      · rw [List.count_eq_zero.mpr never] at owns
        omega
    refine ⟨inside,acquiresOnce inv,fun i done => ?_,fun all k => ?_⟩
    · rcases returnedBalance inv done with ⟨acquired,once,releases⟩ | ⟨never,releases,_⟩
      · rw [if_pos (unlocks i acquired done)] at releases
        omega
      · rw [releases,List.count_eq_zero.mpr never]
    · cases held : s.holder k with
      | none => rfl
      | some i =>
        have owns := ((inv.owner k i).mp held).2
        have acquired := List.count_pos_iff.mp (Nat.zero_lt_of_lt owns)
        exact absurd (all i acquired) (inside k i held).2

structure Serial (p : Program ι κ σ Λ ρ) (base : κ → σ) (s : State ι κ σ Λ ρ) : Prop where
  objects : s.objects = after p base s.acquired
  answers : ∀ i r, (i,r) ∈ replies p base s.acquired → s.phase i = .returned r
  once : s.acquired.Nodup
  others : ∀ i, i ∉ s.acquired → s.phase i = .waiting ∨
    ∃ r, s.phase i = .returned r ∧ (p.body i).interrupted = some r

theorem settledSerial (inv : Inv p base s) (settled : ∀ i, (s.phase i).Settled) : Serial p base s := by
  refine ⟨funext fun k => ?_,fun i r replied => ?_,?_,fun i outside => ?_⟩
  · refine inv.idle k (fun i l inside => ?_)
    have at_ := settled i
    rw [inside] at at_
    cases at_
  · have due := inv.due i r replied
    have at_ := settled i
    unfold Due at due
    cases point : s.phase i with
    | waiting => rw [point] at due; cases due
    | holding l => rw [point] at at_; cases at_
    | leaving r' => rw [point] at at_; cases at_
    | returned r' => rw [point] at due; rw [show r' = r from due]
  · exact List.nodup_iff_count_le_one.mpr (acquiresOnce inv)
  · cases point : s.phase i with
    | waiting => exact .inl rfl
    | holding l => have at_ := settled i; rw [point] at at_; cases at_
    | leaving r => have at_ := settled i; rw [point] at at_; cases at_
    | returned r =>
      have done : (s.phase i).Returned := by rw [point]; trivial
      rcases returnedBalance inv done with ⟨acquired,_⟩ | ⟨_,_,r',at_,interrupted⟩
      · exact absurd acquired outside
      · exact .inr ⟨r',point ▸ at_,interrupted⟩

theorem insideReturns {code : σ → Λ → Move σ Λ ρ} {i o l u how r} (finishes : Finishes code o l u how r)
    (same : code = (p.body i).code) (object : s.objects (p.lockOf i) = o) (inside : s.phase i = .holding l) :
    ∃ log t, Run (Step p) s log t ∧ t.acquired = s.acquired ∧ t.phase = Function.update s.phase i (.returned r) := by
  induction finishes generalizing s with
  | @exit o l how r ends =>
    subst same object
    cases how with
    | keeps => exact ⟨_,_,.cons (.leak i inside ends) (.nil _),rfl,rfl⟩
    | unlocks =>
      let left : State ι κ σ Λ ρ := { s with
        holder := Function.update s.holder (p.lockOf i) none
        phase := Function.update s.phase i (.leaving r)
        released := s.released ++ [i] }
      have unlocked : Step p s (.unlock i) left := .unlock i inside ends
      have point : left.phase i = .leaving r := Function.update_self ..
      exact ⟨_,_,.cons unlocked (.cons (.ret i point) (.nil _)),rfl,Function.update_idem ..⟩
  | @work o l o' l' u how r moves rest ih =>
    subst same object
    let next : State ι κ σ Λ ρ := { s with
      objects := Function.update s.objects (p.lockOf i) o'
      phase := Function.update s.phase i (.holding l') }
    have worked : Step p s (.work i) next := .work i inside moves
    have object : next.objects (p.lockOf i) = o' := Function.update_self ..
    have point : next.phase i = .holding l' := Function.update_self ..
    obtain ⟨log,t,run,acquired,done⟩ := ih object point
    exact ⟨_,t,.cons worked run,acquired,done.trans (Function.update_idem ..)⟩

theorem callReturns (p : Program ι κ σ Λ ρ) (base : κ → σ) (i : ι) :
    ∃ log t, Run (Step p) (start base) log t ∧ i ∈ t.acquired ∧ (t.phase i).Returned := by
  let inside : State ι κ σ Λ ρ := ⟨base,Function.update (fun _ => none) (p.lockOf i) (some i),
    Function.update (fun _ => .waiting) i (.holding (p.body i).enter),[i],[]⟩
  have entered : Step p (start base) (.acquire i) inside := .acquire i rfl rfl
  have point : inside.phase i = .holding (p.body i).enter := by simp only [inside,Function.update_self]
  obtain ⟨log,t,run,acquired,done⟩ := insideReturns ((p.body i).finishes _) rfl rfl point
  refine ⟨_,t,.cons entered run,acquired ▸ List.mem_singleton.mpr rfl,?_⟩
  rw [done,Function.update_self]
  trivial

/- A family of calls keeps the discipline in every interleaving exactly when none of
them, run alone, would return with its mutex held; and a state shows the defect
exactly when such a call has been through. -/
theorem disciplineExactly (p : Program ι κ σ Λ ρ) (base : κ → σ) {keeps : ι → Prop}
    (exits : ∀ i, (p.body i).exit = .unlocks ↔ ¬ keeps i) :
    ((∀ log t, Run (Step p) (start base) log t → Disciplined p t) ↔ ∀ i, ¬ keeps i) ∧
    ∀ log t, Run (Step p) (start base) log t →
      (Disciplined p t ↔ ∀ i ∈ t.acquired, (t.phase i).Returned → ¬ keeps i) := by
  have reached : ∀ log t, Run (Step p) (start base) log t →
      (Disciplined p t ↔ ∀ i ∈ t.acquired, (t.phase i).Returned → ¬ keeps i) := by
    intro log t run
    rw [disciplinedExactly (reachedInv run)]
    exact forall_congr' fun i => forall_congr' fun _ => forall_congr' fun _ => exits i
  refine ⟨⟨fun always i => ?_,fun none_ log t run => ?_⟩,reached⟩
  · obtain ⟨log,t,run,acquired,done⟩ := callReturns p base i
    exact (reached log t run).mp (always log t run) i acquired done
  · exact (reached log t run).mpr (fun i _ _ => none_ i)

end Facts

end KernelFacilities.LockedSections
