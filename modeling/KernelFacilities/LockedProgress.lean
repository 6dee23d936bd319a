import KernelFacilities.LockedSections
import Mathlib.Algebra.BigOperators.Group.Finset.Basic
import Mathlib.Algebra.Order.BigOperators.Group.Finset
import Mathlib.Data.Fintype.Basic
import Mathlib.Order.WellFounded

/-! What becomes of the calls of a family of critical sections: which can still
return, which wait for ever, in which order they took effect. A mutex kept by a
returning call is never given back, and every section is finite, so nothing here
needs fairness. -/
namespace KernelFacilities.LockedProgress
open LockedSections Runs

variable {ι κ σ Λ ρ : Type*} [DecidableEq ι] [DecidableEq κ]
variable {p : Program ι κ σ Λ ρ} {base : κ → σ} {s t : State ι κ σ Λ ρ} {a : Act ι}

section Order

theorem acquiredGrows (step : Step p s a t) : ∃ later, t.acquired = s.acquired ++ later := by
  cases step with
  | acquire i waits free => exact ⟨[i],rfl⟩
  | interrupt | work | unlock | leak | ret => exact ⟨[],(List.append_nil _).symm⟩

theorem acquiredExtends {log} (run : Run (Step p) s log t) : ∃ later, t.acquired = s.acquired ++ later := by
  induction run with
  | nil => exact ⟨[],(List.append_nil _).symm⟩
  | cons head tail ih =>
    obtain ⟨first,grown⟩ := acquiredGrows head
    obtain ⟨rest,all⟩ := ih
    exact ⟨first ++ rest,by rw [all,grown,List.append_assoc]⟩

theorem returnedStays (step : Step p s a t) {i} (done : (s.phase i).Returned) : (t.phase i).Returned := by
  cases step <;> grind [Phase.Returned]

theorem neverAcquired (inv : Inv p base s) {i} (outside : i ∉ s.acquired) :
    s.phase i = .waiting ∨ ∃ r, s.phase i = .returned r ∧ (p.body i).interrupted = some r := by
  have balanced := inv.balanced i
  rw [List.count_eq_zero.mpr outside] at balanced
  cases point : s.phase i with
  | waiting => exact .inl rfl
  | holding l => rw [point] at balanced; cases balanced.1
  | leaving r => rw [point] at balanced; cases balanced.1
  | returned r =>
    rw [point] at balanced
    rcases balanced with ⟨once,_⟩ | ⟨_,_,interrupted⟩
    · cases once
    · exact .inr ⟨r,rfl,interrupted⟩

theorem waitingOutside (inv : Inv p base s) {i} (waits : s.phase i = .waiting) : i ∉ s.acquired := by
  have balanced := inv.balanced i
  rw [waits] at balanced
  exact List.count_eq_zero.mp balanced.1

structure Linearized (p : Program ι κ σ Λ ρ) (base : κ → σ) (s t : State ι κ σ Λ ρ) : Prop where
  once : t.acquired.Nodup
  answers : ∀ i r, t.phase i = .returned r →
    (i,r) ∈ replies p base t.acquired ∨ (i ∉ t.acquired ∧ (p.body i).interrupted = some r)
  objects : ∀ k, (∀ i l, t.phase i = .holding l → p.lockOf i ≠ k) → t.objects k = after p base t.acquired k
  order : ∀ i j, i ∈ t.acquired → (s.phase i).Returned → j ∈ t.acquired → s.phase j = .waiting →
    t.acquired.idxOf i < t.acquired.idxOf j

theorem runLinearized {log} (inv : Inv p base s) (run : Run (Step p) s log t) : Linearized p base s t := by
  have reached : Inv p base t := runKeeps (Inv p base) stepKeeps run inv
  refine ⟨List.nodup_iff_count_le_one.mpr (acquiresOnce reached),fun i r done => ?_,reached.idle,?_⟩
  · by_cases acquired : i ∈ t.acquired
    · obtain ⟨r',replied⟩ := acquiredReplies p base acquired
      have due := reached.due i r' replied
      unfold Due at due
      rw [done] at due
      exact .inl ((show r = r' from due) ▸ replied)
    · rcases neverAcquired reached acquired with waits | ⟨r',point,interrupted⟩
      · rw [waits] at done; cases done
      · rw [point] at done
        cases done
        exact .inr ⟨acquired,interrupted⟩
  · intro i j acquired done _ waits
    obtain ⟨later,grown⟩ := acquiredExtends run
    have first : i ∈ s.acquired := by
      by_contra outside
      have kept : (t.phase i).Returned ∧ i ∉ t.acquired := by
        refine runKeeps (fun u => (u.phase i).Returned ∧ i ∉ u.acquired) ?_ run ⟨done,outside⟩
        rintro u b v step ⟨point,before⟩
        refine ⟨returnedStays step point,?_⟩
        cases step <;> grind [Phase.Returned]
      exact kept.2 acquired
    rw [grown,List.idxOf_append,List.idxOf_append,if_pos first,if_neg (waitingOutside inv waits)]
    have early := List.idxOf_lt_length_of_mem first
    omega

end Order

section Kept

theorem keeperHolds (inv : Inv p base s) {i} (acquired : i ∈ s.acquired) (keeps : (p.body i).exit = .keeps) :
    s.holder (p.lockOf i) = some i := by
  refine (inv.owner _ i).mpr ⟨rfl,?_⟩
  have once := List.count_pos_iff.mpr acquired
  have balanced := inv.balanced i
  unfold State.Owns
  cases point : s.phase i with
  | waiting => rw [point] at balanced; have none_ := balanced.1; omega
  | holding l => rw [point] at balanced; have released := balanced.2; omega
  | leaving r => rw [point,LockedSections.Balanced,keeps] at balanced; cases balanced.2.2
  | returned r =>
    rw [point,LockedSections.Balanced,keeps] at balanced
    rcases balanced with ⟨_,released⟩ | ⟨none_,_⟩
    · simp only [reduceCtorEq,if_false] at released
      omega
    · omega

theorem shutOut (inv : Inv p base s) {i j} (acquired : i ∈ s.acquired) (keeps : (p.body i).exit = .keeps)
    (same : p.lockOf j = p.lockOf i) (step : Step p s a t) (outside : j ∉ s.acquired) : j ∉ t.acquired := by
  cases step with
  | acquire j' waits free =>
    rw [List.mem_append,List.mem_singleton]
    rintro (before | rfl)
    · exact outside before
    · rw [same,keeperHolds inv acquired keeps] at free
      cases free
  | interrupt | work | unlock | leak | ret => exact outside

theorem keptObject (inv : Inv p base s) {i} (acquired : i ∈ s.acquired) (keeps : (p.body i).exit = .keeps)
    (done : (s.phase i).Returned) (step : Step p s a t) : t.objects (p.lockOf i) = s.objects (p.lockOf i) := by
  cases step with
  | work j inside moves =>
    have other : j ≠ i := by
      rintro rfl
      rw [inside] at done
      cases done
    have apart : p.lockOf i ≠ p.lockOf j := by
      intro same
      have held := insideHolds inv inside
      rw [← same,keeperHolds inv acquired keeps] at held
      exact other (Option.some.inj held).symm
    exact Function.update_of_ne apart ..
  | acquire | interrupt | unlock | leak | ret => rfl

/- A mutex that was kept stays kept: from then on its object never changes, and who
had not acquired it never does, but waits or gives up when interrupted. -/
theorem keptForEver (inv : Inv p base s) {i} (acquired : i ∈ s.acquired) (keeps : (p.body i).exit = .keeps)
    (done : (s.phase i).Returned) {log} (run : Run (Step p) s log t) :
    t.objects (p.lockOf i) = s.objects (p.lockOf i) ∧ ∀ j, p.lockOf j = p.lockOf i → j ∉ s.acquired →
      j ∉ t.acquired ∧
        (t.phase j = .waiting ∨ ∃ r, t.phase j = .returned r ∧ (p.body j).interrupted = some r) := by
  have kept := runKeeps (fun u => Inv p base u ∧ i ∈ u.acquired ∧ (u.phase i).Returned ∧
      u.objects (p.lockOf i) = s.objects (p.lockOf i) ∧
      ∀ j, p.lockOf j = p.lockOf i → j ∉ s.acquired → j ∉ u.acquired) ?_ run
    ⟨inv,acquired,done,rfl,fun _ _ outside => outside⟩
  · obtain ⟨reached,_,_,frozen,outside⟩ := kept
    exact ⟨frozen,fun j same before => ⟨outside j same before,neverAcquired reached (outside j same before)⟩⟩
  · rintro u b v step ⟨before,mem,point,frozen,outside⟩
    obtain ⟨later,grown⟩ := acquiredGrows step
    exact ⟨stepKeeps step before,grown ▸ List.mem_append_left _ mem,returnedStays step point,
      (keptObject before mem keeps point step).trans frozen,
      fun j same fresh => shutOut before mem keeps same step (outside j same fresh)⟩

end Kept

section Finish

/- What decides whether all can still return: nobody waits behind a section that
keeps its mutex, and of those still waiting no two that keep it share one. -/
structure Finishable (p : Program ι κ σ Λ ρ) (s : State ι κ σ Λ ρ) : Prop where
  behind : ∀ i ∈ s.acquired, (p.body i).exit = .keeps → ∀ j, p.lockOf j = p.lockOf i → s.phase j ≠ .waiting
  apart : ∀ i j, s.phase i = .waiting → s.phase j = .waiting → (p.body i).exit = .keeps →
    (p.body j).exit = .keeps → p.lockOf i = p.lockOf j → i = j

omit [DecidableEq κ] in
theorem outsideUpdate {i j} {next : ρ} (waits : Function.update s.phase i (.returned next) j = .waiting) :
    j ≠ i ∧ s.phase j = .waiting := by
  by_cases same : j = i
  · subst same
    rw [Function.update_self] at waits
    cases waits
  · exact ⟨same,by rwa [Function.update_of_ne same] at waits⟩

omit [DecidableEq κ] in
theorem finishableKept {i r} (finishable : Finishable p s) (acquired : t.acquired = s.acquired)
    (point : t.phase = Function.update s.phase i (.returned r)) : Finishable p t := by
  constructor
  · intro j mem keeps k same waits
    rw [acquired] at mem
    rw [point] at waits
    exact finishable.behind j mem keeps k same (outsideUpdate waits).2
  · intro j k first second
    rw [point] at first second
    exact finishable.apart j k (outsideUpdate first).2 (outsideUpdate second).2

theorem heldKept (inv : Inv p base s) (outside : ∀ i l, s.phase i ≠ .holding l) {k i} (held : s.holder k = some i) :
    p.lockOf i = k ∧ i ∈ s.acquired ∧ (p.body i).exit = .keeps ∧ (s.phase i).Returned := by
  obtain ⟨lock,owns⟩ := (inv.owner k i).mp held
  have acquired := List.count_pos_iff.mp (Nat.zero_lt_of_lt owns)
  have balanced := inv.balanced i
  unfold State.Owns at owns
  cases point : s.phase i with
  | waiting => rw [point] at balanced; have none_ := balanced.1; omega
  | holding l => exact absurd point (outside i l)
  | leaving r => rw [point] at balanced; have once := balanced.1; have released := balanced.2.1; omega
  | returned r =>
    rw [point] at balanced
    rcases balanced with ⟨once,released⟩ | ⟨none_,_⟩
    · refine ⟨lock,acquired,?_,trivial⟩
      cases how : (p.body i).exit with
      | keeps => rfl
      | unlocks =>
        rw [how,if_pos rfl] at released
        omega
    · omega

theorem enterReturns {i} (waits : s.phase i = .waiting) (free : s.holder (p.lockOf i) = none) :
    ∃ log t r, Run (Step p) s log t ∧ t.acquired = s.acquired ++ [i] ∧
      t.phase = Function.update s.phase i (.returned r) := by
  let inside : State ι κ σ Λ ρ := { s with
    holder := Function.update s.holder (p.lockOf i) (some i)
    phase := Function.update s.phase i (.holding (p.body i).enter)
    acquired := s.acquired ++ [i] }
  have entered : Step p s (.acquire i) inside := .acquire i waits free
  have point : inside.phase i = .holding (p.body i).enter := Function.update_self ..
  obtain ⟨log,t,run,acquired,done⟩ := insideReturns ((p.body i).finishes _) rfl rfl point
  exact ⟨_,t,_,.cons entered run,acquired,done.trans (Function.update_idem ..)⟩

theorem waitingReturns (inv : Inv p base s) (finishable : Finishable p s)
    (outside : ∀ i l, s.phase i ≠ .holding l) {i} (waits : s.phase i = .waiting)
    (last : (p.body i).exit = .keeps → ∀ j, s.phase j = .waiting → (p.body j).exit = .keeps) :
    ∃ log t r, Run (Step p) s log t ∧ t.phase = Function.update s.phase i (.returned r) ∧ Finishable p t := by
  have free : s.holder (p.lockOf i) = none := by
    cases held : s.holder (p.lockOf i) with
    | none => rfl
    | some j =>
      obtain ⟨lock,acquired,keeps,_⟩ := heldKept inv outside held
      exact absurd waits (finishable.behind j acquired keeps i lock.symm)
  obtain ⟨log,t,r,run,acquired,point⟩ := enterReturns waits free
  refine ⟨log,t,r,run,point,?_,?_⟩
  · intro j mem keeps k same still
    rw [point] at still
    obtain ⟨other,early⟩ := outsideUpdate still
    rw [acquired,List.mem_append,List.mem_singleton] at mem
    rcases mem with before | rfl
    · exact finishable.behind j before keeps k same early
    · exact other (finishable.apart k j early waits (last keeps k early) keeps same)
  · intro j k first second
    rw [point] at first second
    exact finishable.apart j k (outsideUpdate first).2 (outsideUpdate second).2

theorem oneReturns (inv : Inv p base s) (finishable : Finishable p s) (some_ : ∃ i, ¬ (s.phase i).Returned) :
    ∃ i log t r, ¬ (s.phase i).Returned ∧ Run (Step p) s log t ∧
      t.phase = Function.update s.phase i (.returned r) ∧ Finishable p t := by
  by_cases inside : ∃ i l, s.phase i = .holding l
  · obtain ⟨i,l,point⟩ := inside
    obtain ⟨r,_,finishes⟩ := insideDue inv point
    obtain ⟨log,t,run,acquired,done⟩ := insideReturns finishes rfl rfl point
    exact ⟨i,log,t,r,by simp [point,Phase.Returned],run,done,finishableKept finishable acquired done⟩
  by_cases leaves : ∃ i r, s.phase i = .leaving r
  · obtain ⟨i,r,point⟩ := leaves
    exact ⟨i,_,_,r,by simp [point,Phase.Returned],.cons (.ret i point) (.nil _),rfl,finishableKept finishable rfl rfl⟩
  have outside : ∀ i l, s.phase i ≠ .holding l := fun i l point => inside ⟨i,l,point⟩
  have waits : ∀ i, ¬ (s.phase i).Returned → s.phase i = .waiting := by
    intro i open_
    cases point : s.phase i with
    | waiting => rfl
    | holding l => exact absurd point (outside i l)
    | leaving r => exact absurd ⟨i,r,point⟩ leaves
    | returned r => exact absurd (by rw [point]; trivial) open_
  -- Those that give the mutex back go first.
  by_cases polite : ∃ i, s.phase i = .waiting ∧ (p.body i).exit = .unlocks
  · obtain ⟨i,point,unlocks⟩ := polite
    obtain ⟨log,t,r,run,done,next⟩ := waitingReturns inv finishable outside point (by simp [unlocks])
    exact ⟨i,log,t,r,by simp [point,Phase.Returned],run,done,next⟩
  · obtain ⟨i,open_⟩ := some_
    have keeps : ∀ j, s.phase j = .waiting → (p.body j).exit = .keeps := by
      intro j point
      cases how : (p.body j).exit with
      | keeps => rfl
      | unlocks => exact absurd ⟨j,point,how⟩ polite
    obtain ⟨log,t,r,run,done,next⟩ := waitingReturns inv finishable outside (waits i open_) (fun _ => keeps)
    exact ⟨i,log,t,r,open_,run,done,next⟩

theorem allReturn (open_ : Finset ι) (inv : Inv p base s) (finishable : Finishable p s)
    (covers : ∀ i, ¬ (s.phase i).Returned → i ∈ open_) :
    ∃ log t, Run (Step p) s log t ∧ ∀ i, (t.phase i).Returned := by
  induction open_ using Finset.strongInduction generalizing s with
  | H open_ ih =>
    by_cases some_ : ∃ i, ¬ (s.phase i).Returned
    · obtain ⟨i,log,t,r,point,run,done,next⟩ := oneReturns inv finishable some_
      have reached : Inv p base t := runKeeps (Inv p base) stepKeeps run inv
      have fewer : ∀ j, ¬ (t.phase j).Returned → j ∈ open_.erase i := by
        intro j still
        rw [done] at still
        by_cases same : j = i
        · subst same
          rw [Function.update_self] at still
          exact absurd trivial still
        · rw [Function.update_of_ne same] at still
          exact Finset.mem_erase.mpr ⟨same,covers j still⟩
      obtain ⟨more,u,rest,all⟩ := ih (open_.erase i) (Finset.erase_ssubset (covers i point)) reached next fewer
      exact ⟨_,u,runAppend run rest,all⟩
    · exact ⟨[],s,.nil s,fun i => by_contra fun point => some_ ⟨i,point⟩⟩

theorem returnedAcquired (inv : Inv p base s) (never : ∀ i, (p.body i).interrupted = none) {i}
    (done : (s.phase i).Returned) : i ∈ s.acquired := by
  rcases returnedBalance inv done with ⟨acquired,_⟩ | ⟨_,_,r,_,interrupted⟩
  · exact acquired
  · rw [never i] at interrupted
    cases interrupted

theorem allReturnExactly [Fintype ι] (inv : Inv p base s) (never : ∀ i, (p.body i).interrupted = none) :
    (∃ log t, Run (Step p) s log t ∧ ∀ i, (t.phase i).Returned) ↔ Finishable p s := by
  refine ⟨?_,fun finishable => allReturn Finset.univ inv finishable (fun i _ => Finset.mem_univ i)⟩
  rintro ⟨log,t,run,all⟩
  have reached : Inv p base t := runKeeps (Inv p base) stepKeeps run inv
  have acquired : ∀ i, i ∈ t.acquired := fun i => returnedAcquired reached never (all i)
  constructor
  · intro i mem keeps j same waits
    have kept := runKeeps (fun u => Inv p base u ∧ i ∈ u.acquired ∧ j ∉ u.acquired) ?_ run
      ⟨inv,mem,waitingOutside inv waits⟩
    · exact kept.2.2 (acquired j)
    · rintro u b v step ⟨before,mem',outside⟩
      obtain ⟨later,grown⟩ := acquiredGrows step
      exact ⟨stepKeeps step before,grown ▸ List.mem_append_left _ mem',
        shutOut before mem' keeps same step outside⟩
  · intro i j _ _ keeps keeps' same
    have first := keeperHolds reached (acquired i) keeps
    rw [same,keeperHolds reached (acquired j) keeps'] at first
    exact (Option.some.inj first).symm

end Finish

section Termination

inductive Lasts (code : σ → Λ → Move σ Λ ρ) : σ → Λ → Nat → Prop where
  | exit {o l how r} (ends : code o l = .exit how r) : Lasts code o l 2
  | work {o l o' l' n} (moves : code o l = .work o' l') (rest : Lasts code o' l' n) : Lasts code o l (n + 1)

omit [DecidableEq ι] [DecidableEq κ] in
theorem finishesLasts {code : σ → Λ → Move σ Λ ρ} {o l u how r} (finishes : Finishes code o l u how r) :
    ∃ n, Lasts code o l n := by
  induction finishes with
  | exit ends => exact ⟨2,.exit ends⟩
  | work moves rest ih =>
    obtain ⟨n,lasts⟩ := ih
    exact ⟨n + 1,.work moves lasts⟩

omit [DecidableEq ι] [DecidableEq κ] in
theorem lastsWork {code : σ → Λ → Move σ Λ ρ} {o l o' l' n} (moves : code o l = .work o' l')
    (lasts : Lasts code o l n) : ∃ m < n, Lasts code o' l' m := by
  cases lasts with
  | exit ends => rw [moves] at ends; cases ends
  | work other rest =>
    rw [moves] at other
    cases other
    exact ⟨_,Nat.lt_succ_self _,rest⟩

omit [DecidableEq ι] [DecidableEq κ] in
theorem lastsExit {code : σ → Λ → Move σ Λ ρ} {o l how r n} (ends : code o l = .exit how r)
    (lasts : Lasts code o l n) : n = 2 := by
  cases lasts with
  | exit => rfl
  | work moves => rw [ends] at moves; cases moves

/- Ghost fuel: who may still wait, and what each call inside has left. Entering is
paid for by the first, every other step by the second. -/
structure Fuel (p : Program ι κ σ Λ ρ) (s : State ι κ σ Λ ρ) (open_ : Finset ι) (left : ι → Nat) : Prop where
  waits : ∀ i, s.phase i = .waiting → i ∈ open_
  inside : ∀ i l, s.phase i = .holding l → Lasts (p.body i).code (s.objects (p.lockOf i)) l (left i)
  leaves : ∀ i r, s.phase i = .leaving r → 0 < left i

omit [DecidableEq κ] in
theorem spentSum [Fintype ι] {left : ι → Nat} {i n} (less : n < left i) :
    ∑ j, Function.update left i n j < ∑ j, left j := by
  refine Finset.sum_lt_sum (fun j _ => ?_) ⟨i,Finset.mem_univ i,by rwa [Function.update_self]⟩
  by_cases same : j = i
  · subst same
    rw [Function.update_self]
    exact Nat.le_of_lt less
  · rw [Function.update_of_ne same]

omit [DecidableEq κ] in
theorem fuelMoved {open_ left} (fuel : Fuel p s open_ left) {i next n}
    (objects : ∀ j, j ≠ i → ∀ l, s.phase j = .holding l → t.objects (p.lockOf j) = s.objects (p.lockOf j))
    (point : t.phase = Function.update s.phase i next) (outside : next ≠ .waiting)
    (inside : ∀ l, next = .holding l → Lasts (p.body i).code (t.objects (p.lockOf i)) l n)
    (leaves : ∀ r, next = .leaving r → 0 < n) : Fuel p t open_ (Function.update left i n) := by
  refine ⟨fun j at_ => ?_,fun j l at_ => ?_,fun j r at_ => ?_⟩ <;> rw [point] at at_ <;> by_cases same : j = i
  · subst same
    rw [Function.update_self] at at_
    exact absurd at_ outside
  · rw [Function.update_of_ne same] at at_
    exact fuel.waits j at_
  · subst same
    rw [Function.update_self] at at_ ⊢
    exact inside l at_
  · rw [Function.update_of_ne same] at at_ ⊢
    rw [objects j same l at_]
    exact fuel.inside j l at_
  · subst same
    rw [Function.update_self] at at_ ⊢
    exact leaves r at_
  · rw [Function.update_of_ne same] at at_ ⊢
    exact fuel.leaves j r at_

omit [DecidableEq κ] in
theorem fuelEntered {open_ left} (fuel : Fuel p s open_ left) {i next} (waits : s.phase i = .waiting)
    (point : t.phase = Function.update s.phase i next) (outside : next ≠ .waiting) {left'}
    (fuel' : Fuel p t open_ left') : (open_.erase i).card < open_.card ∧ Fuel p t (open_.erase i) left' := by
  refine ⟨Finset.card_erase_lt_of_mem (fuel.waits i waits),fun j at_ => ?_,fuel'.inside,fuel'.leaves⟩
  refine Finset.mem_erase.mpr ⟨?_,fuel'.waits j at_⟩
  rintro rfl
  rw [point,Function.update_self] at at_
  exact outside at_

theorem stepSpends [Fintype ι] (inv : Inv p base s) {open_ left} (fuel : Fuel p s open_ left) (step : Step p s a t) :
    ∃ open' left', Fuel p t open' left' ∧
      (open'.card < open_.card ∨ (open'.card = open_.card ∧ ∑ i, left' i < ∑ i, left i)) := by
  cases step with
  | acquire i waits free =>
    obtain ⟨n,lasts⟩ := finishesLasts ((p.body i).finishes (s.objects (p.lockOf i)))
    have moved := fuelMoved (t := { s with
        holder := Function.update s.holder (p.lockOf i) (some i)
        phase := Function.update s.phase i (.holding (p.body i).enter)
        acquired := s.acquired ++ [i] }) fuel (fun _ _ _ _ => rfl) rfl (by simp)
      (fun l same => by cases same; exact lasts) (by simp)
    obtain ⟨fewer,next⟩ := fuelEntered fuel waits rfl (by simp) moved
    exact ⟨_,_,next,.inl fewer⟩
  | @interrupt r i waits may =>
    have moved := fuelMoved (t := { s with phase := Function.update s.phase i (.returned r) }) (n := 0)
      fuel (fun _ _ _ _ => rfl) rfl (by simp) (by simp) (by simp)
    obtain ⟨fewer,next⟩ := fuelEntered fuel waits rfl (by simp) moved
    exact ⟨_,_,next,.inl fewer⟩
  | @work l o l' i inside moves =>
    obtain ⟨n,less,rest⟩ := lastsWork moves (fuel.inside i l inside)
    refine ⟨open_,_,fuelMoved fuel (fun j other l'' at_ => ?_) rfl (by simp) (fun l'' same => ?_) (by simp),
      .inr ⟨rfl,spentSum less⟩⟩
    · exact Function.update_of_ne (fun lock => other (exclusive inv inside at_ lock)) ..
    · cases same
      change Lasts (p.body i).code (Function.update s.objects (p.lockOf i) o (p.lockOf i)) l' n
      rwa [Function.update_self]
  | @unlock l r i inside ends =>
    have two := lastsExit ends (fuel.inside i l inside)
    exact ⟨open_,_,fuelMoved (n := 1) fuel (fun _ _ _ _ => rfl) rfl (by simp) (by simp) (by simp),
      .inr ⟨rfl,spentSum (by omega)⟩⟩
  | @leak l r i inside ends =>
    have two := lastsExit ends (fuel.inside i l inside)
    exact ⟨open_,_,fuelMoved (n := 0) fuel (fun _ _ _ _ => rfl) rfl (by simp) (by simp) (by simp),
      .inr ⟨rfl,spentSum (by omega)⟩⟩
  | @ret r i leaves =>
    exact ⟨open_,_,fuelMoved (n := 0) fuel (fun _ _ _ _ => rfl) rfl (by simp) (by simp) (by simp),
      .inr ⟨rfl,spentSum (fuel.leaves i r leaves)⟩⟩

theorem fuelEnds [Fintype ι] : ∀ (waits total : Nat) (s : State ι κ σ Λ ρ) (open_ : Finset ι) (left : ι → Nat),
    Inv p base s → Fuel p s open_ left → open_.card = waits → ∑ i, left i = total →
      Acc (fun t s => ∃ a, Step p s a t) s := by
  intro waits
  induction waits using Nat.strong_induction_on with
  | _ waits entering =>
    intro total
    induction total using Nat.strong_induction_on with
    | _ total working =>
      intro s open_ left inv fuel card sum
      refine .intro s ?_
      rintro t ⟨a,step⟩
      have reached := stepKeeps step inv
      obtain ⟨open',left',next,fewer | ⟨same,less⟩⟩ := stepSpends inv fuel step
      · exact entering _ (card ▸ fewer) _ t open' left' reached next rfl rfl
      · exact working _ (sum ▸ less) t open' left' reached next (same.trans card) rfl

theorem runsEnd [Fintype ι] (p : Program ι κ σ Λ ρ) (base : κ → σ) :
    ¬ ∃ states : Nat → State ι κ σ Λ ρ, states 0 = start base ∧
      ∀ n, ∃ a, Step p (states n) a (states (n + 1)) := by
  have ends : Acc (fun t s => ∃ a, Step p s a t) (start base) :=
    fuelEnds _ _ (start base) Finset.univ (fun _ => 0) (startInv p base)
      ⟨fun i _ => Finset.mem_univ i,by simp [start],by simp [start]⟩ rfl rfl
  rintro ⟨states,first,steps⟩
  exact not_acc_iff_exists_descending_chain.mpr ⟨states,first,steps⟩ ends

end Termination

section Stuck

def Blocked (p : Program ι κ σ Λ ρ) (s : State ι κ σ Λ ρ) (i : ι) : Prop :=
  s.phase i = .waiting ∧ (p.body i).interrupted = none ∧ ∃ j, p.lockOf j = p.lockOf i ∧ j ∈ s.acquired ∧
    (p.body j).exit = .keeps ∧ (s.phase j).Returned

theorem insideMoves {i l} (inside : s.phase i = .holding l) :
    ∃ a t, Step p s a t ∧ ∀ j, a ≠ .interrupt j := by
  cases move : (p.body i).code (s.objects (p.lockOf i)) l with
  | work o l' => exact ⟨_,_,.work i inside move,fun j same => by cases same⟩
  | exit how r =>
    cases how with
    | unlocks => exact ⟨_,_,.unlock i inside move,fun j same => by cases same⟩
    | keeps => exact ⟨_,_,.leak i inside move,fun j same => by cases same⟩

def Behind (p : Program ι κ σ Λ ρ) (s : State ι κ σ Λ ρ) (i : ι) : Prop :=
  s.phase i = .waiting ∧ ∃ j, p.lockOf j = p.lockOf i ∧ j ∈ s.acquired ∧ (p.body j).exit = .keeps ∧
    (s.phase j).Returned

theorem calmExactly (inv : Inv p base s) :
    (∀ a t, Step p s a t → ∃ i, a = .interrupt i) ↔ ∀ i, (s.phase i).Returned ∨ Behind p s i := by
  constructor
  · intro calm i
    have outside : ∀ i l, s.phase i ≠ .holding l := by
      intro j l point
      obtain ⟨a,t,step,other⟩ := insideMoves (p := p) point
      obtain ⟨k,same⟩ := calm a t step
      exact other k same
    cases point : s.phase i with
    | holding l => exact absurd point (outside i l)
    | leaving r =>
      obtain ⟨j,same⟩ := calm _ _ (.ret i point)
      cases same
    | returned r => exact .inl trivial
    | waiting =>
      refine .inr ⟨point,?_⟩
      cases held : s.holder (p.lockOf i) with
      | none =>
        obtain ⟨j,same⟩ := calm _ _ (.acquire i point held)
        cases same
      | some j => exact ⟨j,heldKept inv outside held⟩
  · intro all a t step
    have settled : ∀ i, (s.phase i).Settled := by
      intro i
      rcases all i with done | ⟨waits,_⟩
      · cases point : s.phase i <;> simp_all [Phase.Returned,Phase.Settled]
      · rw [waits]; trivial
    cases step with
    | acquire i waits free =>
      rcases all i with done | ⟨_,j,same,acquired,keeps,_⟩
      · rw [waits] at done; cases done
      · rw [← same,keeperHolds inv acquired keeps] at free
        cases free
    | interrupt i waits may => exact ⟨i,rfl⟩
    | work i inside moves => have at_ := settled i; rw [inside] at at_; cases at_
    | unlock i inside ends => have at_ := settled i; rw [inside] at at_; cases at_
    | leak i inside ends => have at_ := settled i; rw [inside] at at_; cases at_
    | ret i leaves => have at_ := settled i; rw [leaves] at at_; cases at_

/- The states that nothing leaves: every call has returned, or is blocked behind one
that kept its mutex. There is no other deadlock. -/
theorem stuckExactly (inv : Inv p base s) :
    (∀ a t, ¬ Step p s a t) ↔ ∀ i, (s.phase i).Returned ∨ Blocked p s i := by
  constructor
  · intro stuck i
    have calm : ∀ a t, Step p s a t → ∃ i, a = .interrupt i := fun a t step => absurd step (stuck a t)
    rcases (calmExactly inv).mp calm i with done | ⟨waits,behind⟩
    · exact .inl done
    · refine .inr ⟨waits,?_,behind⟩
      cases may : (p.body i).interrupted with
      | none => rfl
      | some r => exact absurd (.interrupt i waits may) (stuck _ _)
  · intro all a t step
    obtain ⟨i,rfl⟩ := (calmExactly inv).mpr (fun i => (all i).imp_right fun blocked => ⟨blocked.1,blocked.2.2⟩) a t step
    cases step with
    | interrupt _ waits may =>
      rcases all i with done | ⟨_,never,_⟩
      · rw [waits] at done; cases done
      · rw [never] at may; cases may

end Stuck

end KernelFacilities.LockedProgress
