import KernelFacilities.LockedProgress

/-! Calls that copy a cell before they ask for their mutex and store into it after
they came back, as a system call does with the position of its file. No mutex stands
around the cells: calls that use one at the same time all start from what it held
when they copied it. -/
namespace KernelFacilities.SharedCells
open LockedSections Runs

variable {ι φ κ α σ Λ ρ : Type*}

structure Calls (ι φ κ α σ Λ ρ : Type*) where
  lockOf : ι → κ
  cellOf : ι → φ
  body : ι → α → CriticalSection σ Λ ρ
  stores : ρ → Option α
  givenUp : ∀ i a r, (body i a).interrupted = some r → stores r = none

def Calls.program (c : Calls ι φ κ α σ Λ ρ) (args : ι → α) : Program ι κ σ Λ ρ :=
  ⟨c.lockOf,fun i => c.body i (args i)⟩

inductive Stage (α : Type*) where
  | outside
  | inside (arg : α)
  | gone (arg : α)

def Stage.arg? : Stage α → Option α
  | .outside => none
  | .inside arg | .gone arg => some arg

def Stage.Inside : Stage α → Prop
  | .inside _ => True
  | _ => False

structure State (ι φ κ α σ Λ ρ : Type*) where
  cells : φ → α
  stage : ι → Stage α
  locked : LockedSections.State ι κ σ Λ ρ

def start (cells : φ → α) (objects : κ → σ) : State ι φ κ α σ Λ ρ :=
  ⟨cells,fun _ => .outside,LockedSections.start objects⟩

inductive Act (ι : Type*) where
  | enter (call : ι)
  | move (a : LockedSections.Act ι)
  | leave (call : ι)
  deriving DecidableEq

def caller : LockedSections.Act ι → ι
  | .acquire i | .interrupt i | .work i | .unlock i | .leak i | .ret i => i

structure World (φ κ α σ : Type*) where
  cells : φ → α
  objects : κ → σ

variable [DecidableEq φ]

def Calls.store (c : Calls ι φ κ α σ Λ ρ) (cells : φ → α) (i : ι) (r : ρ) : φ → α :=
  (c.stores r).elim cells (Function.update cells (c.cellOf i))

theorem storeHere (c : Calls ι φ κ α σ Λ ρ) (cells : φ → α) (i : ι) (r : ρ) :
    c.store cells i r (c.cellOf i) = (c.stores r).getD (cells (c.cellOf i)) := by
  unfold Calls.store
  cases c.stores r with
  | none => rfl
  | some a => exact Function.update_self ..

theorem storeElsewhere (c : Calls ι φ κ α σ Λ ρ) (cells : φ → α) {i : ι} (r : ρ) {f : φ} (other : f ≠ c.cellOf i) :
    c.store cells i r f = cells f := by
  unfold Calls.store
  cases c.stores r with
  | none => rfl
  | some a => exact Function.update_of_ne other ..

variable [DecidableEq κ]

section Turns
variable (c : Calls ι φ κ α σ Λ ρ) (w : World φ κ α σ)

def Calls.result (i : ι) : σ × ρ := (c.body i (w.cells (c.cellOf i))).alone (w.objects (c.lockOf i))

def Calls.turn (i : ι) : World φ κ α σ :=
  ⟨c.store w.cells i (c.result w i).2,Function.update w.objects (c.lockOf i) (c.result w i).1⟩

def Calls.turns (order : List ι) : World φ κ α σ := order.foldl c.turn w

def Calls.repliesOf (w : World φ κ α σ) : List ι → List (ι × ρ)
  | [] => []
  | i :: rest => (i,(c.result w i).2) :: Calls.repliesOf (c.turn w i) rest

theorem turnHere (i : ι) : (c.turn w i).cells (c.cellOf i) =
    (c.stores (c.result w i).2).getD (w.cells (c.cellOf i)) := storeHere ..

theorem turnElsewhere {i : ι} {f : φ} (other : f ≠ c.cellOf i) : (c.turn w i).cells f = w.cells f :=
  storeElsewhere c _ _ other

theorem turnsSnoc (order : List ι) (i : ι) : c.turns w (order ++ [i]) = c.turn (c.turns w order) i :=
  List.foldl_append

theorem repliesOfSnoc (order : List ι) (i : ι) :
    c.repliesOf w (order ++ [i]) = c.repliesOf w order ++ [(i,(c.result (c.turns w order) i).2)] := by
  induction order generalizing w with
  | nil => rfl
  | cons j rest ih =>
    simp only [List.cons_append,Calls.repliesOf]
    rw [ih]
    rfl

theorem repliesOfOrder (order : List ι) : (c.repliesOf w order).map Prod.fst = order := by
  induction order generalizing w with
  | nil => rfl
  | cons j rest ih => simp only [Calls.repliesOf,List.map_cons,ih]

theorem repliesOfMem {order : List ι} {i : ι} {r : ρ} (said : (i,r) ∈ c.repliesOf w order) : i ∈ order := by
  have mem := List.mem_map_of_mem (f := Prod.fst) said
  rwa [repliesOfOrder] at mem

end Turns

variable [DecidableEq ι]

inductive Step (c : Calls ι φ κ α σ Λ ρ) : State ι φ κ α σ Λ ρ → Act ι → State ι φ κ α σ Λ ρ → Prop where
  | enter {s} (i) (fresh : s.stage i = .outside) : Step c s (.enter i) { s with
        stage := Function.update s.stage i (.inside (s.cells (c.cellOf i))) }
  | move {s a t} (args : ι → α) (own : s.stage (caller a) = .inside (args (caller a)))
      (moves : LockedSections.Step (c.program args) s.locked a t) : Step c s (.move a) { s with locked := t }
  | leave {s arg r} (i) (inside : s.stage i = .inside arg) (done : s.locked.phase i = .returned r) :
      Step c s (.leave i) { s with
        cells := c.store s.cells i r
        stage := Function.update s.stage i (.gone arg) }

def Fits (args : ι → α) (s : State ι φ κ α σ Λ ρ) : Prop := ∀ i a, (s.stage i).arg? = some a → args i = a

def Calls.args (c : Calls ι φ κ α σ Λ ρ) (s : State ι φ κ α σ Λ ρ) (i : ι) : α :=
  ((s.stage i).arg?).getD (s.cells (c.cellOf i))

section Facts
variable {c : Calls ι φ κ α σ Λ ρ} {cells : φ → α} {objects : κ → σ} {s t : State ι φ κ α σ Λ ρ} {a : Act ι}

omit [DecidableEq φ] [DecidableEq κ] [DecidableEq ι] in
theorem argsFit (c : Calls ι φ κ α σ Λ ρ) (s : State ι φ κ α σ Λ ρ) : Fits (c.args s) s := by
  intro i a at_
  rw [Calls.args,at_]
  rfl

omit [DecidableEq φ] in
theorem ownStep {args args' : ι → α} {u v : LockedSections.State ι κ σ Λ ρ} {a : LockedSections.Act ι}
    (same : args (caller a) = args' (caller a)) (step : LockedSections.Step (c.program args) u a v) :
    LockedSections.Step (c.program args') u a v := by
  have body : (c.program args).body (caller a) = (c.program args').body (caller a) := congrArg (c.body _) same
  cases step with
  | acquire i waits free =>
    rw [show (c.program args).body i = (c.program args').body i from body]
    exact .acquire i waits free
  | interrupt i waits may => exact .interrupt i waits (body ▸ may)
  | work i inside moves => exact .work i inside (body ▸ moves)
  | unlock i inside ends => exact .unlock i inside (body ▸ ends)
  | leak i inside ends => exact .leak i inside (body ▸ ends)
  | ret i leaves => exact .ret i leaves

theorem fitsBefore (step : Step c s a t) {args : ι → α} (fits : Fits args t) : Fits args s := by
  intro j b at_
  cases step with
  | enter i fresh =>
    have other : j ≠ i := by
      rintro rfl
      rw [fresh] at at_
      cases at_
    exact fits j b ((congrArg Stage.arg? (Function.update_of_ne other ..)).trans at_)
  | move own moves => exact fits j b at_
  | leave i inside done =>
    by_cases same : j = i
    · subst same
      rw [inside] at at_
      exact fits j b ((congrArg Stage.arg? (Function.update_self j _ s.stage)).trans at_)
    · exact fits j b ((congrArg Stage.arg? (Function.update_of_ne same ..)).trans at_)

theorem fitsEarlier {log} (run : Run (Step c) s log t) {args : ι → α} (fits : Fits args t) : Fits args s := by
  induction run with
  | nil => exact fits
  | cons head tail ih => exact fitsBefore head (ih fits)

theorem projected {log} (run : Run (Step c) s log t) {args : ι → α} (fits : Fits args t) :
    ∃ moves, Run (LockedSections.Step (c.program args)) s.locked moves t.locked := by
  induction run with
  | nil => exact ⟨[],.nil _⟩
  | cons head tail ih =>
    obtain ⟨moves,rest⟩ := ih fits
    have before := fitsBefore head (fitsEarlier tail fits)
    cases head with
    | enter i fresh => exact ⟨moves,rest⟩
    | move args' own step =>
      have same := before _ _ (congrArg Stage.arg? own)
      exact ⟨_,.cons (ownStep same.symm step) rest⟩
    | leave i inside done => exact ⟨moves,rest⟩

theorem reachedLocked {log} (run : Run (Step c) (start cells objects) log s) {args : ι → α} (fits : Fits args s) :
    LockedSections.Inv (c.program args) objects s.locked := by
  obtain ⟨moves,run⟩ := projected run fits
  exact reachedInv run

/- Every interleaving is one of calls that had their arguments from the beginning,
those that they copied. -/
theorem sharedLinearized {before later} (first : Run (Step c) (start cells objects) before s)
    (second : Run (Step c) s later t) :
    LockedProgress.Linearized (c.program (c.args t)) objects s.locked t.locked := by
  obtain ⟨moves,run⟩ := projected second (argsFit c t)
  exact LockedProgress.runLinearized (reachedLocked first (fitsEarlier second (argsFit c t))) run

end Facts

section Standing
variable (c : Calls ι φ κ α σ Λ ρ) (w : World φ κ α σ)

/- The cells while every cell has one call at a time: what the turns of the calls that
acquired would have left in it, but for what such a call has still to store. -/
structure Standing (cells : φ → α) (stage : ι → Stage α) (acquired : List ι) : Prop where
  known : ∀ i ∈ acquired, stage i ≠ .outside
  settled : ∀ f, (∀ i ∈ acquired, c.cellOf i = f → ¬ (stage i).Inside) → cells f = (c.turns w acquired).cells f
  copied : ∀ i a, stage i = .inside a → i ∉ acquired → a = (c.turns w acquired).cells (c.cellOf i)
  owed : ∀ i r, (i,r) ∈ c.repliesOf w acquired → (stage i).Inside →
    (c.turns w acquired).cells (c.cellOf i) = (c.stores r).getD (cells (c.cellOf i))
  alone : ∀ i j, (stage i).Inside → (stage j).Inside → c.cellOf i = c.cellOf j → i = j

variable {c w} {cells : φ → α} {stage : ι → Stage α} {acquired : List ι} {i : ι}
  (standing : Standing c w cells stage acquired)
include standing

theorem standingEnter (fresh : stage i = .outside) (alone : ∀ j, (stage j).Inside → c.cellOf j ≠ c.cellOf i) :
    Standing c w cells (Function.update stage i (.inside (cells (c.cellOf i)))) acquired := by
  have other {j : ι} (mem : j ∈ acquired) : Function.update stage i (.inside (cells (c.cellOf i))) j = stage j := by
    refine Function.update_of_ne ?_ ..
    rintro rfl
    exact standing.known j mem fresh
  have before {j : ι} (apart : j ≠ i)
      (inside : (Function.update stage i (.inside (cells (c.cellOf i))) j).Inside) : (stage j).Inside := by
    rwa [Function.update_of_ne apart] at inside
  refine ⟨fun j mem => ?_,fun f nobody => ?_,fun j a inside out => ?_,fun j r said inside => ?_,
    fun j k first second same => ?_⟩
  · rw [other mem]
    exact standing.known j mem
  · refine standing.settled f fun j mem here inside => nobody j mem here ?_
    rwa [other mem]
  · by_cases same : j = i
    · subst same
      rw [Function.update_self] at inside
      cases inside
      exact standing.settled _ fun k _ here within => alone k within here
    · rw [Function.update_of_ne same] at inside
      exact standing.copied j a inside out
  · rw [other (repliesOfMem _ _ said)] at inside
    exact standing.owed j r said inside
  · by_cases here : j = i
    · by_cases there : k = i
      · exact here.trans there.symm
      · exact absurd (same.symm.trans (congrArg c.cellOf here)) (alone k (before there second))
    · by_cases there : k = i
      · exact absurd (same.trans (congrArg c.cellOf there)) (alone j (before here first))
      · exact standing.alone j k (before here first) (before there second) same

omit [DecidableEq ι] in
theorem standingAcquire {a : α} (inside : stage i = .inside a) (fresh : i ∉ acquired) :
    Standing c w cells stage (acquired ++ [i]) := by
  have within : (stage i).Inside := by rw [inside]; trivial
  have apart {j : ι} (other : j ≠ i) (here : (stage j).Inside) : c.cellOf j ≠ c.cellOf i := fun same =>
    other (standing.alone j i here within same)
  have holds : cells (c.cellOf i) = (c.turns w acquired).cells (c.cellOf i) := by
    refine standing.settled _ fun j mem same here => apart ?_ here same
    rintro rfl
    exact fresh mem
  refine ⟨fun j mem => ?_,fun f nobody => ?_,fun j b there out => ?_,fun j r said here => ?_,standing.alone⟩
  · rcases List.mem_append.mp mem with old | new
    · exact standing.known j old
    · rw [List.mem_singleton.mp new,inside]
      exact nofun
  · have other : f ≠ c.cellOf i := fun same =>
      nobody i (List.mem_append_right _ (List.mem_singleton_self i)) same.symm within
    rw [turnsSnoc,turnElsewhere c _ other]
    exact standing.settled f fun j mem => nobody j (List.mem_append_left _ mem)
  · rw [List.mem_append,not_or,List.mem_singleton] at out
    have here : (stage j).Inside := by rw [there]; trivial
    rw [turnsSnoc,turnElsewhere c _ (apart out.2 here)]
    exact standing.copied j b there out.1
  · rw [turnsSnoc]
    rw [repliesOfSnoc,List.mem_append,List.mem_singleton] at said
    rcases said with old | new
    · have other : j ≠ i := by
        rintro rfl
        exact fresh (repliesOfMem _ _ old)
      rw [turnElsewhere c _ (apart other here)]
      exact standing.owed j r old here
    · cases new
      rw [turnHere,holds]

theorem standingLeave {a : α} {r : ρ} (inside : stage i = .inside a)
    (said : i ∈ acquired → (i,r) ∈ c.repliesOf w acquired) (gaveUp : i ∉ acquired → c.stores r = none) :
    Standing c w (c.store cells i r) (Function.update stage i (.gone a)) acquired := by
  have within : (stage i).Inside := by rw [inside]; trivial
  have before {j : ι} (here : (Function.update stage i (.gone a) j).Inside) : j ≠ i ∧ (stage j).Inside := by
    by_cases same : j = i
    · subst same
      rw [Function.update_self] at here
      cases here
    · rw [Function.update_of_ne same] at here
      exact ⟨same,here⟩
  have apart {j : ι} (other : j ≠ i) (here : (stage j).Inside) : c.cellOf j ≠ c.cellOf i := fun same =>
    other (standing.alone j i here within same)
  refine ⟨fun j mem => ?_,fun f nobody => ?_,fun j b there out => ?_,fun j r' answered here => ?_,
    fun j k first second same => standing.alone j k (before first).2 (before second).2 same⟩
  · by_cases same : j = i
    · rw [same,Function.update_self]
      exact nofun
    · rw [Function.update_of_ne same]
      exact standing.known j mem
  · by_cases here : f = c.cellOf i
    · subst here
      rw [storeHere]
      by_cases mem : i ∈ acquired
      · exact (standing.owed i r (said mem) within).symm
      · rw [gaveUp mem,Option.getD_none]
        refine standing.settled _ fun j there same inside_ => apart ?_ inside_ same
        rintro rfl
        exact mem there
    · rw [storeElsewhere c _ _ here]
      refine standing.settled f fun j mem same inside_ => nobody j mem same ?_
      have other : j ≠ i := fun equal => here (same.symm.trans (congrArg c.cellOf equal))
      rwa [Function.update_of_ne other]
  · have other : j ≠ i := by
      rintro rfl
      rw [Function.update_self] at there
      cases there
    rw [Function.update_of_ne other] at there
    exact standing.copied j b there out
  · obtain ⟨other,within'⟩ := before here
    rw [storeElsewhere c _ _ (apart other within')]
    exact standing.owed j r' answered within'

end Standing

section Orderly
variable (c : Calls ι φ κ α σ Λ ρ) (w : World φ κ α σ)

def Alone (s : State ι φ κ α σ Λ ρ) : Act ι → Prop
  | .enter i => ∀ j, (s.stage j).Inside → c.cellOf j ≠ c.cellOf i
  | _ => True

structure Orderly (s : State ι φ κ α σ Λ ρ) : Prop where
  locked : ∀ args, Fits args s → LockedSections.Inv (c.program args) w.objects s.locked
  objects : ∀ args, Fits args s →
    after (c.program args) w.objects s.locked.acquired = (c.turns w s.locked.acquired).objects
  answers : ∀ args, Fits args s → replies (c.program args) w.objects s.locked.acquired = c.repliesOf w s.locked.acquired
  standing : Standing c w s.cells s.stage s.locked.acquired

variable {c w} {s t : State ι φ κ α σ Λ ρ} {a : Act ι}

theorem startOrderly (cells : φ → α) (objects : κ → σ) : Orderly c ⟨cells,objects⟩ (start cells objects) :=
  ⟨fun _ _ => startInv _ _,fun _ _ => rfl,fun _ _ => rfl,nofun,fun _ _ => rfl,nofun,nofun,nofun⟩

theorem returnedReplies (orderly : Orderly c w s) {i : ι} {r : ρ} (done : s.locked.phase i = .returned r)
    (acquired : i ∈ s.locked.acquired) : (i,r) ∈ c.repliesOf w s.locked.acquired := by
  have answers := orderly.answers _ (argsFit c s)
  obtain ⟨r',replied⟩ := acquiredReplies (c.program (c.args s)) w.objects acquired
  have due := (orderly.locked _ (argsFit c s)).due i r' replied
  rw [Due,done] at due
  rw [← answers]
  exact (show r = r' from due) ▸ replied

theorem returnedGaveUp (orderly : Orderly c w s) {i : ι} {r : ρ} (done : s.locked.phase i = .returned r)
    (never : i ∉ s.locked.acquired) : c.stores r = none := by
  rcases LockedProgress.neverAcquired (orderly.locked _ (argsFit c s)) never with waits | ⟨r',point,interrupted⟩
  · rw [waits] at done
    cases done
  · rw [point] at done
    cases done
    exact c.givenUp _ _ _ interrupted

theorem acquireOrderly (orderly : Orderly c w s) {i : ι} {x : α} {u : LockedSections.State ι κ σ Λ ρ}
    (own : s.stage i = .inside x) (waits : s.locked.phase i = .waiting)
    (kept : ∀ args, Fits args s → LockedSections.Inv (c.program args) w.objects u)
    (grown : u.acquired = s.locked.acquired ++ [i]) : Orderly c w { s with locked := u } := by
  have fresh := LockedProgress.waitingOutside (orderly.locked _ (argsFit c s)) waits
  have copied := orderly.standing.copied i x own fresh
  have arg (args : ι → α) (fits : Fits args s) :
      args i = (c.turns w s.locked.acquired).cells (c.cellOf i) := (fits i x (congrArg Stage.arg? own)).trans copied
  refine ⟨kept,fun args fits => ?_,fun args fits => ?_,?_⟩
  · simp only [grown,turnsSnoc,afterSnoc,orderly.objects args fits]
    simp only [Calls.program,arg args fits]
    rfl
  · simp only [grown,repliesOfSnoc,repliesSnoc,orderly.answers args fits,orderly.objects args fits]
    simp only [Calls.program,arg args fits]
    rfl
  · simp only [grown]
    exact standingAcquire orderly.standing own fresh

theorem keptOrderly (step : Step c s a t) (orderly : Orderly c w s) (same : t.locked = s.locked)
    (standing : Standing c w t.cells t.stage t.locked.acquired) : Orderly c w t := by
  refine ⟨fun args fits => ?_,fun args fits => ?_,fun args fits => ?_,standing⟩
  · rw [same]
    exact orderly.locked args (fitsBefore step fits)
  · rw [same]
    exact orderly.objects args (fitsBefore step fits)
  · rw [same]
    exact orderly.answers args (fitsBefore step fits)

theorem stepOrderly (step : Step c s a t) (orderly : Orderly c w s) (alone : Alone c s a) : Orderly c w t := by
  cases step with
  | enter i fresh =>
    exact keptOrderly (.enter i fresh) orderly rfl (standingEnter orderly.standing fresh alone)
  | @move a u args own moves =>
    have kept (args' : ι → α) (fits : Fits args' s) : LockedSections.Inv (c.program args') w.objects u := by
      have same := fits _ _ (congrArg Stage.arg? own)
      exact stepKeeps (ownStep same.symm moves) (orderly.locked args' fits)
    cases moves with
    | acquire i waits free => exact acquireOrderly orderly own waits kept rfl
    | interrupt | work | unlock | leak | ret => exact ⟨kept,orderly.objects,orderly.answers,orderly.standing⟩
  | leave i inside done =>
    exact keptOrderly (.leave i inside done) orderly rfl
      (standingLeave orderly.standing inside (returnedReplies orderly done) (returnedGaveUp orderly done))

theorem runOrderly {cells : φ → α} {objects : κ → σ} {log} (run : Run (Step c) (start cells objects) log s)
    (alone : ∀ tr ∈ log, Alone c tr.before tr.label) : Orderly c ⟨cells,objects⟩ s :=
  (runKeepsWhile (Orderly c ⟨cells,objects⟩) (Alone c) stepOrderly run (startOrderly cells objects) alone).1

end Orderly

end KernelFacilities.SharedCells
