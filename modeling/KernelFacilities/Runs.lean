import Mathlib.Tactic.Common

/-! Runs of a labelled transition system, with every state they pass through.
A run is the list of its transitions; nothing is assumed of the step relation,
and no fairness, termination or reachability of any state is claimed. -/
namespace KernelFacilities.Runs

variable {σ α : Type*}

structure Transition (σ α : Type*) where
  before : σ
  label : α
  after : σ

inductive Run (step : σ → α → σ → Prop) : σ → List (Transition σ α) → σ → Prop where
  | nil (s) : Run step s [] s
  | cons {s a t log u} (head : step s a t) (tail : Run step t log u) :
      Run step s (⟨s,a,t⟩ :: log) u

def trace (next : σ → α → σ) : σ → List α → List (Transition σ α)
  | _, [] => []
  | s, a :: rest => ⟨s,a,next s a⟩ :: trace next (next s a) rest

theorem traceRun (next : σ → α → σ) (s : σ) (labels : List α) :
    Run (fun s a t => t = next s a) s (trace next s labels) (labels.foldl next s) := by
  induction labels generalizing s with
  | nil => exact .nil s
  | cons a rest ih => exact .cons rfl (ih (next s a))

theorem traceLabel {next : σ → α → σ} {s : σ} {labels : List α} {tr}
    (mem : tr ∈ trace next s labels) : tr.label ∈ labels ∧ tr.after = next tr.before tr.label := by
  induction labels generalizing s with
  | nil => simp [trace] at mem
  | cons a rest ih =>
    rcases List.mem_cons.mp mem with rfl | inside
    · exact ⟨List.mem_cons_self,rfl⟩
    · exact ⟨List.mem_cons_of_mem _ (ih inside).1,(ih inside).2⟩

variable {step : σ → α → σ → Prop}

theorem runAppend {s t u log more} (first : Run step s log t) (second : Run step t more u) :
    Run step s (log ++ more) u := by
  induction first with
  | nil => exact second
  | cons head tail ih => exact .cons head (ih second)

theorem runKeeps (inv : σ → Prop) (keeps : ∀ {s a t}, step s a t → inv s → inv t)
    {s log t} (run : Run step s log t) (start : inv s) : inv t := by
  induction run with
  | nil => exact start
  | cons head tail ih => exact ih (keeps head start)

section Conditioned
variable (inv : σ → Prop) (meets : σ → α → Prop) {good : Transition σ α → Prop}

theorem runKeepsWhile (keeps : ∀ {s a t}, step s a t → inv s → meets s a → inv t)
    {s log t} (run : Run step s log t) (start : inv s)
    (met : ∀ tr ∈ log, meets tr.before tr.label) :
    inv t ∧ ∀ tr ∈ log, inv tr.before ∧ inv tr.after := by
  induction run with
  | nil => exact ⟨start,by simp⟩
  | cons head tail ih =>
    have next := keeps head start (met _ List.mem_cons_self)
    have rest := ih next (fun tr mem => met tr (List.mem_cons_of_mem _ mem))
    refine ⟨rest.1,fun tr mem => ?_⟩
    rcases List.mem_cons.mp mem with rfl | inside
    · exact ⟨start,next⟩
    · exact rest.2 tr inside

theorem traceKeepsWhile {next : σ → α → σ} (keeps : ∀ s a, inv s → meets s a → inv (next s a))
    {s : σ} {labels : List α} (start : inv s)
    (met : ∀ tr ∈ trace next s labels, meets tr.before tr.label) :
    ∀ tr ∈ trace next s labels, inv tr.before := by
  have kept : ∀ {s a t}, t = next s a → inv s → meets s a → inv t := by
    rintro s a _ rfl holds ok
    exact keeps s a holds ok
  exact fun tr mem => ((runKeepsWhile inv meets kept (traceRun next s labels) start met).2 tr mem).1

theorem traceKeeps {next : σ → α → σ} (keeps : ∀ s a, inv s → inv (next s a)) (labels : List α)
    {s : σ} (start : inv s) : ∀ tr ∈ trace next s labels, inv tr.before :=
  traceKeepsWhile inv (fun _ _ => True) (fun s a holds _ => keeps s a holds) start (fun _ _ => trivial)

/- One-step exactness lifts to runs: where, from an invariant state, a step is
good exactly when it meets the condition, and good steps keep the invariant, a
whole run is good exactly when all of its steps meet the condition. -/
theorem runExact (exact_ : ∀ {s a t}, step s a t → inv s → (good ⟨s,a,t⟩ ↔ meets s a))
    (keeps : ∀ {s a t}, step s a t → inv s → good ⟨s,a,t⟩ → inv t)
    {s log t} (run : Run step s log t) (start : inv s) :
    (∀ tr ∈ log, good tr) ↔ ∀ tr ∈ log, meets tr.before tr.label := by
  induction run with
  | nil => simp
  | cons head tail ih =>
    have here := exact_ head start
    constructor
    · intro all tr mem
      have first := all _ List.mem_cons_self
      have rest := (ih (keeps head start first)).mp (fun tr mem => all tr (List.mem_cons_of_mem _ mem))
      rcases List.mem_cons.mp mem with rfl | inside
      · exact here.mp first
      · exact rest tr inside
    · intro all tr mem
      have first := here.mpr (all _ List.mem_cons_self)
      have rest := (ih (keeps head start first)).mpr (fun tr mem => all tr (List.mem_cons_of_mem _ mem))
      rcases List.mem_cons.mp mem with rfl | inside
      · exact first
      · exact rest tr inside

theorem traceExact {next : σ → α → σ} (exact_ : ∀ s a, inv s → (good ⟨s,a,next s a⟩ ↔ meets s a))
    (keeps : ∀ s a, inv s → good ⟨s,a,next s a⟩ → inv (next s a)) (labels : List α) {s : σ} (start : inv s) :
    (∀ tr ∈ trace next s labels, good tr) ↔ ∀ tr ∈ trace next s labels, meets tr.before tr.label := by
  refine runExact inv meets ?_ ?_ (traceRun next s labels) start
  · rintro s a _ rfl holds
    exact exact_ s a holds
  · rintro s a _ rfl holds kept
    exact keeps s a holds kept

end Conditioned

/- A fact that some transitions start and others end, read off the log: it holds at
the end of a run exactly if one that starts it has none that ends it after it. -/
def Since (starts ends : Transition σ α → Prop) (log : List (Transition σ α)) : Prop :=
  ∃ earlier tr later, log = earlier ++ tr :: later ∧ starts tr ∧ ∀ after ∈ later, ¬ ends after

theorem sinceCons {starts ends : Transition σ α → Prop} {tr : Transition σ α} {log : List (Transition σ α)} :
    Since starts ends (tr :: log) ↔ (starts tr ∧ ∀ after ∈ log, ¬ ends after) ∨ Since starts ends log := by
  constructor
  · rintro ⟨earlier,first,later,split,begins,lasts⟩
    cases earlier with
    | nil =>
      obtain ⟨rfl,rfl⟩ := List.cons.inj split
      exact .inl ⟨begins,lasts⟩
    | cons head rest =>
      exact .inr ⟨rest,first,later,(List.cons.inj split).2,begins,lasts⟩
  · rintro (⟨begins,lasts⟩ | ⟨earlier,first,later,rfl,begins,lasts⟩)
    · exact ⟨[],tr,log,rfl,begins,lasts⟩
    · exact ⟨tr :: earlier,first,later,rfl,begins,lasts⟩

theorem runSince (starts ends : Transition σ α → Prop) (holds : σ → Prop)
    (moves : ∀ {s a t}, step s a t → (holds t ↔ starts ⟨s,a,t⟩ ∨ (holds s ∧ ¬ ends ⟨s,a,t⟩)))
    {s log t} (run : Run step s log t) :
    holds t ↔ (holds s ∧ ∀ tr ∈ log, ¬ ends tr) ∨ Since starts ends log := by
  induction run with
  | nil s => simp [Since]
  | cons head tail ih =>
    rw [ih,moves head,sinceCons,List.forall_mem_cons]
    tauto

theorem traceFollows {τ β : Type*} {next : σ → α → σ} {other : τ → β → τ} {view : α → β}
    (rel : σ → τ → Prop) (ok : σ → α → Prop)
    (follows : ∀ {s a u}, ok s a → rel s u → rel (next s a) (other u (view a)))
    {s : σ} {u : τ} {labels : List α} (start : rel s u)
    (admitted : ∀ tr ∈ trace next s labels, ok tr.before tr.label) :
    List.Forall₂ (fun tr image => rel tr.before image.before ∧ ok tr.before tr.label ∧
        image.label = view tr.label ∧ rel tr.after image.after)
      (trace next s labels) (trace other u (labels.map view)) := by
  induction labels generalizing s u with
  | nil => exact .nil
  | cons a rest ih =>
    have here := admitted _ List.mem_cons_self
    have after := follows here start
    exact .cons ⟨start,here,rfl,after⟩ (ih after (fun tr mem => admitted tr (List.mem_cons_of_mem _ mem)))

/- Forward simulation between two systems that need not be deterministic: a step is
matched by any number of steps. What a transition notes down is collected along the
run, and the relation may speak of it. -/
theorem runSimulated {τ β γ : Type*} {other : τ → β → τ → Prop} (note : Transition σ α → List γ)
    (rel : List γ → σ → τ → Prop)
    (follows : ∀ {noted s a t u}, step s a t → rel noted s u →
      ∃ some v, Run other u some v ∧ rel (noted ++ note ⟨s,a,t⟩) t v)
    {s log t} (run : Run step s log t) {noted : List γ} {u : τ} (start : rel noted s u) :
    ∃ image v, Run other u image v ∧ rel (noted ++ log.flatMap note) t v := by
  induction run generalizing noted u with
  | nil s => exact ⟨[],u,.nil u,by simpa using start⟩
  | cons head tail ih =>
    obtain ⟨some,v,steps,next⟩ := follows head start
    obtain ⟨image,w,rest,last⟩ := ih next
    refine ⟨_,w,runAppend steps rest,?_⟩
    rw [List.flatMap_cons,← List.append_assoc]
    exact last

theorem runMatched {τ β : Type*} {other : τ → β → τ → Prop} (rel : σ → τ → Prop)
    (follows : ∀ {s a t u}, step s a t → rel s u → ∃ some v, Run other u some v ∧ rel t v)
    {s log t} (run : Run step s log t) {u : τ} (start : rel s u) : ∃ image v, Run other u image v ∧ rel t v := by
  exact @runSimulated σ α step τ β Unit other (fun _ => []) (fun _ => rel) (fun head holds => follows head holds)
    s log t run [] u start

end KernelFacilities.Runs
