import KernelFacilities.PlatformDriver

/-! The platform driver with sysfs attributes (006). Its remove is that of 004; its
probe makes the attribute group last, after the counter and the device node, and
when that fails goes to the label that was written for the steps before them. The
attributes themselves go with the node and are not part of the ledger. -/
namespace KernelFacilities.PlatformDriverSysfs
open KernelErrors Ledgers PlatformDriver Runs

variable {ι α : Type} [DecidableEq ι] [DecidableEq α]

def pcdPlatformDriverProbe (d : Driver ι) (s : State ι α) (i : ι) (o : Outcome α)
    (sysfsCreateGroup : Option Errno) : State ι α × Int32 :=
  probeThen (fun s a b =>
    match sysfsCreateGroup with
    | some ret => cdevDeletion s a b ret
    | none => (s,0)) d s i o

inductive Event (ι α : Type) where
  | probe (i : ι) (o : Outcome α) (sysfsCreateGroup : Option Errno)
  | remove (i : ι)

def next (d : Driver ι) (s : State ι α) : Event ι α → State ι α
  | .probe i o sysfs => bindProbed i (pcdPlatformDriverProbe d s i o sysfs)
  | .remove i => unbind s i

def Allowed (s : State ι α) : Event ι α → Prop
  | .probe i o _ => i ∉ s.bound ∧ o.Fresh s.ledger
  | .remove i => i ∈ s.bound

instance (s : State ι α) (e) : Decidable (Allowed s e) := by cases e <;> unfold Allowed <;> infer_instance

structure Step (d : Driver ι) (s : State ι α) (e : Event ι α) (t : State ι α) : Prop where
  allowed : Allowed s e
  taken : t = next d s e

structure Balanced (d : Driver ι) (tr : Transition (State ι α) (Event ι α)) : Prop where
  accounted : Accounted d tr.after
  undone : ∀ i o sysfs, tr.label = .probe i o sysfs →
    (pcdPlatformDriverProbe d tr.before i o sysfs).2 ≠ 0 →
    tr.after.ledger = tr.before.ledger ∧ tr.after.totalDevices = tr.before.totalDevices ∧
      tr.after.bound = tr.before.bound

def OnlySysfsFails (d : Driver ι) (s : State ι α) : Event ι α → Prop
  | .probe i o sysfs => Acquires d s i o ∧ sysfs ≠ none
  | .remove _ => False

section Steps
variable {d : Driver ι} {s : State ι α} {i : ι} {o : Outcome α}

/- The counter was raised before the attributes were made, and stays raised. -/
theorem sysfsFailureCounts (embedded : Embedded s.ledger) (fresh : o.Fresh s.ledger)
    (acquires : Acquires d s i o) (e : Errno) :
    (next d s (.probe i o (some e))).totalDevices = s.totalDevices + 1 ∧
      (next d s (.probe i o (some e))).bound = s.bound := by
  rcases probeCases (fun s a b => cdevDeletion s a b e) (d := d) (i := i) embedded fresh with
    ⟨fails,_⟩ | ⟨_,a,b,pdata,_,_,answer⟩
  · exact absurd acquires fails
  · have nonzero : (cdevDeletion (installed d s i a b pdata) a b e).2 ≠ 0 := errnoNonzero e
    simp only [next,pcdPlatformDriverProbe,answer,bindProbed,nonzero,if_false]
    exact ⟨rfl,rfl⟩

theorem probeBalanced (accounted : Accounted d s) {sysfs : Option Errno}
    (allowed : Allowed s (.probe i o sysfs)) (works : ¬ OnlySysfsFails d s (.probe i o sysfs)) :
    Balanced d ⟨s,.probe i o sysfs,next d s (.probe i o sysfs)⟩ := by
  obtain ⟨new,fresh⟩ := allowed
  rcases probeCases (fun s a b =>
    match sysfs with
    | some ret => cdevDeletion s a b ret
    | none => (s,0)) (d := d) (i := i) (accountedEmbedded accounted) fresh with
    ⟨_,u,ret,answer,unmoved⟩ | ⟨acquires,a,b,pdata,atData,atBuffer,answer⟩
  · have nonzero := errnoNonzero ret
    refine ⟨?_,fun i' o' sysfs' label _ => ?_⟩
    · simp only [next,pcdPlatformDriverProbe,answer,bindProbed,nonzero,if_false]
      exact unmovedAccounted accounted unmoved
    · simp only [next,pcdPlatformDriverProbe,answer,bindProbed,nonzero,if_false]
      exact ⟨unmoved.ledger,unmoved.totalDevices,unmoved.bound⟩
  · cases sysfs with
    | some e => exact absurd ⟨acquires,by simp⟩ works
    | none =>
      refine ⟨?_,fun i' o' sysfs' label failed => ?_⟩
      · simp only [next,pcdPlatformDriverProbe,answer,bindProbed,if_true]
        exact installedAccounted accounted new (fresh.1 a atData) (fresh.2 b atBuffer) acquires.2.2.2.2.2 pdata
      · cases label
        simp only [pcdPlatformDriverProbe,answer,ne_eq,not_true_eq_false] at failed

theorem stepBalanced (accounted : Accounted d s) {e : Event ι α} (allowed : Allowed s e) :
    Balanced d ⟨s,e,next d s e⟩ ↔ ¬ OnlySysfsFails d s e := by
  cases e with
  | remove i =>
    refine ⟨fun _ fails => fails,fun _ => ⟨removedAccounted accounted allowed,fun _ _ _ label => ?_⟩⟩
    cases label
  | probe i o sysfs =>
    refine ⟨fun balanced fails => ?_,probeBalanced accounted allowed⟩
    obtain ⟨acquires,failed⟩ := fails
    obtain ⟨e,rfl⟩ := Option.ne_none_iff_exists'.mp failed
    obtain ⟨raised,bound⟩ := sysfsFailureCounts (accountedEmbedded accounted) allowed.2 acquires e
    have same : s.totalDevices + 1 = s.totalDevices := by
      have total := balanced.accounted.total
      rwa [raised,bound,← accounted.total] at total
    exact absurd (Int32.add_eq_left.mp same) (by decide)

def ProbeAnswered (d : Driver ι) (i : ι) (tr : Transition (State ι α) (Event ι α)) : Prop :=
  ∃ o sysfs, tr.label = .probe i o sysfs ∧ (pcdPlatformDriverProbe d tr.before i o sysfs).2 = 0

def Removed (i : ι) (tr : Transition (State ι α) (Event ι α)) : Prop := tr.label = .remove i

theorem boundMoves (e : Event ι α) (j : ι) : j ∈ (next d s e).bound ↔
    ProbeAnswered d j ⟨s,e,next d s e⟩ ∨ (j ∈ s.bound ∧ ¬ Removed j ⟨s,e,next d s e⟩) := by
  cases e with
  | probe i o sysfs =>
    have here : ProbeAnswered d j ⟨s,.probe i o sysfs,next d s (.probe i o sysfs)⟩ ↔
        j = i ∧ (pcdPlatformDriverProbe d s i o sysfs).2 = 0 := by
      constructor
      · rintro ⟨o',sysfs',label,success⟩
        cases label
        exact ⟨rfl,success⟩
      · rintro ⟨rfl,success⟩
        exact ⟨o,sysfs,rfl,success⟩
    have after : j ∈ (next d s (.probe i o sysfs)).bound ↔
        (j = i ∧ (pcdPlatformDriverProbe d s i o sysfs).2 = 0) ∨ j ∈ s.bound := by
      refine probedBound (fun s a b => ?_) o j
      cases sysfs <;> rfl
    rw [here,after]
    simp [Removed]
  | remove i =>
    have after : j ∈ (next d s (.remove i)).bound ↔ _ := unbindBound j
    rw [after]
    simp [ProbeAnswered,Removed,and_comm,eq_comm]

theorem boundSince {log t} (run : Run (Step d) (loaded : State ι α) log t) (i : ι) :
    i ∈ t.bound ↔ Since (ProbeAnswered d i) (Removed i) log := by
  have since := runSince (ProbeAnswered d i) (Removed i) (fun s => i ∈ s.bound)
    (fun step => step.taken ▸ boundMoves _ i) run
  simpa [loaded] using since

theorem sysfsLedgerExact (d : Driver ι) {log t} (run : Run (Step d) (loaded : State ι α) log t) :
    ((∀ tr ∈ log, Balanced d tr) ↔ ∀ tr ∈ log, ¬ OnlySysfsFails d tr.before tr.label) ∧
    ∀ i, i ∈ t.bound ↔ Since (ProbeAnswered d i) (Removed i) log := by
  constructor
  · refine runExact (Accounted d) (fun s e => ¬ OnlySysfsFails d s e) ?_ ?_ run (loadedAccounted d)
    · rintro s e t ⟨allowed,rfl⟩ accounted
      exact stepBalanced accounted allowed
    · exact fun _ _ balanced => balanced.accounted
  · exact boundSince run

end Steps

theorem attributesNeverFail :
    ∃ log t, Run (Step twoDevices) (loaded : State Bool Nat) log t ∧ t.bound = {true} ∧
      ((∀ tr ∈ log, Balanced twoDevices tr) ↔ ∀ tr ∈ log, ¬ OnlySysfsFails twoDevices tr.before tr.label) ∧
      ∀ i, i ∈ t.bound ↔ Since (ProbeAnswered twoDevices i) (Removed i) log := by
  have run : Run (Step twoDevices) (loaded : State Bool Nat) _ _ :=
    .cons (a := .probe false (granted 0 1) none) ⟨by decide,rfl⟩
      (.cons (a := .probe true { granted 2 3 with deviceCreate := some enomem } none) ⟨by decide,rfl⟩
        (.cons (a := .remove false) ⟨by decide,rfl⟩
          (.cons (a := .probe true (granted 0 3) none) ⟨by decide,rfl⟩ (.nil _))))
  exact ⟨_,_,run,by decide,sysfsLedgerExact twoDevices run⟩

theorem attributeFailureLeaves :
    ¬ ∀ log t, Run (Step twoDevices) (loaded : State Bool Nat) log t → ∀ tr ∈ log, Balanced twoDevices tr := by
  intro always
  have run : Run (Step twoDevices) (loaded : State Bool Nat) _ _ :=
    .cons (a := .probe true (granted 0 1) (some enomem)) ⟨by decide,rfl⟩ (.nil _)
  have total := (always _ _ run _ (.head _)).accounted.total
  exact absurd total (by decide)

end KernelFacilities.PlatformDriverSysfs
