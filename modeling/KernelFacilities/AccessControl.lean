import KernelFacilities.CharDriverMultipleDevices
import KernelFacilities.Runs

/-! Access control of the multi-device driver. What a permission grants and what a
mode word asks for are stated bit by bit; the check in the source joins its
operands with && where the masks would need &, so it never looks at a bit. -/
namespace KernelFacilities.AccessControl
open CharTransfers CharDriverMultipleDevices Runs

inductive Access where
  | read
  | write
  deriving DecidableEq, Repr

def Grants (perm : Int32) : Access → Prop
  | .read => perm = rdonly ∨ perm = rdww
  | .write => perm = wronly ∨ perm = rdww

def Asks (fMode : UInt32) : Access → Prop
  | .read => fMode.toInt32 &&& fmodeRead ≠ 0
  | .write => fMode.toInt32 &&& fmodeWrite ≠ 0

instance (perm a) : Decidable (Grants perm a) := by cases a <;> unfold Grants <;> infer_instance
instance (fMode a) : Decidable (Asks fMode a) := by cases a <;> unfold Asks <;> infer_instance

def Permitted (perm : Int32) (fMode : UInt32) : Prop :=
  (Asks fMode .read → Grants perm .read) ∧ (Asks fMode .write → Grants perm .write)
instance (perm fMode) : Decidable (Permitted perm fMode) := by unfold Permitted; infer_instance

def KnownPerm (perm : Int32) : Prop := perm = rdonly ∨ perm = wronly ∨ perm = rdww

def Lawful (perm : Int32) (fMode : UInt32) (ret : Int32) : Prop :=
  ret = if Permitted perm fMode then 0 else -eperm

def Decided (perm : Int32) (fMode : UInt32) : Prop :=
  perm = rdww ∨ (perm = rdonly ∧ Asks fMode .write) ∨ (perm = wronly ∧ Asks fMode .read)

theorem onlyFullAccessOpens (devPerm mode : Int32) : checkPermission devPerm mode = 0 ↔ devPerm = rdww := by
  constructor
  · intro granted
    by_contra other
    unfold checkPermission at granted
    rw [if_neg other] at granted
    -- both masks are nonzero constants, so each conjunction is the truth of the mode
    have reads : truth fmodeRead = true := by decide
    have writes : truth fmodeWrite = true := by decide
    simp only [reads,writes,Bool.and_true] at granted
    split at granted
    · rename_i both; simp_all
    · split at granted
      · rename_i both; simp_all
      · exact absurd granted (by decide)
  · intro full
    simp only [checkPermission,full,if_true]

theorem permittedDecided {perm : Int32} {fMode : UInt32} (known : KnownPerm perm) :
    Decided perm fMode ↔ perm = rdww ∨ ¬ Permitted perm fMode := by
  have distinct : rdonly ≠ wronly ∧ rdonly ≠ rdww ∧ wronly ≠ rdww := by decide
  obtain ⟨ro_wo,ro_rw,wo_rw⟩ := distinct
  rcases known with rfl | rfl | rfl
  · simp only [Decided,Permitted,Grants,ro_rw,ro_wo,true_and,false_and,false_or,or_false,
      implies_true,imp_false,Classical.not_not]
  · simp only [Decided,Permitted,Grants,wo_rw,Ne.symm ro_wo,true_and,false_and,false_or,or_false,
      implies_true,imp_false,Classical.not_not,and_true]
  · simp [Decided]

theorem openLawful {perm : Int32} {fMode : UInt32} (known : KnownPerm perm) :
    Lawful perm fMode (checkPermission perm fMode.toInt32) ↔ Decided perm fMode := by
  rw [permittedDecided known]
  by_cases full : perm = rdww
  · subst full
    have opened := (onlyFullAccessOpens rdww fMode.toInt32).mpr rfl
    have permitted : Permitted rdww fMode := ⟨fun _ => .inr rfl,fun _ => .inr rfl⟩
    simp only [Lawful,opened,if_pos permitted,true_or]
  · have denied := refusal (mt (onlyFullAccessOpens perm fMode.toInt32).mp full)
    have distinct : -eperm ≠ 0 := by decide
    by_cases permitted : Permitted perm fMode
    · simp [Lawful,denied,permitted,full,distinct]
    · simp [Lawful,denied,permitted]

section System
variable {ι : Type} {devices : ι → PcdevPrivateData}

structure Confined (devices : ι → PcdevPrivateData) (s : System ι) : Prop where
  perm : ∀ d, (s.pcdevData d).perm = (devices d).perm
  opened : ∀ n f, s.file? n = some f → (devices f.privateData).perm = rdww
  kept : ∀ d, (devices d).perm ≠ rdww → s.pcdevData d = devices d

theorem loadedConfined (devices : ι → PcdevPrivateData) : Confined devices (loaded devices) :=
  ⟨fun _ => rfl,fun n f found => by simp [loaded,System.file?] at found,fun _ _ => rfl⟩

variable [DecidableEq ι]

theorem stepConfined {s : System ι} (confined : Confined devices s) (call : Call ι) :
    Confined devices (performNext s call) := by
  cases call with
  | «open» iCdev fMode =>
    simp only [performNext,perform,pcdOpen]
    by_cases granted : checkPermission (s.pcdevData iCdev).perm fMode.toInt32 = 0
    · simp only [granted,if_true]
      refine ⟨confined.perm,fun n f found => ?_,confined.kept⟩
      rcases fileAppended found with old | new
      · exact confined.opened n f old
      · cases Option.some.inj new
        rw [← confined.perm]
        exact (onlyFullAccessOpens _ _).mp granted
    · simpa only [granted,if_false] using confined
  | release n =>
    refine ⟨confined.perm,fun m f found => ?_,confined.kept⟩
    rcases fileReplaced found with old | new
    · exact confined.opened m f old
    · simp at new
  | io n io =>
    cases found : s.file? n with
    | none => simpa only [performNext,perform,found] using confined
    | some f =>
      have full := confined.opened n f found
      simp only [performNext,perform,found]
      refine ⟨fun d => ?_,fun m g at_ => ?_,fun d partial_ => ?_⟩
      · by_cases same : d = f.privateData
        · subst same
          simp only [System.put,Function.update_self,(callKeepsDevice _ _).2]
          exact confined.perm _
        · simp only [System.put,Function.update_of_ne same]
          exact confined.perm d
      · rcases fileReplaced at_ with old | new
        · exact confined.opened m g old
        · cases Option.some.inj new
          exact full
      · have same : d ≠ f.privateData := fun eq => partial_ (eq ▸ full)
        simp only [System.put,Function.update_of_ne same]
        exact confined.kept d partial_

/- The whole law for one step: an open decides as the permission says, read-only
devices hold what they were loaded with, and no read delivers a byte of a
write-only one. -/
structure Guarded (devices : ι → PcdevPrivateData) (tr : Transition (System ι) (Call ι)) : Prop where
  opens : ∀ d fMode, tr.label = .open d fMode → Asks fMode .read ∨ Asks fMode .write →
    Lawful (devices d).perm fMode (pcdOpen tr.before.pcdevData d fMode).2
  unwritten : ∀ d, (devices d).perm = rdonly → (tr.after.pcdevData d).buffer = (devices d).buffer
  unread : ∀ n count mapped f, tr.label = .io n (.read count mapped) → tr.before.file? n = some f →
    (devices f.privateData).perm = wronly → (perform tr.before tr.label).2.data = []

def MeetsLaw (devices : ι → PcdevPrivateData) : Call ι → Prop
  | .open d fMode => Asks fMode .read ∨ Asks fMode .write → Decided (devices d).perm fMode
  | _ => True

theorem stepGuarded (known : ∀ d, KnownPerm (devices d).perm) {s : System ι}
    (confined : Confined devices s) (call : Call ι) :
    Guarded devices ⟨s,call,performNext s call⟩ ↔ MeetsLaw devices call := by
  have after := stepConfined confined call
  have readOnly : ∀ d, (devices d).perm = rdonly →
      ((performNext s call).pcdevData d).buffer = (devices d).buffer := by
    intro d only
    rw [after.kept d (by rw [only]; decide)]
  have writeOnly : ∀ n f, s.file? n = some f → (devices f.privateData).perm ≠ wronly := by
    intro n f found
    rw [confined.opened n f found]
    decide
  constructor
  · intro guarded
    cases call with
    | «open» d fMode =>
      intro asks
      have lawful := guarded.opens d fMode rfl asks
      simp only [pcdOpen,confined.perm] at lawful
      exact (openLawful (known d)).mp lawful
    | io => trivial
    | release => trivial
  · intro meets
    refine ⟨fun d fMode label asks => ?_,readOnly,fun n count mapped f _ found only => ?_⟩
    · change call = .open d fMode at label
      subst label
      simp only [pcdOpen,confined.perm]
      exact (openLawful (known d)).mpr (meets asks)
    · exact absurd only (writeOnly n f found)

theorem accessExact (known : ∀ d, KnownPerm (devices d).perm) (calls : List (Call ι)) :
    (∀ tr ∈ trace performNext (loaded devices) calls, Guarded devices tr) ↔
      ∀ tr ∈ trace performNext (loaded devices) calls, MeetsLaw devices tr.label :=
  traceExact (Confined devices) (fun _ call => MeetsLaw devices call)
    (fun _ call confined => stepGuarded known confined call)
    (fun _ call confined _ => stepConfined confined call) calls (loadedConfined devices)

end System

theorem tableKnown : ∀ d, KnownPerm (pcdevData d).perm
  | 0 => .inl rfl
  | 1 => .inr (.inl rfl)
  | 2 | 3 => .inr (.inr rfl)

theorem fullAccessRun :
    (∀ tr ∈ trace performNext (loaded pcdevData) [.open 2 0x1d,.open 3 0x1e,.io 1 (.write ⟨2,by decide⟩ [7,8])],
        Guarded pcdevData tr) ↔
      ∀ tr ∈ trace performNext (loaded pcdevData) [.open 2 0x1d,.open 3 0x1e,.io 1 (.write ⟨2,by decide⟩ [7,8])],
        MeetsLaw pcdevData tr.label :=
  accessExact tableKnown _

theorem readOnlyDeviceCannotBeRead :
    ¬ ∀ tr ∈ trace performNext (loaded pcdevData) [.open 0 0x1d], Guarded pcdevData tr := by
  intro guarded
  have lawful := (guarded _ List.mem_cons_self).opens 0 0x1d rfl (by decide)
  exact absurd lawful (by unfold Lawful; decide)

end KernelFacilities.AccessControl
