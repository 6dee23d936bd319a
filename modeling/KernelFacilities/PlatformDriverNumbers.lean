import KernelFacilities.MachineIntegers
import KernelFacilities.PlatformDriver

/-! Device numbers of the platform driver (004). The driver reserves a region of
MAX_DEVICE_NUMBER numbers at load and gives every device the base plus its id; the
id is any int, and probe does not compare it with the size of the region. -/
namespace KernelFacilities.PlatformDriverNumbers
open KernelErrors Ledgers PlatformDriver Runs

def maxDeviceNumber : Nat := 10

/- `alloc_chrdev_region(&base, 0, ..)` answers with the first minor of some major
number, and a minor takes 20 bits. -/
structure ReservedDriver (ι : Type) extends Driver ι where
  firstMinor : deviceBaseNumber.toNat % 2 ^ 20 = 0

variable {ι α : Type}

def InRegion (d : ReservedDriver ι) (devNumber : UInt32) : Prop :=
  d.deviceBaseNumber.toNat ≤ devNumber.toNat ∧ devNumber.toNat < d.deviceBaseNumber.toNat + maxDeviceNumber

instance (d : ReservedDriver ι) (n) : Decidable (InRegion d n) := by unfold InRegion; infer_instance

theorem devNumberInRegion (d : ReservedDriver ι) (i : ι) :
    InRegion d (d.devNumber i) ↔ 0 ≤ (d.id i).toInt ∧ (d.id i).toInt < maxDeviceNumber := by
  have first := d.firstMinor
  have bound := d.deviceBaseNumber.toNat_lt
  have low := (d.id i).le_toInt
  have high := (d.id i).toInt_lt
  have word := MachineIntegers.unsignedOfInt (d.id i)
  unfold InRegion Driver.devNumber maxDeviceNumber
  rw [UInt32.toNat_add]
  omega

structure Numbered [DecidableEq ι] [DecidableEq α] (d : ReservedDriver ι)
    (tr : Transition (State ι α) (Event ι α)) : Prop where
  inside : ∀ i ∈ tr.after.bound, ∃ data, tr.after.object i = some data ∧ InRegion d data.devNumber
  distinct : ∀ i ∈ tr.after.bound, ∀ j ∈ tr.after.bound,
    (tr.after.object i).map (·.devNumber) = (tr.after.object j).map (·.devNumber) → i = j
  refused : ∀ i o, tr.label = .probe i o →
    (¬ InRegion d (d.devNumber i) ∨ ∃ j ∈ tr.before.bound, d.devNumber j = d.devNumber i) →
    (pcdPlatformDriverProbe d.toDriver tr.before i o).2 ≠ 0

def OutOfRegion [DecidableEq α] (d : ReservedDriver ι) (s : State ι α) : Event ι α → Prop
  | .probe i o => Acquires d.toDriver s i o ∧ ¬ (0 ≤ (d.id i).toInt ∧ (d.id i).toInt < maxDeviceNumber)
  | .remove _ => False

structure Sound (d : ReservedDriver ι) (s : State ι α) : Prop where
  accounted : Accounted d.toDriver s
  inside : ∀ i ∈ s.bound, InRegion d (d.devNumber i)

variable {d : ReservedDriver ι} {s : State ι α}

theorem takenNumber (sound : Sound d s) {i j : ι} (mem : j ∈ s.bound) (same : d.devNumber j = d.devNumber i)
    (o : Outcome α) : ¬ Acquires d.toDriver s i o := by
  intro acquires
  obtain ⟨n,at_,live⟩ := sound.accounted.nodes.each j mem
  have number := sound.accounted.numbered j mem
  rw [at_] at number
  cases Option.some.inj number
  exact acquires.2.2.2.2.2 (same ▸ live)

theorem soundObjects (sound : Sound d s) {i : ι} (mem : i ∈ s.bound) :
    ∃ data, s.object i = some data ∧ InRegion d data.devNumber := by
  obtain ⟨data,at_,number⟩ := Option.map_eq_some_iff.mp (sound.accounted.numbered i mem)
  exact ⟨data,at_,number ▸ sound.inside i mem⟩

section Steps
variable [DecidableEq ι] [DecidableEq α]

theorem probeAnswers (sound : Sound d s) {i : ι} {o : Outcome α} (fresh : o.Fresh s.ledger) :
    (pcdPlatformDriverProbe d.toDriver s i o).2 = 0 ↔ Acquires d.toDriver s i o := by
  rcases probeCases (fun s _ _ => (s,0)) (d := d.toDriver) (i := i) (accountedEmbedded sound.accounted) fresh with
    ⟨fails,t,ret,answer,_⟩ | ⟨acquires,a,b,pdata,_,_,answer⟩
  · have nonzero := errnoNonzero ret
    simp only [pcdPlatformDriverProbe,answer,nonzero,fails]
  · simp only [pcdPlatformDriverProbe,answer,acquires]

theorem stepBound (sound : Sound d s) {e : Event ι α} (allowed : Allowed s e) {i : ι}
    (mem : i ∈ (next d.toDriver s e).bound) : i ∈ s.bound ∨ ∃ o, e = .probe i o ∧ Acquires d.toDriver s i o := by
  cases e with
  | remove j =>
    obtain ⟨a,data,owns⟩ := boundOwns sound.accounted allowed
    simp only [next,removeReleases owns] at mem
    exact .inl (Finset.mem_of_mem_erase mem)
  | probe j o =>
    rcases probeCases (fun s _ _ => (s,0)) (d := d.toDriver) (i := j) (accountedEmbedded sound.accounted)
        allowed.2 with ⟨_,t,ret,answer,unmoved⟩ | ⟨acquires,a,b,pdata,_,_,answer⟩
    · simp only [next,pcdPlatformDriverProbe,answer,bindProbed,errnoNonzero ret,if_false,unmoved.bound] at mem
      exact .inl mem
    · simp only [next,pcdPlatformDriverProbe,answer,bindProbed,if_true] at mem
      rcases Finset.mem_insert.mp mem with rfl | old
      · exact .inr ⟨o,rfl,acquires⟩
      · exact .inl old

theorem stepSound (sound : Sound d s) {e : Event ι α} (allowed : Allowed s e) (calm : ¬ OutOfRegion d s e) :
    Sound d (next d.toDriver s e) := by
  refine ⟨stepAccounted ⟨allowed,rfl⟩ sound.accounted,fun i mem => ?_⟩
  rcases stepBound sound allowed mem with old | ⟨o,rfl,acquires⟩
  · exact sound.inside i old
  · rw [devNumberInRegion]
    by_contra outside
    exact calm ⟨acquires,outside⟩

theorem stepNumbered (sound : Sound d s) {e : Event ι α} (allowed : Allowed s e) :
    Numbered d ⟨s,e,next d.toDriver s e⟩ ↔ ¬ OutOfRegion d s e := by
  constructor
  · intro numbered out
    cases e with
    | remove i => exact out
    | probe i o =>
      obtain ⟨acquires,outside⟩ := out
      have succeeds := (probeAnswers sound allowed.2).mpr acquires
      exact numbered.refused i o rfl (.inl (mt (devNumberInRegion d i).mp outside)) succeeds
  · intro calm
    have after := stepSound sound allowed calm
    refine ⟨fun i mem => soundObjects after mem,fun i mem j mem' same => ?_,fun i o label unfit success => ?_⟩
    · exact after.accounted.nodes.injective i mem j mem' same
    · change e = .probe i o at label
      subst label
      have acquires := (probeAnswers sound allowed.2).mp success
      rcases unfit with outside | ⟨j,mem,same⟩
      · exact calm ⟨acquires,mt (devNumberInRegion d i).mpr outside⟩
      · exact takenNumber sound mem same o acquires

theorem numbersExact (d : ReservedDriver ι) {log t}
    (run : Run (Step d.toDriver) (loaded : State ι α) log t) :
    (∀ tr ∈ log, Numbered d tr) ↔ ∀ tr ∈ log, ¬ OutOfRegion d tr.before tr.label := by
  have start : Sound d (loaded : State ι α) := ⟨loadedAccounted d.toDriver,fun i mem => by simp [loaded] at mem⟩
  refine runExact (Sound d) (fun s e => ¬ OutOfRegion d s e) ?_ ?_ run start
  · rintro s e t ⟨allowed,rfl⟩ sound
    exact stepNumbered sound allowed
  · rintro s e t ⟨allowed,rfl⟩ sound numbered
    exact stepSound sound allowed ((stepNumbered sound allowed).mp numbered)

end Steps

def tenthDevice : ReservedDriver Bool := ⟨⟨0x0fe00000,fun i => if i then 9 else 10⟩,by decide⟩

theorem lastNumberGiven :
    ∃ log t, Run (Step tenthDevice.toDriver) (loaded : State Bool Nat) log t ∧ t.bound = {true} ∧
      ((∀ tr ∈ log, Numbered tenthDevice tr) ↔ ∀ tr ∈ log, ¬ OutOfRegion tenthDevice tr.before tr.label) := by
  have run : Run (Step tenthDevice.toDriver) (loaded : State Bool Nat) _ _ :=
    .cons (a := .probe true (granted 0 1)) ⟨by decide,rfl⟩
      (.cons (a := .probe false { granted 2 3 with cdevAdd := some enomem }) ⟨by decide,rfl⟩ (.nil _))
  exact ⟨_,_,run,by decide,numbersExact tenthDevice run⟩

theorem eleventhDeviceOutside :
    ¬ ∀ log t, Run (Step tenthDevice.toDriver) (loaded : State Bool Nat) log t →
      ∀ tr ∈ log, Numbered tenthDevice tr := by
  intro always
  have run : Run (Step tenthDevice.toDriver) (loaded : State Bool Nat) _ _ :=
    .cons (a := .probe false (granted 0 1)) ⟨by decide,rfl⟩ (.nil _)
  have numbered := always _ _ run _ (.head _)
  exact numbered.refused false (granted 0 1) rfl (.inl (by decide)) (by decide)

end KernelFacilities.PlatformDriverNumbers
