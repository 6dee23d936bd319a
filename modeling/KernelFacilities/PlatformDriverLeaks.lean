import KernelFacilities.PlatformDriverSysfs

/-! What a failed attribute group leaves behind in the platform driver of 006. Its
runs are runs of the driver of 004 in which that failure is one of device_create,
and beside them stand the device nodes that were not destroyed again. -/
namespace KernelFacilities.PlatformDriverLeaks
open KernelErrors Ledgers PlatformDriver PlatformDriverSysfs Runs

variable {ι α : Type}

instance [DecidableEq α] (d : Driver ι) (s : State ι α) (i o) : Decidable (Acquires d s i o) := by
  unfold Acquires
  infer_instance

def attributes [DecidableEq α] (sysfs : Option Errno) (s : State ι α) (a b : α) : State ι α × Int32 :=
  match sysfs with
  | some ret => cdevDeletion s a b ret
  | none => (s,0)

def leak [DecidableEq α] (d : Driver ι) (tr : Transition (State ι α) (PlatformDriverSysfs.Event ι α)) : List UInt32 :=
  match tr.label with
  | .probe i o sysfs => if Acquires d tr.before i o ∧ sysfs ≠ none then [d.devNumber i] else []
  | .remove _ => []

/- The state of the driver with attributes is that of the driver without, with the
leaked nodes and one count for each of them. Dead objects may differ. -/
structure Follows (leaked : List UInt32) (t s : State ι α) : Prop where
  held : ∀ r, r ∈ t.ledger.held ↔ r ∈ s.ledger.held ∨ ∃ n ∈ leaked, r = .node n
  apart : ∀ n ∈ leaked, .node n ∉ s.ledger.held
  distinct : leaked.Nodup
  unheld : t.ledger.unheld = s.ledger.unheld
  bound : t.bound = s.bound
  drvdata : ∀ i ∈ s.bound, t.drvdata i = s.drvdata i
  objects : ∀ a, .devData a ∈ s.ledger.held → t.objects a = s.objects a
  total : t.totalDevices = s.totalDevices + Int32.ofNat leaked.length

def without (d : Driver ι) (leaked : List UInt32) (i : ι) (o : Outcome α) (sysfs : Option Errno) : Outcome α :=
  { o with deviceCreate := if d.devNumber i ∈ leaked then some eexist else o.deviceCreate.or sysfs }

def image (d : Driver ι) (leaked : List UInt32) : PlatformDriverSysfs.Event ι α → PlatformDriver.Event ι α
  | .probe i o sysfs => .probe i (without d leaked i o sysfs)
  | .remove i => .remove i

section Steps
variable {d : Driver ι} {leaked : List UInt32} {s t u v : State ι α}

theorem followsMemory (follows : Follows leaked t s) (a : α) :
    (.devData a ∈ t.ledger.held ↔ .devData a ∈ s.ledger.held) ∧
    (.buffer a ∈ t.ledger.held ↔ .buffer a ∈ s.ledger.held) ∧
    (.cdev a ∈ t.ledger.held ↔ .cdev a ∈ s.ledger.held) := by
  simp [follows.held]

theorem followsEmbedded (follows : Follows leaked t s) (embedded : Embedded s.ledger) : Embedded t.ledger := by
  intro a registered
  obtain ⟨devData,_,cdev⟩ := followsMemory follows a
  exact devData.mpr (embedded a (cdev.mp registered))

theorem followsFresh (follows : Follows leaked t s) {o : Outcome α} (fresh : o.Fresh t.ledger) :
    o.Fresh s.ledger := by
  refine ⟨fun a mem alive => fresh.1 a mem ?_,fun b mem alive => fresh.2 b mem ?_⟩
  · exact (followsMemory follows a).1.mpr alive
  · exact (followsMemory follows b).2.1.mpr alive

theorem followsUnmoved (follows : Follows leaked t s) (left : Unmoved t v) (right : Unmoved s u) :
    Follows leaked v u where
  held r := by rw [left.ledger,right.ledger]; exact follows.held r
  apart n mem := by rw [right.ledger]; exact follows.apart n mem
  distinct := follows.distinct
  unheld := by rw [left.ledger,right.ledger]; exact follows.unheld
  bound := by rw [left.bound,right.bound]; exact follows.bound
  drvdata i mem := by
    rw [left.drvdata,right.drvdata]
    exact follows.drvdata i (right.bound ▸ mem)
  objects a alive := by
    rw [right.ledger] at alive
    rw [left.objects a ((followsMemory follows a).1.mpr alive),right.objects a alive,follows.objects a alive]
  total := by rw [left.totalDevices,right.totalDevices]; exact follows.total

theorem imageAcquires (follows : Follows leaked t s) (i : ι) (o : Outcome α) (sysfs : Option Errno) :
    Acquires d s i (without d leaked i o sysfs) ↔ Acquires d t i o ∧ sysfs = none := by
  have node := follows.held (.node (d.devNumber i))
  by_cases mem : d.devNumber i ∈ leaked
  · simp [without,Acquires,mem,node]
  · cases create : o.deviceCreate <;> cases sysfs <;> simp [without,Acquires,mem,node,create]

theorem followsOwns (follows : Follows leaked t s) {i : ι} {a : α} {data : PcdevPrivateData α}
    (mem : i ∈ s.bound) (owns : Owns s i a data) : Owns t i a data := by
  have own : t.drvdata i = some a := (follows.drvdata i mem).trans owns.drvdata
  have object : s.objects a = some data := by simpa [State.object,owns.drvdata] using owns.object
  obtain ⟨devData,_,cdev⟩ := followsMemory follows a
  refine ⟨own,?_,devData.mpr owns.devData,(followsMemory follows _).2.1.mpr owns.buffer,cdev.mpr owns.cdev,
    (follows.held _).mpr (.inl owns.node)⟩
  rw [State.object,own,Option.bind_some,follows.objects a owns.devData,object]

variable [DecidableEq ι] [DecidableEq α]

theorem followsInstalled (follows : Follows leaked t s) {i : ι} {a b : α} {pdata : PcdevPlatformData}
    (freshNode : .node (d.devNumber i) ∉ t.ledger.held) :
    Follows leaked ((installed d t i a b pdata).bindTo i) ((installed d s i a b pdata).bindTo i) := by
  have outside : d.devNumber i ∉ leaked := fun mem => freshNode ((follows.held _).mpr (.inr ⟨_,mem,rfl⟩))
  refine ⟨fun r => ?_,fun n mem => ?_,follows.distinct,follows.unheld,?_,fun j mem => ?_,fun x alive => ?_,?_⟩
  · have held := follows.held r
    simp only [State.bindTo,installed,acquireHeld,Finset.mem_insert,held,or_assoc]
  · have other : n ≠ d.devNumber i := fun same => outside (same ▸ mem)
    simpa [State.bindTo,installed,other] using follows.apart n mem
  · exact congrArg (insert i) follows.bound
  · by_cases same : j = i
    · subst same
      simp only [State.bindTo,installed,Function.update_self]
    · have old := (Finset.mem_insert.mp mem).resolve_left same
      simpa only [State.bindTo,installed,Function.update_of_ne same] using follows.drvdata j old
  · by_cases same : x = a
    · subst same
      simp only [State.bindTo,installed,Function.update_self]
    · have old : .devData x ∈ s.ledger.held := by simpa [State.bindTo,installed,same] using alive
      simpa only [State.bindTo,installed,Function.update_of_ne same] using follows.objects x old
  · have total := follows.total
    show t.totalDevices + 1 = s.totalDevices + 1 + Int32.ofNat leaked.length
    grind

theorem sysfsFailure {i : ι} {a b : α} (pdata : PcdevPlatformData) (embedded : Embedded t.ledger)
    (freshData : .devData a ∉ t.ledger.held) (freshBuffer : .buffer b ∉ t.ledger.held) (ret : Errno) :
    (cdevDeletion (installed d t i a b pdata) a b ret).1.ledger = t.ledger.acquire (.node (d.devNumber i)) := by
  have freshCdev : .cdev a ∉ t.ledger.held := fun held => freshData (embedded a held)
  have swap : (installed d t i a b pdata).ledger =
      (((t.ledger.acquire (.node (d.devNumber i))).acquire (.devData a)).acquire (.buffer b)).acquire (.cdev a) := by
    refine congrArg (Ledger.mk · t.ledger.unheld) (Finset.ext fun r => ?_)
    simp only [acquireHeld,Finset.mem_insert]
    tauto
  simp only [cdevDeletion,bufferFree,devDataFree,out,State.drop,swap]
  rw [releaseAcquire (by simpa using freshCdev),releaseAcquire (by simpa using freshBuffer),
    releaseAcquire (by simpa using freshData)]

theorem followsLeaked (follows : Follows leaked t s) (embedded : Embedded s.ledger) {i : ι} {a b : α}
    {pdata : PcdevPlatformData} (new : i ∉ s.bound) (freshData : .devData a ∉ t.ledger.held)
    (freshBuffer : .buffer b ∉ t.ledger.held) (freshNode : .node (d.devNumber i) ∉ t.ledger.held) (ret : Errno)
    (right : Unmoved s u) :
    Follows (leaked ++ [d.devNumber i]) (cdevDeletion (installed d t i a b pdata) a b ret).1 u := by
  have ledger := sysfsFailure (d := d) (i := i) pdata (followsEmbedded follows embedded) freshData
    freshBuffer ret
  have outside : d.devNumber i ∉ leaked := fun mem => freshNode ((follows.held _).mpr (.inr ⟨_,mem,rfl⟩))
  have unheldNode : .node (d.devNumber i) ∉ s.ledger.held := fun mem => freshNode ((follows.held _).mpr (.inl mem))
  refine ⟨fun r => ?_,fun n mem => ?_,?_,?_,?_,fun j mem => ?_,fun x alive => ?_,?_⟩
  · have held := follows.held r
    rw [ledger,right.ledger]
    simp only [acquireHeld,Finset.mem_insert,held,List.mem_append,List.mem_singleton]
    constructor
    · rintro (rfl | old | ⟨n,mem,rfl⟩)
      · exact .inr ⟨_,.inr rfl,rfl⟩
      · exact .inl old
      · exact .inr ⟨n,.inl mem,rfl⟩
    · rintro (old | ⟨n,mem | rfl,rfl⟩)
      · exact .inr (.inl old)
      · exact .inr (.inr ⟨n,mem,rfl⟩)
      · exact .inl rfl
  · rw [right.ledger]
    rcases List.mem_append.mp mem with old | here
    · exact follows.apart n old
    · exact List.mem_singleton.mp here ▸ unheldNode
  · exact List.nodup_append.mpr ⟨follows.distinct,List.nodup_singleton _,fun n mem m here same =>
      outside (List.mem_singleton.mp here ▸ same ▸ mem)⟩
  · rw [ledger,right.ledger]
    exact follows.unheld
  · rw [right.bound]
    exact follows.bound
  · rw [right.bound] at mem
    rw [right.drvdata]
    have other : j ≠ i := fun same => new (same ▸ mem)
    exact (Function.update_of_ne other ..).trans (follows.drvdata j mem)
  · rw [right.ledger] at alive
    have other : x ≠ a := fun same => freshData ((followsMemory follows a).1.mpr (same ▸ alive))
    rw [right.objects x alive]
    exact (Function.update_of_ne other ..).trans (follows.objects x alive)
  · have total := follows.total
    rw [right.totalDevices,List.length_append,List.length_singleton,Int32.ofNat_add]
    show t.totalDevices + 1 = s.totalDevices + (Int32.ofNat leaked.length + 1)
    rw [total,Int32.add_assoc]

theorem followsRemoved (follows : Follows leaked t s) {i : ι} {a : α} {data : PcdevPrivateData α}
    (mem : i ∈ s.bound) (owns : Owns s i a data) : Follows leaked (unbind t i) (unbind s i) := by
  rw [removeReleases owns,removeReleases (followsOwns follows mem owns)]
  refine ⟨fun r => ?_,fun n leakedHere => ?_,follows.distinct,follows.unheld,?_,fun j left => ?_,fun x alive => ?_,?_⟩
  · have held := follows.held r
    have apart := follows.apart
    simp only [memRemaining,held]
    constructor
    · rintro ⟨notData,notBuffer,notCdev,notNode,old | leaks⟩
      · exact .inl ⟨notData,notBuffer,notCdev,notNode,old⟩
      · exact .inr leaks
    · rintro (⟨notData,notBuffer,notCdev,notNode,old⟩ | ⟨n,mem',rfl⟩)
      · exact ⟨notData,notBuffer,notCdev,notNode,.inl old⟩
      · refine ⟨by simp,by simp,by simp,fun same => ?_,.inr ⟨n,mem',rfl⟩⟩
        exact apart n mem' (Resource.node.inj same ▸ owns.node)
  · exact fun held => follows.apart n leakedHere (memRemaining.mp held).2.2.2.2
  · exact congrArg (Finset.erase · i) follows.bound
  · exact follows.drvdata j (Finset.mem_of_mem_erase left)
  · exact follows.objects x (memRemaining.mp alive).2.2.2.2
  · have total := follows.total
    show t.totalDevices - 1 = s.totalDevices - 1 + Int32.ofNat leaked.length
    grind

theorem sysfsNext (d : Driver ι) (t : State ι α) (i : ι) (o : Outcome α) (sysfs : Option Errno) :
    PlatformDriverSysfs.next d t (.probe i o sysfs) = bindProbed i (probeThen (attributes sysfs) d t i o) := rfl

theorem nextProbe (d : Driver ι) (s : State ι α) (i : ι) (o : Outcome α) :
    PlatformDriver.next d s (.probe i o) = bindProbed i (probeThen (fun s _ _ => (s,0)) d s i o) := rfl

theorem stepFollows {e : PlatformDriverSysfs.Event ι α} (step : PlatformDriverSysfs.Step d t e v)
    (follows : Follows leaked t s) (accounted : Accounted d s) :
    PlatformDriver.Allowed s (image d leaked e) ∧
    Follows (leaked ++ leak d ⟨t,e,v⟩) v (PlatformDriver.next d s (image d leaked e)) := by
  obtain ⟨allowed,rfl⟩ := step
  have embedded := accountedEmbedded accounted
  cases e with
  | remove i =>
    have mem : i ∈ s.bound := follows.bound ▸ allowed
    obtain ⟨a,data,owns⟩ := boundOwns accounted mem
    refine ⟨mem,?_⟩
    rw [leak,List.append_nil]
    exact followsRemoved follows mem owns
  | probe i o sysfs =>
    obtain ⟨new,fresh⟩ := allowed
    have newHere : i ∉ s.bound := follows.bound ▸ new
    have freshHere : (without d leaked i o sysfs).Fresh s.ledger := followsFresh follows fresh
    refine ⟨⟨newHere,freshHere⟩,?_⟩
    have acquires := imageAcquires (d := d) follows i o sysfs
    by_cases succeeds : Acquires d t i o
    · obtain ⟨pdata,a,b,atPdata,atData,atBuffer,answer⟩ := probeInstalls (attributes sysfs) succeeds
      have freshData := fresh.1 a atData
      have freshBuffer := fresh.2 b atBuffer
      have freshNode := succeeds.2.2.2.2.2
      cases sysfs with
      | none =>
        obtain ⟨pdata',a',b',atPdata',atData',atBuffer',answer'⟩ :=
          probeInstalls (fun s _ _ => (s,0)) (acquires.mpr ⟨succeeds,rfl⟩)
        cases atPdata.symm.trans atPdata'
        cases atData.symm.trans atData'
        cases atBuffer.symm.trans atBuffer'
        have quiet : leak d ⟨t,.probe i o none,PlatformDriverSysfs.next d t (.probe i o none)⟩ = [] :=
          if_neg fun both => both.2 rfl
        rw [quiet,List.append_nil,sysfsNext,image,nextProbe,answer,answer',attributes,bindProbed,bindProbed,
          if_pos rfl,if_pos rfl]
        exact followsInstalled follows freshNode
      | some e =>
        have fails : ¬ Acquires d s i (without d leaked i o (some e)) := fun both => by cases (acquires.mp both).2
        obtain ⟨u,ret,answer',unmoved⟩ := probeRefused (fun s _ _ => (s,0)) embedded freshHere fails
        have noted : leak d ⟨t,.probe i o (some e),PlatformDriverSysfs.next d t (.probe i o (some e))⟩ =
            [d.devNumber i] := if_pos ⟨succeeds,by simp⟩
        have nonzero : (cdevDeletion (installed d t i a b pdata) a b e).2 ≠ 0 := errnoNonzero e
        rw [noted,sysfsNext,image,nextProbe,answer,answer',attributes,bindProbed,bindProbed,if_neg nonzero,
          if_neg (errnoNonzero ret)]
        exact followsLeaked follows embedded newHere freshData freshBuffer freshNode e unmoved
    · obtain ⟨x,ret,answer,left⟩ := probeRefused (attributes sysfs) (followsEmbedded follows embedded) fresh succeeds
      have fails : ¬ Acquires d s i (without d leaked i o sysfs) := fun both => succeeds (acquires.mp both).1
      obtain ⟨y,ret',answer',right⟩ := probeRefused (fun s _ _ => (s,0)) embedded freshHere fails
      have quiet : leak d ⟨t,.probe i o sysfs,PlatformDriverSysfs.next d t (.probe i o sysfs)⟩ = [] :=
        if_neg fun both => succeeds both.1
      rw [quiet,List.append_nil,sysfsNext,image,nextProbe,answer,answer',bindProbed,bindProbed,
        if_neg (errnoNonzero ret),if_neg (errnoNonzero ret')]
      exact followsUnmoved follows left right

/- The ledger with what was leaked: memory and cdevs belong to bound devices, every
node that does not is one of a failed attribute group, the counter counts these
too, and no device that needs such a number is bound, now or by a later probe. -/
structure LeakAccount (d : Driver ι) (leaked : List UInt32) (t : State ι α) : Prop where
  exact : t.ledger.unheld = []
  devData : Corresponds t.bound (fun a => .devData a ∈ t.ledger.held) t.drvdata
  buffers : Corresponds t.bound (fun b => .buffer b ∈ t.ledger.held) fun i => (t.object i).map (·.buffer)
  cdevs : Corresponds t.bound (fun a => .cdev a ∈ t.ledger.held) t.drvdata
  nodes : ∀ n, .node n ∈ t.ledger.held ↔ (∃ i ∈ t.bound, d.devNumber i = n) ∨ n ∈ leaked
  apart : ∀ i ∈ t.bound, d.devNumber i ∉ leaked
  distinct : leaked.Nodup
  total : t.totalDevices = Int32.ofNat (t.bound.card + leaked.length)
  refused : ∀ i o sysfs, PlatformDriverSysfs.Allowed t (.probe i o sysfs) → d.devNumber i ∈ leaked →
    (PlatformDriverSysfs.pcdPlatformDriverProbe d t i o sysfs).2 ≠ 0

omit [DecidableEq ι] [DecidableEq α] in
theorem followsObject (follows : Follows leaked t s) (accounted : Accounted d s) {i : ι} (mem : i ∈ s.bound) :
    t.object i = s.object i := by
  obtain ⟨a,data,owns⟩ := boundOwns accounted mem
  rw [owns.object]
  exact (followsOwns follows mem owns).object

theorem followsAccount (follows : Follows leaked t s) (accounted : Accounted d s) : LeakAccount d leaked t := by
  have bound := follows.bound
  have own : ∀ i ∈ s.bound, t.drvdata i = s.drvdata i := follows.drvdata
  have devData : (fun a => .devData a ∈ t.ledger.held) = fun a => .devData a ∈ s.ledger.held :=
    funext fun a => propext (followsMemory follows a).1
  have buffers : (fun a => .buffer a ∈ t.ledger.held) = fun a => .buffer a ∈ s.ledger.held :=
    funext fun a => propext (followsMemory follows a).2.1
  have cdevs : (fun a => .cdev a ∈ t.ledger.held) = fun a => .cdev a ∈ s.ledger.held :=
    funext fun a => propext (followsMemory follows a).2.2
  have taken : ∀ n ∈ leaked, .node n ∈ t.ledger.held := fun n mem => (follows.held _).mpr (.inr ⟨n,mem,rfl⟩)
  refine ⟨follows.unheld.trans accounted.exact,?_,?_,?_,fun n => ?_,fun i mem leaks => ?_,follows.distinct,?_,
    fun i o sysfs allowed leaks => ?_⟩
  · rw [devData,bound]
    exact correspondsCongr accounted.devData own
  · rw [buffers,bound]
    exact correspondsCongr accounted.buffers fun i mem => by rw [followsObject follows accounted mem]
  · rw [cdevs,bound]
    exact correspondsCongr accounted.cdevs own
  · rw [follows.held,boundNode accounted,bound]
    simp
  · exact follows.apart _ leaks ((boundNode accounted _).mpr ⟨i,bound ▸ mem,rfl⟩)
  · rw [follows.total,accounted.total,bound,Int32.ofNat_add]
  · obtain ⟨u,ret,answer,_⟩ := probeRefused (attributes sysfs) (i := i)
      (followsEmbedded follows (accountedEmbedded accounted)) allowed.2
      fun acquires => acquires.2.2.2.2.2 (taken _ leaks)
    have answered : PlatformDriverSysfs.pcdPlatformDriverProbe d t i o sysfs = (u,ret.val) := answer
    rw [answered]
    exact errnoNonzero ret

theorem runFollows {log} (run : Run (PlatformDriverSysfs.Step d) (loaded : State ι α) log t) :
    ∃ image s, Run (PlatformDriver.Step d) loaded image s ∧ Follows (log.flatMap (leak d)) t s ∧ Accounted d s := by
  have start : Follows [] (loaded : State ι α) loaded := by
    refine ⟨fun r => ?_,fun n mem => ?_,List.nodup_nil,rfl,rfl,fun i mem => rfl,fun a mem => rfl,rfl⟩
    · simp
    · cases mem
  have stays : ∀ {leaked s a t} {u : State ι α}, PlatformDriverSysfs.Step d s a t →
      (Follows leaked s u ∧ Accounted d u) →
      ∃ some v, Run (PlatformDriver.Step d) u some v ∧ Follows (leaked ++ leak d ⟨s,a,t⟩) t v ∧ Accounted d v := by
    rintro leaked s a t u step ⟨follows,accounted⟩
    obtain ⟨allowed,next⟩ := stepFollows step follows accounted
    exact ⟨_,_,.cons ⟨allowed,rfl⟩ (.nil _),next,stepAccounted ⟨allowed,rfl⟩ accounted⟩
  have simulated := runSimulated (leak d) (fun leaked t s => Follows leaked t s ∧ Accounted d s) stays run
    ⟨start,loadedAccounted d⟩
  simpa only [List.nil_append] using simulated

theorem leaksAccounted (d : Driver ι) {log} (run : Run (PlatformDriverSysfs.Step d) (loaded : State ι α) log t) :
    LeakAccount d (log.flatMap (leak d)) t ∧
    ∀ i, i ∈ t.bound ↔ Since (PlatformDriverSysfs.ProbeAnswered d i) (PlatformDriverSysfs.Removed i) log := by
  obtain ⟨image,s,_,follows,accounted⟩ := runFollows run
  exact ⟨followsAccount follows accounted,boundSince run⟩

end Steps

theorem oneNodeLeaked :
    ∃ log t, Run (PlatformDriverSysfs.Step twoDevices) (loaded : State Bool Nat) log t ∧ t.bound = {false} ∧
      t.totalDevices = 2 ∧ LeakAccount twoDevices (log.flatMap (leak twoDevices)) t ∧
      ∀ i, i ∈ t.bound ↔
        Since (PlatformDriverSysfs.ProbeAnswered twoDevices i) (PlatformDriverSysfs.Removed i) log := by
  have run : Run (PlatformDriverSysfs.Step twoDevices) (loaded : State Bool Nat) _ _ :=
    .cons (a := .probe true (granted 0 1) (some enomem)) ⟨by decide,rfl⟩
      (.cons (a := .probe true (granted 0 1) none) ⟨by decide,rfl⟩
        (.cons (a := .probe false (granted 0 1) none) ⟨by decide,rfl⟩ (.nil _)))
  exact ⟨_,_,run,by decide,by decide,leaksAccounted twoDevices run⟩

end KernelFacilities.PlatformDriverLeaks
