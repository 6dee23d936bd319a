import KernelFacilities.LinkedList

/-! What a load of the linked-list module prints and leaves in the heap, whatever its
two allocations answer. The run is dog_init with its printk calls; without them it is
the run of the heap alone. The payload of a node is what the two loops print of it. -/
namespace KernelFacilities.LinkedListOutput
open CircularLists LinkedList

inductive Level where
  | err
  | info
  deriving DecidableEq, Repr

structure Line where
  level : Level
  format : String
  args : List Int32
  deriving DecidableEq, Repr

def initialized : Line := ⟨.info,"Linked list initialized\n",[]⟩
def noNode1 : Line := ⟨.err,"Memory allocation failed for node1\n",[]⟩
def noNode2 : Line := ⟨.err,"Memory allocation failed for node2\n",[]⟩
def removing (id : Int32) : Line := ⟨.info,"removing %d\n",[id]⟩

abbrev Payload := Int32 × Int32

def bothIds (node : Payload) : Line := ⟨.info,"Node ID: %d, Long ID: %d\n",[node.1,node.2]⟩
def idOnly (node : Payload) : Line := ⟨.info,"node id: %d\n",[node.1]⟩

variable {ι : Type}

def printEach (line : Payload → Line) (fuel : Nat) (h : Heap ι) (log : List Line) : Except (Stop ι) (List Line) :=
  forEach (fun pos log => do let node ← h.load pos; .ok (log ++ [line (node.id,node.longId)]))
    (fun pos _ => do let links ← h.links (.entry pos); .ok links.next) .endless .wild fuel h.head.next log

def payload (h : Heap ι) (i : ι) : Option Payload := (h.load i).toOption.map fun node => (node.id,node.longId)

section Run
variable [DecidableEq ι]

def dogInitPrinting (node1 node2 : Kmalloc ι) (fuel : Nat) (h : Heap ι) : Except (Stop ι) (Heap ι × List Line × Int32) :=
  let log := [initialized]
  match node1 with
  | none => .ok (h,log ++ [noNode1],-1)
  | some (node1,memory) => do
    let h := h.kmalloc node1 memory
    let h ← h.store node1 fun node => { node with id := 1 }
    let h ← h.store node1 fun node => { node with longId := 1001 }
    let h ← listAdd h node1
    match node2 with
    | none => do
      let log := log ++ [noNode2]
      let h ← kfree node1 h
      .ok (h,log,-1)
    | some (node2,memory) => do
      let h := h.kmalloc node2 memory
      let h ← h.store node2 fun node => { node with id := 2 }
      let h ← h.store node2 fun node => { node with longId := 1002 }
      let h ← listAdd h node2
      let log ← printEach bothIds fuel h log
      let node ← h.load node2
      let log := log ++ [removing node.id]
      let h ← listDel h node2
      let h ← kfree node2 h
      let log ← printEach idOnly fuel h log
      .ok (h,log,0)

end Run

theorem printEachForgets (line : Payload → Line) (fuel : Nat) (h : Heap ι) (log : List Line) :
    (printEach line fuel h log).map (fun _ => h) = listForEachEntry printEntry fuel h := by
  simp only [printEach,listForEachEntry]
  generalize h.head.next = place
  induction fuel generalizing place log with
  | zero => cases place <;> rfl
  | succ fuel ih =>
    cases place with
    | entry i =>
      cases loaded : h.load i with
      | error e => simp only [forEach,loaded,printEntry]; rfl
      | ok node =>
        have at_ : h.links (.entry i) = .ok node.listMeta := by rw [Heap.links,loaded,okThen]
        simp only [forEach,loaded,printEntry,okThen,at_]
        exact ih _ _
    | _ => rfl

theorem printsCircle (line : Payload → Line) {h : Heap ι} {nodes : List ι} (circle : Circle h.wiring nodes)
    {fuel : Nat} (enough : nodes.length ≤ fuel) (log : List Line) :
    printEach line fuel h log = .ok (log ++ nodes.filterMap fun i => (payload h i).map line) := by
  let lines (rest : List ι) : List Line := rest.filterMap fun i => (payload h i).map line
  let inv (rest : List ι) (done : List Line) : Prop :=
    done ++ lines rest = log ++ lines nodes ∧ ∃ p, Linked h.wiring p rest
  have round : ∀ i rest done, inv (i :: rest) done → ∃ more,
      (do let node ← h.load i; .ok (done ++ [line (node.id,node.longId)])) = (.ok more : Except (Stop ι) (List Line)) ∧
      (do let links ← h.links (.entry i); .ok links.next) = (.ok (first rest) : Except (Stop ι) (Place ι)) ∧
      inv rest more := by
    rintro i rest done ⟨so,p,linked⟩
    obtain ⟨_,back,tail⟩ := linked
    obtain ⟨node,loaded,at_⟩ := loadThere (wiringThere back)
    have next : node.listMeta.next = first rest :=
      Option.some.inj ((wiringAt at_).1.symm.trans (linkedFirst tail))
    have here : (payload h i).map line = some (line (node.id,node.longId)) := by
      simp only [payload,loaded,Except.toOption,Option.map_some]
    refine ⟨done ++ [line (node.id,node.longId)],by rw [loaded,okThen],by rw [at_,okThen,next],?_,_,tail⟩
    rw [← so,List.append_assoc]
    simp only [lines,List.filterMap_cons,here,List.singleton_append]
  obtain ⟨all,done,last,_⟩ := forEachEnds _ _ .endless .wild round ⟨rfl,_,circle.linked⟩ enough
  rw [printEach,circleHead circle,done,← last]
  simp [lines]

section Payloads
variable [DecidableEq ι] {h k : Heap ι}

theorem payloadPut (i j : ι) (o : Object ι) : payload (h.put i o) j =
    if j = i then (match o with | .live node => some (node.id,node.longId) | _ => none) else payload h j := by
  by_cases same : j = i
  · subst same
    rw [if_pos rfl]
    cases o <;> simp only [payload,Heap.load,Heap.put,Function.update_self,Except.toOption,Option.map_some,
      Option.map_none]
  · rw [if_neg same]
    simp only [payload,Heap.load,Heap.put,Function.update_of_ne same]

theorem storePayload {i : ι} {f : BookKeeping ι → BookKeeping ι} (done : h.store i f = .ok k) :
    ∃ node, h.load i = .ok node ∧ ∀ j, payload k j =
      if j = i then some ((f node).id,(f node).longId) else payload h j := by
  cases loaded : h.load i with
  | error e => rw [Heap.store,loaded] at done; cases done
  | ok node =>
    rw [Heap.store,loaded,okThen] at done
    cases done
    exact ⟨node,rfl,fun j => payloadPut i j _⟩

theorem setLinksPayload {f : Links ι → Links ι} {p : Place ι} (done : h.setLinks f p = .ok k) :
    payload k = payload h := by
  cases p with
  | head => cases done; rfl
  | entry i =>
    obtain ⟨node,loaded,after⟩ := storePayload done
    funext j
    rw [after]
    split
    · rename_i same
      rw [same,payload,loaded]
      rfl
    · rfl
  | _ => cases done

theorem okStep {α β ε : Type} {x : Except ε α} {f : α → Except ε β} {b : β} (done : (x >>= f) = .ok b) :
    ∃ a, x = .ok a ∧ f a = .ok b := by
  cases x with
  | error e => cases done
  | ok a => exact ⟨a,rfl,done⟩

theorem listAddPayload {new : ι} (done : listAdd h new = .ok k) : payload k = payload h := by
  obtain ⟨h1,first,done⟩ := okStep done
  obtain ⟨h2,second,done⟩ := okStep done
  obtain ⟨h3,third,done⟩ := okStep done
  rw [setLinksPayload done,setLinksPayload third,setLinksPayload second,setLinksPayload first]

theorem listDelPayload {old : ι} (done : listDel h old = .ok k) : payload k = payload h := by
  obtain ⟨links,_,done⟩ := okStep done
  obtain ⟨h1,first,done⟩ := okStep done
  obtain ⟨h2,second,done⟩ := okStep done
  obtain ⟨h3,third,done⟩ := okStep done
  rw [setLinksPayload done,setLinksPayload third,setLinksPayload second,setLinksPayload first]

theorem kfreePayload {i : ι} (done : kfree i h = .ok k) (j : ι) :
    payload k j = if j = i then none else payload h j := by
  obtain ⟨node,_,done⟩ := okStep done
  cases done
  exact payloadPut i j .freed

theorem addedPayload {a b : Heap ι} {i : ι} {memory : BookKeeping ι} {id longId : Int32}
    (first : (h.kmalloc i memory).store i (fun node => { node with id := id }) = .ok a)
    (second : a.store i (fun node => { node with longId := longId }) = .ok b) (added : listAdd b i = .ok k) (j : ι) :
    payload k j = if j = i then some (id,longId) else payload h j := by
  obtain ⟨before,_,one⟩ := storePayload first
  obtain ⟨node,loaded,two⟩ := storePayload second
  rw [listAddPayload added,two]
  by_cases same : j = i
  · have named : node.id = id := by
      have read := one i
      rw [if_pos rfl,payload,loaded] at read
      exact congrArg Prod.fst (Option.some.inj read)
    rw [if_pos same,if_pos same,named]
  · rw [if_neg same,if_neg same,one,if_neg same,Heap.kmalloc,payloadPut,if_neg same]

end Payloads

section Load
variable [DecidableEq ι] {h : Heap ι}

theorem sameThen {ε α β γ : Type} {x : Except ε α} {f : α → Except ε β} {g : β → γ} {f' : α → Except ε γ}
    (same : ∀ a, (f a).map g = f' a) : (x >>= f).map g = x >>= f' := by
  cases x with
  | error e => rfl
  | ok a => exact same a

omit [DecidableEq ι] in
theorem printThen {β γ : Type} {line : Payload → Line} {fuel : Nat} {h : Heap ι} {log : List Line}
    {f : List Line → Except (Stop ι) β} {g : β → γ} {f' : Heap ι → Except (Stop ι) γ}
    (same : ∀ log, (f log).map g = f' h) :
    (printEach line fuel h log >>= f).map g = listForEachEntry printEntry fuel h >>= f' := by
  rw [← printEachForgets line fuel h log]
  cases printEach line fuel h log with
  | error e => rfl
  | ok log => exact same log

theorem printingForgets (node1 node2 : Kmalloc ι) (fuel : Nat) (h : Heap ι) :
    (dogInitPrinting node1 node2 fuel h).map (fun done => (done.1,done.2.2)) = dogInit node1 node2 fuel h := by
  cases node1 with
  | none => rfl
  | some first =>
    simp only [dogInitPrinting,dogInit]
    refine sameThen fun a => sameThen fun b => sameThen fun one => ?_
    cases node2 with
    | none => exact sameThen fun freed => rfl
    | some second =>
      refine sameThen fun a => sameThen fun b => sameThen fun two => printThen fun log => ?_
      exact sameThen fun node => sameThen fun left => sameThen fun freed => printThen fun log => rfl

def Loaded (h : Heap ι) (node1 node2 : Kmalloc ι) (done : Heap ι × List Line × Int32) : Prop :=
  match node1,node2 with
  | none,_ => done = (h,[initialized,noNode1],-1)
  | some (node1,_),none => done.2 = ([initialized,noNode2],-1) ∧ done.1.kfrees = h.kfrees ++ [node1] ∧
      done.1.object node1 = .freed ∧ done.1.head = ⟨.entry node1,.entry node1⟩
  | some (node1,_),some (node2,_) =>
      done.2 = ([initialized,bothIds (2,1002),bothIds (1,1001),removing 2,idOnly (1,1001)],0) ∧
      done.1.kfrees = h.kfrees ++ [node2] ∧ done.1.object node2 = .freed ∧
      done.1.object node1 = .live ⟨1,1001,⟨.head,.head⟩⟩ ∧ done.1.head = ⟨.entry node1,.entry node1⟩

omit [DecidableEq ι] in
theorem circleOne {i : ι} (circle : Circle h.wiring [i]) : h.head = ⟨.entry i,.entry i⟩ ∧
    h.links (.entry i) = .ok ⟨.head,.head⟩ := by
  obtain ⟨forth,back,next,prev⟩ := circle.linked
  obtain ⟨node,_,at_⟩ := loadThere (wiringThere back)
  have head : h.head.next = .entry i ∧ h.head.prev = .entry i := ⟨Option.some.inj forth,Option.some.inj prev⟩
  have node_ : node.listMeta.next = .head ∧ node.listMeta.prev = .head :=
    ⟨Option.some.inj ((wiringAt at_).1.symm.trans next),Option.some.inj ((wiringAt at_).2.symm.trans back)⟩
  exact ⟨congrArg₂ Links.mk head.1 head.2,at_.trans (congrArg Except.ok (congrArg₂ Links.mk node_.1 node_.2))⟩

omit [DecidableEq ι] in
theorem loadedObject {i : ι} {node : BookKeeping ι} (loaded : h.load i = .ok node) : h.object i = .live node := by
  cases object : h.object i with
  | live there =>
    rw [Heap.load,object] at loaded
    exact congrArg Object.live (Except.ok.inj loaded)
  | absent | freed =>
    rw [Heap.load,object] at loaded
    cases loaded

omit [DecidableEq ι] in
theorem objectIs {i : ι} {links : Links ι} {ids : Payload} (at_ : h.links (.entry i) = .ok links)
    (held : payload h i = some ids) : h.object i = .live ⟨ids.1,ids.2,links⟩ := by
  obtain ⟨node,loaded,linked⟩ := loadThere ⟨links,at_⟩
  have same : some (node.id,node.longId) = some ids := by
    rw [← held,payload,loaded]
    rfl
  rw [loadedObject loaded,← Option.some.inj same,Except.ok.inj (at_.symm.trans linked)]

theorem loadPrints (empty : h.head = ⟨.head,.head⟩) (node1 node2 : Kmalloc ι)
    (apart : ∀ a ∈ node1, ∀ b ∈ node2, a.1 ≠ b.1) {fuel : Nat} (enough : 2 ≤ fuel) :
    ∃ done, dogInitPrinting node1 node2 fuel h = .ok done ∧ Loaded h node1 node2 done := by
  cases node1 with
  | none => exact ⟨_,rfl,rfl⟩
  | some first =>
    obtain ⟨node1,memory1⟩ := first
    obtain ⟨a1,b1,k1,id1,longId1,add1,one,kfrees1⟩ :=
      entryAdded (emptyCircle empty) List.not_mem_nil memory1 1 1001
    cases node2 with
    | none =>
      obtain ⟨node,loaded,_⟩ := loadThere (circleThere one List.mem_cons_self)
      have freed : kfree node1 k1 = .ok { k1.put node1 .freed with kfrees := k1.kfrees ++ [node1] } := by
        rw [kfree,loaded,okThen]
      refine ⟨({ k1.put node1 .freed with kfrees := k1.kfrees ++ [node1] },[initialized,noNode2],-1),?_,rfl,?_,?_,?_⟩
      · simp only [dogInitPrinting,id1,longId1,add1,freed,okThen,List.singleton_append]
      · rw [kfrees1]
      · exact Function.update_self ..
      · exact (circleOne one).1
    | some second =>
      obtain ⟨node2,memory2⟩ := second
      have other : node1 ≠ node2 := apart _ rfl _ rfl
      have off : node2 ∉ [node1] := fun mem => other (List.mem_singleton.mp mem).symm
      obtain ⟨a2,b2,k2,id2,longId2,add2,two,kfrees2⟩ := entryAdded one off memory2 2 1002
      have held (j : ι) : payload k2 j =
          if j = node2 then some (2,1002) else if j = node1 then some (1,1001) else payload h j := by
        rw [addedPayload id2 longId2 add2,addedPayload id1 longId1 add1]
      have printed := printsCircle bothIds two enough [initialized]
      obtain ⟨node,loaded,_⟩ := loadThere (circleThere two List.mem_cons_self)
      have front : Circle k2.wiring ([] ++ node2 :: [node1]) := two
      obtain ⟨k3,removed,three,there,kfrees3⟩ := listDelCircle front
      obtain ⟨k4,freed,four,kfrees4⟩ := kfreeCircle three off there
      have left (j : ι) : payload k4 j = if j = node2 then none else payload k2 j := by
        rw [kfreePayload freed,listDelPayload removed]
      have again := printsCircle idOnly four (Nat.le_of_succ_le enough)
        [initialized,bothIds (2,1002),bothIds (1,1001),removing 2]
      have id2_ : node.id = 2 := by
        have read := held node2
        rw [if_pos rfl,payload,loaded] at read
        exact congrArg Prod.fst (Option.some.inj read)
      obtain ⟨head,alone⟩ := circleOne four
      have last : payload k4 node1 = some (1,1001) := by
        rw [left,held,if_neg other,if_neg other,if_pos rfl]
      refine ⟨(k4,[initialized,bothIds (2,1002),bothIds (1,1001),removing 2,idOnly (1,1001)],0),?_,rfl,?_,?_,?_,head⟩
      · simp [dogInitPrinting,id1,longId1,add1,id2,longId2,add2,printed,loaded,removed,freed,again,okThen,held,left,id2_,other]
      · rw [kfrees4,kfrees3,kfrees2,kfrees1]
      · obtain ⟨_,_,gone⟩ := okStep freed
        cases gone
        exact Function.update_self ..
      · exact objectIs alone last

/- A load returns whatever its allocations answer, with the output and the heap of
that case, and the heap is the one that the run without output leaves. -/
theorem everyLoad (empty : h.head = ⟨.head,.head⟩) (node1 node2 : Kmalloc ι)
    (apart : ∀ a ∈ node1, ∀ b ∈ node2, a.1 ≠ b.1) {fuel : Nat} (enough : 2 ≤ fuel) :
    ∃ done, dogInitPrinting node1 node2 fuel h = .ok done ∧
      dogInit node1 node2 fuel h = .ok (done.1,done.2.2) ∧ Loaded h node1 node2 done := by
  obtain ⟨done,ran,loaded⟩ := loadPrints empty node1 node2 apart enough
  refine ⟨done,ran,?_,loaded⟩
  rw [← printingForgets,ran]
  rfl

end Load

theorem twoNodesLoaded : ∃ done : Heap Bool × List Line × Int32,
    dogInitPrinting (some (true,unused)) (some (false,unused)) 2 moduleLoaded = .ok done ∧ done.2.2 = 0 := by
  have apart : ∀ a ∈ some (true,unused), ∀ b ∈ some (false,unused), a.1 ≠ b.1 := by
    rintro a ⟨⟩ b ⟨⟩
    decide
  have empty : moduleLoaded.head = ⟨.head,.head⟩ := rfl
  obtain ⟨done,ran,_,loaded⟩ := everyLoad empty _ _ apart (Nat.le_refl 2)
  exact ⟨done,ran,congrArg Prod.snd loaded.1⟩

end KernelFacilities.LinkedListOutput
