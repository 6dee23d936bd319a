import KernelFacilities.CircularLists

/-! The linked-list module (Kernel_facilities_course/Linked_List/driver.c) over an
explicit heap: an access to a freed object, or to none, stops the run. Addresses are
abstract, and what a stopped run would do on a real machine is not followed. -/
namespace KernelFacilities.LinkedList
open CircularLists

structure BookKeeping (ι : Type) where
  id : Int32
  longId : Int32
  listMeta : Links ι
  deriving DecidableEq, Repr

inductive Object (ι : Type) where
  | absent
  | live (node : BookKeeping ι)
  | freed
  deriving DecidableEq, Repr

structure Heap (ι : Type) where
  head : Links ι
  object : ι → Object ι
  kfrees : List ι

inductive Stop (ι : Type) where
  | freed (i : ι)
  | wild (p : Place ι)
  | endless
  deriving DecidableEq, Repr

variable {ι : Type}

def Heap.load (h : Heap ι) (i : ι) : Except (Stop ι) (BookKeeping ι) :=
  match h.object i with
  | .live node => .ok node
  | .freed => .error (.freed i)
  | .absent => .error (.wild (.entry i))

def Heap.links (h : Heap ι) : Place ι → Except (Stop ι) (Links ι)
  | .head => .ok h.head
  | .entry i => do
    let node ← h.load i
    .ok node.listMeta
  | p => .error (.wild p)

def listForEachEntry (body : ι → Heap ι → Except (Stop ι) (Heap ι)) (fuel : Nat) (h : Heap ι) :
    Except (Stop ι) (Heap ι) :=
  forEach body (fun pos h => do let links ← h.links (.entry pos); .ok links.next) .endless .wild fuel h.head.next h

def printEntry (pos : ι) (h : Heap ι) : Except (Stop ι) (Heap ι) := do
  let _ ← h.load pos
  .ok h

section Stores
variable [DecidableEq ι]

def Heap.put (h : Heap ι) (i : ι) (o : Object ι) : Heap ι := { h with object := Function.update h.object i o }

def Heap.store (h : Heap ι) (i : ι) (f : BookKeeping ι → BookKeeping ι) : Except (Stop ι) (Heap ι) := do
  let node ← h.load i
  .ok (h.put i (.live (f node)))

def Heap.setLinks (h : Heap ι) (f : Links ι → Links ι) : Place ι → Except (Stop ι) (Heap ι)
  | .head => .ok { h with head := f h.head }
  | .entry i => h.store i fun node => { node with listMeta := f node.listMeta }
  | p => .error (.wild p)

def Heap.setNext (h : Heap ι) (p q : Place ι) := h.setLinks (fun l => { l with next := q }) p
def Heap.setPrev (h : Heap ι) (p q : Place ι) := h.setLinks (fun l => { l with prev := q }) p

def listAdd (h : Heap ι) (new : ι) : Except (Stop ι) (Heap ι) := do
  let next := h.head.next
  let h ← h.setPrev next (.entry new)
  let h ← h.setNext (.entry new) next
  let h ← h.setPrev (.entry new) .head
  h.setNext .head (.entry new)

def listDel (h : Heap ι) (old : ι) : Except (Stop ι) (Heap ι) := do
  let links ← h.links (.entry old)
  let h ← h.setPrev links.next links.prev
  let h ← h.setNext links.prev links.next
  let h ← h.setNext (.entry old) .poison1
  h.setPrev (.entry old) .poison2

def Heap.kmalloc (h : Heap ι) (i : ι) (memory : BookKeeping ι) : Heap ι := h.put i (.live memory)

def kfree (i : ι) (h : Heap ι) : Except (Stop ι) (Heap ι) := do
  let _ ← h.load i
  .ok { h.put i .freed with kfrees := h.kfrees ++ [i] }

abbrev Kmalloc (ι : Type) := Option (ι × BookKeeping ι)

def dogInit (node1 node2 : Kmalloc ι) (fuel : Nat) (h : Heap ι) : Except (Stop ι) (Heap ι × Int32) :=
  match node1 with
  | none => .ok (h,-1)
  | some (node1,memory) => do
    let h := h.kmalloc node1 memory
    let h ← h.store node1 fun node => { node with id := 1 }
    let h ← h.store node1 fun node => { node with longId := 1001 }
    let h ← listAdd h node1
    match node2 with
    | none => do
      let h ← kfree node1 h
      .ok (h,-1)
    | some (node2,memory) => do
      let h := h.kmalloc node2 memory
      let h ← h.store node2 fun node => { node with id := 2 }
      let h ← h.store node2 fun node => { node with longId := 1002 }
      let h ← listAdd h node2
      let h ← listForEachEntry printEntry fuel h
      let _ ← h.load node2
      let h ← listDel h node2
      let h ← kfree node2 h
      let h ← listForEachEntry printEntry fuel h
      .ok (h,0)

def dogExit (fuel : Nat) (h : Heap ι) : Except (Stop ι) (Heap ι) := listForEachEntry kfree fuel h

end Stores

def Heap.wiring (h : Heap ι) : Wiring ι :=
  ⟨fun p => (h.links p).toOption.map Links.next,fun p => (h.links p).toOption.map Links.prev⟩

def There (h : Heap ι) (p : Place ι) : Prop := ∃ links, h.links p = .ok links

theorem okThen {ε α β : Type} (a : α) (f : α → Except ε β) : (Except.ok a >>= f) = f a := rfl

theorem wiringAt {h : Heap ι} {p : Place ι} {links : Links ι} (at_ : h.links p = .ok links) :
    h.wiring.next p = some links.next ∧ h.wiring.prev p = some links.prev := by
  simp only [Heap.wiring,at_,Except.toOption,Option.map_some,and_self]

theorem wiringSame {h k : Heap ι} {p : Place ι} (same : k.links p = h.links p) :
    k.wiring.next p = h.wiring.next p ∧ k.wiring.prev p = h.wiring.prev p := by
  simp only [Heap.wiring,same,and_self]

theorem wiringThere {h : Heap ι} {p q : Place ι} (at_ : h.wiring.prev p = some q) : There h p := by
  cases links : h.links p with
  | ok l => exact ⟨l,links⟩
  | error e => simp [Heap.wiring,links,Except.toOption] at at_

theorem loadThere {h : Heap ι} {i : ι} (there : There h (.entry i)) : ∃ node, h.load i = .ok node ∧
    h.links (.entry i) = .ok node.listMeta := by
  obtain ⟨links,at_⟩ := there
  cases loaded : h.load i with
  | ok node => exact ⟨node,rfl,by rw [Heap.links,loaded,okThen]⟩
  | error e => rw [Heap.links,loaded] at at_; cases at_

/- What a store leaves: the links say what a wiring says, nothing that was there is
gone, and nothing was freed. -/
structure Rewired (h : Heap ι) (w : Wiring ι) (k : Heap ι) : Prop where
  wiring : k.wiring = w
  there : ∀ p, There h p → There k p
  kfrees : k.kfrees = h.kfrees

theorem rewiredTrans {w v : Wiring ι} {h k m : Heap ι} (first : Rewired h w k) (second : Rewired k v m) :
    Rewired h v m :=
  ⟨second.wiring,fun p there => second.there p (first.there p there),second.kfrees.trans first.kfrees⟩

theorem circleThere {h : Heap ι} {nodes : List ι} (circle : Circle h.wiring nodes) {i : ι} (mem : i ∈ nodes) :
    There h (.entry i) := by
  obtain ⟨q,back⟩ := linkedPrev circle.linked mem
  exact wiringThere back

theorem circleHead {h : Heap ι} {nodes : List ι} (circle : Circle h.wiring nodes) : h.head.next = first nodes :=
  Option.some.inj (linkedFirst circle.linked)

theorem thereFirst {h : Heap ι} {nodes : List ι} (all : ∀ i ∈ nodes, There h (.entry i)) : There h (first nodes) := by
  rcases firstPlace nodes with place | ⟨i,mem,place⟩
  · exact place ▸ ⟨h.head,rfl⟩
  · exact place ▸ all i mem

section Stores
variable [DecidableEq ι] {h : Heap ι}

theorem putElsewhere (o : Object ι) {i : ι} {p : Place ι} (other : p ≠ .entry i) :
    (h.put i o).links p = h.links p := by
  cases p with
  | entry j =>
    have apart : j ≠ i := fun same => other (same ▸ rfl)
    simp only [Heap.links,Heap.load,Heap.put,Function.update_of_ne apart]
  | _ => rfl

theorem putLive (i : ι) (node : BookKeeping ι) : (h.put i (.live node)).links (.entry i) = .ok node.listMeta := by
  simp only [Heap.links,Heap.load,Heap.put,Function.update_self,okThen]

theorem putThere (i : ι) (node : BookKeeping ι) {p : Place ι} (there : There h p) :
    There (h.put i (.live node)) p := by
  by_cases here : p = .entry i
  · exact ⟨node.listMeta,here ▸ putLive i node⟩
  · obtain ⟨links,at_⟩ := there
    exact ⟨links,(putElsewhere _ here).trans at_⟩

theorem setLinksAt {p : Place ι} {links : Links ι} (at_ : h.links p = .ok links) (f : Links ι → Links ι) :
    ∃ k, h.setLinks f p = .ok k ∧ k.links p = .ok (f links) ∧ (∀ q, q ≠ p → k.links q = h.links q) ∧
      k.kfrees = h.kfrees := by
  cases p with
  | head =>
    cases at_
    refine ⟨{ h with head := f h.head },rfl,rfl,fun q other => ?_,rfl⟩
    cases q with
    | head => exact absurd rfl other
    | _ => rfl
  | entry i =>
    obtain ⟨node,loaded,linked⟩ := loadThere ⟨links,at_⟩
    cases Except.ok.inj (at_.symm.trans linked)
    refine ⟨h.put i (.live { node with listMeta := f node.listMeta }),?_,putLive i _,?_,rfl⟩
    · rw [Heap.setLinks,Heap.store,loaded,okThen]
    · exact fun q other => putElsewhere _ other
  | poison1 | poison2 => cases at_

theorem setLinksRewires {p : Place ι} {links : Links ι} (at_ : h.links p = .ok links) (f : Links ι → Links ι) :
    ∃ k, h.setLinks f p = .ok k ∧ Rewired h
      ⟨Function.update h.wiring.next p (some (f links).next),
        Function.update h.wiring.prev p (some (f links).prev)⟩ k := by
  obtain ⟨k,done,here,elsewhere,kfrees⟩ := setLinksAt at_ f
  refine ⟨k,done,?_,fun q there => ?_,kfrees⟩
  · have both : ∀ q, k.wiring.next q = Function.update h.wiring.next p (some (f links).next) q ∧
        k.wiring.prev q = Function.update h.wiring.prev p (some (f links).prev) q := by
      intro q
      by_cases same : q = p
      · subst same
        rw [Function.update_self,Function.update_self]
        exact wiringAt here
      · rw [Function.update_of_ne same,Function.update_of_ne same]
        exact wiringSame (elsewhere q same)
    exact congrArg₂ Wiring.mk (funext fun q => (both q).1) (funext fun q => (both q).2)
  · by_cases same : q = p
    · exact ⟨f links,same ▸ here⟩
    · obtain ⟨before,was⟩ := there
      exact ⟨before,(elsewhere q same).trans was⟩

theorem setNextRewires {p : Place ι} (there : There h p) (q : Place ι) :
    ∃ k, h.setNext p q = .ok k ∧ Rewired h (h.wiring.setNext p q) k := by
  obtain ⟨links,at_⟩ := there
  obtain ⟨k,done,rewired⟩ := setLinksRewires at_ fun l => { l with next := q }
  refine ⟨k,done,?_⟩
  rwa [← (wiringAt at_).2,Function.update_eq_self] at rewired

theorem setPrevRewires {p : Place ι} (there : There h p) (q : Place ι) :
    ∃ k, h.setPrev p q = .ok k ∧ Rewired h (h.wiring.setPrev p q) k := by
  obtain ⟨links,at_⟩ := there
  obtain ⟨k,done,rewired⟩ := setLinksRewires at_ fun l => { l with prev := q }
  refine ⟨k,done,?_⟩
  rwa [← (wiringAt at_).1,Function.update_eq_self] at rewired

theorem listAddRewires {new : ι} (front : There h h.head.next) (there : There h (.entry new)) :
    ∃ k, listAdd h new = .ok k ∧ Rewired h (h.wiring.add new h.head.next) k := by
  obtain ⟨h1,done1,first⟩ := setPrevRewires front (.entry new)
  obtain ⟨h2,done2,second⟩ := setNextRewires (first.there _ there) h.head.next
  have upTo2 := rewiredTrans first second
  obtain ⟨h3,done3,third⟩ := setPrevRewires (upTo2.there _ there) .head
  have upTo3 := rewiredTrans upTo2 third
  obtain ⟨h4,done4,fourth⟩ := setNextRewires (p := .head) ⟨h3.head,rfl⟩ (.entry new)
  refine ⟨h4,?_,?_⟩
  · simp only [listAdd,done1,okThen,done2,done3,done4]
  · rw [Wiring.add,← first.wiring,← second.wiring,← third.wiring]
    exact rewiredTrans upTo3 fourth

theorem listDelRewires {old : ι} {links : Links ι} (at_ : h.links (.entry old) = .ok links)
    (ahead : There h links.next) (back : There h links.prev) :
    ∃ k, listDel h old = .ok k ∧ Rewired h (h.wiring.del old links.next links.prev) k := by
  have there : There h (.entry old) := ⟨links,at_⟩
  obtain ⟨h1,done1,first⟩ := setPrevRewires ahead links.prev
  obtain ⟨h2,done2,second⟩ := setNextRewires (first.there _ back) links.next
  have upTo2 := rewiredTrans first second
  obtain ⟨h3,done3,third⟩ := setNextRewires (upTo2.there _ there) .poison1
  have upTo3 := rewiredTrans upTo2 third
  obtain ⟨h4,done4,fourth⟩ := setPrevRewires (upTo3.there _ there) .poison2
  refine ⟨h4,?_,?_⟩
  · simp only [listDel,at_,done1,okThen,done2,done3,done4]
  · rw [Wiring.del,← first.wiring,← second.wiring,← third.wiring]
    exact rewiredTrans upTo3 fourth

theorem listAddCircle {nodes : List ι} {new : ι} (circle : Circle h.wiring nodes) (fresh : new ∉ nodes)
    (there : There h (.entry new)) :
    ∃ k, listAdd h new = .ok k ∧ Circle k.wiring (new :: nodes) ∧ k.kfrees = h.kfrees := by
  have front : There h h.head.next := circleHead circle ▸ thereFirst fun i mem => circleThere circle mem
  obtain ⟨k,done,rewired⟩ := listAddRewires front there
  exact ⟨k,done,rewired.wiring ▸ circleAdd circle fresh rfl,rewired.kfrees⟩

theorem listDelCircle {before after : List ι} {old : ι} (circle : Circle h.wiring (before ++ old :: after)) :
    ∃ k, listDel h old = .ok k ∧ Circle k.wiring (before ++ after) ∧ There k (.entry old) ∧
      k.kfrees = h.kfrees := by
  have there : There h (.entry old) := circleThere circle (List.mem_append_right _ List.mem_cons_self)
  obtain ⟨links,at_⟩ := there
  obtain ⟨ring,q,back,place⟩ := linkedAround circle.linked
  have next : links.next = first after := Option.some.inj ((wiringAt at_).1.symm.trans (linkedFirst ring))
  have prev : links.prev = q := Option.some.inj ((wiringAt at_).2.symm.trans back)
  have ahead : There h links.next := next ▸ thereFirst fun i mem =>
    circleThere circle (List.mem_append_right _ (List.mem_cons_of_mem _ mem))
  have behind : There h links.prev := by
    rcases place with rfl | ⟨j,mem,rfl⟩
    · exact prev ▸ ⟨h.head,rfl⟩
    · exact prev ▸ circleThere circle (List.mem_append_left _ mem)
  obtain ⟨k,done,rewired⟩ := listDelRewires at_ ahead behind
  refine ⟨k,done,?_,rewired.there _ ⟨links,at_⟩,rewired.kfrees⟩
  exact rewired.wiring ▸ circleDel circle (wiringAt at_).1 (wiringAt at_).2

theorem putCircle {nodes : List ι} {i : ι} (circle : Circle h.wiring nodes) (off : i ∉ nodes) (o : Object ι) :
    Circle (h.put i o).wiring nodes := by
  refine circleCongr circle (wiringSame (putElsewhere o (headOther i))) fun j mem => ?_
  exact wiringSame (putElsewhere o (entryOther fun same => off (same ▸ mem)))

theorem storeKeeps {i : ι} (there : There h (.entry i)) {f : BookKeeping ι → BookKeeping ι}
    (keeps : ∀ node, (f node).listMeta = node.listMeta) : ∃ k, h.store i f = .ok k ∧ Rewired h h.wiring k := by
  obtain ⟨node,loaded,linked⟩ := loadThere there
  have same : ∀ p, (h.put i (.live (f node))).links p = h.links p := by
    intro p
    by_cases here : p = .entry i
    · rw [here,putLive,keeps,linked]
    · exact putElsewhere _ here
  refine ⟨h.put i (.live (f node)),by rw [Heap.store,loaded,okThen],?_,fun p at_ => putThere i _ at_,rfl⟩
  exact congrArg₂ Wiring.mk (funext fun p => (wiringSame (same p)).1) (funext fun p => (wiringSame (same p)).2)

theorem kfreeCircle {nodes : List ι} {i : ι} (circle : Circle h.wiring nodes) (off : i ∉ nodes)
    (there : There h (.entry i)) :
    ∃ k, kfree i h = .ok k ∧ Circle k.wiring nodes ∧ k.kfrees = h.kfrees ++ [i] := by
  obtain ⟨node,loaded,_⟩ := loadThere there
  refine ⟨{ h.put i .freed with kfrees := h.kfrees ++ [i] },?_,putCircle circle off .freed,rfl⟩
  rw [kfree,loaded,okThen]

theorem entryAdded {nodes : List ι} {i : ι} (circle : Circle h.wiring nodes) (fresh : i ∉ nodes)
    (memory : BookKeeping ι) (id longId : Int32) : ∃ a b k,
      (h.kmalloc i memory).store i (fun node => { node with id := id }) = .ok a ∧
      a.store i (fun node => { node with longId := longId }) = .ok b ∧
      listAdd b i = .ok k ∧ Circle k.wiring (i :: nodes) ∧ k.kfrees = h.kfrees := by
  have there : There (h.kmalloc i memory) (.entry i) := ⟨memory.listMeta,putLive i memory⟩
  obtain ⟨a,done1,first⟩ := storeKeeps there (f := fun node => { node with id := id }) fun _ => rfl
  obtain ⟨b,done2,second⟩ := storeKeeps (first.there _ there)
    (f := fun node => { node with longId := longId }) fun _ => rfl
  have stored := rewiredTrans first second
  have off : Circle b.wiring nodes := by
    rw [stored.wiring,first.wiring]
    exact putCircle circle fresh (.live memory)
  obtain ⟨k,added,on,kfrees⟩ := listAddCircle off fresh (stored.there _ there)
  exact ⟨a,b,k,done1,done2,added,on,kfrees.trans stored.kfrees⟩

end Stores

theorem printsAll {h : Heap ι} {nodes : List ι} (circle : Circle h.wiring nodes) {fuel : Nat}
    (enough : nodes.length ≤ fuel) : listForEachEntry printEntry fuel h = .ok h := by
  let inv (rest : List ι) (k : Heap ι) : Prop := k = h ∧ ∃ p, Linked h.wiring p rest
  have round : ∀ i rest k, inv (i :: rest) k → ∃ m, printEntry i k = .ok m ∧
      (do let links ← m.links (.entry i); .ok links.next) = Except.ok (first rest) ∧ inv rest m := by
    rintro i rest k ⟨rfl,p,linked⟩
    obtain ⟨_,back,tail⟩ := linked
    obtain ⟨node,loaded,at_⟩ := loadThere (wiringThere back)
    have next : node.listMeta.next = first rest :=
      Option.some.inj ((wiringAt at_).1.symm.trans (linkedFirst tail))
    refine ⟨k,by rw [printEntry,loaded,okThen],?_,rfl,_,tail⟩
    rw [at_,okThen,next]
  obtain ⟨k,done,rfl,_⟩ := forEachEnds printEntry _ .endless .wild round ⟨rfl,_,circle.linked⟩ enough
  rw [listForEachEntry,circleHead circle]
  exact done

theorem emptyCircle {h : Heap ι} (empty : h.head = ⟨.head,.head⟩) : Circle h.wiring [] := by
  have at_ : h.links .head = .ok ⟨.head,.head⟩ := congrArg Except.ok empty
  exact ⟨wiringAt at_,List.nodup_nil⟩

section Module
variable [DecidableEq ι]

theorem initLeavesOne {h : Heap ι} (empty : h.head = ⟨.head,.head⟩) {node1 node2 : ι} (apart : node1 ≠ node2)
    (memory1 memory2 : BookKeeping ι) {fuel : Nat} (enough : 2 ≤ fuel) :
    ∃ k, dogInit (some (node1,memory1)) (some (node2,memory2)) fuel h = .ok (k,0) ∧
      Circle k.wiring [node1] ∧ k.kfrees = h.kfrees ++ [node2] := by
  obtain ⟨a1,b1,k1,id1,longId1,add1,one,kfrees1⟩ :=
    entryAdded (emptyCircle empty) List.not_mem_nil memory1 1 1001
  have off : node2 ∉ [node1] := fun mem => apart (List.mem_singleton.mp mem).symm
  obtain ⟨a2,b2,k2,id2,longId2,add2,two,kfrees2⟩ := entryAdded one off memory2 2 1002
  have printed := printsAll two enough
  obtain ⟨node,loaded,_⟩ := loadThere (circleThere two List.mem_cons_self)
  have front : Circle k2.wiring ([] ++ node2 :: [node1]) := two
  obtain ⟨k3,removed,three,there,kfrees3⟩ := listDelCircle front
  obtain ⟨k4,freed,four,kfrees4⟩ := kfreeCircle three off there
  have again := printsAll four (Nat.le_of_succ_le enough)
  refine ⟨k4,?_,four,by rw [kfrees4,kfrees3,kfrees2,kfrees1]⟩
  simp only [dogInit,id1,longId1,add1,id2,longId2,add2,printed,loaded,removed,freed,again,okThen]

structure BookList (ι : Type) where
  heap : Heap ι
  nodes : List ι
  circle : Circle heap.wiring nodes

def ExitsCleanly (l : BookList ι) : Prop :=
  ∃ fuel after freed, dogExit fuel l.heap = .ok after ∧ after.kfrees = l.heap.kfrees ++ freed ∧
    freed.Perm l.nodes

-- The body frees the entry that the step of the loop loads from.
theorem exitLoadsFreed {l : BookList ι} {i : ι} {rest : List ι} (nodes : l.nodes = i :: rest) (fuel : Nat) :
    dogExit (fuel + 1) l.heap = .error (.freed i) := by
  have mem : i ∈ l.nodes := nodes ▸ List.mem_cons_self
  have place : l.heap.head.next = .entry i := by rw [circleHead l.circle,nodes,first]
  obtain ⟨node,loaded,_⟩ := loadThere (circleThere l.circle mem)
  have body : kfree i l.heap = .ok { l.heap.put i .freed with kfrees := l.heap.kfrees ++ [i] } := by
    rw [kfree,loaded,okThen]
  have gone : Heap.links { l.heap.put i .freed with kfrees := l.heap.kfrees ++ [i] } (.entry i) =
      .error (.freed i) := by
    simp only [Heap.links,Heap.load,Heap.put,Function.update_self]
    rfl
  rw [dogExit,listForEachEntry,place,forEach,body,okThen,gone]
  rfl

theorem exitNeverEnds {l : BookList ι} {i : ι} {rest : List ι} (nodes : l.nodes = i :: rest) (fuel : Nat)
    (after : Heap ι) : dogExit fuel l.heap ≠ .ok after := by
  intro ends
  cases fuel with
  | zero =>
    rw [dogExit,listForEachEntry,circleHead l.circle,nodes] at ends
    cases ends
  | succ fuel =>
    rw [exitLoadsFreed nodes] at ends
    cases ends

theorem exitExact (l : BookList ι) : ExitsCleanly l ↔ l.nodes = [] := by
  constructor
  · rintro ⟨fuel,after,_,ends,_,_⟩
    cases nodes : l.nodes with
    | nil => rfl
    | cons i rest => exact absurd ends (exitNeverEnds nodes fuel after)
  · intro empty
    refine ⟨0,l.heap,[],?_,(List.append_nil _).symm,empty ▸ List.Perm.refl []⟩
    rw [dogExit,listForEachEntry,circleHead l.circle,empty]
    rfl

theorem unloadLoadsFreed {h : Heap ι} (empty : h.head = ⟨.head,.head⟩) {node1 node2 : ι} (apart : node1 ≠ node2)
    (memory1 memory2 : BookKeeping ι) {fuel : Nat} (enough : 2 ≤ fuel) :
    ∃ l : BookList ι, dogInit (some (node1,memory1)) (some (node2,memory2)) fuel h = .ok (l.heap,0) ∧
      l.nodes = [node1] ∧ ∀ rounds, dogExit (rounds + 1) l.heap = .error (.freed node1) := by
  obtain ⟨k,done,circle,_⟩ := initLeavesOne empty apart memory1 memory2 enough
  exact ⟨⟨k,[node1],circle⟩,done,rfl,exitLoadsFreed rfl⟩

end Module

def unused : BookKeeping Bool := ⟨0,0,⟨.head,.head⟩⟩

def moduleLoaded : Heap Bool := ⟨⟨.head,.head⟩,fun _ => .absent,[]⟩

theorem bothNodesAllocated : ∃ l : BookList Bool,
    dogInit (some (true,unused)) (some (false,unused)) 2 moduleLoaded = .ok (l.heap,0) ∧ ¬ ExitsCleanly l := by
  have apart : true ≠ false := by decide
  obtain ⟨l,done,nodes,_⟩ := @unloadLoadsFreed _ _ moduleLoaded rfl _ _ apart unused unused 2 (Nat.le_refl 2)
  exact ⟨l,done,fun ⟨fuel,after,_,ends,_⟩ => exitNeverEnds nodes fuel after ends⟩

end KernelFacilities.LinkedList
