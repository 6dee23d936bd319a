import Mathlib.Logic.Function.Basic
import Mathlib.Tactic.Common

/-! Circular lists of intrusive links around a head, as the pointers say them: a
wiring maps every place that can be loaded to its next and its previous place. Where
the links live and what a node carries is for the user of a wiring to say. -/
namespace KernelFacilities.CircularLists

variable {ι : Type*}

inductive Place (ι : Type*) where
  | head
  | entry (i : ι)
  | poison1
  | poison2
  deriving DecidableEq, Repr

structure Links (ι : Type*) where
  next : Place ι
  prev : Place ι
  deriving DecidableEq, Repr

structure Wiring (ι : Type*) where
  next : Place ι → Option (Place ι)
  prev : Place ι → Option (Place ι)

def Linked (w : Wiring ι) : Place ι → List ι → Prop
  | p, [] => w.next p = some .head ∧ w.prev .head = some p
  | p, i :: rest => w.next p = some (.entry i) ∧ w.prev (.entry i) = some p ∧ Linked w (.entry i) rest

structure Circle (w : Wiring ι) (nodes : List ι) : Prop where
  linked : Linked w .head nodes
  distinct : nodes.Nodup

theorem linkedCongr {w v : Wiring ι} {p : Place ι} {nodes : List ι} (linked : Linked w p nodes)
    (here : v.next p = w.next p) (next : ∀ i ∈ nodes, v.next (.entry i) = w.next (.entry i))
    (prev : ∀ i ∈ nodes, v.prev (.entry i) = w.prev (.entry i)) (last : v.prev .head = w.prev .head) :
    Linked v p nodes := by
  induction nodes generalizing p with
  | nil => exact ⟨here.trans linked.1,last.trans linked.2⟩
  | cons i rest ih =>
    obtain ⟨there,back,tail⟩ := linked
    refine ⟨here.trans there,(prev i List.mem_cons_self).trans back,ih tail (next i List.mem_cons_self) ?_ ?_⟩
    · exact fun j mem => next j (List.mem_cons_of_mem _ mem)
    · exact fun j mem => prev j (List.mem_cons_of_mem _ mem)

theorem entryOther {i j : ι} (other : i ≠ j) : Place.entry i ≠ .entry j := fun same => other (Place.entry.inj same)

theorem headOther (i : ι) : Place.head ≠ .entry i := fun same => by cases same

theorem circleCongr {w v : Wiring ι} {nodes : List ι} (circle : Circle w nodes)
    (head : v.next .head = w.next .head ∧ v.prev .head = w.prev .head)
    (same : ∀ i ∈ nodes, v.next (.entry i) = w.next (.entry i) ∧ v.prev (.entry i) = w.prev (.entry i)) :
    Circle v nodes :=
  ⟨linkedCongr circle.linked head.1 (fun i mem => (same i mem).1) (fun i mem => (same i mem).2) head.2,
    circle.distinct⟩

def first : List ι → Place ι
  | [] => .head
  | i :: _ => .entry i

theorem firstPlace (nodes : List ι) : first nodes = .head ∨ ∃ i ∈ nodes, first nodes = .entry i := by
  cases nodes with
  | nil => exact .inl rfl
  | cons i rest => exact .inr ⟨i,List.mem_cons_self,rfl⟩

theorem linkedFirst {w : Wiring ι} {p : Place ι} {nodes : List ι} (linked : Linked w p nodes) :
    w.next p = some (first nodes) := by
  cases nodes with
  | nil => exact linked.1
  | cons i rest => exact linked.1

theorem linkedAround {w : Wiring ι} {p : Place ι} {before after : List ι} {i : ι}
    (linked : Linked w p (before ++ i :: after)) :
    Linked w (.entry i) after ∧ ∃ q, w.prev (.entry i) = some q ∧ (q = p ∨ ∃ j ∈ before, q = .entry j) := by
  induction before generalizing p with
  | nil => exact ⟨linked.2.2,p,linked.2.1,.inl rfl⟩
  | cons k rest ih =>
    obtain ⟨tail,q,back,place⟩ := ih linked.2.2
    refine ⟨tail,q,back,.inr ?_⟩
    rcases place with rfl | ⟨j,mem,rfl⟩
    · exact ⟨k,List.mem_cons_self,rfl⟩
    · exact ⟨j,List.mem_cons_of_mem _ mem,rfl⟩

theorem linkedPrev {w : Wiring ι} {p : Place ι} {nodes : List ι} (linked : Linked w p nodes) {i : ι}
    (mem : i ∈ nodes) : ∃ q, w.prev (.entry i) = some q := by
  obtain ⟨before,after,rfl⟩ := List.append_of_mem mem
  obtain ⟨_,q,back,_⟩ := linkedAround linked
  exact ⟨q,back⟩

section Updates
variable [DecidableEq ι]

def Wiring.setNext (w : Wiring ι) (p q : Place ι) : Wiring ι := { w with next := Function.update w.next p (some q) }
def Wiring.setPrev (w : Wiring ι) (p q : Place ι) : Wiring ι := { w with prev := Function.update w.prev p (some q) }

def Wiring.add (w : Wiring ι) (new : ι) (next : Place ι) : Wiring ι :=
  (((w.setPrev next (.entry new)).setNext (.entry new) next).setPrev (.entry new) .head).setNext .head (.entry new)

def Wiring.del (w : Wiring ι) (old : ι) (next prev : Place ι) : Wiring ι :=
  (((w.setPrev next prev).setNext prev next).setNext (.entry old) .poison1).setPrev (.entry old) .poison2

variable {w : Wiring ι}

theorem addNext (new : ι) (next p : Place ι) : (w.add new next).next p =
    if p = .head then some (.entry new) else if p = .entry new then some next else w.next p := by
  simp only [Wiring.add,Wiring.setNext,Wiring.setPrev,Function.update_apply]

theorem addPrev (new : ι) (next p : Place ι) : (w.add new next).prev p =
    if p = .entry new then some .head else if p = next then some (.entry new) else w.prev p := by
  simp only [Wiring.add,Wiring.setNext,Wiring.setPrev,Function.update_apply]

theorem delNext (old : ι) (next prev p : Place ι) : (w.del old next prev).next p =
    if p = .entry old then some .poison1 else if p = prev then some next else w.next p := by
  simp only [Wiring.del,Wiring.setNext,Wiring.setPrev,Function.update_apply]

theorem delPrev (old : ι) (next prev p : Place ι) : (w.del old next prev).prev p =
    if p = .entry old then some .poison2 else if p = next then some prev else w.prev p := by
  simp only [Wiring.del,Wiring.setNext,Wiring.setPrev,Function.update_apply]

theorem circleAdd {nodes : List ι} {new : ι} {next : Place ι} (circle : Circle w nodes) (fresh : new ∉ nodes)
    (first : w.next .head = some next) : Circle (w.add new next) (new :: nodes) := by
  have front : (w.add new next).next .head = some (.entry new) := by rw [addNext,if_pos rfl]
  have back : (w.add new next).prev (.entry new) = some .head := by rw [addPrev,if_pos rfl]
  have goes : (w.add new next).next (.entry new) = some next := by
    rw [addNext,if_neg (headOther new).symm,if_pos rfl]
  refine ⟨⟨front,back,?_⟩,List.nodup_cons.mpr ⟨fresh,circle.distinct⟩⟩
  have linked := circle.linked
  have distinct := circle.distinct
  cases nodes with
  | nil =>
    obtain rfl : next = .head := Option.some.inj (first.symm.trans linked.1)
    exact ⟨goes,by rw [addPrev,if_neg (headOther new),if_pos rfl]⟩
  | cons i rest =>
    obtain rfl : next = .entry i := Option.some.inj (first.symm.trans linked.1)
    have others : ∀ j ∈ i :: rest, Place.entry j ≠ .entry new :=
      fun j mem => entryOther (fun same => fresh (same ▸ mem))
    have behind : ∀ j ∈ rest, Place.entry j ≠ .entry i :=
      fun j mem => entryOther (fun same => (List.nodup_cons.mp distinct).1 (same ▸ mem))
    have kept : ∀ j ∈ i :: rest, (w.add new (.entry i)).next (.entry j) = w.next (.entry j) := by
      intro j mem
      rw [addNext,if_neg (headOther j).symm,if_neg (others j mem)]
    refine ⟨goes,?_,linkedCongr linked.2.2 (kept i List.mem_cons_self) ?_ ?_ ?_⟩
    · rw [addPrev,if_neg (others i List.mem_cons_self),if_pos rfl]
    · exact fun j mem => kept j (List.mem_cons_of_mem _ mem)
    · intro j mem
      rw [addPrev,if_neg (others j (List.mem_cons_of_mem _ mem)),if_neg (behind j mem)]
    · rw [addPrev,if_neg (headOther new),if_neg (headOther i)]

theorem linkedDel {p : Place ι} {before after : List ι} {old : ι} {next prev : Place ι}
    (linked : Linked w p (before ++ old :: after)) (distinct : (before ++ old :: after).Nodup)
    (outside : ∀ i ∈ before ++ old :: after, p ≠ .entry i) (ahead : w.next (.entry old) = some next)
    (back : w.prev (.entry old) = some prev) : Linked (w.del old next prev) p (before ++ after) := by
  have notOld : p ≠ .entry old := outside old (List.mem_append_right _ List.mem_cons_self)
  have last : next ≠ .head → (w.del old next prev).prev .head = w.prev .head := fun other => by
    rw [delPrev,if_neg (headOther old),if_neg (Ne.symm other)]
  induction before generalizing p with
  | nil =>
    obtain ⟨_,behind,tail⟩ := linked
    obtain rfl : prev = p := Option.some.inj (back.symm.trans behind)
    have skips : (w.del old next prev).next prev = some next := by rw [delNext,if_neg notOld,if_pos rfl]
    cases after with
    | nil =>
      obtain rfl : next = .head := Option.some.inj (ahead.symm.trans tail.1)
      exact ⟨skips,by rw [delPrev,if_neg (headOther old),if_pos rfl]⟩
    | cons j rest =>
      obtain rfl : next = .entry j := Option.some.inj (ahead.symm.trans tail.1)
      obtain ⟨gone,later⟩ := List.nodup_cons.mp distinct
      have others : ∀ i ∈ j :: rest, Place.entry i ≠ .entry old :=
        fun i mem => entryOther (fun same => gone (same ▸ mem))
      have behindJ : ∀ i ∈ rest, Place.entry i ≠ .entry j :=
        fun i mem => entryOther (fun same => (List.nodup_cons.mp later).1 (same ▸ mem))
      have kept : ∀ i ∈ j :: rest, (w.del old (.entry j) prev).next (.entry i) = w.next (.entry i) := by
        intro i mem
        rw [delNext,if_neg (others i mem),if_neg (outside i (List.mem_cons_of_mem _ mem)).symm]
      refine ⟨skips,?_,linkedCongr tail.2.2 (kept j List.mem_cons_self) ?_ ?_ (last (headOther j).symm)⟩
      · rw [delPrev,if_neg (others j List.mem_cons_self),if_pos rfl]
      · exact fun i mem => kept i (List.mem_cons_of_mem _ mem)
      · intro i mem
        rw [delPrev,if_neg (others i (List.mem_cons_of_mem _ mem)),if_neg (behindJ i mem)]
  | cons k rest ih =>
    obtain ⟨goes,behind,tail⟩ := linked
    obtain ⟨fresh,later⟩ := List.nodup_cons.mp distinct
    obtain ⟨ring,q,back',place⟩ := linkedAround tail
    obtain rfl : prev = q := Option.some.inj (back.symm.trans back')
    obtain rfl : next = first after := Option.some.inj (ahead.symm.trans (linkedFirst ring))
    have kOutside : ∀ i ∈ rest ++ old :: after, Place.entry k ≠ .entry i :=
      fun i mem => entryOther (fun same => fresh (same ▸ mem))
    have kOld : Place.entry k ≠ .entry old := kOutside old (List.mem_append_right _ List.mem_cons_self)
    have notPrev : p ≠ prev := by
      rcases place with rfl | ⟨j,mem,rfl⟩
      · exact outside k List.mem_cons_self
      · exact outside j (List.mem_cons_of_mem _ (List.mem_append_left _ mem))
    have notNext : Place.entry k ≠ first after := by
      rcases firstPlace after with ends | ⟨j,mem,ends⟩
      · exact ends ▸ (headOther k).symm
      · exact ends ▸ kOutside j (List.mem_append_right _ (List.mem_cons_of_mem _ mem))
    refine ⟨?_,?_,ih tail later kOutside kOld⟩
    · rw [delNext,if_neg notOld,if_neg notPrev]
      exact goes
    · rw [delPrev,if_neg kOld,if_neg notNext]
      exact behind

theorem circleDel {before after : List ι} {old : ι} {next prev : Place ι}
    (circle : Circle w (before ++ old :: after)) (ahead : w.next (.entry old) = some next)
    (back : w.prev (.entry old) = some prev) : Circle (w.del old next prev) (before ++ after) :=
  ⟨linkedDel circle.linked circle.distinct (fun i _ => headOther i) ahead back,
    circle.distinct.sublist ((List.sublist_cons_self old after).append_left before)⟩

end Updates

/- The loop over the entries: the body runs, and only then the next place is loaded
from the entry it ran on. The fuel bounds the rounds. -/
section Loop
variable {ι σ ε : Type} (body : ι → σ → Except ε σ) (next : ι → σ → Except ε (Place ι)) (endless : ε)
  (wild : Place ι → ε)

def forEach : Nat → Place ι → σ → Except ε σ
  | _, .head, s => .ok s
  | 0, _, _ => .error endless
  | fuel + 1, .entry i, s => do
    let s ← body i s
    let q ← next i s
    forEach fuel q s
  | _ + 1, p, _ => .error (wild p)

theorem forEachEnds {inv : List ι → σ → Prop}
    (round : ∀ i rest s, inv (i :: rest) s → ∃ t, body i s = .ok t ∧ next i t = .ok (first rest) ∧ inv rest t)
    {fuel : Nat} {nodes : List ι} {s : σ} (start : inv nodes s) (enough : nodes.length ≤ fuel) :
    ∃ t, forEach body next endless wild fuel (first nodes) s = .ok t ∧ inv [] t := by
  induction nodes generalizing fuel s with
  | nil => exact ⟨s,by cases fuel <;> rfl,start⟩
  | cons i rest ih =>
    cases fuel with
    | zero => exact absurd enough (Nat.not_succ_le_zero _)
    | succ fuel =>
      obtain ⟨t,runs,goes,kept⟩ := round i rest s start
      obtain ⟨u,rounds,done⟩ := ih kept (Nat.le_of_succ_le_succ enough)
      refine ⟨u,?_,done⟩
      rw [first,forEach,runs]
      show (next i t >>= fun q => forEach body next endless wild fuel q t) = .ok u
      rw [goes]
      exact rounds

end Loop

end KernelFacilities.CircularLists
