import KernelFacilities.CursorStore

/-! Arrays of cells behind cursors that may stand anywhere, before, in or behind
their array. A request is admitted or not, cut to a cap, placed at the cursor or
beside it, and its other side may be no legal place at all or end early: a fetch
then delivers what it reached, a put pads what it could not fetch. Only a request
at the cursor moves it; how a cursor moves by itself is left open. -/
namespace KernelFacilities.FaultingStore
open CursorStore (replaced)

structure Cursor (ι : Type) where
  array : ι
  fetches : Bool
  puts : Bool
  position : Int
  deriving DecidableEq

structure Store (ι β : Type) where
  cells : ι → Nat → β
  cursors : List (Option (Cursor ι))

structure Rules (ι β : Type) where
  size : ι → Nat
  admits : Int → Nat → Bool
  cap : Nat
  pad : β

inductive Op (ι β : Type) where
  | attach (cursor : Cursor ι) (granted : Bool)
  | fetch (cursor : Nat) (place : Option Int) (legal : Bool) (count reach : Nat)
  | put (cursor : Nat) (place : Option Int) (legal : Bool) (count : Nat) (data : List β)
  | move (cursor : Nat) (target : Nat → Int → Option Int)
  | detach (cursor : Nat)

inductive Answer (β : Type) where
  | attached
  | refused
  | missing
  | inadmissible
  | values (data : List β)
  | fault (data : List β)
  | stored (count : Nat)
  | full
  | moved (position : Int)
  | outside
  | detached
  deriving DecidableEq

variable {ι β : Type}

def Store.cursor? (s : Store ι β) (c : Nat) : Option (Cursor ι) := (s.cursors[c]?).join

def Store.place (s : Store ι β) (c : Nat) (k : Cursor ι) : Store ι β := ⟨s.cells,s.cursors.set c (some k)⟩

def Store.advance (s : Store ι β) (c : Nat) (k : Cursor ι) (place : Option Int) (position : Int) : Store ι β :=
  if place.isNone then s.place c { k with position := position } else s

def Store.slice (s : Store ι β) (array : ι) (start count : Nat) : List β :=
  (List.range count).map (fun i => s.cells array (start + i))

def Rules.room (m : Rules ι β) (array : ι) (start : Int) (count : Nat) : Nat :=
  min (min count m.cap) (m.size array - start.toNat)

def Rules.padded (m : Rules ι β) (count : Nat) (data : List β) : List β :=
  data.take count ++ List.replicate (count - data.length) m.pad

variable [DecidableEq ι]

def Store.fill (s : Store ι β) (array : ι) (start : Nat) (data : List β) : Store ι β :=
  ⟨Function.update s.cells array (replaced (s.cells array) start data),s.cursors⟩

section Apply
variable (m : Rules ι β) (s : Store ι β)

def fetchAt (c : Nat) (k : Cursor ι) (place : Option Int) (count reach : Nat) : Store ι β × Answer β :=
  let start := place.getD k.position
  if m.size k.array < start then (s,.fault [])
  else
    let n := m.room k.array start count
    if reach < n then (s,.fault (s.slice k.array start.toNat reach))
    else (s.advance c k place (start + n),.values (s.slice k.array start.toNat n))

def putAt (c : Nat) (k : Cursor ι) (place : Option Int) (count : Nat) (data : List β) : Store ι β × Answer β :=
  let start := place.getD k.position
  if m.size k.array < start then (s,.fault [])
  else
    let n := m.room k.array start count
    if n = 0 then (s,.full)
    else
      let s := s.fill k.array start.toNat (m.padded n data)
      if data.length < n then (s,.fault []) else (s.advance c k place (start + n),.stored n)

def request (c : Nat) (may : Cursor ι → Bool) (place : Option Int) (legal : Bool) (count : Nat)
    (run : Cursor ι → Store ι β × Answer β) : Store ι β × Answer β :=
  match s.cursor? c with
  | none => (s,.missing)
  | some k =>
      if may k then
        if legal then
          if m.admits (place.getD k.position) count then run k else (s,.inadmissible)
        else (s,.fault [])
      else (s,.missing)

def apply : Op ι β → Store ι β × Answer β
  | .attach k granted => if granted then (⟨s.cells,s.cursors ++ [some k]⟩,.attached) else (s,.refused)
  | .fetch c place legal count reach =>
      request m s c Cursor.fetches place legal count (fun k => fetchAt m s c k place count reach)
  | .put c place legal count data =>
      request m s c Cursor.puts place legal count (fun k => putAt m s c k place count data)
  | .move c target =>
      match s.cursor? c with
      | none => (s,.missing)
      | some k =>
          match target (m.size k.array) k.position with
          | none => (s,.outside)
          | some p => (s.place c { k with position := p },.moved p)
  | .detach c =>
      match s.cursor? c with
      | none => (s,.missing)
      | some _ => (⟨s.cells,s.cursors.set c none⟩,.detached)

def applyNext (op : Op ι β) : Store ι β := (apply m s op).1

/- The value that an operation puts into a cell: an admitted put reaches the cells
from its start to the end of its room, with a pad where it was given nothing. -/
def touched (op : Op ι β) (array : ι) (a : Nat) : Option β :=
  match op with
  | .put c place legal count data =>
      match s.cursor? c with
      | none => none
      | some k =>
          let start := place.getD k.position
          if k.puts ∧ legal ∧ m.admits start count ∧ start ≤ m.size k.array ∧ k.array = array ∧ start.toNat ≤ a ∧
              a < start.toNat + m.room k.array start count
          then some ((data[a - start.toNat]?).getD m.pad) else none
  | _ => none

end Apply

section Cases
variable {m : Rules ι β} {s : Store ι β} {c : Nat} {k : Cursor ι} {place : Option Int} {count : Nat}
  {start : Int} (here : place.getD k.position = start)
include here

omit [DecidableEq ι] in
theorem fetchPast (past : m.size k.array < start) (reach : Nat) :
    fetchAt m s c k place count reach = (s,.fault []) := by
  simp only [fetchAt,here,past,if_true]

omit [DecidableEq ι] in
theorem fetchShort (inside : ¬ m.size k.array < start) {reach : Nat} (short : reach < m.room k.array start count) :
    fetchAt m s c k place count reach = (s,.fault (s.slice k.array start.toNat reach)) := by
  simp only [fetchAt,here,inside,if_false,short,if_true]

omit [DecidableEq ι] in
theorem fetchWhole (inside : ¬ m.size k.array < start) {reach : Nat} (whole : ¬ reach < m.room k.array start count) :
    fetchAt m s c k place count reach = (s.advance c k place (start + m.room k.array start count),
      .values (s.slice k.array start.toNat (m.room k.array start count))) := by
  simp only [fetchAt,here,inside,if_false,whole]

theorem putPast (past : m.size k.array < start) (data : List β) :
    putAt m s c k place count data = (s,.fault []) := by
  simp only [putAt,here,past,if_true]

theorem putFull (inside : ¬ m.size k.array < start) (full : m.room k.array start count = 0) (data : List β) :
    putAt m s c k place count data = (s,.full) := by
  simp only [putAt,here,inside,if_false,full,if_true]

theorem putShort (inside : ¬ m.size k.array < start) {data : List β}
    (short : data.length < m.room k.array start count) : putAt m s c k place count data =
      (s.fill k.array start.toNat (m.padded (m.room k.array start count) data),.fault []) := by
  have some_ : m.room k.array start count ≠ 0 := by omega
  simp only [putAt,here,inside,if_false,some_,short,if_true]

theorem putWhole (inside : ¬ m.size k.array < start) (some_ : m.room k.array start count ≠ 0) {data : List β}
    (whole : ¬ data.length < m.room k.array start count) : putAt m s c k place count data =
      ((s.fill k.array start.toNat (m.padded (m.room k.array start count) data)).advance c k place
        (start + m.room k.array start count),.stored (m.room k.array start count)) := by
  simp only [putAt,here,inside,if_false,some_,whole]

end Cases

omit [DecidableEq ι] in
theorem paddedAt (m : Rules ι β) (count : Nat) (data : List β) (i : Nat) :
    (m.padded count data)[i]? = if i < count then some ((data[i]?).getD m.pad) else none := by
  unfold Rules.padded
  by_cases inside : i < count
  · rw [if_pos inside]
    by_cases given : i < data.length
    · rw [List.getElem?_append_left (by simp; omega),List.getElem?_take_of_lt inside,
        List.getElem?_eq_getElem given,Option.getD_some]
    · rw [List.getElem?_append_right (by simp; omega),List.getElem?_replicate_of_lt (by simp; omega),
        List.getElem?_eq_none (Nat.le_of_not_lt given),Option.getD_none]
  · rw [if_neg inside]
    exact List.getElem?_eq_none (by simp; omega)

omit [DecidableEq ι] in
@[simp] theorem advanceCells (s : Store ι β) (c : Nat) (k : Cursor ι) (place : Option Int) (position : Int) :
    (s.advance c k place position).cells = s.cells := by
  unfold Store.advance
  split <;> rfl

theorem fillCells (m : Rules ι β) (s : Store ι β) (array : ι) (start n : Nat) (data : List β) (target : ι) (a : Nat) :
    (s.fill array start (m.padded n data)).cells target a =
      if array = target ∧ start ≤ a ∧ a < start + n then (data[a - start]?).getD m.pad else s.cells target a := by
  by_cases same : array = target
  · subst same
    simp only [Store.fill,Function.update_self,replaced,paddedAt,true_and]
    by_cases low : a < start
    · rw [if_pos low,if_neg (by omega)]
    · rw [if_neg low]
      by_cases high : a - start < n
      · rw [if_pos high,if_pos (by omega),Option.getD_some]
      · rw [if_neg high,if_neg (by omega),Option.getD_none]
  · simp only [Store.fill,Function.update_of_ne (Ne.symm same),same,false_and,if_false]

theorem putCells (m : Rules ι β) (s : Store ι β) (c : Nat) (k : Cursor ι) (place : Option Int) (count : Nat)
    (data : List β) (target : ι) (a : Nat) : (putAt m s c k place count data).1.cells target a =
      if place.getD k.position ≤ m.size k.array ∧ k.array = target ∧ (place.getD k.position).toNat ≤ a ∧
          a < (place.getD k.position).toNat + m.room k.array (place.getD k.position) count
      then (data[a - (place.getD k.position).toNat]?).getD m.pad else s.cells target a := by
  unfold putAt
  by_cases past : m.size k.array < place.getD k.position
  · rw [if_pos past,if_neg (by omega)]
  · have reach : place.getD k.position ≤ m.size k.array := Int.not_lt.mp past
    simp only [past,if_false,reach,true_and]
    split
    · rename_i full
      rw [full,if_neg (by omega)]
    · split <;> simp only [advanceCells,fillCells]

theorem applyCells (m : Rules ι β) (s : Store ι β) (op : Op ι β) (array : ι) (a : Nat) :
    (applyNext m s op).cells array a = (touched m s op array a).getD (s.cells array a) := by
  cases op with
  | attach k granted => cases granted <;> rfl
  | move c target =>
    simp only [applyNext,apply,touched]
    split
    · rfl
    · split <;> rfl
  | detach c => simp only [applyNext,apply,touched]; split <;> rfl
  | fetch c place legal count reach =>
    simp only [applyNext,apply,request,fetchAt,touched]
    repeat' split
    all_goals simp only [advanceCells,Option.getD_none]
  | put c place legal count data =>
    simp only [applyNext,apply,request,touched]
    cases s.cursor? c with
    | none => rfl
    | some k =>
      simp only []
      by_cases may : k.puts = true
      · cases legal with
        | false => simp [may]
        | true =>
          by_cases admitted : m.admits (place.getD k.position) count = true
          · simp only [may,admitted,if_true,true_and,putCells]
            split <;> rfl
          · simp [may,admitted]
      · simp [may]

end KernelFacilities.FaultingStore
