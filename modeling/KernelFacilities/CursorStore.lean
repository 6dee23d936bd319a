import Mathlib.Logic.Function.Basic
import Mathlib.Tactic.Common

/-! Arrays of cells shared by any number of cursors: the reference behaviour of a
seekable byte device, over arbitrary arrays and values. Cells past the size of an
array exist but are never read or replaced. Which attachments are granted, and
how an answer is encoded, is left to the user. -/
namespace KernelFacilities.CursorStore

structure Store (ι β : Type) where
  cells : ι → Nat → β
  cursors : List (Option (ι × Nat))

inductive Op (ι β : Type) where
  | attach (array : ι) (granted : Bool)
  | read (cursor count : Nat)
  | write (cursor count : Nat) (data : List β)
  | seek (cursor : Nat) (target : Int)
  | detach (cursor : Nat)

inductive Answer (β : Type) where
  | attached
  | refused
  | missing
  | values (data : List β)
  | stored (count : Nat)
  | full
  | moved (position : Nat)
  | outside
  | detached
  deriving DecidableEq

variable {ι β : Type} [DecidableEq ι]

def Store.cursor? (s : Store ι β) (c : Nat) : Option (ι × Nat) := (s.cursors[c]?).join

def Store.place (s : Store ι β) (c : Nat) (array : ι) (position : Nat) : Store ι β :=
  ⟨s.cells,s.cursors.set c (some (array,position))⟩

def replaced (old : Nat → β) (start : Nat) (data : List β) (a : Nat) : β :=
  if a < start then old a else (data[a - start]?).getD (old a)

def Store.fill (s : Store ι β) (array : ι) (start : Nat) (data : List β) : Store ι β :=
  ⟨Function.update s.cells array (replaced (s.cells array) start data),s.cursors⟩

def apply (size : ι → Nat) (s : Store ι β) : Op ι β → Store ι β × Answer β
  | .attach array granted =>
      if granted then (⟨s.cells,s.cursors ++ [some (array,0)]⟩,.attached) else (s,.refused)
  | .read c count =>
      match s.cursor? c with
      | none => (s,.missing)
      | some (array,p) =>
          let n := min count (size array - p)
          (s.place c array (p + n),.values ((List.range n).map (fun i => s.cells array (p + i))))
  | .write c count data =>
      match s.cursor? c with
      | none => (s,.missing)
      | some (array,p) =>
          let n := min count (size array - p)
          if n = 0 then (s,.full)
          else ((s.fill array p (data.take n)).place c array (p + n),.stored n)
  | .seek c target =>
      match s.cursor? c with
      | none => (s,.missing)
      | some (array,_) =>
          if 0 ≤ target ∧ target ≤ size array then (s.place c array target.toNat,.moved target.toNat)
          else (s,.outside)
  | .detach c => (⟨s.cells,s.cursors.set c none⟩,.detached)

def applyNext (size : ι → Nat) (s : Store ι β) (op : Op ι β) : Store ι β := (apply size s op).1

def touched (size : ι → Nat) (s : Store ι β) (op : Op ι β) (array : ι) (a : Nat) : Option β :=
  match op with
  | .write c count data =>
      match s.cursor? c with
      | none => none
      | some (target,p) =>
          if target = array ∧ p ≤ a then (data.take (min count (size array - p)))[a - p]? else none
  | _ => none

theorem applyCells (size : ι → Nat) (s : Store ι β) (op : Op ι β) (array : ι) (a : Nat) :
    (applyNext size s op).cells array a = (touched size s op array a).getD (s.cells array a) := by
  cases op with
  | attach _ granted => cases granted <;> rfl
  | detach => rfl
  | read c count => simp only [applyNext,apply,touched]; split <;> rfl
  | seek c target =>
    simp only [applyNext,apply,touched]
    split
    · rfl
    · split <;> rfl
  | write c count data =>
    simp only [applyNext,apply,touched]
    cases hc : s.cursor? c with
    | none => rfl
    | some at_ =>
      obtain ⟨target,p⟩ := at_
      simp only []
      by_cases same : target = array
      · subst same
        split
        · rename_i empty
          simp [empty]
        · simp only [Store.place,Store.fill,Function.update_self,replaced,true_and]
          by_cases low : a < p
          · simp [low,Nat.not_le.mpr low]
          · simp [low,Nat.not_lt.mp low]
      · simp only [same,false_and,if_false,Option.getD_none]
        split
        · rfl
        · simp only [Store.place,Store.fill,Function.update_of_ne (Ne.symm same)]

end KernelFacilities.CursorStore
