import Mathlib.Data.Finset.Basic
import Mathlib.Tactic.Common

/-! Ledgers of what is held. A release of something not held is no error here: the
ledger stays as it is and writes the release down. Which releases may happen, and
in which order, is for the user of a ledger to prove. -/
namespace KernelFacilities.Ledgers

section Ledger
variable {ρ : Type*}

structure Ledger (ρ : Type*) where
  held : Finset ρ
  unheld : List ρ
  deriving DecidableEq

def clear : Ledger ρ := ⟨∅,[]⟩

@[simp] theorem clearHeld : (clear : Ledger ρ).held = ∅ := rfl
@[simp] theorem clearUnheld : (clear : Ledger ρ).unheld = [] := rfl

variable [DecidableEq ρ]

def Ledger.acquire (l : Ledger ρ) (r : ρ) : Ledger ρ := { l with held := insert r l.held }

def Ledger.release (l : Ledger ρ) (r : ρ) : Ledger ρ :=
  if r ∈ l.held then { l with held := l.held.erase r } else { l with unheld := l.unheld ++ [r] }

@[simp] theorem acquireHeld (l : Ledger ρ) (r : ρ) : (l.acquire r).held = insert r l.held := rfl
@[simp] theorem acquireUnheld (l : Ledger ρ) (r : ρ) : (l.acquire r).unheld = l.unheld := rfl

theorem releaseHeld (l : Ledger ρ) {r : ρ} (mem : r ∈ l.held) :
    l.release r = ⟨l.held.erase r,l.unheld⟩ := if_pos mem

theorem memRelease (l : Ledger ρ) (r x : ρ) : x ∈ (l.release r).held ↔ x ≠ r ∧ x ∈ l.held := by
  unfold Ledger.release
  split
  · exact Finset.mem_erase
  · rename_i absent
    exact ⟨fun mem => ⟨fun same => absent (same ▸ mem),mem⟩,fun both => both.2⟩

theorem memUnheld (l : Ledger ρ) (r x : ρ) :
    x ∈ (l.release r).unheld ↔ x ∈ l.unheld ∨ (x = r ∧ r ∉ l.held) := by
  unfold Ledger.release
  split
  · rename_i held
    exact ⟨.inl,fun either => either.resolve_right fun both => both.2 held⟩
  · rename_i absent
    rw [List.mem_append,List.mem_singleton]
    exact or_congr_right ⟨fun same => ⟨same,absent⟩,And.left⟩

theorem releaseEntry {held : Finset ρ} {unheld : List ρ} {r : ρ} (mem : r ∈ held) :
    Ledger.release ⟨held,unheld⟩ r = ⟨held.erase r,unheld⟩ := if_pos mem

theorem releaseAcquire {l : Ledger ρ} {r : ρ} (fresh : r ∉ l.held) : (l.acquire r).release r = l := by
  rw [releaseHeld (l.acquire r) (Finset.mem_insert_self r l.held)]
  simp only [acquireHeld,acquireUnheld,Finset.erase_insert fresh]

end Ledger

/- The live things of one kind and the owners of them, one to one. -/
structure Corresponds {ι β : Type*} (owners : Finset ι) (live : β → Prop) (of : ι → Option β) : Prop where
  each : ∀ i ∈ owners, ∃ b, of i = some b ∧ live b
  only : ∀ b, live b → ∃ i ∈ owners, of i = some b
  injective : ∀ i ∈ owners, ∀ j ∈ owners, of i = of j → i = j

section Corresponds
variable {ι β : Type*} {owners : Finset ι} {live live' : β → Prop} {of of' : ι → Option β}

theorem correspondsNone (of : ι → Option β) : Corresponds ∅ (fun _ => False) of := by
  refine ⟨fun i mem => ?_,fun b alive => alive.elim,fun i mem => ?_⟩
  · exact absurd mem (Finset.notMem_empty i)
  · exact absurd mem (Finset.notMem_empty i)

theorem correspondsCongr (c : Corresponds owners live of) (same : ∀ j ∈ owners, of' j = of j) :
    Corresponds owners live of' := by
  refine ⟨fun i mem => ?_,fun b alive => ?_,fun i mem j mem' eq => ?_⟩
  · obtain ⟨b,at_,alive⟩ := c.each i mem
    exact ⟨b,(same i mem).trans at_,alive⟩
  · obtain ⟨i,mem,at_⟩ := c.only b alive
    exact ⟨i,mem,(same i mem).trans at_⟩
  · exact c.injective i mem j mem' (by rw [← same i mem,← same j mem',eq])

variable [DecidableEq ι]

theorem correspondsInsert (c : Corresponds owners live of) {i : ι} {b : β} (new : i ∉ owners)
    (fresh : ¬ live b) (here : of' i = some b) (same : ∀ j ∈ owners, of' j = of j)
    (grown : ∀ x, live' x ↔ x = b ∨ live x) : Corresponds (insert i owners) live' of' := by
  have apart : ∀ j ∈ owners, of' j ≠ some b := by
    intro j mem taken
    obtain ⟨x,at_,alive⟩ := c.each j mem
    rw [same j mem,at_] at taken
    exact fresh (Option.some.inj taken ▸ alive)
  refine ⟨fun j mem => ?_,fun x alive => ?_,fun j mem k mem' eq => ?_⟩
  · rcases Finset.mem_insert.mp mem with rfl | old
    · exact ⟨b,here,(grown b).mpr (.inl rfl)⟩
    · obtain ⟨x,at_,alive⟩ := c.each j old
      exact ⟨x,(same j old).trans at_,(grown x).mpr (.inr alive)⟩
  · rcases (grown x).mp alive with rfl | old
    · exact ⟨i,Finset.mem_insert_self i owners,here⟩
    · obtain ⟨j,mem,at_⟩ := c.only x old
      exact ⟨j,Finset.mem_insert_of_mem mem,(same j mem).trans at_⟩
  · rcases Finset.mem_insert.mp mem with rfl | old <;> rcases Finset.mem_insert.mp mem' with rfl | old'
    · rfl
    · exact absurd (eq.symm.trans here) (apart k old')
    · exact absurd (eq.trans here) (apart j old)
    · exact c.injective j old k old' (by rw [← same j old,← same k old',eq])

theorem correspondsErase (c : Corresponds owners live of) {i : ι} {b : β} (mem : i ∈ owners)
    (here : of i = some b) (same : ∀ j ∈ owners, j ≠ i → of' j = of j)
    (shrunk : ∀ x, live' x ↔ x ≠ b ∧ live x) : Corresponds (owners.erase i) live' of' := by
  refine ⟨fun j left => ?_,fun x alive => ?_,fun j left k left' eq => ?_⟩
  · obtain ⟨other,old⟩ := Finset.mem_erase.mp left
    obtain ⟨x,at_,alive⟩ := c.each j old
    refine ⟨x,(same j old other).trans at_,(shrunk x).mpr ⟨?_,alive⟩⟩
    rintro rfl
    exact other (c.injective j old i mem (at_.trans here.symm))
  · obtain ⟨other,old⟩ := (shrunk x).mp alive
    obtain ⟨j,mem',at_⟩ := c.only x old
    have apart : j ≠ i := by
      rintro rfl
      exact other (Option.some.inj (at_.symm.trans here))
    exact ⟨j,Finset.mem_erase.mpr ⟨apart,mem'⟩,(same j mem' apart).trans at_⟩
  · obtain ⟨other,old⟩ := Finset.mem_erase.mp left
    obtain ⟨other',old'⟩ := Finset.mem_erase.mp left'
    exact c.injective j old k old' (by rw [← same j old other,← same k old' other',eq])

end Corresponds

end KernelFacilities.Ledgers
