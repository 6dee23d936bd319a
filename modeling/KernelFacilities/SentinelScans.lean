import Mathlib.Tactic.Common

/-! A loop over a table that ends at a sentinel or at the entry it looks for. The loop
does not know the length of the table: what it walks is the memory from the first
entry on, and whether it stays inside is for the owner of the table to prove. -/
namespace KernelFacilities.SentinelScans

variable {α : Type*}

inductive Scan (α : Type*) where
  | found (index : Nat) (entry : α)
  | ended (index : Nat)
  | lost (index : Nat)
  deriving DecidableEq, Repr

def Scan.last : Scan α → Nat
  | .found index _ => index
  | .ended index => index
  | .lost index => index

def scanFrom (stop hit : α → Bool) : Nat → List α → Scan α
  | i, [] => .lost i
  | i, entry :: rest =>
    if stop entry then .ended i
    else if hit entry then .found i entry
    else scanFrom stop hit (i + 1) rest

def scan (stop hit : α → Bool) (memory : List α) : Scan α := scanFrom stop hit 0 memory

variable {stop hit : α → Bool}

theorem lastNotBefore (i : Nat) (memory : List α) : i ≤ (scanFrom stop hit i memory).last := by
  induction memory generalizing i with
  | nil => exact Nat.le_refl i
  | cons entry rest ih =>
    unfold scanFrom
    split
    · exact Nat.le_refl i
    · split
      · exact Nat.le_refl i
      · exact Nat.le_of_succ_le (ih (i + 1))

theorem scanPast (i : Nat) {table : List α} (quiet : ∀ entry ∈ table, stop entry = false ∧ hit entry = false)
    (behind : List α) :
    scanFrom stop hit i (table ++ behind) = scanFrom stop hit (i + table.length) behind := by
  induction table generalizing i with
  | nil => rfl
  | cons entry rest ih =>
    obtain ⟨notStop,notHit⟩ := quiet entry List.mem_cons_self
    rw [List.cons_append,scanFrom,notStop,notHit,List.length_cons]
    simp only [Bool.false_eq_true,if_false]
    rw [ih (i + 1) (fun e mem => quiet e (List.mem_cons_of_mem _ mem)),Nat.add_right_comm,Nat.add_assoc]

theorem scanMeets (i : Nat) {table : List α} (meets : ∃ entry ∈ table, stop entry = true ∨ hit entry = true)
    (behind : List α) : ∃ k entry, k < table.length ∧ entry ∈ table ∧
      ((stop entry = true ∧ scanFrom stop hit i (table ++ behind) = .ended (i + k)) ∨
        (hit entry = true ∧ scanFrom stop hit i (table ++ behind) = .found (i + k) entry)) := by
  induction table generalizing i with
  | nil =>
    obtain ⟨_,mem,_⟩ := meets
    cases mem
  | cons first rest ih =>
    rw [List.cons_append,scanFrom]
    by_cases stops : stop first = true
    · exact ⟨0,first,Nat.zero_lt_succ _,List.mem_cons_self,.inl ⟨stops,if_pos stops⟩⟩
    · by_cases hits : hit first = true
      · refine ⟨0,first,Nat.zero_lt_succ _,List.mem_cons_self,.inr ⟨hits,?_⟩⟩
        rw [if_neg stops,if_pos hits,Nat.add_zero]
      · obtain ⟨entry,mem,either⟩ := meets
        have later : entry ∈ rest := by
          rcases List.mem_cons.mp mem with rfl | later
          · exact absurd either (not_or.mpr ⟨stops,hits⟩)
          · exact later
        obtain ⟨k,found,inside,found_,result⟩ := ih (i + 1) ⟨entry,later,either⟩
        rw [if_neg stops,if_neg hits]
        refine ⟨k + 1,found,Nat.succ_lt_succ inside,List.mem_cons_of_mem _ found_,?_⟩
        rwa [Nat.add_right_comm,Nat.add_assoc] at result

theorem scanInside (table behind : List α) : (scan stop hit (table ++ behind)).last < table.length ↔
    ∃ entry ∈ table, stop entry = true ∨ hit entry = true := by
  constructor
  · intro inside
    by_contra none
    have quiet : ∀ entry ∈ table, stop entry = false ∧ hit entry = false := by
      intro entry mem
      have neither : ¬ (stop entry = true ∨ hit entry = true) := fun either => none ⟨entry,mem,either⟩
      rw [not_or,Bool.not_eq_true,Bool.not_eq_true] at neither
      exact neither
    have past : 0 + table.length ≤ (scanFrom stop hit (0 + table.length) behind).last :=
      lastNotBefore _ behind
    rw [scan,scanPast 0 quiet behind] at inside
    omega
  · intro meets
    obtain ⟨k,entry,inside,_,⟨_,result⟩ | ⟨_,result⟩⟩ := scanMeets 0 meets behind
    · rw [scan,result,Scan.last]
      omega
    · rw [scan,result,Scan.last]
      omega

end KernelFacilities.SentinelScans
