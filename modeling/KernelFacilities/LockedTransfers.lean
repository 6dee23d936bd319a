import KernelFacilities.CharTransfers
import KernelFacilities.LockedSections

/-! The transfers of the mutex-protected drivers as the steps they take between
acquire and return: clamp, copy one byte after another, advance the position,
release. The drivers differ only in the exits that give the mutex back, so these
are parameters. Log output is not part of the steps. -/
namespace KernelFacilities.LockedTransfers
open ByteSpans CharTransfers LockedSections

structure Outcome where
  ret : Int64
  offset : Int64
  delivered : List UInt8
  deriving DecidableEq, Repr

inductive Point where
  | locked
  | clamped (count : UInt64)
  | copying (count : UInt64) (done : Nat) (delivered : List UInt8)
  | copied (count : UInt64) (left : Nat) (delivered : List UInt8)
  | advanced (count : UInt64) (offset : Int64) (delivered : List UInt8)

abbrev Body := CriticalSection (List UInt8) Point Outcome

def outcome (t : Transfer) : Outcome := ⟨t.ret,t.offset,t.delivered⟩

section Read
variable (fault : Exit) (maxSize : Int32) (count : UInt64) (offset : Int64) (mapped : Nat)

def readSteps (buffer : List UInt8) : Point → Move (List UInt8) Point Outcome
  | .locked => .work buffer (.clamped (transferLength maxSize offset count))
  | .clamped n => .work buffer (.copying n 0 [])
  | .copying n done data =>
      if done < copied n mapped then
        .work buffer (.copying n (done + 1) (data ++ (buffer[offset.toNatClampNeg + done]?).toList))
      else .work buffer (.copied n (uncopied n mapped) data)
  | .copied n left data =>
      if left ≠ 0 then .exit fault ⟨-efault,offset,data⟩
      else .work buffer (.advanced n (advance offset n) data)
  | .advanced n moved data => .exit .unlocks ⟨n.toInt64,moved,data⟩

def readExit : Exit :=
  if uncopied (transferLength maxSize offset count) mapped ≠ 0 then fault else .unlocks

theorem readCopies {n : UInt64} {buffer u : List UInt8} {how : Exit} {r : Outcome}
    (rest : Finishes (readSteps fault maxSize count offset mapped) buffer
      (.copied n (uncopied n mapped) (span buffer offset.toNatClampNeg (copied n mapped))) u how r)
    (left : Nat) : ∀ done, done + left = copied n mapped →
      Finishes (readSteps fault maxSize count offset mapped) buffer
        (.copying n done (span buffer offset.toNatClampNeg done)) u how r := by
  induction left with
  | zero =>
    intro done all
    obtain rfl : done = copied n mapped := all
    exact .work (if_neg (Nat.lt_irrefl _)) rest
  | succ left ih =>
    intro done all
    have more : done < copied n mapped := by omega
    have next := ih (done + 1) (by omega)
    rw [spanSucc] at next
    exact .work (if_pos more) next

theorem readFinishes (buffer : List UInt8) :
    Finishes (readSteps fault maxSize count offset mapped) buffer .locked
      (readAt maxSize buffer count offset mapped).buffer (readExit fault maxSize count offset mapped)
      (outcome (readAt maxSize buffer count offset mapped)) := by
  refine .work rfl (.work rfl (readCopies _ _ _ _ _ ?_ (copied _ mapped) 0 (Nat.zero_add _)))
  by_cases left : uncopied (transferLength maxSize offset count) mapped = 0
  · simp only [readAt,readExit,copyToUser,outcome,ne_eq,left,not_true_eq_false,if_false]
    exact .work rfl (.exit rfl)
  · simp only [readAt,readExit,copyToUser,outcome,ne_eq,left,not_false_eq_true,if_true]
    exact .exit (if_pos left)

def readSection (interrupted : Option Outcome) : Body where
  enter := .locked
  code := readSteps fault maxSize count offset mapped
  interrupted := interrupted
  alone := fun buffer =>
    let t := readAt maxSize buffer count offset mapped
    (t.buffer,outcome t)
  exit := readExit fault maxSize count offset mapped
  finishes := readFinishes fault maxSize count offset mapped

end Read

def stored (n : UInt64) (user : List UInt8) : List UInt8 :=
  if n.toNat > intMax then [] else user.take n.toNat ++ List.replicate (uncopied n user.length) 0

theorem copyFromUserStored (buffer : List UInt8) (start : Nat) (n : UInt64) (user : List UInt8) :
    copyFromUser buffer start n user = (patch buffer start (stored n user),uncopied n user.length) := by
  unfold copyFromUser stored
  split
  · rename_i large
    simp only [patchNil,uncopied,copied,large,if_true,Nat.sub_zero]
  · rfl

section Write
variable (empty fault : Exit) (maxSize : Int32) (count : UInt64) (offset : Int64) (user : List UInt8)

def writeSteps (buffer : List UInt8) : Point → Move (List UInt8) Point Outcome
  | .locked => .work buffer (.clamped (transferLength maxSize offset count))
  | .clamped n => if n = 0 then .exit empty ⟨-enomem,offset,[]⟩ else .work buffer (.copying n 0 [])
  | .copying n done data =>
      match (stored n user)[done]? with
      | some b => .work (buffer.set (offset.toNatClampNeg + done) b) (.copying n (done + 1) data)
      | none => .work buffer (.copied n (uncopied n user.length) data)
  | .copied n left data =>
      if left ≠ 0 then .exit fault ⟨-efault,offset,data⟩
      else .work buffer (.advanced n (advance offset n) data)
  | .advanced n moved data => .exit .unlocks ⟨n.toInt64,moved,data⟩

def writeExit : Exit :=
  let n := transferLength maxSize offset count
  if n = 0 then empty else if uncopied n user.length ≠ 0 then fault else .unlocks

theorem writeCopies {n : UInt64} {buffer u : List UInt8} {how : Exit} {r : Outcome}
    (rest : Finishes (writeSteps empty fault maxSize count offset user)
      (patch buffer offset.toNatClampNeg (stored n user)) (.copied n (uncopied n user.length) []) u how r)
    (left : Nat) : ∀ done, done + left = (stored n user).length →
      Finishes (writeSteps empty fault maxSize count offset user)
        (patch buffer offset.toNatClampNeg ((stored n user).take done)) (.copying n done []) u how r := by
  induction left with
  | zero =>
    intro done all
    have none : (stored n user)[done]? = none := List.getElem?_eq_none (by omega)
    rw [List.take_of_length_le (by omega)]
    exact .work (by simp only [writeSteps,none]) rest
  | succ left ih =>
    intro done all
    have more : done < (stored n user).length := by omega
    have here : (stored n user)[done]? = some (stored n user)[done] := List.getElem?_eq_getElem more
    have next := ih (done + 1) (by omega)
    rw [List.take_succ_eq_append_getElem more,patchSnoc,List.length_take_of_le (by omega)] at next
    exact .work (by simp only [writeSteps,here]) next

theorem writeFinishes (buffer : List UInt8) :
    Finishes (writeSteps empty fault maxSize count offset user) buffer .locked
      (writeAt maxSize buffer count offset user).buffer (writeExit empty fault maxSize count offset user)
      (outcome (writeAt maxSize buffer count offset user)) := by
  by_cases full : transferLength maxSize offset count = 0
  · simp only [writeAt,writeExit,outcome,full,if_true]
    exact .work rfl (.exit (if_pos full))
  have rest : Finishes (writeSteps empty fault maxSize count offset user)
      (patch buffer offset.toNatClampNeg (stored (transferLength maxSize offset count) user))
      (.copied (transferLength maxSize offset count)
        (uncopied (transferLength maxSize offset count) user.length) [])
      (writeAt maxSize buffer count offset user).buffer (writeExit empty fault maxSize count offset user)
      (outcome (writeAt maxSize buffer count offset user)) := by
    simp only [writeAt,writeExit,full,if_false,copyFromUserStored]
    by_cases left : uncopied (transferLength maxSize offset count) user.length = 0
    · simp only [outcome,ne_eq,left,not_true_eq_false,if_false]
      exact .work rfl (.exit rfl)
    · simp only [outcome,ne_eq,left,not_false_eq_true,if_true]
      exact .exit (if_pos left)
  have copies := writeCopies empty fault maxSize count offset user rest _ 0 (Nat.zero_add _)
  rw [List.take_zero,patchNil] at copies
  exact .work rfl (.work (if_neg full) copies)

def writeSection (interrupted : Option Outcome) : Body where
  enter := .locked
  code := writeSteps empty fault maxSize count offset user
  interrupted := interrupted
  alone := fun buffer =>
    let t := writeAt maxSize buffer count offset user
    (t.buffer,outcome t)
  exit := writeExit empty fault maxSize count offset user
  finishes := writeFinishes empty fault maxSize count offset user

end Write

end KernelFacilities.LockedTransfers
