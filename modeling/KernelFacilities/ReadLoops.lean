import KernelFacilities.ByteSpans
import KernelFacilities.Runs

/-! A program that reads until it is told that nothing is left. Whatever each call
is asked for, calls that deliver what lies at the position and move it by that much
reassemble the rest of the content. -/
namespace KernelFacilities.ReadLoops
open ByteSpans Runs

variable {σ γ β : Type*}

structure Answer (σ β : Type*) where
  next : σ
  data : List β
  done : Bool

structure Reading (β : Type*) where
  data : List β
  ended : Bool
  deriving DecidableEq, Repr

def readUntilEnd (call : σ → γ → Answer σ β) : σ → List γ → Reading β
  | _, [] => ⟨[],false⟩
  | s, request :: rest =>
    if (call s request).done then ⟨[],true⟩
    else
      let more := readUntilEnd call (call s request).next rest
      ⟨(call s request).data ++ more.data,more.ended⟩

abbrev calls (call : σ → γ → Answer σ β) (s : σ) (requests : List γ) : List (Transition σ γ) :=
  trace (fun s request => (call s request).next) s requests

structure Delivers (content : List β) (index : σ → Nat) (s : σ) (answer : Answer σ β) : Prop where
  stops : answer.done = true → content.length ≤ index s
  goes : answer.done = false → ∃ n, 0 < n ∧ n ≤ content.length - index s ∧
    answer.data = span content (index s) n ∧ index answer.next = index s + n

theorem readUntilEndRest {call : σ → γ → Answer σ β} {content : List β} {index : σ → Nat} {s : σ}
    {requests : List γ}
    (along : ∀ tr ∈ calls call s requests, Delivers content index tr.before (call tr.before tr.label)) :
    ((readUntilEnd call s requests).ended = true →
      (readUntilEnd call s requests).data = content.drop (index s)) ∧
    (content.length - index s < requests.length → (readUntilEnd call s requests).ended = true) := by
  induction requests generalizing s with
  | nil => exact ⟨fun ended => (by cases ended),fun more => absurd more (Nat.not_lt_zero _)⟩
  | cons request rest ih =>
    have here : Delivers content index s (call s request) := along _ List.mem_cons_self
    cases done : (call s request).done with
    | true =>
      have stops : readUntilEnd call s (request :: rest) = ⟨[],true⟩ := by
        rw [readUntilEnd,if_pos done]
      rw [stops]
      exact ⟨fun _ => (List.drop_eq_nil_of_le (here.stops done)).symm,fun _ => rfl⟩
    | false =>
      obtain ⟨delivers,ends⟩ := ih (fun tr mem => along tr (List.mem_cons_of_mem _ mem))
      obtain ⟨n,some_,room,data,moved⟩ := here.goes done
      have goes : readUntilEnd call s (request :: rest) =
          ⟨(call s request).data ++ (readUntilEnd call (call s request).next rest).data,
            (readUntilEnd call (call s request).next rest).ended⟩ := by
        rw [readUntilEnd,if_neg (by rw [done]; exact Bool.false_ne_true)]
      rw [goes]
      refine ⟨fun ended => ?_,fun more => ends ?_⟩
      · rw [delivers ended,data,moved,span,← List.drop_drop]
        exact List.take_append_drop ..
      · rw [List.length_cons] at more
        rw [moved]
        omega

end KernelFacilities.ReadLoops
