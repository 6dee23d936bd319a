import Mathlib.Tactic.Common

/-! Spans of a fixed array and their replacement. A span reads what is there; a
patch never changes the length and never stores past the end, so nothing here
hides an index error: whether a range is inside is for its user to prove. -/
namespace KernelFacilities.ByteSpans

variable {β : Type*}

def span (bytes : List β) (start count : Nat) : List β := (bytes.drop start).take count

def patch (bytes : List β) (start : Nat) (data : List β) : List β :=
  bytes.mapIdx (fun i b => if i < start then b else (data[i - start]?).getD b)

theorem spanAt (bytes : List β) (start count i : Nat) :
    (span bytes start count)[i]? = if i < count then bytes[start + i]? else none := by
  simp [span,List.getElem?_take]

theorem spanSucc (bytes : List β) (start count : Nat) :
    span bytes start (count + 1) = span bytes start count ++ (bytes[start + count]?).toList := by
  simp [span,List.take_add_one]

@[simp] theorem patchLength (bytes : List β) (start : Nat) (data : List β) :
    (patch bytes start data).length = bytes.length := by
  simp [patch]

theorem patchAt (bytes : List β) (start : Nat) (data : List β) (i : Nat) :
    (patch bytes start data)[i]? =
      bytes[i]?.map (fun b => if i < start then b else (data[i - start]?).getD b) := by
  simp [patch]

theorem patchOutside (bytes : List β) (start : Nat) (data : List β) {i : Nat}
    (outside : i < start ∨ start + data.length ≤ i) : (patch bytes start data)[i]? = bytes[i]? := by
  rw [patchAt]
  rcases outside with below | above
  · simp [below]
  · have beyond : data[i - start]? = none := List.getElem?_eq_none (by omega)
    simp [beyond]

@[simp] theorem patchNil (bytes : List β) (start : Nat) : patch bytes start [] = bytes := by
  apply List.ext_getElem?
  intro i
  rw [patchOutside bytes start [] (by simp; omega)]

theorem patchAppend (bytes : List β) (start : Nat) (data more : List β) :
    patch (patch bytes start data) (start + data.length) more = patch bytes start (data ++ more) := by
  apply List.ext_getElem?
  intro i
  rw [patchAt,patchAt,patchAt,Option.map_map]
  congr 1
  funext b
  simp only [Function.comp_apply]
  by_cases low : i < start
  · simp [low,show i < start + data.length by omega]
  · by_cases mid : i < start + data.length
    · simp [low,mid,List.getElem?_append_left (show i - start < data.length by omega)]
    · have split : i - (start + data.length) = i - start - data.length := by omega
      have gone : data[i - start]? = none := List.getElem?_eq_none (by omega)
      simp [low,mid,split,gone,List.getElem?_append_right (show data.length ≤ i - start by omega)]

theorem patchSnoc (bytes : List β) (start : Nat) (data : List β) (b : β) :
    patch bytes start (data ++ [b]) = (patch bytes start data).set (start + data.length) b := by
  rw [← patchAppend]
  apply List.ext_getElem?
  intro i
  rw [patchAt,List.getElem?_set]
  by_cases same : start + data.length = i
  · subst same
    by_cases there : start + data.length < bytes.length
    · simp [there]
    · simp [there]
  · by_cases low : i < start + data.length
    · simp [same,low]
    · have beyond : [b][i - (start + data.length)]? = none :=
        List.getElem?_eq_none (by simp; omega)
      simp [same,beyond]

theorem spanPatch {bytes : List β} {start : Nat} {data : List β} (fits : start + data.length ≤ bytes.length) :
    span (patch bytes start data) start data.length = data := by
  apply List.ext_getElem?
  intro i
  rw [spanAt,patchAt]
  by_cases low : i < data.length
  · have there : bytes[start + i]? = some bytes[start + i] := List.getElem?_eq_getElem (by omega)
    have index : start + i - start = i := by omega
    have above : ¬ start + i < start := by omega
    rw [if_pos low,there,Option.map_some,if_neg above,index,List.getElem?_eq_getElem low,Option.getD_some]
  · rw [if_neg low,List.getElem?_eq_none (Nat.le_of_not_lt low)]

end KernelFacilities.ByteSpans
