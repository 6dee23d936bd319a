import KernelFacilities.CharDriverMultipleDevices
import KernelFacilities.ReadLoops

/-! A user program that writes in chunks and reads until the end of the device, over
the multi-device driver. The VFS cuts what the program asks for; the program tries the
rest of a short write again and stops at an error. The copies do not fault here. -/
namespace KernelFacilities.ChunkedTransfers
open ByteSpans CharTransfers CharDriverMultipleDevices ReadLoops Runs

def cut (length : Nat) : Count :=
  ⟨UInt64.ofNat (min length maxRwCount),by
    rw [UInt64.toNat_ofNat_of_lt' (by simp only [maxRwCount,UInt64.size]; omega)]
    exact Nat.min_le_right ..⟩

theorem cutLength {length : Nat} (small : length ≤ maxRwCount) : (cut length).val.toNat = length := by
  unfold cut
  rw [UInt64.toNat_ofNat_of_lt' (by simp only [maxRwCount,UInt64.size]; omega),Nat.min_eq_left small]

def userWrite (file : OpenFile) (data : List UInt8) : OpenFile × Reply :=
  vfsCall file (.write (cut data.length) data)

def pending (n : Nat) (chunk : List UInt8) (rest : List (List UInt8)) : List (List UInt8) :=
  if n < chunk.length then chunk.drop n :: rest else rest

def writeChunks : Nat → OpenFile → List (List UInt8) → Option (OpenFile × List Int64)
  | _, file, [] => some (file,[])
  | 0, _, _ :: _ => none
  | fuel + 1, file, chunk :: rest =>
    let (file,reply) := userWrite file chunk
    if reply.ret < 0 then some (file,[reply.ret])
    else do
      let (file,more) ← writeChunks fuel file (pending reply.ret.toNatClampNeg chunk rest)
      some (file,reply.ret :: more)

/- What the calls of the program are answered: counts that add up to what fits, and
-ENOMEM to a last one that the data did not fit for. -/
def Answered (answers : List Int64) (length room : Nat) : Prop :=
  ∃ counts : List Int64, (∀ n ∈ counts, 0 < n) ∧ (counts.map Int64.toNatClampNeg).sum = min length room ∧
    answers = if length ≤ room then counts else counts ++ [-enomem]

theorem answeredNothing (room : Nat) : Answered [] 0 room := ⟨[],by simp,by simp,by simp⟩

theorem answeredCons {answers : List Int64} {ret : Int64} {n length room : Nat} (value : ret.toInt = n)
    (some_ : 0 < n) (fits : n ≤ min length room) (rest : Answered answers (length - n) (room - n)) :
    Answered (ret :: answers) length room := by
  obtain ⟨counts,positive,sum,rfl⟩ := rest
  have taken : ret.toNatClampNeg = n := by
    change ret.toInt.toNat = n
    omega
  have zero : (0 : Int64).toInt = 0 := rfl
  refine ⟨ret :: counts,?_,?_,?_⟩
  · refine List.forall_mem_cons.mpr ⟨Int64.lt_iff_toInt_lt.mpr ?_,positive⟩
    omega
  · rw [List.map_cons,List.sum_cons,taken,sum]
    omega
  · have same : length - n ≤ room - n ↔ length ≤ room := by omega
    simp only [same]
    split <;> rfl

def userRead (file : OpenFile) (count : Count) : Answer OpenFile UInt8 :=
  let called := vfsCall file (.read count count.val.toNat)
  ⟨called.1,called.2.data,called.2.ret = 0⟩

def room (file : OpenFile) : Nat := file.dev.size.toNat - file.fPos.toNatClampNeg

structure Wrote (file : OpenFile) (data : List UInt8) (n : Nat) (after : OpenFile) : Prop where
  buffer : after.dev.buffer = patch file.dev.buffer file.fPos.toNatClampNeg (data.take n)
  position : after.fPos.toInt = file.fPos.toInt + n
  size : after.dev.size = file.dev.size
  perm : after.dev.perm = file.dev.perm

theorem wroteUnique {file : OpenFile} {data : List UInt8} {n : Nat} {a b : OpenFile}
    (first : Wrote file data n a) (second : Wrote file data n b) : a = b := by
  obtain ⟨⟨buffer,size,perm,_,_,_⟩,fPos⟩ := a
  obtain ⟨⟨buffer',size',perm',_,_,_⟩,fPos'⟩ := b
  have same := first.buffer.trans second.buffer.symm
  have position := Int64.toInt_inj.mp (first.position.trans second.position.symm)
  have sizes := first.size.trans second.size.symm
  have perms := first.perm.trans second.perm.symm
  simp only at same position sizes perms
  subst same position sizes perms
  rfl

section Writes
variable {file : OpenFile} (inside : file.within)
include inside

theorem positionIndex : (file.fPos.toNatClampNeg : Int) = file.fPos.toInt := indexOfWithin inside

theorem roomValue : (room file : Int) = file.dev.size.toNat - file.fPos.toInt := by
  have index := positionIndex inside
  have high := inside.high
  rw [maxSizeValue] at high
  unfold room
  omega

theorem wroteWithin {data : List UInt8} {n : Nat} {after : OpenFile} (wrote : Wrote file data n after)
    (fits : n ≤ room file) : after.within ∧ room after = room file - n := by
  have low := inside.low
  have value := roomValue inside
  have size := wrote.size
  have position := wrote.position
  have within : after.within := by
    refine ⟨by omega,?_⟩
    rw [maxSizeValue,size]
    omega
  have value' := roomValue within
  rw [size] at value'
  exact ⟨within,by omega⟩

theorem wroteMore {data : List UInt8} {n m : Nat} {middle after : OpenFile} (length : n ≤ data.length)
    (first : Wrote file data n middle) (second : Wrote middle (data.drop n) m after) :
    Wrote file data (n + m) after := by
  have index : middle.fPos.toNatClampNeg = file.fPos.toNatClampNeg + n :=
    indexMoved inside.low first.position
  refine ⟨?_,?_,second.size.trans first.size,second.perm.trans first.perm⟩
  · have taken : (data.take n).length = n := List.length_take_of_le length
    have joined := patchAppend file.dev.buffer file.fPos.toNatClampNeg (data.take n) ((data.drop n).take m)
    rw [taken] at joined
    rw [second.buffer,first.buffer,index,joined,List.take_add]
  · rw [second.position,first.position]
    omega

omit inside in
theorem wroteNothing (data : List UInt8) : Wrote file data 0 file := by
  refine ⟨?_,by omega,rfl,rfl⟩
  rw [List.take_zero,patchNil]

theorem grantedRoom {data : List UInt8} (small : data.length ≤ maxRwCount) :
    file.granted (cut data.length) = min data.length (room file) := by
  rw [grantedMin inside,cutLength small,room]

theorem userWrites {data : List UInt8} (small : data.length ≤ maxRwCount) :
    Wrote file data (min data.length (room file)) (userWrite file data).1 ∧
    (userWrite file data).2.ret.toNatClampNeg = min data.length (room file) ∧
    ((userWrite file data).2.ret < 0 ↔ min data.length (room file) = 0) ∧
    (min data.length (room file) = 0 → (userWrite file data).2.ret = -enomem) ∧
    (0 < min data.length (room file) → (userWrite file data).2.ret.toInt = min data.length (room file)) := by
  have moved := grantedRoom inside small
  by_cases full : min data.length (room file) = 0
  · have refused : userWrite file data = (file,⟨-enomem,[]⟩) :=
      callWriteFull inside (moved.trans full) data
    have nothing : (-enomem).toNatClampNeg = 0 := by decide
    rw [refused,full]
    exact ⟨wroteNothing data,nothing,⟨fun _ => rfl,fun _ => errorsNegative.2.1⟩,fun _ => rfl,fun some_ =>
      absurd some_ (Nat.lt_irrefl 0)⟩
  · have some_ : 0 < file.granted (cut data.length) := by omega
    have reaches : file.granted (cut data.length) ≤ data.length := moved ▸ Nat.min_le_left ..
    obtain ⟨buffer,position,ret,_⟩ := callWriteStores inside data some_ reaches
    rw [moved] at buffer position ret
    obtain ⟨size,perm⟩ := callKeepsDevice file (.write (cut data.length) data)
    refine ⟨⟨buffer,position,size,perm⟩,?_,?_,fun none => absurd none full,fun _ => ret⟩
    · show ((vfsCall file (.write (cut data.length) data)).2.ret.toInt).toNat = _
      omega
    · rw [negative,userWrite,ret]
      omega

end Writes

theorem wrotePrefix {file after : OpenFile} {data whole : List UInt8} {n : Nat} (wrote : Wrote file data n after)
    (same : data.take n = whole.take n) : Wrote file whole n after :=
  ⟨same ▸ wrote.buffer,wrote.position,wrote.size,wrote.perm⟩

theorem pendingFlatten {n : Nat} {chunk : List UInt8} {rest : List (List UInt8)} (length : n ≤ chunk.length) :
    (pending n chunk rest).flatten = (chunk :: rest).flatten.drop n := by
  rw [List.flatten_cons,List.drop_append_of_le_length length]
  unfold pending
  split
  · rw [List.flatten_cons]
  · have whole : chunk.drop n = [] := List.drop_eq_nil_of_le (by omega)
    rw [whole,List.nil_append]

theorem pendingFull {n : Nat} {chunk : List UInt8} {rest : List (List UInt8)}
    (full : ∀ c ∈ chunk :: rest, c ≠ []) : ∀ c ∈ pending n chunk rest, c ≠ [] := by
  intro c mem
  unfold pending at mem
  split at mem
  · rcases List.mem_cons.mp mem with rfl | old
    · exact List.ne_nil_of_length_pos (by rw [List.length_drop]; omega)
    · exact full c (List.mem_cons_of_mem _ old)
  · exact full c (List.mem_cons_of_mem _ mem)

theorem firstCall {file : OpenFile} (inside : file.within) {chunk : List UInt8}
    (small : chunk.length ≤ maxRwCount) (fuel : Nat) (rest : List (List UInt8)) :
    ∃ (n : Nat) (middle : OpenFile) (ret : Int64), n = min chunk.length (room file) ∧ Wrote file chunk n middle ∧ (0 < n → ret.toInt = n) ∧
      writeChunks (fuel + 1) file (chunk :: rest) =
        if n = 0 then some (middle,[-enomem])
        else (writeChunks fuel middle (pending n chunk rest)).map fun next => (next.1,ret :: next.2) := by
  obtain ⟨wrote,taken,fails,refused,value⟩ := userWrites inside small
  refine ⟨_,_,(userWrite file chunk).2.ret,rfl,wrote,value,?_⟩
  simp only [writeChunks,fails,taken]
  split
  · rename_i nothing
    rw [refused nothing]
  · cases writeChunks fuel (userWrite file chunk).1 (pending (min chunk.length (room file)) chunk rest) <;> rfl

/- Chunk by chunk, with the rest of a short write tried again: by induction on the
calls that may be made, each of which takes at least one byte or is the last. -/
theorem chunksWrite {fuel : Nat} {file : OpenFile} (inside : file.within) {chunks : List (List UInt8)}
    (full : ∀ chunk ∈ chunks, chunk ≠ []) (small : chunks.flatten.length ≤ maxRwCount)
    (enough : chunks.flatten.length ≤ fuel) :
    ∃ after answers, writeChunks fuel file chunks = some (after,answers) ∧
      Wrote file chunks.flatten (min chunks.flatten.length (room file)) after ∧
      Answered answers chunks.flatten.length (room file) := by
  induction fuel generalizing file chunks with
  | zero =>
    cases chunks with
    | nil => exact ⟨file,[],by simp [writeChunks],by simpa using wroteNothing [],answeredNothing _⟩
    | cons chunk rest =>
      have some_ := List.length_pos_iff.mpr (full chunk List.mem_cons_self)
      rw [List.flatten_cons,List.length_append] at enough
      omega
  | succ fuel ih =>
    cases chunks with
    | nil => exact ⟨file,[],by simp [writeChunks],by simpa using wroteNothing [],answeredNothing _⟩
    | cons chunk rest =>
      have some_ := List.length_pos_iff.mpr (full chunk List.mem_cons_self)
      have total : (chunk :: rest).flatten.length = chunk.length + rest.flatten.length := by
        rw [List.flatten_cons,List.length_append]
      have chunkSmall : chunk.length ≤ maxRwCount := by omega
      obtain ⟨n,middle,ret,moved,wrote,value,called⟩ := firstCall inside chunkSmall fuel rest
      have length : n ≤ chunk.length := by omega
      have first : Wrote file (chunk :: rest).flatten n middle :=
        wrotePrefix wrote (by rw [List.flatten_cons,List.take_append_of_le_length length])
      rw [called]
      by_cases none : n = 0
      · have nowhere : min (chunk :: rest).flatten.length (room file) = 0 := by omega
        have short : ¬ (chunk :: rest).flatten.length ≤ room file := by omega
        rw [if_pos none,nowhere]
        refine ⟨middle,_,rfl,none ▸ first,[],by simp,?_,?_⟩
        · rw [nowhere]
          rfl
        · rw [if_neg short,List.nil_append]
      · obtain ⟨within,left⟩ := wroteWithin inside wrote (by omega)
        have flat : (pending n chunk rest).flatten = (chunk :: rest).flatten.drop n := pendingFlatten length
        have flatLength := congrArg List.length flat
        rw [List.length_drop] at flatLength
        obtain ⟨after,answers,result,more,answered⟩ := ih within (pendingFull (n := n) full) (by omega) (by omega)
        have sum : n + min (pending n chunk rest).flatten.length (room middle) =
            min (chunk :: rest).flatten.length (room file) := by omega
        rw [if_neg none,result,Option.map_some,← sum]
        rw [flatLength,left] at answered
        rw [flat] at more ⊢
        exact ⟨after,_,rfl,wroteMore inside (by omega) first more,
          answeredCons (value (Nat.pos_of_ne_zero none)) (Nat.pos_of_ne_zero none) (by omega) answered⟩

def index (file : OpenFile) : Nat := file.fPos.toNatClampNeg

theorem readDone (file : OpenFile) (count : Count) : (userRead file count).done = true ↔
    (vfsCall file (.read count count.val.toNat)).2.ret = 0 := by
  rw [userRead,decide_eq_true_iff]

theorem userReads {file : OpenFile} (inside : file.within) {count : Count} (positive : 0 < count.val.toNat) :
    (userRead file count).next.dev = file.dev ∧ (userRead file count).next.within ∧
    Delivers file.dev.buffer index file (userRead file count) := by
  have moved : file.granted count = min count.val.toNat (room file) := grantedMin inside count
  have reaches : file.granted count ≤ count.val.toNat := moved ▸ Nat.min_le_left ..
  obtain ⟨dev,position,ret,data⟩ := callReadDelivers inside reaches
  have low := inside.low
  have sized := file.dev.sized
  have value := roomValue inside
  have start := positionIndex inside
  have next := indexMoved low position
  have within : (vfsCall file (.read count count.val.toNat)).1.within := by
    refine ⟨by omega,?_⟩
    rw [dev,maxSizeValue]
    omega
  have zero : (0 : Int64).toInt = 0 := rfl
  have ended : (vfsCall file (.read count count.val.toNat)).2.ret = 0 ↔ file.granted count = 0 := by
    rw [← Int64.toInt_inj,ret,zero]
    omega
  have stops : (userRead file count).done = true → file.dev.buffer.length ≤ index file := by
    rw [readDone,ended]
    unfold index
    omega
  have goes : (userRead file count).done = false → 0 < file.granted count := by
    rw [← Bool.not_eq_true,readDone,ended]
    omega
  have fits : file.granted count ≤ file.dev.buffer.length - index file := by
    unfold index
    omega
  exact ⟨dev,within,stops,fun more => ⟨file.granted count,goes more,fits,data,next⟩⟩

theorem readsRest {file : OpenFile} (inside : file.within) {counts : List Count}
    (positive : ∀ count ∈ counts, 0 < count.val.toNat) :
    ((readUntilEnd userRead file counts).ended = true →
      (readUntilEnd userRead file counts).data = file.dev.buffer.drop file.fPos.toNatClampNeg) ∧
    (room file < counts.length → (readUntilEnd userRead file counts).ended = true) := by
  have asked : ∀ tr ∈ calls userRead file counts, 0 < tr.label.val.toNat :=
    fun tr mem => positive tr.label (traceLabel mem).1
  have keeps : ∀ (f : OpenFile) (c : Count), f.dev = file.dev ∧ f.within → 0 < c.val.toNat →
      (userRead f c).next.dev = file.dev ∧ (userRead f c).next.within := by
    rintro f c ⟨same,within⟩ positive
    obtain ⟨dev,next,_⟩ := userReads within positive
    exact ⟨dev.trans same,next⟩
  have kept := traceKeepsWhile (fun f : OpenFile => f.dev = file.dev ∧ f.within)
    (fun _ (c : Count) => 0 < c.val.toNat) keeps ⟨rfl,inside⟩ asked
  have along : ∀ tr ∈ calls userRead file counts,
      Delivers file.dev.buffer index tr.before (userRead tr.before tr.label) := by
    intro tr mem
    obtain ⟨same,within⟩ := kept tr mem
    exact same ▸ (userReads within (asked tr mem)).2.2
  have rest := readUntilEndRest along
  rw [file.dev.sized] at rest
  exact rest

structure ChunksAgree (file : OpenFile) (data : List UInt8) (chunks : List (List UInt8)) : Prop where
  written : ∀ fuel, data.length ≤ fuel → ∃ answers,
    writeChunks fuel file chunks = some ((userWrite file data).1,answers) ∧ Answered answers data.length (room file)
  once : (userWrite file data).2.ret.toNatClampNeg = min data.length (room file)
  readBack : ∀ counts : List Count, (∀ count ∈ counts, 0 < count.val.toNat) →
    let again := (vfsCall (userWrite file data).1 (.llseek file.fPos seekSet)).1
    ((readUntilEnd userRead again counts).ended = true →
      (readUntilEnd userRead again counts).data =
        (userWrite file data).1.dev.buffer.drop file.fPos.toNatClampNeg) ∧
    (room file < counts.length → (readUntilEnd userRead again counts).ended = true)
  stored : ((userWrite file data).1.dev.buffer.drop file.fPos.toNatClampNeg).take (min data.length (room file)) =
    data.take (min data.length (room file))

theorem rewound {file after : OpenFile} (inside : file.within) (size : after.dev.size = file.dev.size) :
    (vfsCall after (.llseek file.fPos seekSet)).1 = ⟨after.dev,file.fPos⟩ := by
  have within : Within after.dev.maxSize file.fPos := by
    rw [PcdevPrivateData.maxSize,size]
    exact inside
  simp only [vfsCall,pcdLlseek,seekSetSpec,within,if_true]

theorem chunkingDoesNotMatter {file : OpenFile} (inside : file.within) {data : List UInt8}
    (small : data.length ≤ maxRwCount) {chunks : List (List UInt8)} (split : chunks.flatten = data)
    (full : ∀ chunk ∈ chunks, chunk ≠ []) : ChunksAgree file data chunks := by
  obtain ⟨wrote,taken,_,_,_⟩ := userWrites inside small
  refine ⟨fun fuel enough => ?_,taken,fun counts positive => ?_,?_⟩
  · subst split
    obtain ⟨after,answers,result,same,answered⟩ := chunksWrite inside full small enough
    exact ⟨answers,wroteUnique same wrote ▸ result,answered⟩
  · have again := rewound inside wrote.size
    have within : (OpenFile.mk (userWrite file data).1.dev file.fPos).within := by
      rw [OpenFile.within,PcdevPrivateData.maxSize,wrote.size]
      exact inside
    have left : room ⟨(userWrite file data).1.dev,file.fPos⟩ = room file := by
      simp only [room,wrote.size]
    rw [again]
    have rest := readsRest within positive
    rw [left] at rest
    exact rest
  · have length : (data.take (min data.length (room file))).length = min data.length (room file) :=
      List.length_take_of_le (Nat.min_le_left ..)
    have index := roomValue inside
    have position := positionIndex inside
    have sized := file.dev.sized
    have fits : file.fPos.toNatClampNeg + (data.take (min data.length (room file))).length ≤
        file.dev.buffer.length := by omega
    have back := spanPatch fits
    rw [length,span] at back
    rw [wrote.buffer,back]

theorem threeBytesForTwo : ChunksAgree ⟨pcdevData 2,1022⟩ [1,2,3] [[1],[2,3]] :=
  chunkingDoesNotMatter ⟨by decide,by decide⟩ (by decide) rfl (by decide)

example : (writeChunks 3 ⟨pcdevData 2,1022⟩ [[1],[2,3]]).map Prod.snd = some [1,1,-enomem] := by decide

end KernelFacilities.ChunkedTransfers
