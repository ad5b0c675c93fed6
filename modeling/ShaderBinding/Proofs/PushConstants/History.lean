import ShaderBinding.Proofs.PushConstants.Layout

/-! # Push constants over their lifetime

Ranges are fixed when blocks are placed and data changes with every write, yet the two are paired
again when push constants are recorded. What keeps them in step is that all of it is a function of
the blocks that were added last and of the writes that were accepted.
-/

namespace ShaderBinding

/-- Segments, given by where they start and how long they are, cover an interval in order. -/
def Tiles (start : Nat) : List (Nat × Nat) → Nat → Prop
  | [], stop => start = stop
  | (offset, length) :: rest, stop => offset = start ∧ Tiles (start + length) rest stop

theorem Tiles.le {start stop : Nat} {segments : List (Nat × Nat)} (h : Tiles start segments stop) :
    start ≤ stop := by
  induction segments generalizing start with
  | nil => exact Nat.le_of_eq h
  | cons segment rest ih => exact Nat.le_of_add_right_le (ih h.2)

/-- No position of a tiled interval is left out or covered twice, and no other one is covered. -/
theorem Tiles.countP {start stop : Nat} {segments : List (Nat × Nat)}
    (h : Tiles start segments stop) (i : Nat) :
    segments.countP (fun segment => segment.1 ≤ i ∧ i < segment.1 + segment.2) =
      if start ≤ i ∧ i < stop then 1 else 0 := by
  induction segments generalizing start with
  | nil =>
    have hempty : ¬ (start ≤ i ∧ i < stop) := by
      rw [show start = stop from h]
      omega
    rw [List.countP_nil, if_neg hempty]
  | cons segment rest ih =>
    obtain ⟨offset, length⟩ := segment
    obtain ⟨rfl, hrest⟩ := h
    have hle := hrest.le
    have hstep : (if offset + length ≤ i ∧ i < stop then 1 else 0) +
        (if offset ≤ i ∧ i < offset + length then 1 else 0) =
          if offset ≤ i ∧ i < stop then 1 else 0 := by
      split_ifs <;> omega
    simpa only [List.countP_cons, ih hrest, decide_eq_true_eq] using hstep

/-- A write of bytes to the data of a stage. -/
structure PushWrite where
  stage : Stage
  offset : Nat
  bytes : Bytes
  deriving DecidableEq, Repr

def PushWrite.byteAt? (w : PushWrite) (stage : Stage) (i : Nat) : Option UInt8 :=
  if w.stage = stage ∧ w.offset ≤ i then w.bytes[i - w.offset]? else none

namespace PushConstants

variable {blocks : PushBlocks} {made : List PushWrite} {p : PushConstants}

def byteAfter (made : List PushWrite) (stage : Stage) (i : Nat) : UInt8 :=
  (made.reverse.findSome? (·.byteAt? stage i)).getD 0

def dataAfter (made : List PushWrite) (stage : Stage) (size : Nat) : Bytes :=
  (List.range size).map (byteAfter made stage)

@[simp]
theorem length_dataAfter (made : List PushWrite) (stage : Stage) (size : Nat) :
    (dataAfter made stage size).length = size := by
  simp [dataAfter]

theorem dataAfter_nil (stage : Stage) (size : Nat) : dataAfter [] stage size = Bytes.zeros size :=
  List.eq_replicate_iff.mpr ⟨length_dataAfter [] stage size, by simp [dataAfter, byteAfter]⟩

theorem byteAfter_concat (made : List PushWrite) (w : PushWrite) (stage : Stage) (i : Nat) :
    byteAfter (made ++ [w]) stage i = (w.byteAt? stage i).getD (byteAfter made stage i) := by
  rw [byteAfter, List.reverse_append, List.reverse_singleton, List.singleton_append,
    List.findSome?_cons]
  cases w.byteAt? stage i <;> rfl

theorem dataAfter_concat_of_ne {w : PushWrite} {stage : Stage} (h : stage ≠ w.stage) (size : Nat) :
    dataAfter (made ++ [w]) stage size = dataAfter made stage size := by
  refine List.map_congr_left fun i _ => ?_
  rw [byteAfter_concat, PushWrite.byteAt?, if_neg fun hw => h hw.1.symm, Option.getD_none]

/-- A write within the data of its stage overwrites that part of it. -/
theorem dataAfter_concat {w : PushWrite} {size : Nat} (h : w.offset + w.bytes.length ≤ size) :
    dataAfter (made ++ [w]) w.stage size =
      (dataAfter made w.stage size).overwrite w.offset w.bytes := by
  refine List.ext_getElem? fun i => ?_
  rw [Bytes.getElem?_overwrite (by rwa [length_dataAfter]), dataAfter, dataAfter,
    List.getElem?_map, List.getElem?_map]
  by_cases hsize : i < size
  · rw [List.getElem?_range hsize, Option.map_some, Option.map_some, byteAfter_concat,
      PushWrite.byteAt?]
    by_cases hreached : w.offset ≤ i ∧ i < w.offset + w.bytes.length
    · have hindex : i - w.offset < w.bytes.length := by omega
      simp [hreached, List.getElem?_eq_getElem hindex]
    · rw [if_neg hreached]
      split
      · have hindex : w.bytes.length ≤ i - w.offset := by omega
        rw [List.getElem?_eq_none hindex, Option.getD_none]
      · rfl
  · have hreached : ¬ (w.offset ≤ i ∧ i < w.offset + w.bytes.length) := by omega
    rw [if_neg hreached, List.getElem?_eq_none (by simpa using hsize)]
    rfl

def after (blocks : PushBlocks) (made : List PushWrite) : PushConstants :=
  ⟨placed 0 blocks.toList, blocks.map (dataAfter made)⟩

theorem ofBlocks_eq (h : (blocks.toList.map (·.2)).sum < 2 ^ 32) :
    ofBlocks blocks = .ok (after blocks []) := by
  have hzeros : dataAfter [] = fun _ => Bytes.zeros :=
    funext fun stage => funext fun size => dataAfter_nil stage size
  rw [ofBlocks, layOut_eq _ (Nat.two_pow_pos 32), Nat.zero_add, if_pos h, after, hzeros]
  rfl

theorem write_after {w : PushWrite}
    (h : (after blocks made).write w.stage w.offset w.bytes = .ok p) :
    p = after blocks (made ++ [w]) := by
  rw [write, after, StageMap.get?_map] at h
  cases hblock : blocks.get? w.stage with
  | none =>
    rw [hblock] at h
    cases h
  | some size =>
    rw [hblock] at h
    simp only [Option.map_some, length_dataAfter] at h
    split at h
    · cases h
    rename_i hbound
    cases h
    rw [after, PushConstants.mk.injEq]
    refine ⟨rfl, StageMap.eq_of_get?_eq fun stage => ?_⟩
    rw [StageMap.get?_insert, StageMap.get?_map, StageMap.get?_map]
    by_cases hstage : stage = w.stage
    · rw [if_pos hstage, hstage, hblock, Option.map_some, dataAfter_concat (Nat.not_lt.mp hbound)]
    · rw [if_neg hstage]
      exact congrArg (Option.map · _) (funext fun size => (dataAfter_concat_of_ne hstage size).symm)

/-- Make writes one after the other; one that is not accepted changes nothing. -/
def writeAll (p : PushConstants) : List PushWrite → PushConstants
  | [] => p
  | w :: rest =>
    match p.write w.stage w.offset w.bytes with
    | .ok changed => writeAll changed rest
    | .error _ => writeAll p rest

def accepted (p : PushConstants) : List PushWrite → List PushWrite
  | [] => []
  | w :: rest =>
    match p.write w.stage w.offset w.bytes with
    | .ok changed => w :: accepted changed rest
    | .error _ => accepted p rest

theorem writeAll_after (blocks : PushBlocks) (made writes : List PushWrite) :
    writeAll (after blocks made) writes =
      after blocks (made ++ accepted (after blocks made) writes) := by
  induction writes generalizing made with
  | nil => rw [writeAll, accepted, List.append_nil]
  | cons w rest ih =>
    rw [writeAll, accepted]
    split
    · next changed hwrite =>
      rw [write_after hwrite, ih, List.append_assoc, List.singleton_append]
    · exact ih made

theorem mem_of_mem_placed {blocks : List (Stage × Nat)} {offset : Nat} {entry : Stage × PushRange}
    (h : entry ∈ placed offset blocks) : (entry.1, entry.2.size) ∈ blocks := by
  induction blocks generalizing offset with
  | nil => cases h
  | cons block rest ih =>
    rcases List.mem_cons.mp h with rfl | hrest
    · exact List.mem_cons_self
    · exact List.mem_cons_of_mem _ (ih hrest)

theorem forall₂_placed (blocks : List (Stage × Nat)) (offset : Nat) :
    List.Forall₂ (fun block entry => entry.1 = block.1 ∧ entry.2.stages = block.1.flag ∧
      entry.2.size = block.2) blocks (placed offset blocks) := by
  induction blocks generalizing offset with
  | nil => exact .nil
  | cons block rest ih => exact .cons ⟨rfl, rfl, rfl⟩ (ih _)

theorem tiles_placed (blocks : List (Stage × Nat)) (offset : Nat) :
    Tiles offset ((placed offset blocks).map fun entry => (entry.2.offset, entry.2.size))
      (offset + (blocks.map (·.2)).sum) := by
  induction blocks generalizing offset with
  | nil => rfl
  | cons block rest ih =>
    rw [List.map_cons, List.sum_cons, ← Nat.add_assoc]
    exact ⟨rfl, ih _⟩

theorem sizes_placed (blocks : List (Stage × Nat)) (offset : Nat) :
    (placed offset blocks).map (·.2.size) = blocks.map (·.2) :=
  (map_eq_map_of_forall₂ (forall₂_placed blocks offset) fun _ _ h => h.2.2.symm).symm

def lastAdded? (adds : List (Stage × Nat)) (stage : Stage) : Option Nat :=
  (adds.reverse.find? (·.1 = stage)).map (·.2)

/-- The blocks that are in effect after all were added, in pipeline order. -/
def finalBlocks (adds : List (Stage × Nat)) : List (Stage × Nat) :=
  Stage.all.filterMap fun stage => (lastAdded? adds stage).map (stage, ·)

def finalTotal (adds : List (Stage × Nat)) : Nat := ((finalBlocks adds).map (·.2)).sum

theorem toList_adds (adds : List (Stage × Nat)) :
    (StageMap.ofList adds).toList = finalBlocks adds := by
  simp only [StageMap.toList_eq, StageMap.get?_ofList]
  rfl

theorem mem_finalBlocks {adds : List (Stage × Nat)} {block : Stage × Nat} :
    block ∈ finalBlocks adds ↔ lastAdded? adds block.1 = some block.2 := by
  rw [← toList_adds, StageMap.mem_toList, StageMap.get?_ofList, lastAdded?]

theorem ranges_after (adds : List (Stage × Nat)) (made : List PushWrite) :
    (after (.ofList adds) made).ranges = placed 0 (finalBlocks adds) := by
  rw [after, toList_adds]

theorem data_after (adds : List (Stage × Nat)) (made : List PushWrite) (stage : Stage) :
    (after (.ofList adds) made).data.get? stage =
      (lastAdded? adds stage).map (dataAfter made stage) := by
  rw [after, StageMap.get?_map, StageMap.get?_ofList, lastAdded?]

theorem data_of_mem_placed {adds : List (Stage × Nat)} {entry : Stage × PushRange}
    (h : entry ∈ placed 0 (finalBlocks adds)) (made : List PushWrite) :
    (after (.ofList adds) made).data.get? entry.1 =
      some (dataAfter made entry.1 entry.2.size) := by
  rw [data_after, mem_finalBlocks.mp (mem_of_mem_placed h), Option.map_some]

theorem record_after (adds : List (Stage × Nat)) (made : List PushWrite) :
    (after (.ofList adds) made).record = (placed 0 (finalBlocks adds)).map fun entry =>
      (entry.2, dataAfter made entry.1 entry.2.size) := by
  rw [record, ranges_after, ← List.filterMap_eq_map']
  refine List.filterMap_congr fun entry hentry => ?_
  exact congrArg (Option.map (entry.2, ·)) (data_of_mem_placed hentry made)

theorem tiles_finalBlocks (adds : List (Stage × Nat)) :
    Tiles 0 ((placed 0 (finalBlocks adds)).map fun entry => (entry.2.offset, entry.2.size))
      (finalTotal adds) := by
  rw [← Nat.zero_add (finalTotal adds)]
  exact tiles_placed (finalBlocks adds) 0

/--
Push constants are what their blocks and writes make of them: the ranges are one per block, follow
each other without gaps and end at the total size, every range has data of its size, and the data
of all ranges is recorded and holds what was written.
-/
structure Consistent (adds : List (Stage × Nat)) (made : List PushWrite) (p : PushConstants) :
    Prop where
  ranges : List.Forall₂ (fun block entry => entry.1 = block.1 ∧ entry.2.stages = block.1.flag ∧
    entry.2.size = block.2) (finalBlocks adds) p.ranges
  tiles : Tiles 0 (p.ranges.map fun entry => (entry.2.offset, entry.2.size)) (finalTotal adds)
  totalSize : p.totalSize = .ok (finalTotal adds)
  /-- A stage without a block has no data. -/
  data : ∀ stage, (p.data.get? stage).map List.length = lastAdded? adds stage
  record : List.Forall₂ (fun entry call => call.1 = entry.2 ∧ p.data.get? entry.1 = some call.2 ∧
    call.2.length = entry.2.size) p.ranges p.record
  /-- Each byte up to the total size is pushed exactly once. -/
  pushed : ∀ i, p.record.countP (fun call =>
    call.1.offset ≤ i ∧ i < call.1.offset + call.2.length) = if i < finalTotal adds then 1 else 0
  bytes : ∀ stage data, p.data.get? stage = some data →
    ∀ i < data.length, data[i]? = some (byteAfter made stage i)

theorem consistent_after {adds : List (Stage × Nat)} (h : finalTotal adds < 2 ^ 32)
    (made : List PushWrite) : Consistent adds made (after (.ofList adds) made) where
  ranges := by
    rw [ranges_after]
    exact forall₂_placed (finalBlocks adds) 0
  tiles := by
    rw [ranges_after]
    exact tiles_finalBlocks adds
  totalSize := by
    rw [PushConstants.totalSize, ranges_after, sizes_placed, Checked.sum32, Checked.sum_eq]
    exact if_pos h
  data stage := by
    rw [data_after, Option.map_map]
    exact (congrArg (Option.map · _) (funext (length_dataAfter made stage))).trans Option.map_id'
  record := by
    rw [record_after, ranges_after, List.forall₂_map_right_iff, List.forall₂_same]
    exact fun entry hentry => ⟨rfl, data_of_mem_placed hentry made, length_dataAfter ..⟩
  pushed i := by
    have hpushed := (tiles_finalBlocks adds).countP i
    rw [List.countP_map] at hpushed
    rw [record_after, List.countP_map]
    simpa [Function.comp_def] using hpushed
  bytes stage data hdata i hi := by
    rw [data_after] at hdata
    obtain ⟨size, -, rfl⟩ := Option.map_eq_some_iff.mp hdata
    rw [length_dataAfter] at hi
    rw [dataAfter, List.getElem?_map, List.getElem?_range hi, Option.map_some]

/--
Blocks whose bytes together can be counted are placed, in the same way for any additions that end
with the same block for each stage. After any sequence of writes the push constants agree with the
blocks and with the writes that were accepted.
-/
theorem consistent_writeAll {adds : List (Stage × Nat)} (h : finalTotal adds < 2 ^ 32) :
    ∃ built, ofBlocks (.ofList adds) = .ok built ∧
      (∀ writes, Consistent adds (accepted built writes) (writeAll built writes)) ∧
      ∀ others, (∀ stage, lastAdded? others stage = lastAdded? adds stage) →
        ofBlocks (.ofList others) = .ok built := by
  have hbuilt : ofBlocks (.ofList adds) = .ok (after (.ofList adds) []) :=
    ofBlocks_eq (by rwa [toList_adds])
  refine ⟨after (.ofList adds) [], hbuilt, fun writes => ?_, fun others hothers => ?_⟩
  · have hwritten := writeAll_after (.ofList adds) [] writes
    rw [List.nil_append] at hwritten
    rw [hwritten]
    exact consistent_after h _
  · have hsame : StageMap.ofList others = .ofList adds := StageMap.eq_of_get?_eq fun stage => by
      rw [StageMap.get?_ofList, StageMap.get?_ofList]
      exact hothers stage
    rw [hsame, hbuilt]

/-- A block that is replaced, and writes of which two are not accepted. -/
theorem consistent_writeAll_replaced :
    let adds : List (Stage × Nat) := [(.fragment, 8), (.vertex, 2), (.fragment, 4)]
    let writes : List PushWrite := [⟨.fragment, 0, [1, 2]⟩, ⟨.geometry, 0, [3]⟩,
      ⟨.fragment, 3, [4, 5]⟩, ⟨.fragment, 1, [6, 7]⟩]
    let made : List PushWrite := [⟨.fragment, 0, [1, 2]⟩, ⟨.fragment, 1, [6, 7]⟩]
    finalTotal adds < 2 ^ 32 ∧
      ∃ built, ofBlocks (.ofList adds) = .ok built ∧
        ofBlocks (.ofList [(.vertex, 2), (.fragment, 4)]) = .ok built ∧
        Consistent adds made (writeAll built writes) ∧
        (writeAll built writes).record =
          [(⟨Stage.vertex.flag, 0, 2⟩, [0, 0]), (⟨Stage.fragment.flag, 2, 4⟩, [1, 6, 7, 0])] := by
  intro adds writes made
  have htotal : finalTotal adds < 2 ^ 32 := by decide
  obtain ⟨built, hbuilt, hconsistent, hothers⟩ := consistent_writeAll htotal
  have hrun : (ofBlocks (.ofList adds)).map (fun p =>
      (accepted p writes, (writeAll p writes).record)) =
        .ok (made, [(⟨Stage.vertex.flag, 0, 2⟩, [0, 0]),
          (⟨Stage.fragment.flag, 2, 4⟩, [1, 6, 7, 0])]) := by decide +kernel
  rw [hbuilt] at hrun
  obtain ⟨hmade, hrecord⟩ := Prod.mk.inj (Except.ok.inj hrun)
  refine ⟨htotal, built, hbuilt, hothers _ (fun stage => ?_), ?_, hrecord⟩
  · cases stage <;> rfl
  · rw [← hmade]
    exact hconsistent writes

end PushConstants

end ShaderBinding
