import Cryfs.Node.Layout

/-!
# Leaf nodes

`DataLeafNode` wraps the bytes of a loaded block; `new` only builds one from a block with
room for the header, which the structure records. A leaf's live bytes are the first
`num_bytes()` bytes of the payload. `resize` zeroes the bytes it gives up and writes the
new size; a grow writes no bytes, so the bytes it reveals are zero only if every earlier
step kept the unused tail zero (`LeafRun.lean` proves that they do).

`serializeLeafNodeOptimized` prepends the header to a payload in place, by growing the
payload's `Data` into its prefix reserve.
-/

namespace Cryfs

structure DataLeafNode where
  block : List UInt8
  header_lt : node.dataOffset < block.length

namespace DataLeafNode

/-- `DataLeafNode::new`: checks the header of a loaded block. -/
def new (block : List UInt8) (layout : NodeLayout) : Res DataLeafNode := do
  let formatVersion ← node.formatVersionHeader.read block
  ensure (formatVersion = formatVersionHeader)
    s!"Loaded a node with format version {formatVersion} but the current version is {formatVersionHeader}"
  let depth ← node.depth.read block
  assert (0 = depth)
    s!"assertion `left == right` failed: Loaded a leaf with depth {depth}. This doesn\x27t make sense, it should have been loaded as an inner node\n  left: 0\n right: {depth}"
  if h : node.dataOffset < block.length then
    let maxBytesPerLeaf := layout.maxBytesPerLeaf
    let size ← node.size.read block
    ensure (size ≤ maxBytesPerLeaf)
      s!"Loaded a leaf that claims to store {size} bytes but the maximum is {maxBytesPerLeaf}."
    pure ⟨block, h⟩
  else .error (.panic
    "Block doesn\x27t have enough space for header. This should have been checked before calling DataLeafNode::new")

def numBytes (leaf : DataLeafNode) : Nat := node.size.get leaf.block

/-- `max_bytes_per_leaf()`, from the block's length (`u32::try_from(..).unwrap()`). -/
def maxBytesPerLeaf (leaf : DataLeafNode) : Res Nat :=
  if h : leaf.block.length < 2 ^ 32 then .ok (NodeLayout.mk leaf.block.length h).maxBytesPerLeaf
  else .error (.panic "called `Result::unwrap()` on an `Err` value: TryFromIntError(())")

/-- `view.data_mut()[offset..offset + bytes.len()]` overwritten with `bytes`. -/
def writeData (leaf : DataLeafNode) (offset : Nat) (bytes : List UInt8) : Res DataLeafNode :=
  let len := leaf.block.length - node.dataOffset
  let stop := offset + bytes.length
  if h : stop ≤ len then
    .ok ⟨setSlice leaf.block (node.dataOffset + offset) bytes, by
      have := leaf.header_lt; rw [length_setSlice (by omega)]; exact this⟩
  else .error (.panic s!"range end index {stop} out of range for slice of length {len}")

/-- `view.size_mut().write(n)`. -/
def setNumBytes (leaf : DataLeafNode) (n : Nat) : DataLeafNode :=
  ⟨node.size.set leaf.block n, by
    have := leaf.header_lt
    rw [Field.length_set n (by simp only [node.size, node.dataOffset] at this ⊢; omega)]; exact this⟩

def resize (leaf : DataLeafNode) (newNumBytes : Nat) : Res DataLeafNode := do
  let maxBytesPerLeaf ← leaf.maxBytesPerLeaf
  assert (newNumBytes ≤ maxBytesPerLeaf)
    s!"Trying to resize to {newNumBytes} bytes which is larger than the maximal size of {maxBytesPerLeaf}"
  let oldNumBytes := leaf.numBytes
  let leaf ← if newNumBytes < oldNumBytes then
      leaf.writeData newNumBytes (List.replicate (oldNumBytes - newNumBytes) 0)
    else pure leaf
  pure (leaf.setNumBytes newNumBytes)

/-- `data()`: `&leaf_data[..leaf_size]`. -/
def data (leaf : DataLeafNode) : Res (List UInt8) :=
  slice (leaf.block.drop node.dataOffset) 0 leaf.numBytes

/-- `data_mut()`: the same slice as `data()`, mutably. -/
def dataMut (leaf : DataLeafNode) : Res (List UInt8) :=
  slice (leaf.block.drop node.dataOffset) 0 leaf.numBytes

/-- `data_mut()` followed by setting byte `i` of the returned slice to `f i`: an arbitrary
overwrite of that slice, which keeps its length. -/
def overwriteData (leaf : DataLeafNode) (f : Nat → UInt8) : Res DataLeafNode := do
  let slice ← leaf.dataMut
  leaf.writeData 0 ((List.range slice.length).map f)

/-! ## One spec lemma per operation -/

theorem new_eq_ok {block : List UInt8} {layout : NodeLayout} {leaf : DataLeafNode} :
    new block layout = .ok leaf ↔ node.dataOffset < block.length ∧
      node.formatVersionHeader.get block = formatVersionHeader ∧ node.depth.get block = 0 ∧
      node.size.get block ≤ layout.maxBytesPerLeaf ∧ leaf.block = block := by
  by_cases h : node.dataOffset < block.length
  · have r : ∀ f : Field, f.offset + f.size ≤ node.dataOffset → f.read block = .ok (f.get block) :=
      fun f hf => Field.read_eq_get (by omega)
    simp only [new, r node.formatVersionHeader (by decide), r node.depth (by decide),
      r node.size (by decide), h, dite_true, bind_eq_ok, ensure_eq_ok, assert_eq_ok, pure_eq_ok]
    cases leaf
    simp [eq_comm]
  · simp [new, h]

theorem writeData_spec (leaf : DataLeafNode) (offset : Nat) (bytes : List UInt8)
    (h : offset + bytes.length ≤ leaf.block.length - node.dataOffset) :
    ∃ leaf', leaf.writeData offset bytes = .ok leaf' ∧
      leaf'.block = setSlice leaf.block (node.dataOffset + offset) bytes := by
  simp only [writeData, h, dite_true]
  exact ⟨_, rfl, rfl⟩

@[simp] theorem setNumBytes_block (leaf : DataLeafNode) (n : Nat) :
    (leaf.setNumBytes n).block = node.size.set leaf.block n := rfl

theorem maxBytesPerLeaf_eq {leaf : DataLeafNode} (h : leaf.block.length < 2 ^ 32) :
    leaf.maxBytesPerLeaf = .ok (leaf.block.length - node.dataOffset) := by
  rw [maxBytesPerLeaf, dif_pos h]; rfl

end DataLeafNode

/-- `serialize_leaf_node_optimized`: `data` must be the size of a full leaf and have the
header's room in its prefix reserve. -/
def serializeLeafNodeOptimized (data : Data) (numBytes : Nat) (layout : NodeLayout) : Res Data := do
  let maxBytesPerLeaf := layout.maxBytesPerLeaf
  let len := data.len
  assert (maxBytesPerLeaf = len)
    s!"assertion `left == right` failed\n  left: {maxBytesPerLeaf}\n right: {len}"
  assert (numBytes ≤ maxBytesPerLeaf)
    s!"Tried to create leaf with {numBytes} bytes but each leaf can only hold {maxBytesPerLeaf}"
  let available := data.availablePrefixBytes
  assert (node.dataOffset ≤ available)
    s!"Data objects passed to serialize_leaf_node must have at least {node.dataOffset} prefix bytes available, but only had {available}"
  let data ← match data.growRegionFailIfReallocationNecessary node.dataOffset 0 with
    | .ok data => pure data
    | .error _ => .error (.panic
        "Not enough prefix bytes available for data object passed to serialize_leaf_node")
  let data ← data.writeAt node.formatVersionHeader.offset (node.formatVersionHeader.encode formatVersionHeader)
  let data ← data.writeAt node.unused.offset (node.unused.encode 0)
  let data ← data.writeAt node.depth.offset (node.depth.encode 0)
  data.writeAt node.size.offset (node.size.encode numBytes)

/-- The four header writes of `serializeLeafNodeOptimized` over an 8-byte prefix. -/
theorem setSlice_header {pre rest a b c e : List UInt8} (hp : pre.length = 8) (ha : a.length = 2)
    (hb : b.length = 1) (hc : c.length = 1) (he : e.length = 4) :
    setSlice (setSlice (setSlice (setSlice (pre ++ rest) 0 a) 2 b) 3 c) 4 e = a ++ b ++ c ++ e ++ rest := by
  simp (disch := omega) [setSlice, ha, hb, hc, he, hp, List.take_append_eq_append_take,
    List.drop_append_eq_append_drop, List.take_of_length_le, List.drop_eq_nil_of_le]

/-- A header field written into a `Data` that shows at least the header. -/
theorem writeAt_field {d : Data} {f : Field} (v : Nat) (hf : f.offset + f.size ≤ node.dataOffset)
    (hd : node.dataOffset ≤ d.len) :
    ∃ d', d.writeAt f.offset (f.encode v) = .ok d' ∧
      d'.asRef = setSlice d.asRef f.offset (f.encode v) ∧ d'.len = d.len := by
  obtain ⟨d', h, hr, ha, hb⟩ := Data.writeAt_spec d f.offset (f.encode v) (by simp; omega)
  exact ⟨d', h, hr, by simp only [Data.len, ha, hb]⟩

/-- The serialized leaf: the header in front of the unchanged payload. -/
theorem serializeLeafNodeOptimized_spec {p : Data} {numBytes : Nat} {layout : NodeLayout}
    (hp : p.len = layout.maxBytesPerLeaf) (hpre : node.dataOffset ≤ p.availablePrefixBytes)
    (hn : numBytes ≤ layout.maxBytesPerLeaf) :
    ∃ d, serializeLeafNodeOptimized p numBytes layout = .ok d ∧
      d.len = node.dataOffset + layout.maxBytesPerLeaf ∧
      d.asRef = node.formatVersionHeader.encode formatVersionHeader ++ node.unused.encode 0 ++
        node.depth.encode 0 ++ node.size.encode numBytes ++ p.asRef := by
  obtain ⟨d₁, h₁, hs₁, ha₁, hb₁⟩ := Data.growRegion_spec (a := 0) hpre (Nat.zero_le _)
  have hr₁ := Data.asRef_of_start_sub hpre hs₁ ha₁ (by simpa using hb₁)
  have hl₁ : d₁.len = node.dataOffset + layout.maxBytesPerLeaf := by
    have := p.start_le_stop
    simp only [Data.len, Data.availablePrefixBytes] at hp hpre ⊢; rw [ha₁, hb₁]; omega
  -- the four header writes keep the window
  obtain ⟨d₂, h₂, hr₂, hl₂⟩ := writeAt_field (d := d₁) (f := node.formatVersionHeader)
    formatVersionHeader (by decide) (by omega)
  obtain ⟨d₃, h₃, hr₃, hl₃⟩ := writeAt_field (d := d₂) (f := node.unused) 0 (by decide) (by omega)
  obtain ⟨d₄, h₄, hr₄, hl₄⟩ := writeAt_field (d := d₃) (f := node.depth) 0 (by decide) (by omega)
  obtain ⟨d₅, h₅, hr₅, hl₅⟩ := writeAt_field (d := d₄) (f := node.size) numBytes (by decide)
    (by omega)
  refine ⟨d₅, ?_, by omega, ?_⟩
  · have hlen : layout.maxBytesPerLeaf = p.len := hp.symm
    simp [serializeLeafNodeOptimized, hlen, hlen ▸ hn, hpre, h₁, h₂, h₃, h₄, h₅]
  · rw [hr₅, hr₄, hr₃, hr₂, hr₁]
    have := p.start_le_stop; have := p.stop_le_length
    simp only [Data.availablePrefixBytes, node.dataOffset] at hpre
    exact setSlice_header (by simp [node.dataOffset]; omega) (by simp [node.formatVersionHeader])
      (by simp [node.unused]) (by simp [node.depth]) (by simp [node.size])

/-- The block `serializeLeafNodeOptimized` returns, and the leaf `new` loads from it. -/
theorem serializeLeafNodeOptimized_block {layout : NodeLayout} {p : Data} {numBytes : Nat}
    (hbs : node.dataOffset < layout.blockSizeBytes) (hp : p.len = layout.maxBytesPerLeaf)
    (hpre : node.dataOffset ≤ p.availablePrefixBytes) (hn : numBytes ≤ layout.maxBytesPerLeaf) :
    ∃ d, serializeLeafNodeOptimized p numBytes layout = .ok d ∧ d.len = layout.blockSizeBytes ∧
      d.asRef = [0, 0, 0, 0] ++ (encodeLE 4 numBytes ++ p.asRef) ∧
      node.size.get d.asRef = numBytes ∧
      ∃ leaf, DataLeafNode.new d.asRef layout = .ok leaf ∧ leaf.block = d.asRef := by
  obtain ⟨d, hs, hl, hr⟩ := serializeLeafNodeOptimized_spec hp hpre hn
  have hr' : d.asRef = [0, 0, 0, 0] ++ (encodeLE 4 numBytes ++ p.asRef) := by rw [hr]; rfl
  have hsize : node.size.get d.asRef = numBytes := by
    have := layout.maxBytesPerLeaf_lt
    rw [hr', Field.get_middle rfl (length_encodeLE 4 numBytes)]
    simp only [Field.decode, node.size, decodeLE_encodeLE]; simp; omega
  have hlen : node.dataOffset < d.asRef.length := by
    simp only [Data.length_asRef, hl, NodeLayout.maxBytesPerLeaf]; omega
  refine ⟨d, hs, by simp only [hl, NodeLayout.maxBytesPerLeaf]; omega, hr', hsize, ⟨d.asRef, hlen⟩,
    DataLeafNode.new_eq_ok.2 ⟨hlen, by rw [hr']; rfl, by rw [hr']; rfl, hsize ▸ hn, rfl⟩, rfl⟩

theorem serializeLeafNodeOptimized_roundtrip {layout : NodeLayout} {p : Data} {numBytes : Nat}
    (hbs : node.dataOffset < layout.blockSizeBytes) (hp : p.len = layout.maxBytesPerLeaf)
    (hpre : node.dataOffset ≤ p.availablePrefixBytes) (hn : numBytes ≤ layout.maxBytesPerLeaf) :
    ∃ d leaf, serializeLeafNodeOptimized p numBytes layout = .ok d ∧
      d.len = layout.blockSizeBytes ∧
      node.formatVersionHeader.get d.asRef = formatVersionHeader ∧ node.unused.get d.asRef = 0 ∧
      node.depth.get d.asRef = 0 ∧ node.size.get d.asRef = numBytes ∧
      d.asRef.drop node.dataOffset = p.asRef ∧
      DataLeafNode.new d.asRef layout = .ok leaf ∧ leaf.numBytes = numBytes ∧
      leaf.data = .ok (p.asRef.take numBytes) := by
  obtain ⟨d, hs, hl, hr, hsize, leaf, hnew, hb⟩ := serializeLeafNodeOptimized_block hbs hp hpre hn
  have hdrop : d.asRef.drop node.dataOffset = p.asRef := by rw [hr]; simp [node.dataOffset]
  refine ⟨d, leaf, hs, hl, by rw [hr]; rfl, by rw [hr]; rfl, by rw [hr]; rfl, hsize, hdrop, hnew,
    by rw [DataLeafNode.numBytes, hb, hsize], ?_⟩
  simp only [DataLeafNode.data, DataLeafNode.numBytes, hb, hsize, hdrop]
  rw [slice_eq_ok (Nat.zero_le _) (by simp [hp, hn])]
  simp

theorem serializeLeafNodeOptimized_roundtrip_tenBytes :
    ∃ d leaf, serializeLeafNodeOptimized ⟨[9, 9, 9, 9, 9, 9, 9, 9, 3, 0], 8, 10, by decide, by decide⟩ 1
        ⟨10, by decide⟩ = .ok d ∧
      d.len = 10 ∧
      node.formatVersionHeader.get d.asRef = formatVersionHeader ∧ node.unused.get d.asRef = 0 ∧
      node.depth.get d.asRef = 0 ∧ node.size.get d.asRef = 1 ∧
      d.asRef.drop node.dataOffset = [3, 0] ∧
      DataLeafNode.new d.asRef ⟨10, by decide⟩ = .ok leaf ∧ leaf.numBytes = 1 ∧
      leaf.data = .ok [3] :=
  serializeLeafNodeOptimized_roundtrip (by decide) rfl (by decide) (by decide)

end Cryfs
