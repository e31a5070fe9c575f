import Cryfs.Node.DataLeafNode

/-!
# Runs of leaf operations

A leaf is used through `resize` and through writes into the slice `data_mut` returns. The
plain model of what it stores is a byte list (`LiveBytes`): a resize truncates or pads with
zeros, an overwrite replaces the bytes by as many others.

`Holds layout hdr leaf live` relates the two: the block is the header bytes `hdr` (format
version, unused, depth), the size field holding `live.length`, the live bytes, and zeros up
to the end of the block (`leafBlock`). A block that `new` accepts and whose unused payload
is zero is related to its live bytes (`holds_of_new`); each operation keeps the relation
for its counterpart in the model (`Holds.resize`, `Holds.overwrite`); so does every run
(`Holds.runOps`). A grow writes no bytes: it reveals zeros only because the relation says
that the unused payload is zero.

A leaf written by `serialize_leaf_node_optimized` is such a leaf when its payload is zero
after the live bytes (`serialized_leaf_runOps`); the function does not check that (its
TODO), and growing a leaf written from any other payload shows the payload's old bytes
(`serialized_leaf_grow_reveals_payload`).
-/

namespace Cryfs

/-! ## The byte-list model of a leaf's live bytes -/

namespace LiveBytes

def resize (n : Nat) (l : List UInt8) : List UInt8 := l.take n ++ List.replicate (n - l.length) 0

def overwrite (f : Nat → UInt8) (l : List UInt8) : List UInt8 := (List.range l.length).map f

@[simp] theorem length_resize (n : Nat) (l : List UInt8) : (resize n l).length = n := by
  simp only [resize, List.length_append, List.length_take, List.length_replicate]; omega

@[simp] theorem length_overwrite (f : Nat → UInt8) (l : List UInt8) :
    (overwrite f l).length = l.length := by simp [overwrite]

end LiveBytes

/-- An operation on a leaf: `resize(n)`, or an overwrite of the slice `data_mut()` returns
that sets its byte `i` to `f i`. -/
inductive LeafOp
  | resize (newNumBytes : Nat)
  | overwrite (f : Nat → UInt8)

namespace LeafOp

def apply : LeafOp → DataLeafNode → Res DataLeafNode
  | .resize n, leaf => leaf.resize n
  | .overwrite f, leaf => leaf.overwriteData f

def applyLive : LeafOp → List UInt8 → List UInt8
  | .resize n => LiveBytes.resize n
  | .overwrite f => LiveBytes.overwrite f

/-- The caller's side of `resize`'s assertion. -/
def Fits (maxBytesPerLeaf : Nat) : LeafOp → Prop
  | .resize n => n ≤ maxBytesPerLeaf
  | .overwrite _ => True

end LeafOp

def runOps (leaf : DataLeafNode) : List LeafOp → Res DataLeafNode
  | [] => .ok leaf
  | op :: ops => do runOps (← op.apply leaf) ops

def runLive (live : List UInt8) (ops : List LeafOp) : List UInt8 :=
  ops.foldl (fun l op => op.applyLive l) live

/-- The block of a leaf with header bytes `hdr` whose live bytes are `live`. -/
def leafBlock (layout : NodeLayout) (hdr live : List UInt8) : List UInt8 :=
  hdr ++ encodeLE 4 live.length ++ live ++ List.replicate (layout.maxBytesPerLeaf - live.length) 0

/-- `leaf`, a leaf of `layout` with header bytes `hdr`, stores the live bytes `live`. -/
structure Holds (layout : NodeLayout) (hdr : List UInt8) (leaf : DataLeafNode)
    (live : List UInt8) : Prop where
  length_hdr : hdr.length = node.size.offset
  length_live : live.length ≤ layout.maxBytesPerLeaf
  header_lt : node.dataOffset < layout.blockSizeBytes
  block_eq : leaf.block = leafBlock layout hdr live

section Holds

variable {layout : NodeLayout} {hdr : List UInt8} {leaf : DataLeafNode} {live : List UInt8}

theorem leafBlock_assoc : leafBlock layout hdr live = hdr ++ (encodeLE 4 live.length ++
    (live ++ List.replicate (layout.maxBytesPerLeaf - live.length) 0)) := by
  simp [leafBlock]

theorem Holds.length_block (h : Holds layout hdr leaf live) :
    leaf.block.length = layout.blockSizeBytes := by
  have := h.length_hdr; have := h.length_live; have := h.header_lt
  simp only [h.block_eq, leafBlock, List.length_append, length_encodeLE, List.length_replicate,
    NodeLayout.maxBytesPerLeaf, node.size, node.dataOffset] at *
  omega

theorem Holds.numBytes_eq (h : Holds layout hdr leaf live) : leaf.numBytes = live.length := by
  have := h.length_live; have := layout.maxBytesPerLeaf_lt
  rw [DataLeafNode.numBytes, h.block_eq, leafBlock_assoc,
    Field.get_middle h.length_hdr (length_encodeLE 4 _)]
  simp only [Field.decode, node.size, decodeLE_encodeLE]
  simp; omega

theorem Holds.maxBytesPerLeaf_eq (h : Holds layout hdr leaf live) :
    leaf.maxBytesPerLeaf = .ok layout.maxBytesPerLeaf := by
  rw [DataLeafNode.maxBytesPerLeaf_eq (h.length_block ▸ layout.blockSizeBytes_lt), h.length_block,
    NodeLayout.maxBytesPerLeaf]

theorem Holds.drop_header (h : Holds layout hdr leaf live) :
    leaf.block.drop node.dataOffset = live ++ List.replicate (layout.maxBytesPerLeaf - live.length) 0 := by
  rw [h.block_eq, leafBlock, List.append_assoc]
  exact List.drop_left' (by simp [h.length_hdr, node.size, node.dataOffset])

theorem Holds.data_eq (h : Holds layout hdr leaf live) : leaf.data = .ok live := by
  rw [DataLeafNode.data, h.numBytes_eq, h.drop_header, slice_eq_ok (Nat.zero_le _) (by simp)]
  simp [List.take_left']

theorem Holds.dataMut_eq (h : Holds layout hdr leaf live) : leaf.dataMut = .ok live := h.data_eq

/-- The size field is the one field `setNumBytes` writes. -/
theorem set_size_leafBlock (hh : hdr.length = node.size.offset) (n : Nat) :
    node.size.set (leafBlock layout hdr live) n = hdr ++ (encodeLE 4 n ++
      (live ++ List.replicate (layout.maxBytesPerLeaf - live.length) 0)) := by
  rw [leafBlock_assoc, Field.set_middle hh (length_encodeLE 4 _)]; rfl

/-- Shrinking to `n` bytes zeroes the live bytes from `n` on. -/
theorem setSlice_leafBlock_shrink (hh : hdr.length = node.size.offset) {n : Nat}
    (hn : n ≤ live.length) (hl : live.length ≤ layout.maxBytesPerLeaf) :
    setSlice (leafBlock layout hdr live) (node.dataOffset + n) (List.replicate (live.length - n) 0) =
      hdr ++ (encodeLE 4 live.length ++
        (live.take n ++ List.replicate (layout.maxBytesPerLeaf - n) 0)) := by
  have key : leafBlock layout hdr live = (hdr ++ (encodeLE 4 live.length ++ live.take n)) ++
      (live.drop n ++ List.replicate (layout.maxBytesPerLeaf - live.length) 0) := by
    rw [leafBlock_assoc]; simp only [List.append_assoc]
    rw [← List.append_assoc (List.take n live), List.take_append_drop]
  rw [key, setSlice_middle (by simp [hh, node.size, node.dataOffset]; omega) (by simp)]
  simp only [List.append_assoc, List.append_replicate_replicate]
  rw [show live.length - n + (layout.maxBytesPerLeaf - live.length) = layout.maxBytesPerLeaf - n by
    omega]

theorem Holds.length_payload (h : Holds layout hdr leaf live) :
    leaf.block.length = node.dataOffset + layout.maxBytesPerLeaf := by
  have := h.header_lt; rw [h.length_block, NodeLayout.maxBytesPerLeaf]; omega

theorem Holds.resize (h : Holds layout hdr leaf live) {n : Nat} (hn : n ≤ layout.maxBytesPerLeaf) :
    ∃ leaf', leaf.resize n = .ok leaf' ∧ Holds layout hdr leaf' (LiveBytes.resize n live) := by
  have hl := h.length_live
  have hbl := h.length_payload
  by_cases hlt : n < live.length
  · -- shrinking zeroes `live[n..]` before the size is written
    have hres : LiveBytes.resize n live = live.take n := by simp [LiveBytes.resize]; omega
    obtain ⟨leaf₁, h₁, hb₁⟩ := DataLeafNode.writeData_spec leaf n
      (List.replicate (live.length - n) 0) (by simp only [List.length_replicate]; omega)
    refine ⟨leaf₁.setNumBytes n, ?_, h.length_hdr, by simp; omega, h.header_lt, ?_⟩
    · simp [DataLeafNode.resize, h.maxBytesPerLeaf_eq, hn, h.numBytes_eq, hlt, h₁]
    · rw [DataLeafNode.setNumBytes_block, hb₁, h.block_eq,
        setSlice_leafBlock_shrink h.length_hdr hlt.le hl, hres, leafBlock_assoc,
        Field.set_middle h.length_hdr (length_encodeLE 4 _)]
      simp only [List.length_take, Nat.min_eq_left hlt.le]; rfl
  · -- growing only writes the size: the zeros are already there
    have hres : LiveBytes.resize n live = live ++ List.replicate (n - live.length) 0 := by
      simp [LiveBytes.resize, List.take_of_length_le (Nat.le_of_not_lt hlt)]
    refine ⟨leaf.setNumBytes n, ?_, h.length_hdr, by simp; omega, h.header_lt, ?_⟩
    · simp [DataLeafNode.resize, h.maxBytesPerLeaf_eq, hn, h.numBytes_eq, hlt]
    · rw [DataLeafNode.setNumBytes_block, h.block_eq, set_size_leafBlock h.length_hdr, hres,
        leafBlock_assoc]
      simp only [List.length_append, List.length_replicate, List.append_assoc,
        List.append_replicate_replicate]
      rw [show live.length + (n - live.length) = n by omega,
        show n - live.length + (layout.maxBytesPerLeaf - n) = layout.maxBytesPerLeaf - live.length by
          omega]

theorem Holds.overwrite (h : Holds layout hdr leaf live) (f : Nat → UInt8) :
    ∃ leaf', leaf.overwriteData f = .ok leaf' ∧
      Holds layout hdr leaf' (LiveBytes.overwrite f live) := by
  have hbl := h.length_payload
  have hl := h.length_live
  obtain ⟨leaf₁, h₁, hb₁⟩ := DataLeafNode.writeData_spec leaf 0
    (LiveBytes.overwrite f live) (by simp; omega)
  refine ⟨leaf₁, ?_, h.length_hdr, by simpa using hl, h.header_lt, ?_⟩
  · simpa [DataLeafNode.overwriteData, h.dataMut_eq] using h₁
  · rw [hb₁, h.block_eq, leafBlock_assoc, ← List.append_assoc hdr,
      setSlice_middle (by simp [h.length_hdr, node.size, node.dataOffset]) (by simp),
      leafBlock_assoc, LiveBytes.length_overwrite, List.append_assoc]

theorem Holds.apply (h : Holds layout hdr leaf live) {op : LeafOp}
    (hop : op.Fits layout.maxBytesPerLeaf) :
    ∃ leaf', op.apply leaf = .ok leaf' ∧ Holds layout hdr leaf' (op.applyLive live) := by
  cases op with
  | resize n => exact h.resize hop
  | overwrite f => exact h.overwrite f

/-- The run lemma: every run of fitting operations returns and keeps the relation. -/
theorem Holds.runOps (h : Holds layout hdr leaf live) {ops : List LeafOp}
    (hops : ∀ op ∈ ops, op.Fits layout.maxBytesPerLeaf) :
    ∃ leaf', Cryfs.runOps leaf ops = .ok leaf' ∧ Holds layout hdr leaf' (runLive live ops) := by
  induction ops generalizing leaf live with
  | nil => exact ⟨leaf, rfl, h⟩
  | cons op ops ih =>
    obtain ⟨leaf₁, h₁, hh₁⟩ := h.apply (hops op (List.mem_cons_self _ _))
    obtain ⟨leaf', h', hh'⟩ := ih hh₁ (fun o ho => hops o (List.mem_cons_of_mem _ ho))
    exact ⟨leaf', by simp [Cryfs.runOps, h₁, h'], hh'⟩

/-- A block `new` accepts, with a zero unused payload, holds its first `size` payload bytes. -/
theorem holds_of_new {block : List UInt8} (hnew : DataLeafNode.new block layout = .ok leaf)
    (hlen : block.length = layout.blockSizeBytes)
    (hzero : ∀ b ∈ block.drop (node.dataOffset + node.size.get block), b = 0) :
    Holds layout (block.take node.size.offset) leaf
      ((block.drop node.dataOffset).take (node.size.get block)) := by
  obtain ⟨hlt, -, -, hle, hb⟩ := DataLeafNode.new_eq_ok.1 hnew
  generalize hs : node.size.get block = s at hle hzero
  have hmbl : layout.maxBytesPerLeaf = block.length - 8 := by
    simp [NodeLayout.maxBytesPerLeaf, hlen, node.dataOffset]
  simp only [node.dataOffset, node.size] at hlt hzero ⊢
  have hsz : (block.drop 4).take 4 = encodeLE 4 s := by
    rw [← hs, ← encodeLE_decodeLE ((block.drop 4).take 4)]
    simp only [List.length_take, List.length_drop]
    rw [Nat.min_eq_left (by omega)]; rfl
  have htail : block.drop (8 + s) = List.replicate (layout.maxBytesPerLeaf - s) 0 :=
    List.eq_replicate_iff.2 ⟨by simp; omega, hzero⟩
  have h1 : (block.drop 8).take s ++ block.drop (8 + s) = block.drop 8 := by
    rw [← List.drop_drop, List.take_append_drop]
  have h2 : (block.drop 4).take 4 ++ block.drop 8 = block.drop 4 := by
    rw [show block.drop 8 = (block.drop 4).drop 4 by simp, List.take_append_drop]
  have hlive : ((block.drop 8).take s).length = s := by simp; omega
  refine ⟨by simp [node.size]; omega, by simp [hlive, hle], hlen ▸ hlt, ?_⟩
  rw [hb, leafBlock_assoc, hlive, ← hsz, ← htail, h1, h2, List.take_append_drop]

/-- The relation keeps the header bytes, so `new` accepts the block again. -/
theorem Holds.new_ok (h : Holds layout hdr leaf live)
    (hv : node.formatVersionHeader.get hdr = formatVersionHeader) (hd : node.depth.get hdr = 0) :
    DataLeafNode.new leaf.block layout = .ok leaf := by
  have hb : leaf.block = hdr ++ (encodeLE 4 live.length ++
      (live ++ List.replicate (layout.maxBytesPerLeaf - live.length) 0)) :=
    h.block_eq.trans leafBlock_assoc
  have hh := h.length_hdr
  simp only [node.size] at hh
  refine DataLeafNode.new_eq_ok.2 ⟨?_, ?_, ?_, ?_, rfl⟩
  · rw [h.length_block]; exact h.header_lt
  · rw [hb, Field.get_append_left (by simp [node.formatVersionHeader, hh]), hv]
  · rw [hb, Field.get_append_left (by simp [node.depth, hh]), hd]
  · rw [← DataLeafNode.numBytes, h.numBytes_eq]; exact h.length_live

theorem Holds.take_header (h : Holds layout hdr leaf live) :
    leaf.block.take node.size.offset = hdr := by
  rw [h.block_eq, leafBlock_assoc, ← h.length_hdr, List.take_left' rfl]

theorem Holds.tail_eq (h : Holds layout hdr leaf live) :
    leaf.block.drop (node.dataOffset + leaf.numBytes) =
      List.replicate (layout.maxBytesPerLeaf - leaf.numBytes) 0 := by
  rw [h.numBytes_eq, ← List.drop_drop, h.drop_header, List.drop_left]

end Holds

/-- Every run of resizes within the leaf's capacity and overwrites of its `data_mut` slice,
from a block `new` accepts whose unused payload is zero. -/
theorem runOps_leaf_invariant {layout : NodeLayout} {block : List UInt8} {leaf : DataLeafNode}
    (hlen : block.length = layout.blockSizeBytes) (hnew : DataLeafNode.new block layout = .ok leaf)
    (hzero : ∀ b ∈ block.drop (node.dataOffset + node.size.get block), b = 0)
    (ops : List LeafOp) (hops : ∀ op ∈ ops, op.Fits layout.maxBytesPerLeaf) :
    ∃ leaf', runOps leaf ops = .ok leaf' ∧
      leaf'.maxBytesPerLeaf = .ok layout.maxBytesPerLeaf ∧
      leaf'.numBytes ≤ layout.maxBytesPerLeaf ∧
      leaf'.block.drop (node.dataOffset + leaf'.numBytes) =
        List.replicate (layout.maxBytesPerLeaf - leaf'.numBytes) 0 ∧
      leaf'.block.take node.size.offset = block.take node.size.offset ∧
      DataLeafNode.new leaf'.block layout = .ok leaf' ∧
      leaf'.data = .ok (runLive ((block.drop node.dataOffset).take (node.size.get block)) ops) ∧
      leaf'.dataMut = .ok (runLive ((block.drop node.dataOffset).take (node.size.get block)) ops) := by
  obtain ⟨hlt, hv, hd, -, -⟩ := DataLeafNode.new_eq_ok.1 hnew
  obtain ⟨leaf', hrun, h'⟩ := (holds_of_new hnew hlen hzero).runOps hops
  have hhdr : ∀ f : Field, f.offset + f.size ≤ node.size.offset →
      f.get (block.take node.size.offset) = f.get block := fun f hf => by
    conv_rhs => rw [← List.take_append_drop node.size.offset block]
    exact (Field.get_append_left (by simp [node.size, node.dataOffset] at hf hlt ⊢; omega)).symm
  refine ⟨leaf', hrun, h'.maxBytesPerLeaf_eq, h'.numBytes_eq ▸ h'.length_live, h'.tail_eq,
    h'.take_header, h'.new_ok ?_ ?_, h'.data_eq, h'.dataMut_eq⟩
  · rw [hhdr _ (by decide), hv]
  · rw [hhdr _ (by decide), hd]

theorem runOps_leaf_invariant_tenByteBlock :
    ∃ leaf', runOps ⟨[0, 0, 0, 0, 1, 0, 0, 0, 7, 0], by decide⟩
        [.resize 2, .overwrite fun i => UInt8.ofNat (i + 5), .resize 1] = .ok leaf' ∧
      leaf'.maxBytesPerLeaf = .ok 2 ∧ leaf'.numBytes ≤ 2 ∧
      leaf'.block.drop (node.dataOffset + leaf'.numBytes) = List.replicate (2 - leaf'.numBytes) 0 ∧
      leaf'.block.take node.size.offset = [0, 0, 0, 0] ∧
      DataLeafNode.new leaf'.block ⟨10, by decide⟩ = .ok leaf' ∧
      leaf'.data = .ok [5] ∧ leaf'.dataMut = .ok [5] :=
  @runOps_leaf_invariant ⟨10, by decide⟩ [0, 0, 0, 0, 1, 0, 0, 0, 7, 0] _ rfl rfl
    (by decide) _ (by simp [LeafOp.Fits, NodeLayout.maxBytesPerLeaf, node.dataOffset])

/-! ## Leaves written by `serialize_leaf_node_optimized` -/

/-- A leaf that `serialize_leaf_node_optimized` wrote from a payload that is zero after
`numBytes` behaves, under every run of fitting operations, like the byte-list model started
from the payload's first `numBytes` bytes. -/
theorem serialized_leaf_runOps {layout : NodeLayout} {p : Data} {numBytes : Nat}
    (hbs : node.dataOffset < layout.blockSizeBytes) (hp : p.len = layout.maxBytesPerLeaf)
    (hpre : node.dataOffset ≤ p.availablePrefixBytes) (hn : numBytes ≤ layout.maxBytesPerLeaf)
    (hzero : ∀ b ∈ p.asRef.drop numBytes, b = 0)
    (ops : List LeafOp) (hops : ∀ op ∈ ops, op.Fits layout.maxBytesPerLeaf) :
    ∃ d leaf leaf', serializeLeafNodeOptimized p numBytes layout = .ok d ∧
      DataLeafNode.new d.asRef layout = .ok leaf ∧ runOps leaf ops = .ok leaf' ∧
      leaf'.data = .ok (runLive (p.asRef.take numBytes) ops) := by
  obtain ⟨d, hs, hl, hr, hsize, leaf, hnew, -⟩ := serializeLeafNodeOptimized_block hbs hp hpre hn
  have hdrop : d.asRef.drop node.dataOffset = p.asRef := by rw [hr]; simp [node.dataOffset]
  have hholds := holds_of_new hnew (by rw [Data.length_asRef, hl])
    (by rwa [hsize, ← List.drop_drop, hdrop])
  obtain ⟨leaf', hrun, h'⟩ := hholds.runOps hops
  rw [hsize, hdrop] at h'
  exact ⟨d, leaf, leaf', hs, hnew, hrun, h'.data_eq⟩

theorem serialized_leaf_runOps_tenBytes :
    ∃ d leaf leaf', serializeLeafNodeOptimized ⟨[9, 9, 9, 9, 9, 9, 9, 9, 3, 0], 8, 10, by decide,
        by decide⟩ 1 ⟨10, by decide⟩ = .ok d ∧
      DataLeafNode.new d.asRef ⟨10, by decide⟩ = .ok leaf ∧ runOps leaf [.resize 2] = .ok leaf' ∧
      leaf'.data = .ok (runLive [3] [.resize 2]) :=
  serialized_leaf_runOps (by decide) (by decide) (by decide) (by decide) (by decide) _
    (by simp [LeafOp.Fits, NodeLayout.maxBytesPerLeaf, node.dataOffset])

/-- `serialize_leaf_node_optimized` does not zero the payload after `numBytes` (the code has
a TODO to assert that it is zero): growing the loaded leaf to its capacity shows the whole
payload, so the zero tail that runs rely on is the caller's duty. -/
theorem serialized_leaf_grow_reveals_payload {layout : NodeLayout} {p : Data} {numBytes : Nat}
    (hbs : node.dataOffset < layout.blockSizeBytes) (hp : p.len = layout.maxBytesPerLeaf)
    (hpre : node.dataOffset ≤ p.availablePrefixBytes) (hn : numBytes ≤ layout.maxBytesPerLeaf) :
    ∃ d leaf leaf', serializeLeafNodeOptimized p numBytes layout = .ok d ∧
      DataLeafNode.new d.asRef layout = .ok leaf ∧
      leaf.resize layout.maxBytesPerLeaf = .ok leaf' ∧ leaf'.data = .ok p.asRef := by
  obtain ⟨d, hs, hl, hr, hsize, leaf, hnew, hb⟩ := serializeLeafNodeOptimized_block hbs hp hpre hn
  have hlt : leaf.block.length < 2 ^ 32 := by
    rw [hb, Data.length_asRef, hl]; exact layout.blockSizeBytes_lt
  have hmbl : leaf.block.length - node.dataOffset = layout.maxBytesPerLeaf := by
    rw [hb, Data.length_asRef, hl]; rfl
  have hnum : leaf.numBytes = numBytes := by rw [DataLeafNode.numBytes, hb, hsize]
  have hset : (leaf.setNumBytes layout.maxBytesPerLeaf).block =
      [0, 0, 0, 0] ++ (encodeLE 4 layout.maxBytesPerLeaf ++ p.asRef) := by
    rw [DataLeafNode.setNumBytes_block, hb, hr, Field.set_middle rfl (length_encodeLE 4 _)]; rfl
  refine ⟨d, leaf, leaf.setNumBytes layout.maxBytesPerLeaf, hs, hnew, ?_, ?_⟩
  · simp [DataLeafNode.resize, DataLeafNode.maxBytesPerLeaf_eq hlt, hmbl, hnum, Nat.not_lt.2 hn]
  · have hmax := layout.maxBytesPerLeaf_lt
    have hget : (leaf.setNumBytes layout.maxBytesPerLeaf).numBytes = layout.maxBytesPerLeaf := by
      rw [DataLeafNode.numBytes, hset, Field.get_middle rfl (length_encodeLE 4 _)]
      simp only [Field.decode, node.size, decodeLE_encodeLE]; simp; omega
    rw [DataLeafNode.data, hget, hset, slice_eq_ok (Nat.zero_le _) (by simp [node.dataOffset, hp])]
    simp [node.dataOffset, ← hp]

theorem serialized_leaf_grow_reveals_payload_tenBytes :
    ∃ d leaf leaf', serializeLeafNodeOptimized ⟨[9, 9, 9, 9, 9, 9, 9, 9, 3, 7], 8, 10, by decide,
        by decide⟩ 1 ⟨10, by decide⟩ = .ok d ∧
      DataLeafNode.new d.asRef ⟨10, by decide⟩ = .ok leaf ∧ leaf.resize 2 = .ok leaf' ∧
      leaf'.data = .ok [3, 7] :=
  serialized_leaf_grow_reveals_payload (by decide) (by decide) (by decide) (by decide)

end Cryfs
