import Cryfs.Testutils.Subslices

/-!
# `DataFixture`

`DataFixture` (`utils/src/testutils/data_fixture.rs`) generates reproducible test data. Its
stream is cut into blocks of `BLOCK_SIZE = 2048` bytes; block `b` is what a `SmallRng` seeded
with `seed + b` fills in, where `seed` is derived from the fixture's seed in `new`.
`generate(offset, dest)` cuts `dest` with `subslices` along the block boundaries of
`[offset, offset + dest.len())` and fills each piece with `generate_block`.

`SmallRng` is the `rand` crate's generator, which is not part of this repository: the model
takes the two things the fixture asks of it as parameters (`SmallRng`) and the one property
the fixture relies on as a predicate (`SmallRng.PrefixStable`): `fill_bytes` into a buffer
whose length is a multiple of 8 writes a prefix of what it writes into any longer such
buffer. `generate_block` rounds its buffer up to a multiple of 8 for this reason.

Arithmetic on `u64` and `usize` panics on overflow (`checkedAdd`, `checkedSub`,
`checkedMul`), as in the debug builds the tests run in. The block seed
`self.seed + block_index as u64` is such a sum too: with a seed close to `u64::MAX` it
overflows at offsets far below `2^64` (`generate_blockSeed_overflow`).

The executable spec is `stream`: byte `i` is byte `i % 2048` of block `i / 2048`
(`streamByte`), with block seeds added modulo `2^64`. `generate_eq_stream` says that
`generate` writes exactly that stream whenever the seed of the last block it touches fits in a
`u64`; from it, generating in sections gives the bytes of generating at once, and `get` is
`generate` from offset 0.
-/

namespace Cryfs

/-- What `DataFixture` uses of `rand::rngs::SmallRng`. -/
structure SmallRng where
  /-- `SmallRng::seed_from_u64(seed).next_u64()`. -/
  nextU64 : UInt64 → UInt64
  /-- The bytes `SmallRng::seed_from_u64(seed).fill_bytes` writes into a buffer of `len`
  bytes. -/
  fillBytes : UInt64 → Nat → List UInt8
  length_fillBytes : ∀ seed len, (fillBytes seed len).length = len

attribute [simp] SmallRng.length_fillBytes

/-- `fill_bytes` into a buffer whose length is a multiple of 8 writes a prefix of what it
writes into any longer such buffer. -/
def SmallRng.PrefixStable (rng : SmallRng) : Prop :=
  ∀ seed m m', m % 8 = 0 → m' % 8 = 0 → m ≤ m' →
    rng.fillBytes seed m = (rng.fillBytes seed m').take m

structure DataFixture where
  seed : UInt64

namespace DataFixture

/-- `BLOCK_SIZE`. -/
def blockSize : Nat := 2 * 1024

@[simp] theorem blockSize_eq : blockSize = 2048 := rfl

/-! ## The code -/

section Code

variable (rng : SmallRng)

/-- `DataFixture::new`: the seed is run through the generator once. -/
def new (seed : UInt64) : DataFixture := ⟨rng.nextU64 seed⟩

/-- `DataFixture::generate_block`: the new contents of `dest`, the bytes
`[in_block_offset, in_block_offset + dest.len())` of block `block_index`. -/
def generateBlock (self : DataFixture) (blockIndex inBlockOffset : Nat) (dest : List UInt8) :
    Res (List UInt8) := do
  assert ((← checkedAdd inBlockOffset dest.length) ≤ blockSize)
    "assertion failed: in_block_offset + dest.len() <= BLOCK_SIZE"
  let seed ← checkedAdd self.seed.toNat blockIndex
  let blockSize ← checkedMul (← divCeil (← checkedAdd inBlockOffset dest.length) 8) 8
  let block := rng.fillBytes seed.toUInt64 blockSize
  copyFromSlice dest (← slice block inBlockOffset (← checkedAdd inBlockOffset dest.length))

/-- The closure `generate` runs on each `(relative_block_index, dest)` of the enumerated
subslices, with the values it captures. -/
def generateSubslice (self : DataFixture) (offset destLen blockIndexStart blockIndexEnd : Nat) :
    Nat × List UInt8 → Res (List UInt8)
  | (relativeBlockIndex, dest) => do
  let blockIndex ← checkedAdd blockIndexStart relativeBlockIndex
  let blockOffset ← checkedMul blockIndex blockSize
  let inBlockOffset ← if blockIndex = blockIndexStart then checkedSub offset blockOffset
    else do
      assert (blockOffset ≥ offset) "assertion failed: block_offset as u64 >= offset"
      pure 0
  let inBlockEnd ← if blockIndex = (← checkedSub blockIndexEnd 1) then
      checkedSub (← checkedAdd offset destLen) blockOffset
    else do
      assert ((← checkedAdd blockOffset blockSize) ≤ (← checkedAdd offset destLen))
        "assertion failed: block_offset as u64 + BLOCK_SIZE as u64 <= offset + dest_len as u64"
      pure blockSize
  let inBlockSize ← checkedSub inBlockEnd inBlockOffset
  let left := dest.length
  let right := inBlockSize
  assert (left = right) s!"assertion `left == right` failed\n  left: {left}\n right: {right}"
  self.generateBlock rng blockIndex inBlockOffset dest

/-- `DataFixture::generate`: the new contents of `dest`. The subslices are consecutive and
cover `dest`, so `dest` ends up as the concatenation of what the closure writes into each. -/
def generate (self : DataFixture) (offset : Nat) (dest : List UInt8) : Res (List UInt8) :=
  if dest.length = 0 then pure dest else do
    let blockIndexStart := offset / blockSize
    let blockIndexEnd ← divCeil (← checkedAdd offset dest.length) blockSize
    let destLen := dest.length
    let firstBlockOffset := offset % blockSize
    let firstBlockSize := min (← checkedSub blockSize firstBlockOffset) dest.length
    let destSlices ← subslices dest firstBlockSize blockSize
    let written ← destSlices.enum.mapM
      (self.generateSubslice rng offset destLen blockIndexStart blockIndexEnd)
    pure written.flatten

/-- `DataFixture::get`. -/
def get (self : DataFixture) (size : Nat) : Res (List UInt8) :=
  self.generate rng 0 (List.replicate size 0)

end Code

/-! ## The stream -/

/-- Byte `i` of the fixture's stream: byte `i % BLOCK_SIZE` of the block that a `SmallRng`
seeded with `seed + i / BLOCK_SIZE` fills in. -/
def streamByte (rng : SmallRng) (seed : UInt64) (i : Nat) : UInt8 :=
  (rng.fillBytes (seed + (i / blockSize).toUInt64) blockSize).getD (i % blockSize) 0

/-- The `len` bytes of the stream from `offset` on. -/
def stream (rng : SmallRng) (seed : UInt64) (offset len : Nat) : List UInt8 :=
  (List.range len).map fun j => streamByte rng seed (offset + j)

/-- Generating `sections` one after the other at consecutive offsets from `offset` on, as the
sectioned test does, and concatenating what they become. -/
def generateSections (rng : SmallRng) (self : DataFixture) :
    Nat → List (List UInt8) → Res (List UInt8)
  | _, [] => pure []
  | offset, dest :: sections => do
    let written ← self.generate rng offset dest
    let rest ← generateSections rng self (offset + dest.length) sections
    pure (written ++ rest)

section Stream

variable (rng : SmallRng) (seed : UInt64)

@[simp] theorem length_stream (offset len : Nat) : (stream rng seed offset len).length = len := by
  simp [stream]

theorem getElem_stream {offset len j : Nat} (h : j < (stream rng seed offset len).length) :
    (stream rng seed offset len)[j] = streamByte rng seed (offset + j) := by
  simp [stream]

theorem stream_add (offset a b : Nat) :
    stream rng seed offset (a + b) = stream rng seed offset a ++ stream rng seed (offset + a) b := by
  simp [stream, List.range_add, Nat.add_assoc]

/-- Two pieces of the stream next to each other, or a piece and an empty one. -/
theorem stream_append {offset offset₂ len₁ len₂ : Nat} (h : len₂ = 0 ∨ offset₂ = offset + len₁) :
    stream rng seed offset len₁ ++ stream rng seed offset₂ len₂ =
      stream rng seed offset (len₁ + len₂) := by
  rcases h with rfl | rfl
  · simp [stream]
  · rw [stream_add]

/-- Inside one block the stream is a window of that block's bytes. -/
theorem stream_block {blockIndex inBlockOffset len : Nat} (h : inBlockOffset + len ≤ blockSize) :
    stream rng seed (blockIndex * blockSize + inBlockOffset) len =
      ((rng.fillBytes (seed + blockIndex.toUInt64) blockSize).drop inBlockOffset).take len := by
  rw [blockSize_eq] at *
  apply List.ext_getElem
  · simp; omega
  · intro j h₁ _
    rw [length_stream] at h₁
    have hdiv : (blockIndex * 2048 + inBlockOffset + j) / 2048 = blockIndex := by omega
    have hmod : (blockIndex * 2048 + inBlockOffset + j) % 2048 = inBlockOffset + j := by omega
    have hj : inBlockOffset + j < (rng.fillBytes (seed + blockIndex.toUInt64) 2048).length := by
      rw [SmallRng.length_fillBytes]; omega
    simp [stream, streamByte, ← Nat.add_assoc, hdiv, hmod, List.getElem?_eq_getElem hj]

end Stream

/-- A block seed that fits in a `u64` is the wrapped sum `stream` uses. -/
theorem toUInt64_toNat_add (a : UInt64) (b : Nat) : (a.toNat + b).toUInt64 = a + b.toUInt64 := by
  apply UInt64.eq_of_toBitVec_eq
  show BitVec.ofNat 64 (a.toNat + b) = a.toBitVec + BitVec.ofNat 64 b
  apply BitVec.eq_of_toNat_eq
  simp [BitVec.toNat_add, UInt64.toNat]

/-! ## `generate` writes the stream -/

section Generate

variable {rng : SmallRng} (hrng : rng.PrefixStable) (self : DataFixture)
include hrng

theorem generateBlock_eq {blockIndex inBlockOffset : Nat} {dest : List UInt8}
    (h : inBlockOffset + dest.length ≤ blockSize) (hseed : self.seed.toNat + blockIndex < 2 ^ 64) :
    self.generateBlock rng blockIndex inBlockOffset dest =
      .ok (stream rng self.seed (blockIndex * blockSize + inBlockOffset) dest.length) := by
  rw [blockSize_eq] at h
  have hlt : inBlockOffset + dest.length < 2 ^ 64 := by omega
  have hm8 : (inBlockOffset + dest.length + 8 - 1) / 8 * 8 < 2 ^ 64 := by omega
  have hm := hrng (self.seed + blockIndex.toUInt64) ((inBlockOffset + dest.length + 8 - 1) / 8 * 8)
    2048 (by omega) (by decide) (by omega)
  have hwindow : (((rng.fillBytes (self.seed + blockIndex.toUInt64) 2048).take
      ((inBlockOffset + dest.length + 8 - 1) / 8 * 8)).drop inBlockOffset).take
        (inBlockOffset + dest.length - inBlockOffset) =
      ((rng.fillBytes (self.seed + blockIndex.toUInt64) 2048).drop inBlockOffset).take
        dest.length := by
    rw [List.drop_take, List.take_take, Nat.add_sub_cancel_left, Nat.min_eq_left (by omega)]
  rw [stream_block rng self.seed (by rw [blockSize_eq]; exact h)]
  simp only [generateBlock, checkedAdd_of_lt hlt, checkedAdd_of_lt hseed, toUInt64_toNat_add,
    ok_bind, blockSize_eq, assert_of h, divCeil_eq (show 0 < 8 by decide), checkedMul_of_lt hm8, hm]
  rw [slice_eq_ok (by omega) (by simp; omega), ok_bind, hwindow,
    copyFromSlice_of_length (by simp; omega)]

/-- Subslice `j` covers the part of block `offset / 2048 + j` inside
`[offset, offset + destLen)`, and the closure fills it with that part of the stream. -/
theorem generateSubslice_eq {offset destLen blockIndexEnd : Nat}
    (hn : offset + destLen < 2 ^ 64) (he : blockIndexEnd = (offset + destLen + 2048 - 1) / 2048)
    (hseed : self.seed.toNat + (offset + destLen - 1) / 2048 < 2 ^ 64) (j : Nat) (dest : List UInt8)
    (hj : (offset / 2048 + j) * 2048 < offset + destLen)
    (hlen : dest.length = min ((offset / 2048 + j) * 2048 + 2048) (offset + destLen) -
      max ((offset / 2048 + j) * 2048) offset) :
    self.generateSubslice rng offset destLen (offset / blockSize) blockIndexEnd (j, dest) =
      .ok (stream rng self.seed (max ((offset / 2048 + j) * 2048) offset) dest.length) := by
  -- the block is the last one exactly when the range ends inside it
  have hlastIff : offset / 2048 + j = blockIndexEnd - 1 ↔
      offset + destLen ≤ (offset / 2048 + j) * 2048 + 2048 := by clear hlen hseed; omega
  have hend1 : 1 ≤ blockIndexEnd := by clear hlen hseed; omega
  have hblock : self.seed.toNat + (offset / 2048 + j) < 2 ^ 64 := by clear hlen he; omega
  clear he hseed
  simp -zeta only [generateSubslice, blockSize_eq,
    checkedAdd_of_lt (show offset / 2048 + j < 2 ^ 64 by omega),
    checkedMul_of_lt (show (offset / 2048 + j) * 2048 < 2 ^ 64 by omega), ok_bind]
  lift_lets
  intro left afterOffset
  -- both branches of each `if` continue in the same join point
  have hoffset : ∀ a, a = max ((offset / 2048 + j) * 2048) offset - (offset / 2048 + j) * 2048 →
      afterOffset a =
        .ok (stream rng self.seed (max ((offset / 2048 + j) * 2048) offset) dest.length) := by
    intro a ha
    simp -zeta only [afterOffset, checkedSub_of_le hend1, ok_bind]
    lift_lets
    intro afterEnd
    have hend : ∀ z, z = min ((offset / 2048 + j) * 2048 + 2048) (offset + destLen) -
        (offset / 2048 + j) * 2048 → afterEnd z =
          .ok (stream rng self.seed (max ((offset / 2048 + j) * 2048) offset) dest.length) := by
      intro z hz
      clear hlastIff
      simp only [afterEnd, checkedSub_of_le (show a ≤ z by omega), ok_bind,
        assert_of (show dest.length = z - a by omega)]
      rw [generateBlock_eq hrng self (by rw [blockSize_eq]; omega) hblock, blockSize_eq]
      congr 2
      omega
    split_ifs with hlast
    · rw [hlastIff] at hlast
      simp only [checkedAdd_of_lt hn, ok_bind,
        checkedSub_of_le (show (offset / 2048 + j) * 2048 ≤ offset + destLen by omega)]
      exact hend _ (by omega)
    · rw [hlastIff] at hlast
      simp only [checkedAdd_of_lt hn, ok_bind, pure_bind,
        checkedAdd_of_lt (show (offset / 2048 + j) * 2048 + 2048 < 2 ^ 64 by omega),
        assert_of (show (offset / 2048 + j) * 2048 + 2048 ≤ offset + destLen by omega)]
      exact hend _ (by omega)
  split_ifs with hfirst
  · simp only [checkedSub_of_le (show (offset / 2048 + j) * 2048 ≤ offset by omega), ok_bind]
    exact hoffset _ (by omega)
  · simp only [assert_of (show (offset / 2048 + j) * 2048 ≥ offset by omega), ok_bind, pure_bind]
    exact hoffset _ (by omega)

/-- The loop over the tail subslices: the chunks from block `offset / 2048 + j` on are filled
with the stream from that block's start. -/
theorem mapM_generateSubslice_chunksOf {offset destLen blockIndexEnd : Nat}
    (hn : offset + destLen < 2 ^ 64) (he : blockIndexEnd = (offset + destLen + 2048 - 1) / 2048)
    (hseed : self.seed.toNat + (offset + destLen - 1) / 2048 < 2 ^ 64) (m j : Nat) (xs : List UInt8)
    (hstart : offset ≤ (offset / 2048 + j) * 2048)
    (hend : xs.length = 0 ∨ (offset / 2048 + j) * 2048 + xs.length = offset + destLen)
    (hlo : m * 2048 < xs.length + 2048) (hhi : xs.length ≤ m * 2048) :
    ∃ ws, ((chunksOf blockSize m xs).enumFrom j).mapM
        (self.generateSubslice rng offset destLen (offset / blockSize) blockIndexEnd) = .ok ws ∧
      ws.flatten = stream rng self.seed ((offset / 2048 + j) * 2048) xs.length := by
  induction m generalizing j xs with
  | zero => exact ⟨[], rfl, by rw [Nat.eq_zero_of_le_zero hhi]; rfl⟩
  | succ m ih =>
    have hd : (xs.drop blockSize).length = xs.length - 2048 := by rw [List.length_drop, blockSize_eq]
    have ht : (xs.take blockSize).length = min 2048 xs.length := by
      rw [List.length_take, blockSize_eq]
    obtain ⟨ws, hws, hflat⟩ :=
      ih (j + 1) (xs.drop blockSize) (by omega) (by omega) (by omega) (by omega)
    have hhead := generateSubslice_eq hrng self hn he hseed j (xs.take blockSize) (by omega) (by omega)
    rw [Nat.max_eq_left hstart] at hhead
    refine ⟨_ :: ws, by rw [chunksOf, List.enumFrom_cons, List.mapM_cons, hhead, hws]; rfl, ?_⟩
    rw [List.flatten_cons, hflat, stream_append rng self.seed (by omega)]
    congr 1
    omega

theorem generate_eq_stream (offset : Nat) (dest : List UInt8) (h : offset + dest.length < 2 ^ 64)
    (hseed : self.seed.toNat + (offset + dest.length - 1) / 2048 < 2 ^ 64) :
    self.generate rng offset dest = .ok (stream rng self.seed offset dest.length) := by
  unfold generate
  split
  · rename_i h0
    rw [List.length_eq_zero.mp h0]
    rfl
  · have hfirst : min (2048 - offset % 2048) dest.length ≤ dest.length := Nat.min_le_right _ _
    obtain ⟨hlo, hhi⟩ := ceil_bounds (dest.length - min (2048 - offset % 2048) dest.length)
      (show 0 < 2048 by decide)
    have hd := List.length_drop (min (2048 - offset % 2048) dest.length) dest
    have ht := List.length_take (min (2048 - offset % 2048) dest.length) dest
    obtain ⟨ws, hws, hflat⟩ := mapM_generateSubslice_chunksOf hrng self h rfl hseed
      ((dest.length - min (2048 - offset % 2048) dest.length + 2048 - 1) / 2048) 1
      (dest.drop (min (2048 - offset % 2048) dest.length)) (by omega) (by omega)
      (by rw [hd]; exact hlo) (by rw [hd]; exact hhi)
    have hhead := generateSubslice_eq hrng self h rfl hseed 0
      (dest.take (min (2048 - offset % 2048) dest.length)) (by omega) (by omega)
    simp only [blockSize_eq] at hws hhead
    simp only [checkedAdd_of_lt h, ok_bind, blockSize_eq, divCeil_eq (show 0 < 2048 by decide),
      checkedSub_of_le (Nat.mod_lt offset (show 0 < 2048 by decide)).le,
      subslices_eq dest hfirst (show 0 < 2048 by decide), List.enum_cons, List.mapM_cons, hhead,
      hws, pure_bind, pure_eq_ok]
    rw [List.flatten_cons, hflat, stream_append rng self.seed (by omega)]
    congr 1 <;> omega

theorem generateSections_eq (offset : Nat) (sections : List (List UInt8))
    (h : offset + sections.flatten.length < 2 ^ 64)
    (hseed : self.seed.toNat + (offset + sections.flatten.length - 1) / 2048 < 2 ^ 64) :
    generateSections rng self offset sections =
      .ok (stream rng self.seed offset sections.flatten.length) := by
  induction sections generalizing offset with
  | nil => rfl
  | cons dest sections ih =>
    rw [List.flatten_cons, List.length_append] at h hseed ⊢
    simp only [generateSections, generate_eq_stream hrng self offset dest (by omega) (by omega),
      ih (offset + dest.length) (by omega) (by omega), ok_bind, stream_add]
    rfl

theorem get_eq (size : Nat) (h : size < 2 ^ 64)
    (hseed : self.seed.toNat + (size - 1) / 2048 < 2 ^ 64) :
    self.get rng size = .ok (stream rng self.seed 0 size) := by
  simpa using generate_eq_stream hrng self 0 (List.replicate size 0) (by simpa using h)
    (by simpa using hseed)

end Generate

/-! ## The fixture's properties -/

/-- A generator whose block for seed `s` counts up from `s`, for the concrete instances below. -/
def countingRng : SmallRng where
  nextU64 := id
  fillBytes s len := (List.range len).map fun i => (s.toNat + i).toUInt8
  length_fillBytes _ _ := by simp

theorem countingRng_prefixStable : countingRng.PrefixStable := by
  intro seed m m' _ _ hle
  simp [countingRng, ← List.map_take, List.take_range, Nat.min_eq_left hle]

/-- The subslices `generate` cuts `dest` into are one per block that
`[offset, offset + dest.len())` touches: there are `block_index_end - block_index_start` of
them, and subslice `i` is as long as the part of block `block_index_start + i` inside the
range. -/
theorem generate_subslices {offset : Nat} {dest : List UInt8} (hn : 0 < dest.length) :
    ∃ destSlices, subslices dest (min (blockSize - offset % blockSize) dest.length) blockSize =
        .ok destSlices ∧
      destSlices.length = (offset + dest.length + blockSize - 1) / blockSize - offset / blockSize ∧
      ∀ i (hi : i < destSlices.length), destSlices[i].length =
        min ((offset / blockSize + i) * blockSize + blockSize) (offset + dest.length) -
          max ((offset / blockSize + i) * blockSize) offset := by
  simp only [blockSize_eq]
  have hfirst : min (2048 - offset % 2048) dest.length ≤ dest.length := Nat.min_le_right _ _
  refine ⟨_, subslices_eq dest hfirst (by decide), ?_, fun i hi => ?_⟩
  · simp only [List.length_cons, length_chunksOf]
    omega
  · cases i with
    | zero => simp only [List.getElem_cons_zero, List.length_take]; omega
    | succ j =>
      simp only [List.getElem_cons_succ]
      rw [length_getElem_chunksOf, List.length_drop]
      simp only [List.length_cons, length_chunksOf] at hi
      omega

theorem generate_subslices_crossing :
    0 < ([0, 0, 0] : List UInt8).length ∧
      ∃ destSlices, subslices ([0, 0, 0] : List UInt8) (min (blockSize - 2047 % blockSize) 3) blockSize =
          .ok destSlices ∧
        destSlices.length = (2047 + 3 + blockSize - 1) / blockSize - 2047 / blockSize ∧
        ∀ i (hi : i < destSlices.length), destSlices[i].length =
          min ((2047 / blockSize + i) * blockSize + blockSize) (2047 + 3) -
            max ((2047 / blockSize + i) * blockSize) 2047 :=
  ⟨by decide, generate_subslices (by decide)⟩

/-- The fixture jumps around in its stream: two `generate` calls whose blocks' seeds fit in a
`u64` write the same byte wherever their ranges overlap. -/
theorem generate_agree_on_overlap {rng : SmallRng} (hrng : rng.PrefixStable)
    (self : DataFixture) {offset offset' : Nat} {dest dest' : List UInt8}
    (h : offset + dest.length < 2 ^ 64) (h' : offset' + dest'.length < 2 ^ 64)
    (hseed : self.seed.toNat + (offset + dest.length - 1) / 2048 < 2 ^ 64)
    (hseed' : self.seed.toNat + (offset' + dest'.length - 1) / 2048 < 2 ^ 64) :
    ∃ out out', self.generate rng offset dest = .ok out ∧
      self.generate rng offset' dest' = .ok out' ∧
      ∀ i, offset ≤ i → i < offset + dest.length → offset' ≤ i → i < offset' + dest'.length →
        out[i - offset]? = out'[i - offset']? := by
  refine ⟨_, _, generate_eq_stream hrng self offset dest h hseed,
    generate_eq_stream hrng self offset' dest' h' hseed', fun i h₁ h₂ h₃ h₄ => ?_⟩
  rw [List.getElem?_eq_getElem (by simp; omega), List.getElem?_eq_getElem (by simp; omega),
    getElem_stream, getElem_stream, Nat.add_sub_cancel' h₁, Nat.add_sub_cancel' h₃]

theorem generate_agree_on_overlap_countingRng :
    ∃ out out', (new countingRng 0).generate countingRng 2047 [0, 0] = .ok out ∧
      (new countingRng 0).generate countingRng 2048 [0] = .ok out' ∧
      ∀ i, 2047 ≤ i → i < 2047 + 2 → 2048 ≤ i → i < 2048 + 1 → out[i - 2047]? = out'[i - 2048]? :=
  generate_agree_on_overlap countingRng_prefixStable _ (by decide) (by decide) (by decide)
    (by decide)

/-- `generate` at any offset whose blocks' seeds fit in a `u64` fills `dest` with the stream of
the seed `new` derives; in sections it writes the same bytes, and `get` is `generate` from
offset 0. -/
theorem generate_spec (rng : SmallRng) (hrng : rng.PrefixStable) (seed : UInt64) (offset : Nat)
    (dest : List UInt8) (sections : List (List UInt8)) (h : offset + dest.length < 2 ^ 64)
    (hseed : (rng.nextU64 seed).toNat + (offset + dest.length - 1) / 2048 < 2 ^ 64)
    (hs : sections.flatten.length = dest.length) :
    ∃ out, (new rng seed).generate rng offset dest = .ok out ∧ out.length = dest.length ∧
      (∀ j (hj : j < out.length), out[j] = streamByte rng (rng.nextU64 seed) (offset + j)) ∧
      generateSections rng (new rng seed) offset sections = .ok out ∧
      (new rng seed).get rng dest.length = (new rng seed).generate rng 0 dest := by
  refine ⟨_, generate_eq_stream hrng _ offset dest h hseed, length_stream _ _ _ _,
    fun j hj => getElem_stream _ _ hj, ?_, ?_⟩
  · rw [generateSections_eq hrng _ offset sections (by omega) (by simpa [new, hs] using hseed), hs]
  · have hseed0 : (new rng seed).seed.toNat + (0 + dest.length - 1) / 2048 < 2 ^ 64 := by
      simp only [new]; omega
    rw [get_eq hrng _ _ (by omega) (by simpa using hseed0),
      generate_eq_stream hrng _ 0 dest (by omega) hseed0]

theorem generate_spec_blockBoundary :
    ∃ out, (new countingRng 0).generate countingRng 2047 [0, 0] = .ok out ∧ out.length = 2 ∧
      (∀ j (hj : j < out.length),
        out[j] = streamByte countingRng (countingRng.nextU64 0) (2047 + j)) ∧
      generateSections countingRng (new countingRng 0) 2047 [[0], [0]] = .ok out ∧
      (new countingRng 0).get countingRng 2 = (new countingRng 0).generate countingRng 0 [0, 0] :=
  generate_spec countingRng countingRng_prefixStable 0 2047 [0, 0] [[0], [0]] (by decide)
    (by decide) (by decide)

/-- The block seed overflows: `DataFixture::new(256)` with the `rand` crate's `SmallRng` has the
seed `18444863051885560871`, and at offset `3852332695533045760` (below `2^64`) the seed of the
first block, `self.seed + block_index as u64`, is `2^64`, so `generate` panics in a debug build. -/
theorem generate_blockSeed_overflow (rng : SmallRng) :
    (⟨18444863051885560871⟩ : DataFixture).generate rng 3852332695533045760 [0] =
      .error (.panic "attempt to add with overflow") := rfl

end DataFixture

end Cryfs
