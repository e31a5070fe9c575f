import Cryfs.Utils.Num

/-!
# `subslices`

`subslices(arr, first_block_size, block_size)` cuts `arr` into a first block of the given
size and then, `div_ceil(rest, block_size)` times, splits `min(block_size, tail.len())`
elements off the rest (`subslicesLoop`). Its loop is `chunksOf` with an accumulator
(`subslicesLoop_eq`). With that many rounds the tail is used up, every tail block but the
last is full, and the last one is not empty (`subslices_spec`).
-/

namespace Cryfs

variable {α : Type}

/-- The loop of `subslices`, run `count` times over `(tail, blocks)`. -/
def subslicesLoop (blockSize : Nat) : Nat → List α → List (List α) → List α × List (List α)
  | 0, tail, blocks => (tail, blocks)
  | count + 1, tail, blocks =>
    let splitIndex := min blockSize tail.length
    subslicesLoop blockSize count (tail.drop splitIndex) (blocks ++ [tail.take splitIndex])

def subslices (arr : List α) (firstBlockSize blockSize : Nat) : Res (List (List α)) := do
  let len := arr.length
  assert (firstBlockSize ≤ len) s!"first_block_size == {firstBlockSize} > {len} == arr.len()"
  let firstBlock := arr.take firstBlockSize
  let tail := arr.drop firstBlockSize
  let numTailBlocks ← divCeil tail.length blockSize
  let (_, blocks) := subslicesLoop blockSize numTailBlocks tail [firstBlock]
  pure blocks

/-- `count` blocks of `blockSize` elements from the front of `xs`. -/
def chunksOf (blockSize : Nat) : Nat → List α → List (List α)
  | 0, _ => []
  | count + 1, xs => xs.take blockSize :: chunksOf blockSize count (xs.drop blockSize)

theorem take_min_length (xs : List α) (n : Nat) : xs.take (min n xs.length) = xs.take n := by
  rcases le_total n xs.length with h | h
  · rw [Nat.min_eq_left h]
  · rw [Nat.min_eq_right h, List.take_length, List.take_of_length_le h]

theorem drop_min_length (xs : List α) (n : Nat) : xs.drop (min n xs.length) = xs.drop n := by
  rcases le_total n xs.length with h | h
  · rw [Nat.min_eq_left h]
  · rw [Nat.min_eq_right h, List.drop_length, List.drop_eq_nil_of_le h]

theorem subslicesLoop_eq (blockSize count : Nat) (tail : List α) (blocks : List (List α)) :
    subslicesLoop blockSize count tail blocks =
      (tail.drop (count * blockSize), blocks ++ chunksOf blockSize count tail) := by
  induction count generalizing tail blocks with
  | zero => simp [subslicesLoop, chunksOf]
  | succ count ih =>
    simp only [subslicesLoop, take_min_length, drop_min_length, ih, List.drop_drop, chunksOf,
      List.append_assoc, List.singleton_append, Nat.succ_mul, Nat.add_comm blockSize]

@[simp] theorem length_chunksOf (blockSize count : Nat) (xs : List α) :
    (chunksOf blockSize count xs).length = count := by
  induction count generalizing xs <;> simp [chunksOf, *]

theorem flatten_chunksOf (blockSize count : Nat) (xs : List α) :
    (chunksOf blockSize count xs).flatten = xs.take (count * blockSize) := by
  induction count generalizing xs with
  | zero => simp [chunksOf]
  | succ count ih =>
    rw [chunksOf, List.flatten_cons, ih, Nat.succ_mul, Nat.add_comm, List.take_add]

/-- Chunk `j` is the `blockSize` elements from `j * blockSize` on, or what is left of them. -/
theorem length_getElem_chunksOf {blockSize count j : Nat} {xs : List α}
    (h : j < (chunksOf blockSize count xs).length) :
    (chunksOf blockSize count xs)[j].length = min blockSize (xs.length - j * blockSize) := by
  induction count generalizing j xs with
  | zero => simp at h
  | succ count ih =>
    cases j with
    | zero => simp [chunksOf]
    | succ j =>
      simp only [chunksOf, List.getElem_cons_succ]
      rw [ih (by simpa using h), List.length_drop, Nat.sub_sub, Nat.succ_mul, Nat.add_comm blockSize]

/-- With as many rounds as `xs` needs, all blocks but the last are full and the last is not
empty. -/
theorem chunksOf_lengths {blockSize : Nat} {count : Nat} {xs : List α}
    (hlo : count * blockSize < xs.length + blockSize) (hhi : xs.length ≤ count * blockSize)
    (hpos : 0 < xs.length) :
    (∀ b ∈ (chunksOf blockSize count xs).dropLast, b.length = blockSize) ∧
      ∀ b ∈ (chunksOf blockSize count xs).getLast?, 0 < b.length ∧ b.length ≤ blockSize := by
  induction count generalizing xs with
  | zero => omega
  | succ count ih =>
    rw [Nat.succ_mul] at hlo hhi
    rcases Nat.eq_zero_or_pos count with rfl | hc
    · simp [chunksOf]; omega
    · have hne : chunksOf blockSize count (xs.drop blockSize) ≠ [] := by
        rw [← List.length_pos, length_chunksOf]; exact hc
      have hfull : blockSize ≤ count * blockSize := Nat.le_mul_of_pos_left blockSize hc
      have hbs : blockSize ≤ xs.length := by omega
      obtain ⟨ih₁, ih₂⟩ := @ih (xs.drop blockSize) (by simp; omega) (by simp; omega)
        (by simp; omega)
      rw [chunksOf, List.dropLast_cons_of_ne_nil hne]
      refine ⟨?_, ?_⟩
      · simp only [List.mem_cons, forall_eq_or_imp, List.length_take, Nat.min_eq_left hbs]
        exact ⟨trivial, ih₁⟩
      · obtain ⟨c, cs, hcs⟩ := List.exists_cons_of_ne_nil hne
        rw [hcs] at ih₂ ⊢
        simpa using ih₂

/-- The number of rounds of `subslices`: `div_ceil(len, blockSize)`. -/
theorem ceil_bounds (len : Nat) {blockSize : Nat} (hb : 0 < blockSize) :
    (len + blockSize - 1) / blockSize * blockSize < len + blockSize ∧
      len ≤ (len + blockSize - 1) / blockSize * blockSize := by
  have h₁ := Nat.div_add_mod (len + blockSize - 1) blockSize
  have h₂ := Nat.mod_lt (len + blockSize - 1) hb
  rw [Nat.mul_comm] at h₁
  omega

theorem subslices_eq (arr : List α) {firstBlockSize blockSize : Nat}
    (hf : firstBlockSize ≤ arr.length) (hb : 0 < blockSize) :
    subslices arr firstBlockSize blockSize = .ok (arr.take firstBlockSize ::
      chunksOf blockSize ((arr.length - firstBlockSize + blockSize - 1) / blockSize)
        (arr.drop firstBlockSize)) := by
  simp [subslices, hf, divCeil_eq hb, subslicesLoop_eq]

theorem subslices_spec (arr : List α) {firstBlockSize blockSize : Nat}
    (hf : firstBlockSize ≤ arr.length) (hb : 0 < blockSize) :
    ∃ tailBlocks, subslices arr firstBlockSize blockSize = .ok (arr.take firstBlockSize :: tailBlocks) ∧
      (arr.take firstBlockSize).length = firstBlockSize ∧
      (arr.take firstBlockSize :: tailBlocks).flatten = arr ∧
      tailBlocks.length = (arr.length - firstBlockSize + blockSize - 1) / blockSize ∧
      (∀ b ∈ tailBlocks.dropLast, b.length = blockSize) ∧
      (∀ b ∈ tailBlocks.getLast?, 0 < b.length ∧ b.length ≤ blockSize) := by
  obtain ⟨hlo, hhi⟩ := ceil_bounds (arr.length - firstBlockSize) hb
  refine ⟨_, subslices_eq arr hf hb, by simp [hf], ?_, length_chunksOf _ _ _, ?_⟩
  · have htail : (arr.drop firstBlockSize).take
        ((arr.length - firstBlockSize + blockSize - 1) / blockSize * blockSize) =
          arr.drop firstBlockSize :=
      List.take_of_length_le (by rw [List.length_drop]; exact hhi)
    rw [List.flatten_cons, flatten_chunksOf, htail, List.take_append_drop]
  · rcases Nat.eq_zero_or_pos (arr.length - firstBlockSize) with h0 | hpos
    · rw [h0] at hlo ⊢
      have : (0 + blockSize - 1) / blockSize = 0 := Nat.div_eq_of_lt (by omega)
      rw [this, chunksOf]
      simp
    · exact chunksOf_lengths (by simpa using hlo) (by simpa using hhi) (by simpa using hpos)

theorem subslices_spec_fiveElems :
    ∃ tailBlocks, subslices [1, 2, 3, 4, 5] 2 2 = .ok ([1, 2] :: tailBlocks) ∧
      ([1, 2] : List Nat).length = 2 ∧ ([1, 2] :: tailBlocks).flatten = [1, 2, 3, 4, 5] ∧
      tailBlocks.length = (5 - 2 + 2 - 1) / 2 ∧
      (∀ b ∈ tailBlocks.dropLast, b.length = 2) ∧
      (∀ b ∈ tailBlocks.getLast?, 0 < b.length ∧ b.length ≤ 2) :=
  subslices_spec [1, 2, 3, 4, 5] (by decide) (by decide)

end Cryfs
