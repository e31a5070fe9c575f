import Cryfs.Data.Data

/-!
# `GrowableData`: the reserve in the type

`GrowableData p s` wraps a `Data` and promises, in its type, `p` bytes of prefix and `s`
bytes of suffix reserve. `into_subregion::<A, B>` moves the promise to `p + A, s + B`, and
`grow_region::<A, B>` to `p - A, s - B`; the latter only type-checks when `A ≤ p` and
`B ≤ s` (typenum has no negative unsigned numbers), which is why those two facts are
arguments of `growRegion`.

`Calls p s` is any chain of calls the type checker accepts from `GrowableData p s`, and
`run` executes it. Along every run from `From<Vec<u8>>` or a successful `TryFrom<Data>` the
wrapped `Data` has exactly the promised reserve (`Exact`), so the assertions of
`_check_invariant` and the `expect` of `grow_region` are unreachable
(`run_ok_of_exact`), and the visible bytes are the window `[p, N - s)` of the original
allocation of `N` bytes.
-/

namespace Cryfs

/-- `GrowableData<PrefixBytes, SuffixBytes>`. -/
structure GrowableData (prefixBytes suffixBytes : Nat) where
  data : Data

namespace GrowableData

variable {p s : Nat}

/-- `available_prefix_bytes()` reads the type, not the data. -/
def availablePrefixBytes (_ : GrowableData p s) : Nat := p

def availableSuffixBytes (_ : GrowableData p s) : Nat := s

def len (g : GrowableData p s) : Nat := g.data.len

def asRef (g : GrowableData p s) : List UInt8 := g.data.asRef

def extract (g : GrowableData p s) : Data := g.data

/-- `_check_invariant`: the data has at least the reserve the type promises. -/
def checkInvariant (g : GrowableData p s) : Res Unit := do
  assert (p ≤ g.data.availablePrefixBytes)
    "assertion failed: self.data.available_prefix_bytes() >= PrefixBytes::USIZE"
  assert (s ≤ g.data.availableSuffixBytes)
    "assertion failed: self.data.available_suffix_bytes() >= SuffixBytes::USIZE"

/-- `into_subregion::<deleteAtBeginning, deleteAtEnd>()`. -/
def intoSubregion (deleteAtBeginning deleteAtEnd : Nat) (g : GrowableData p s) :
    Res (GrowableData (p + deleteAtBeginning) (s + deleteAtEnd)) := do
  let len := g.data.len
  assert (deleteAtBeginning + deleteAtEnd ≤ len)
    s!"Tried to delete {deleteAtBeginning} + {deleteAtEnd} bytes from a data region with size {len}"
  let data ← g.data.shrinkToSubregion deleteAtBeginning (len - deleteAtEnd)
  let result : GrowableData (p + deleteAtBeginning) (s + deleteAtEnd) := ⟨data⟩
  result.checkInvariant
  pure result

/-- `grow_region::<addAtBeginning, addAtEnd>()`; `ha` and `hb` are the `Sub` bounds of its
`where` clause. -/
def growRegion (addAtBeginning addAtEnd : Nat) (g : GrowableData p s)
    (_ha : addAtBeginning ≤ p) (_hb : addAtEnd ≤ s) :
    Res (GrowableData (p - addAtBeginning) (s - addAtEnd)) := do
  match g.data.growRegionFailIfReallocationNecessary addAtBeginning addAtEnd with
  | .error _ => .error (.panic
      "This can\x27t happen since our type should enforce that there are enough bytes available")
  | .ok data =>
    let result : GrowableData (p - addAtBeginning) (s - addAtEnd) := ⟨data⟩
    result.checkInvariant
    pure result

/-- `From<Vec<u8>>`. -/
def ofVec (v : List UInt8) : GrowableData 0 0 := ⟨Data.ofVec v⟩

/-- `TryFrom<Data>`: the reserve must be exactly the promised one. -/
def tryFrom (data : Data) : Res (GrowableData p s) := do
  let dp := data.availablePrefixBytes
  let ds := data.availableSuffixBytes
  ensure (dp = p) s!"The given data object has {dp} prefix bytes available, but we tried to convert it into a GrowableData requiring {p} prefix bytes"
  ensure (ds = s) s!"The given data object has {ds} suffix bytes available, but we tried to convert it into a GrowableData requiring {s} suffix bytes"
  pure ⟨data⟩

/-! ## The invariant -/

/-- The wrapped `Data` has exactly the reserve of the type. -/
structure Exact (g : GrowableData p s) : Prop where
  prefix_eq : g.data.availablePrefixBytes = p
  suffix_eq : g.data.availableSuffixBytes = s

theorem checkInvariant_of_exact {g : GrowableData p s} (h : g.Exact) : g.checkInvariant = .ok () := by
  simp [checkInvariant, h.prefix_eq, h.suffix_eq]

theorem ofVec_exact (v : List UInt8) : (ofVec v).Exact := ⟨rfl, Data.ofVec_availableSuffixBytes v⟩

theorem tryFrom_eq_ok {data : Data} {g : GrowableData p s} :
    tryFrom data = .ok g ↔
      data.availablePrefixBytes = p ∧ data.availableSuffixBytes = s ∧ g.data = data := by
  by_cases hp : data.availablePrefixBytes = p
  · by_cases hs : data.availableSuffixBytes = s
    · simp only [tryFrom, ensure_of hp, ensure_of hs, hp, hs, true_and]
      constructor
      · rintro ⟨⟩; rfl
      · intro h; cases g; cases h; rfl
    · simp [tryFrom, hp, hs]
  · simp [tryFrom, hp]

theorem tryFrom_exact {data : Data} {g : GrowableData p s} (h : tryFrom data = .ok g) : g.Exact :=
  have h := tryFrom_eq_ok.1 h
  ⟨h.2.2 ▸ h.1, h.2.2 ▸ h.2.1⟩

/-- One `into_subregion` from an exact value: it returns, keeps the allocation and moves
the visible window inwards. -/
theorem intoSubregion_spec {g : GrowableData p s} (h : g.Exact) {a b : Nat} (hab : a + b ≤ g.len) :
    ∃ g', g.intoSubregion a b = .ok g' ∧ g'.Exact ∧ g'.data.storage = g.data.storage ∧
      g'.len = g.len - (a + b) := by
  obtain ⟨d, hd, hst, hsa, hso⟩ :=
    Data.shrinkToSubregion_spec (show a ≤ g.data.len - b by simp only [len] at hab; omega)
      (Nat.sub_le g.data.len b)
  have := g.data.start_le_stop; have := g.data.stop_le_length
  have hp := h.prefix_eq; have hs := h.suffix_eq
  simp only [len, Data.len, Data.availablePrefixBytes, Data.availableSuffixBytes] at hab hp hs hso
  have hex : (⟨d⟩ : GrowableData (p + a) (s + b)).Exact :=
    ⟨by simp only [Data.availablePrefixBytes]; omega,
      by simp only [Data.availableSuffixBytes, hst, hso]; omega⟩
  refine ⟨⟨d⟩, ?_, hex, hst, ?_⟩
  · have hab' : a + b ≤ g.data.len := hab
    simp [intoSubregion, hab', hd, checkInvariant_of_exact hex]
  · simp only [len, Data.len, hsa, hso]; omega

/-- One `grow_region` from an exact value: the reserve is there, so it does not reallocate
and the `expect` does not fire. -/
theorem growRegion_spec {g : GrowableData p s} (h : g.Exact) {a b : Nat} (ha : a ≤ p) (hb : b ≤ s) :
    ∃ g', g.growRegion a b ha hb = .ok g' ∧ g'.Exact ∧ g'.data.storage = g.data.storage ∧
      g'.len = g.len + (a + b) := by
  obtain ⟨d, hd, hst, hsa, hso⟩ :=
    Data.growRegion_spec (d := g.data) (h.prefix_eq ▸ ha) (h.suffix_eq ▸ hb)
  have := g.data.start_le_stop; have := g.data.stop_le_length
  have hp := h.prefix_eq; have hs := h.suffix_eq
  simp only [Data.availablePrefixBytes, Data.availableSuffixBytes] at hp hs
  have hex : (⟨d⟩ : GrowableData (p - a) (s - b)).Exact :=
    ⟨by simp only [Data.availablePrefixBytes]; omega,
      by simp only [Data.availableSuffixBytes, hst, hso]; omega⟩
  refine ⟨⟨d⟩, ?_, hex, hst, ?_⟩
  · simp [growRegion, hd, checkInvariant_of_exact hex]
  · simp only [len, Data.len, hsa, hso]; omega

/-- An exact value shows the window `[p, N - s)` of its allocation of `N` bytes. -/
theorem asRef_of_exact {g : GrowableData p s} (h : g.Exact) :
    g.asRef = (g.data.storage.drop p).take (g.data.storage.length - s - p) ∧
      g.data.storage.length = p + g.len + s := by
  have hl := g.data.length_storage
  have hp := h.prefix_eq; have hs := h.suffix_eq
  have := g.data.start_le_stop; have := g.data.stop_le_length
  simp only [Data.availablePrefixBytes, Data.availableSuffixBytes] at hp hs hl
  refine ⟨?_, by simp only [len]; omega⟩
  simp only [asRef, Data.asRef, Data.len, hp]
  congr 1; omega

/-- Two exact values with the same reserve and allocation wrap the same `Data`. -/
theorem Exact.data_eq {p' s' : Nat} {g : GrowableData p s} {g' : GrowableData p' s'} (h : g.Exact)
    (h' : g'.Exact) (hp : p = p') (hs : s = s') (hst : g.data.storage = g'.data.storage) :
    g.data = g'.data := by
  have := h.prefix_eq; have := h.suffix_eq; have := h'.prefix_eq; have := h'.suffix_eq
  have := g.data.stop_le_length; have := g'.data.stop_le_length
  simp only [Data.availablePrefixBytes, Data.availableSuffixBytes] at *
  exact Data.ext hst (by omega) (by rw [hst] at *; omega)

/-- `grow_region::<A, B>` undoes `into_subregion::<A, B>`: the two calls give back the
`Data` they started from. -/
theorem growRegion_intoSubregion {g : GrowableData p s} (h : g.Exact) {a b : Nat}
    (hab : a + b ≤ g.len) :
    ∃ g₁ g₂, g.intoSubregion a b = .ok g₁ ∧
      g₁.growRegion a b (Nat.le_add_left a p) (Nat.le_add_left b s) = .ok g₂ ∧
      g₂.data = g.data := by
  obtain ⟨g₁, h₁, hex₁, hst₁, -⟩ := intoSubregion_spec h hab
  obtain ⟨g₂, h₂, hex₂, hst₂, -⟩ :=
    growRegion_spec hex₁ (Nat.le_add_left a p) (Nat.le_add_left b s)
  exact ⟨g₁, g₂, h₁, h₂, hex₂.data_eq h (Nat.add_sub_cancel p a) (Nat.add_sub_cancel s b)
    (hst₂.trans hst₁)⟩

theorem growRegion_intoSubregion_ofVec :
    (ofVec [1, 2, 3, 4]).Exact ∧ 1 + 2 ≤ (ofVec [1, 2, 3, 4]).len ∧
      ∃ g₁ g₂, (ofVec [1, 2, 3, 4]).intoSubregion 1 2 = .ok g₁ ∧
        g₁.growRegion 1 2 (Nat.le_add_left 1 0) (Nat.le_add_left 2 0) = .ok g₂ ∧
        g₂.data = (ofVec [1, 2, 3, 4]).data :=
  ⟨ofVec_exact _, by decide, growRegion_intoSubregion (ofVec_exact _) (by decide)⟩

theorem tryFrom_extract {g : GrowableData p s} (h : g.Exact) : tryFrom g.extract = .ok g :=
  tryFrom_eq_ok.2 ⟨h.prefix_eq, h.suffix_eq, rfl⟩

/-! ## Chains of calls -/

/-- A chain of `into_subregion` and `grow_region` calls that type-checks from
`GrowableData p s`. -/
inductive Calls : Nat → Nat → Type
  | done {p s : Nat} : Calls p s
  | intoSubregion {p s : Nat} (a b : Nat) : Calls (p + a) (s + b) → Calls p s
  | growRegion {p s : Nat} (a b : Nat) (ha : a ≤ p) (hb : b ≤ s) :
      Calls (p - a) (s - b) → Calls p s

/-- The assertion of every `into_subregion` of the chain holds, from a value of length `len`. -/
def Calls.Fits : {p s : Nat} → Calls p s → Nat → Prop
  | _, _, .done, _ => True
  | _, _, .intoSubregion a b k, len => a + b ≤ len ∧ k.Fits (len - (a + b))
  | _, _, .growRegion a b _ _ k, len => k.Fits (len + (a + b))

/-- Executes a chain of calls; the result carries its type-level reserve. -/
def run : {p s : Nat} → GrowableData p s → Calls p s →
    Res ((p' : Nat) × (s' : Nat) × GrowableData p' s')
  | _, _, g, .done => .ok ⟨_, _, g⟩
  | _, _, g, .intoSubregion a b k => do run (← g.intoSubregion a b) k
  | _, _, g, .growRegion a b ha hb k => do run (← g.growRegion a b ha hb) k

/-- How a value that is handed to `run` was built. -/
inductive Built : {p s : Nat} → GrowableData p s → Prop
  | ofVec (v : List UInt8) : Built (ofVec v)
  | tryFrom {p s : Nat} {data : Data} {g : GrowableData p s} : tryFrom data = .ok g → Built g

theorem Built.exact {g : GrowableData p s} : Built g → g.Exact
  | .ofVec v => ofVec_exact v
  | .tryFrom h => tryFrom_exact h

/-- The run lemma: every fitting chain from an exact value returns, stays exact and keeps
the allocation. -/
theorem run_ok_of_exact {g : GrowableData p s} (h : g.Exact) (k : Calls p s) (hk : k.Fits g.len) :
    ∃ p' s' g', run g k = .ok ⟨p', s', g'⟩ ∧ g'.Exact ∧ g'.data.storage = g.data.storage := by
  induction k with
  | done => exact ⟨_, _, g, rfl, h, rfl⟩
  | intoSubregion a b k ih =>
    obtain ⟨g₁, h₁, hex, hst, hlen⟩ := intoSubregion_spec h hk.1
    obtain ⟨p', s', g', hr, hex', hst'⟩ := ih hex (hlen ▸ hk.2)
    exact ⟨p', s', g', by simp [run, h₁, hr], hex', hst'.trans hst⟩
  | growRegion a b ha hb k ih =>
    obtain ⟨g₁, h₁, hex, hst, hlen⟩ := growRegion_spec h ha hb
    obtain ⟨p', s', g', hr, hex', hst'⟩ := ih hex (hlen ▸ hk)
    exact ⟨p', s', g', by simp [run, h₁, hr], hex', hst'.trans hst⟩

theorem run_exact_window {g : GrowableData p s} (hg : Built g) (k : Calls p s)
    (hk : k.Fits g.len) :
    ∃ p' s' g', run g k = .ok ⟨p', s', g'⟩ ∧
      g'.data.availablePrefixBytes = p' ∧ g'.data.availableSuffixBytes = s' ∧
      g'.data.storage = g.data.storage ∧
      g'.asRef = (g.data.storage.drop p').take (g.data.storage.length - s' - p') ∧
      g.data.storage.length = p' + g'.len + s' := by
  obtain ⟨p', s', g', hr, hex, hst⟩ := run_ok_of_exact hg.exact k hk
  obtain ⟨hw, hn⟩ := asRef_of_exact hex
  exact ⟨p', s', g', hr, hex.prefix_eq, hex.suffix_eq, hst, hst ▸ hw, hst ▸ hn⟩

/-- Every value a fitting run reaches converts back from its `extract()`: `TryFrom<Data>`
accepts exactly the reserve the type promises. -/
theorem run_tryFrom_extract {g : GrowableData p s} (hg : Built g) (k : Calls p s)
    (hk : k.Fits g.len) :
    ∃ p' s' g', run g k = .ok ⟨p', s', g'⟩ ∧ tryFrom g'.extract = .ok g' := by
  obtain ⟨p', s', g', hr, hex, -⟩ := run_ok_of_exact hg.exact k hk
  exact ⟨p', s', g', hr, tryFrom_extract hex⟩

theorem run_tryFrom_extract_ofVec :
    ∃ p' s' g', run (ofVec [1, 2, 3, 4]) (.intoSubregion 2 1 .done) = .ok ⟨p', s', g'⟩ ∧
      tryFrom g'.extract = .ok g' :=
  run_tryFrom_extract (.ofVec _) _ ⟨by decide, trivial⟩

theorem run_exact_window_ofVec :
    ∃ p' s' g', run (ofVec [1, 2, 3, 4])
        (.intoSubregion 1 1 (.growRegion 1 0 (by decide) (by decide) .done)) = .ok ⟨p', s', g'⟩ ∧
      g'.data.availablePrefixBytes = p' ∧ g'.data.availableSuffixBytes = s' ∧
      g'.data.storage = [1, 2, 3, 4] ∧
      g'.asRef = ([1, 2, 3, 4].drop p').take (4 - s' - p') ∧
      4 = p' + g'.len + s' :=
  run_exact_window (.ofVec _) _ ⟨by decide, trivial⟩

end GrowableData

end Cryfs
