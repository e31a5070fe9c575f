import Cryfs.Utils.Bytes

/-!
# `Data`: a visible region of a byte allocation

A `Data` is an allocation `storage` of which only `[start, stop)` is visible; the bytes
before and after are the prefix and suffix reserve. Shrinking moves the bounds inwards and
growing moves them back out, so a header can be prepended to a payload without copying it.
Neither operation touches `storage`, and the bounds stay inside it, which is the spec's
invariant `storage.length = prefix + len + suffix` (`length_storage`).
-/

namespace Cryfs

/-- Modelled from the spec: `cryfs_utils::data::Data` is not among the sources. The spec
describes it as a byte region inside a larger allocation that tracks its prefix and suffix
reserve (the growable buffer of §4.1 wraps it, §9 "Reserve-bearing buffers"). -/
structure Data where
  storage : List UInt8
  start : Nat
  stop : Nat
  start_le_stop : start ≤ stop
  stop_le_length : stop ≤ storage.length

namespace Data

/-- `From<Vec<u8>>`: the whole vector is visible, no reserve. -/
def ofVec (v : List UInt8) : Data := ⟨v, 0, v.length, Nat.zero_le _, le_refl _⟩

def len (d : Data) : Nat := d.stop - d.start

def availablePrefixBytes (d : Data) : Nat := d.start

def availableSuffixBytes (d : Data) : Nat := d.storage.length - d.stop

/-- `as_ref()`: the visible bytes. -/
def asRef (d : Data) : List UInt8 := (d.storage.drop d.start).take d.len

/-- Modelled from the spec: `shrink_to_subregion(begin..end)`, with the bounds relative to
the visible region; a range outside it is a programmer error (an assertion). -/
def shrinkToSubregion (d : Data) (begin «end» : Nat) : Res Data :=
  if h : begin ≤ «end» ∧ «end» ≤ d.len then
    .ok ⟨d.storage, d.start + begin, d.start + «end», by omega,
      by have := d.start_le_stop; have := d.stop_le_length; simp only [len] at h; omega⟩
  else .error (.panic "Tried to shrink a Data object to a region outside of its bounds")

/-- Modelled from the spec: `grow_region_fail_if_reallocation_necessary(prepend, append)`
moves the bounds outwards into the reserve and fails, without reallocating, when the reserve
is too small. -/
def growRegionFailIfReallocationNecessary (d : Data) (prependBytes appendBytes : Nat) :
    Res Data :=
  if h : prependBytes ≤ d.availablePrefixBytes ∧ appendBytes ≤ d.availableSuffixBytes then
    .ok ⟨d.storage, d.start - prependBytes, d.stop + appendBytes,
      by have := d.start_le_stop; omega,
      by have := d.stop_le_length; simp only [availableSuffixBytes] at h; omega⟩
  else .error (.err "Tried to grow the data region but not enough prefix or suffix bytes available")

/-- `as_mut()[offset..offset + bytes.len()].copy_from_slice(bytes)`: overwrites visible
bytes, panicking outside the visible region. -/
def writeAt (d : Data) (offset : Nat) (bytes : List UInt8) : Res Data :=
  if h : offset + bytes.length ≤ d.len then
    .ok ⟨setSlice d.storage (d.start + offset) bytes, d.start, d.stop, d.start_le_stop,
      by
        have := d.start_le_stop; have := d.stop_le_length; simp only [len] at h
        rw [length_setSlice (by omega)]; omega⟩
  else .error (.panic "range end index out of range for slice")

/-- Two `Data` with the same allocation and bounds are equal. -/
theorem ext {d d' : Data} (hst : d.storage = d'.storage) (ha : d.start = d'.start)
    (hb : d.stop = d'.stop) : d = d' := by
  cases d; cases d'; simp_all

theorem length_storage (d : Data) :
    d.storage.length = d.availablePrefixBytes + d.len + d.availableSuffixBytes := by
  have := d.start_le_stop; have := d.stop_le_length
  simp only [availablePrefixBytes, len, availableSuffixBytes]; omega

@[simp] theorem length_asRef (d : Data) : d.asRef.length = d.len := by
  have := d.start_le_stop; have := d.stop_le_length
  simp only [asRef, len, List.length_take, List.length_drop]; omega

@[simp] theorem ofVec_asRef (v : List UInt8) : (ofVec v).asRef = v := by
  simp [ofVec, asRef, len]

@[simp] theorem ofVec_availablePrefixBytes (v : List UInt8) :
    (ofVec v).availablePrefixBytes = 0 := rfl

@[simp] theorem ofVec_availableSuffixBytes (v : List UInt8) :
    (ofVec v).availableSuffixBytes = 0 := by simp [ofVec, availableSuffixBytes]

/-! ## One spec lemma per operation -/

theorem shrinkToSubregion_spec {d : Data} {begin «end» : Nat} (h1 : begin ≤ «end»)
    (h2 : «end» ≤ d.len) : ∃ d', d.shrinkToSubregion begin «end» = .ok d' ∧
      d'.storage = d.storage ∧ d'.start = d.start + begin ∧ d'.stop = d.start + «end» := by
  simp only [shrinkToSubregion, h1, h2, and_self, dite_true]
  exact ⟨_, rfl, rfl, rfl, rfl⟩

/-- Growing within the reserve succeeds and moves the bounds outwards. -/
theorem growRegion_spec {d : Data} {p a : Nat} (hp : p ≤ d.availablePrefixBytes)
    (ha : a ≤ d.availableSuffixBytes) :
    ∃ d', d.growRegionFailIfReallocationNecessary p a = .ok d' ∧
      d'.storage = d.storage ∧ d'.start = d.start - p ∧ d'.stop = d.stop + a := by
  simp only [growRegionFailIfReallocationNecessary, hp, ha, and_self, dite_true]
  exact ⟨_, rfl, rfl, rfl, rfl⟩

theorem writeAt_spec (d : Data) (offset : Nat) (bytes : List UInt8) (h : offset + bytes.length ≤ d.len) :
    ∃ d', d.writeAt offset bytes = .ok d' ∧ d'.asRef = setSlice d.asRef offset bytes ∧
      d'.start = d.start ∧ d'.stop = d.stop := by
  simp only [writeAt, h, dite_true]
  refine ⟨_, rfl, ?_, rfl, rfl⟩
  have := d.start_le_stop; have := d.stop_le_length
  simp only [asRef, len] at h ⊢
  exact take_drop_setSlice h (by omega)

/-- Moving the start `k` bytes to the front shows `k` reserve bytes before the old ones. -/
theorem asRef_of_start_sub {d d' : Data} {k : Nat} (hk : k ≤ d.start) (hs : d'.storage = d.storage)
    (ha : d'.start = d.start - k) (hb : d'.stop = d.stop) :
    d'.asRef = (d.storage.drop (d.start - k)).take k ++ d.asRef := by
  have := d.start_le_stop
  have e : d.stop - (d.start - k) = k + (d.stop - d.start) := by omega
  simp only [asRef, len, hs, ha, hb, e, List.take_add, List.drop_drop, Nat.sub_add_cancel hk]

end Data

end Cryfs
