import Cryfs.Data.Data

/-!
# The node layout

Every node block starts with an 8-byte header: `format_version_header` (big-endian `u16`),
`unused` (`u8`), `depth` (`u8`) and `size` (little-endian `u32`, the number of bytes of a
leaf or the number of children of an inner node), followed by the payload `data`.

A `Field` is one fixed-width header field. `Field.read` is the view's `read()`, which
slices the block and so panics on a block too short for the field; `Field.get` and
`Field.set` are the same access on a block already known to be long enough.
-/

namespace Cryfs

/-- A fixed-width integer field of a byte view. -/
structure Field where
  offset : Nat
  size : Nat
  bigEndian : Bool
  deriving DecidableEq, Repr

namespace Field

def decode (f : Field) (bytes : List UInt8) : Nat :=
  if f.bigEndian then decodeBE bytes else decodeLE bytes

def encode (f : Field) (v : Nat) : List UInt8 :=
  if f.bigEndian then encodeBE f.size v else encodeLE f.size v

/-- `read()` on a view over `bytes`. -/
def read (f : Field) (bytes : List UInt8) : Res Nat := do
  let window ← slice bytes f.offset (f.offset + f.size)
  pure (f.decode window)

def get (f : Field) (bytes : List UInt8) : Nat := f.decode ((bytes.drop f.offset).take f.size)

/-- `write(v)` on a view over `bytes`. -/
def set (f : Field) (bytes : List UInt8) (v : Nat) : List UInt8 := setSlice bytes f.offset (f.encode v)

@[simp] theorem length_encode (f : Field) (v : Nat) : (f.encode v).length = f.size := by
  unfold encode; split <;> simp

theorem decode_encode (f : Field) (v : Nat) : f.decode (f.encode v) = v % 256 ^ f.size := by
  unfold decode encode; split <;> simp [decodeBE_encodeBE, decodeLE_encodeLE]

theorem read_eq_get {f : Field} {bytes : List UInt8} (h : f.offset + f.size ≤ bytes.length) :
    f.read bytes = .ok (f.get bytes) := by
  simp [read, get, slice_eq_ok (Nat.le_add_right _ _) h]

@[simp] theorem length_set {f : Field} {bytes : List UInt8} (v : Nat)
    (h : f.offset + f.size ≤ bytes.length) : (f.set bytes v).length = bytes.length :=
  length_setSlice (by simpa using h)

theorem get_set {f : Field} {bytes : List UInt8} (v : Nat) (h : f.offset + f.size ≤ bytes.length) :
    f.get (f.set bytes v) = v % 256 ^ f.size := by
  simp only [get, set]
  rw [drop_setSlice (by omega), List.take_left' (length_encode f v), decode_encode]

/-- A write leaves the bytes before the field alone. -/
theorem take_set {f : Field} {bytes : List UInt8} (v : Nat) (h : f.offset ≤ bytes.length) :
    (f.set bytes v).take f.offset = bytes.take f.offset := take_setSlice h

/-- A write leaves the bytes after the field alone. -/
theorem drop_set {f : Field} {bytes : List UInt8} (v : Nat) (h : f.offset ≤ bytes.length) :
    (f.set bytes v).drop (f.offset + f.size) = bytes.drop (f.offset + f.size) := by
  simpa using drop_setSlice_end (f.encode v) h

/-- Reading a field whose window is the middle part of `xs ++ (ys ++ zs)`. -/
theorem get_middle {f : Field} {xs ys zs : List UInt8} (hx : xs.length = f.offset)
    (hy : ys.length = f.size) : f.get (xs ++ (ys ++ zs)) = f.decode ys := by
  simp [get, ← hx, ← hy]

/-- Writing a field whose window is the middle part of `xs ++ (ys ++ zs)`. -/
theorem set_middle {f : Field} {xs ys zs : List UInt8} (hx : xs.length = f.offset)
    (hy : ys.length = f.size) (v : Nat) :
    f.set (xs ++ (ys ++ zs)) v = xs ++ (f.encode v ++ zs) :=
  setSlice_middle hx (by simp [hy])

/-- A field inside the first bytes of a block only reads those bytes. -/
theorem get_append_left {f : Field} {xs ys : List UInt8} (h : f.offset + f.size ≤ xs.length) :
    f.get (xs ++ ys) = f.get xs := by
  simp only [get, List.drop_append_of_le_length (by omega : f.offset ≤ xs.length)]
  rw [List.take_append_of_le_length (by simp; omega)]

end Field

/-- Modelled from the spec: the `node` view of the `layout` module is not among the sources;
§3 and §6 give its fields. -/
def node.formatVersionHeader : Field := ⟨0, 2, true⟩

/-- Modelled from the spec (§6). -/
def node.unused : Field := ⟨2, 1, false⟩

/-- Modelled from the spec (§6). -/
def node.depth : Field := ⟨3, 1, false⟩

/-- Modelled from the spec (§6): `size` of a leaf, `num_children` of an inner node. -/
def node.size : Field := ⟨4, 4, false⟩

/-- Modelled from the spec (§3): `node::data::OFFSET`, the header size. -/
def node.dataOffset : Nat := 8

/-- Modelled from the spec (§6): `FORMAT_VERSION_HEADER`, the current format version. -/
def formatVersionHeader : Nat := 0

/-- Modelled from the spec: `NodeLayout` of the `layout` module is not among the sources; §3
gives its one parameter, a `u32`. -/
structure NodeLayout where
  blockSizeBytes : Nat
  blockSizeBytes_lt : blockSizeBytes < 2 ^ 32

/-- Modelled from the spec (§3): `max_bytes_per_leaf = block_size_bytes − HEADER_SIZE`. -/
def NodeLayout.maxBytesPerLeaf (layout : NodeLayout) : Nat :=
  layout.blockSizeBytes - node.dataOffset

theorem NodeLayout.maxBytesPerLeaf_lt (layout : NodeLayout) : layout.maxBytesPerLeaf < 2 ^ 32 := by
  have := layout.blockSizeBytes_lt; simp only [maxBytesPerLeaf]; omega

end Cryfs
