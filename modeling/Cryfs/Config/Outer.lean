import Cryfs.Config.Binrw

/-!
# The outer config file

The config file is the NUL-terminated header `cryfs.config;1;scrypt`, the length of the KDF
parameters as a little-endian `u64`, the parameters, and the encrypted inner config up to
the end of the file. `OuterConfigLayout` is its `binrw` layout; `OuterConfig.deserialize`
reads the layout, checks the header and keeps the two byte strings.

`deserialize` inverts `serialize` on every config whose KDF parameters a `Vec<u8>` can hold
(at most `isize::MAX` bytes), and accepts nothing else: a stream it accepts is the
serialization of what it returned. On every other stream it returns an error, with one
exception: binrw reserves the announced number of bytes before it reads them, so a length
field above `isize::MAX` makes `deserialize` panic with "capacity overflow", however short
the stream is. Its `assert_eq` never fires, because `count` reads exactly the announced
number of bytes.
-/

namespace Cryfs

/-- `HEADER`. -/
def header : String := "cryfs.config;1;scrypt"

/-- `str::as_bytes`. -/
def asBytes (s : String) : List UInt8 := s.toUTF8.data.toList

/-- `OuterConfigLayout`. -/
structure OuterConfigLayout where
  header : List UInt8
  kdfParametersNumBytes : Nat
  kdfParametersSerialized : List UInt8
  encryptedInnerConfig : List UInt8

namespace OuterConfigLayout

/-- `BinRead::read`, field by field. -/
def read (source : List UInt8) : Res OuterConfigLayout := do
  let (header, source) ← Binrw.readNullString source
  let (kdfParametersNumBytes, source) ← Binrw.readU64 source
  let (kdfParametersSerialized, source) ← Binrw.readCount kdfParametersNumBytes source
  let (encryptedInnerConfig, _) ← Binrw.readUntilEof source
  pure ⟨header, kdfParametersNumBytes, kdfParametersSerialized, encryptedInnerConfig⟩

/-- `BinWrite::write` into an empty destination. -/
def write (layout : OuterConfigLayout) : List UInt8 :=
  Binrw.writeNullString layout.header ++ Binrw.writeU64 layout.kdfParametersNumBytes ++
    layout.kdfParametersSerialized ++ layout.encryptedInnerConfig

end OuterConfigLayout

structure OuterConfig where
  kdfParametersSerialized : List UInt8
  encryptedInnerConfig : List UInt8
  deriving DecidableEq, Repr

namespace OuterConfig

def deserialize (source : List UInt8) : Res OuterConfig := do
  let layout ← OuterConfigLayout.read source
  let readHeader ← if Binrw.validUtf8 layout.header then pure layout.header
    else .error (.err "Header is not valid UTF-8")
  let shown := (String.fromUTF8? ⟨readHeader.toArray⟩).getD ""
  ensure (readHeader = asBytes header)
    s!"Invalid header in outer config. Expected \x27{header}\x27, got \x27{shown}\x27"
  let left := layout.kdfParametersNumBytes
  let right := layout.kdfParametersSerialized.length % 2 ^ 64
  assert (left = right) s!"assertion `left == right` failed\n  left: {left}\n right: {right}"
  pure ⟨layout.kdfParametersSerialized, layout.encryptedInnerConfig⟩

/-- `serialize` into an empty destination; `len() as u64` wraps. -/
def serialize (config : OuterConfig) : Res (List UInt8) :=
  let layout : OuterConfigLayout := ⟨asBytes header,
    config.kdfParametersSerialized.length % 2 ^ 64, config.kdfParametersSerialized,
    config.encryptedInnerConfig⟩
  .ok layout.write

def kdfParameters (config : OuterConfig) : List UInt8 := config.kdfParametersSerialized

end OuterConfig

theorem nul_not_mem_header : (0 : UInt8) ∉ asBytes header := by decide

theorem validUtf8_header : Binrw.validUtf8 (asBytes header) = true := by decide

namespace OuterConfigLayout

theorem read_write {layout : OuterConfigLayout} (hh : 0 ∉ layout.header)
    (hn : layout.kdfParametersNumBytes = layout.kdfParametersSerialized.length)
    (hmax : layout.kdfParametersNumBytes ≤ isizeMax) : read layout.write = .ok layout := by
  simp only [read, write, List.append_assoc, Binrw.readNullString_append hh, ok_bind,
    Binrw.readU64_append (lt_of_le_of_lt hmax (by decide)), Binrw.readCount_append hn.symm hmax]
  rfl

/-- What `read` accepts was written by `write`, with a length field that matches. -/
theorem read_sound {source : List UInt8} {layout : OuterConfigLayout} (h : read source = .ok layout) :
    0 ∉ layout.header ∧ layout.kdfParametersNumBytes ≤ isizeMax ∧
      layout.kdfParametersSerialized.length = layout.kdfParametersNumBytes ∧
      source = layout.write := by
  simp only [read, bind_eq_ok, Binrw.readUntilEof, ok_bind, pure_eq_ok] at h
  obtain ⟨⟨s, r₁⟩, h₁, ⟨n, r₂⟩, h₂, ⟨k, r₃⟩, h₃, rfl⟩ := h
  obtain ⟨hs, rfl⟩ := Binrw.readNullString_sound h₁
  obtain ⟨-, rfl⟩ := Binrw.readU64_sound h₂
  obtain ⟨hn, hk, rfl⟩ := Binrw.readCount_sound h₃
  exact ⟨hs, hn, hk, by simp [write]⟩

/-- `read` panics exactly on a NUL-terminated string followed by a `u64` above `isize::MAX`, with
binrw's capacity overflow. -/
theorem read_eq_panic {source : List UInt8} {m : String} :
    read source = .error (.panic m) ↔ m = "capacity overflow" ∧
      ∃ h n rest, 0 ∉ h ∧ isizeMax < n ∧ n < 2 ^ 64 ∧
        source = Binrw.writeNullString h ++ (Binrw.writeU64 n ++ rest) := by
  constructor
  · intro hr
    simp only [read, bind_eq_error] at hr
    rcases hr with h₁ | ⟨⟨h, r₁⟩, h₁, h₂ | ⟨⟨n, r₂⟩, h₂,
      h₃ | ⟨⟨k, r₃⟩, h₃, h₄⟩⟩⟩
    · exact absurd h₁ (ne_panic_of_not_panics (Binrw.readNullString_not_panics _) m)
    · exact absurd h₂ (ne_panic_of_not_panics (Binrw.readU64_not_panics _) m)
    · obtain ⟨hh, rfl⟩ := Binrw.readNullString_sound h₁
      obtain ⟨hn, rfl⟩ := Binrw.readU64_sound h₂
      by_cases hmax : n ≤ isizeMax
      · exact absurd h₃ (ne_panic_of_not_panics (Binrw.readCount_not_panics hmax _) m)
      · rw [Binrw.readCount_of_lt (Nat.lt_of_not_le hmax)] at h₃
        cases h₃
        exact ⟨rfl, h, n, r₂, hh, Nat.lt_of_not_le hmax, hn, rfl⟩
    · simp [Binrw.readUntilEof, pure, Except.pure] at h₄
  · rintro ⟨rfl, h, n, rest, hh, hmax, hn, rfl⟩
    simp only [read, Binrw.readNullString_append hh, ok_bind, Binrw.readU64_append hn,
      Binrw.readCount_of_lt hmax, error_bind]

end OuterConfigLayout

namespace OuterConfig

/-- `deserialize` once a layout with the right header is read: its `assert_eq` holds. -/
theorem deserialize_of_read {source : List UInt8} {layout : OuterConfigLayout}
    (h : OuterConfigLayout.read source = .ok layout) (hh : layout.header = asBytes header) :
    deserialize source = .ok ⟨layout.kdfParametersSerialized, layout.encryptedInnerConfig⟩ := by
  obtain ⟨-, hmax, hk, -⟩ := OuterConfigLayout.read_sound h
  have hlen : layout.kdfParametersNumBytes = layout.kdfParametersSerialized.length % 2 ^ 64 := by
    rw [hk, Nat.mod_eq_of_lt (lt_of_le_of_lt hmax (by decide))]
  simp [deserialize, h, hh, validUtf8_header, hlen]

/-- A layout with another header is an error: not UTF-8, or not `HEADER`. -/
theorem deserialize_err_of_read {source : List UInt8} {layout : OuterConfigLayout}
    (h : OuterConfigLayout.read source = .ok layout) (hh : layout.header ≠ asBytes header) :
    ∃ m, deserialize source = .error (.err m) := by
  by_cases hv : Binrw.validUtf8 layout.header = true
  · exact ⟨_, by simp [deserialize, h, hv, hh]; rfl⟩
  · exact ⟨_, by simp [deserialize, h, hv]; rfl⟩

/-- `deserialize` panics only where `read` does: the checks after it are errors. -/
theorem deserialize_eq_panic {source : List UInt8} {m : String} :
    deserialize source = .error (.panic m) ↔ OuterConfigLayout.read source = .error (.panic m) := by
  rcases hr : OuterConfigLayout.read source with e | layout
  · simp [deserialize, hr]
  · simp only [reduceCtorEq, iff_false]
    by_cases hh : layout.header = asBytes header
    · rw [deserialize_of_read hr hh]; exact Except.noConfusion
    · obtain ⟨_, he⟩ := deserialize_err_of_read hr hh
      rw [he]; simp

/-- A config whose KDF parameters a `Vec<u8>` can hold reads back from its serialization. -/
theorem deserialize_serialize {config : OuterConfig}
    (hk : config.kdfParametersSerialized.length ≤ isizeMax) :
    ∃ file, config.serialize = .ok file ∧ deserialize file = .ok config := by
  have hmod := Nat.mod_eq_of_lt (lt_of_le_of_lt hk (by decide : isizeMax < 2 ^ 64))
  exact ⟨_, rfl, deserialize_of_read (@OuterConfigLayout.read_write ⟨asBytes header,
    config.kdfParametersSerialized.length % 2 ^ 64, config.kdfParametersSerialized,
    config.encryptedInnerConfig⟩ nul_not_mem_header hmod ((Nat.mod_le _ _).trans hk)) rfl⟩

end OuterConfig

/-- binrw trusts the length field: on a config file whose length field is `2^64 - 1`, followed
by two bytes, it reserves that many bytes first, and `deserialize` panics with "capacity
overflow" instead of returning an error. -/
theorem deserialize_capacity_overflow :
    OuterConfig.deserialize (asBytes header ++ [0] ++ encodeLE 8 (2 ^ 64 - 1) ++ [1, 2]) =
      .error (.panic "capacity overflow") :=
  OuterConfig.deserialize_eq_panic.2 (OuterConfigLayout.read_eq_panic.2
    ⟨rfl, asBytes header, 2 ^ 64 - 1, [1, 2], nul_not_mem_header, by decide, by decide,
      by simp [Binrw.writeNullString, Binrw.writeU64]⟩)

end Cryfs
