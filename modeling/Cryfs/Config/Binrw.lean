import Cryfs.Utils.Bytes

/-!
# Byte streams read and written the way `binrw` does

A reader gets the rest of the stream and returns what it parsed together with what is left;
running out of bytes is an error. A count-prefixed `Vec<u8>` is read by `readCount`: binrw
first reserves the count with `Vec::reserve_exact`, which panics with "capacity overflow"
when the count is above `isize::MAX`, whatever the stream holds. Each reader has the two
lemmas of a prefix code: reading its encoding followed by anything returns the value and that
rest (`*_append`), and whatever it accepts was such an encoding (`*_sound`).

`validUtf8` is the check `String::from_utf8` makes: which bytes lead a sequence, how many
continuation bytes follow them, and the narrower ranges of the second byte that rule out
overlong forms, surrogates and code points above U+10FFFF.
-/

namespace Cryfs

/-- `isize::MAX`: no allocation holds more bytes. -/
def isizeMax : Nat := 2 ^ 63 - 1

/-- `Vec::<u8>::reserve_exact(additional)` on an empty vector: a request above `isize::MAX`
bytes panics. An allocation the host cannot provide aborts; that depends on the host and is
not modelled, so every request up to `isize::MAX` succeeds. -/
def reserveExact (additional : Nat) : Res Unit :=
  if additional ≤ isizeMax then .ok () else .error (.panic "capacity overflow")

@[simp] theorem reserveExact_of_le {n : Nat} (h : n ≤ isizeMax) : reserveExact n = .ok () :=
  if_pos h

theorem reserveExact_of_lt {n : Nat} (h : isizeMax < n) :
    reserveExact n = .error (.panic "capacity overflow") :=
  if_neg (Nat.not_le.2 h)

namespace Binrw

/-- `NullString`: the bytes up to the first NUL, which is consumed. -/
def readNullString : List UInt8 → Res (List UInt8 × List UInt8)
  | [] => .error (.err "failed to fill whole buffer")
  | b :: rest =>
    if b = 0 then .ok ([], rest)
    else do
      let (s, rest) ← readNullString rest
      pure (b :: s, rest)

/-- `n` bytes, as the fixed-width integers read them (`read_exact`). -/
def readBytes (n : Nat) (input : List UInt8) : Res (List UInt8 × List UInt8) :=
  if n ≤ input.length then .ok (input.take n, input.drop n)
  else .error (.err "failed to fill whole buffer")

/-- `#[br(count = n)] Vec<u8>`: binrw reserves `n` bytes, reads up to `n` and fails if fewer
were there. -/
def readCount (n : Nat) (input : List UInt8) : Res (List UInt8 × List UInt8) := do
  reserveExact n
  if n ≤ input.length then .ok (input.take n, input.drop n)
  else .error (.err "not enough bytes in reader")

/-- A little-endian `u64`. -/
def readU64 (input : List UInt8) : Res (Nat × List UInt8) := do
  let (bytes, rest) ← readBytes 8 input
  pure (decodeLE bytes, rest)

/-- `#[br(parse_with = until_eof)] Vec<u8>`: the rest of the stream. -/
def readUntilEof (input : List UInt8) : Res (List UInt8 × List UInt8) := .ok (input, [])

/-- `NullString`'s `BinWrite`. -/
def writeNullString (s : List UInt8) : List UInt8 := s ++ [0]

/-- A `u64`'s little-endian `BinWrite`. -/
def writeU64 (n : Nat) : List UInt8 := encodeLE 8 n

theorem readNullString_append {s : List UInt8} (hs : 0 ∉ s) (rest : List UInt8) :
    readNullString (writeNullString s ++ rest) = .ok (s, rest) := by
  induction s with
  | nil => simp [writeNullString, readNullString]
  | cons b s ih =>
    simp only [List.mem_cons, not_or] at hs
    simp [writeNullString, readNullString, Ne.symm hs.1] at ih ⊢
    simp [ih hs.2]

theorem readNullString_sound {input s rest : List UInt8}
    (h : readNullString input = .ok (s, rest)) : 0 ∉ s ∧ input = writeNullString s ++ rest := by
  induction input generalizing s with
  | nil => simp [readNullString] at h
  | cons b input ih =>
    by_cases hb : b = 0
    · simp only [readNullString, hb, if_true, Except.ok.injEq, Prod.mk.injEq] at h
      obtain ⟨rfl, rfl⟩ := h
      simp [writeNullString, hb]
    · simp only [readNullString, hb, if_false, bind_eq_ok, pure_eq_ok] at h
      obtain ⟨⟨s', r'⟩, h₁, h₂⟩ := h
      simp only [Prod.mk.injEq] at h₂
      obtain ⟨rfl, rfl⟩ := h₂
      obtain ⟨hs, rfl⟩ := ih h₁
      simp [writeNullString, hs, Ne.symm hb]

theorem readNullString_not_panics (input : List UInt8) : ¬ Panics (readNullString input) := by
  induction input with
  | nil => simp [readNullString]
  | cons b input ih =>
    unfold readNullString
    split
    · simp
    · exact not_panics_bind ih fun _ _ => by simp

theorem readBytes_append {bytes : List UInt8} {n : Nat} (hn : bytes.length = n) (rest : List UInt8) :
    readBytes n (bytes ++ rest) = .ok (bytes, rest) := by
  subst hn; simp [readBytes]

theorem readBytes_sound {n : Nat} {input bytes rest : List UInt8}
    (h : readBytes n input = .ok (bytes, rest)) : bytes.length = n ∧ input = bytes ++ rest := by
  unfold readBytes at h
  split at h
  · simp only [Except.ok.injEq, Prod.mk.injEq] at h
    obtain ⟨rfl, rfl⟩ := h
    exact ⟨by simp; omega, (List.take_append_drop n input).symm⟩
  · cases h

theorem readBytes_not_panics (n : Nat) (input : List UInt8) : ¬ Panics (readBytes n input) := by
  unfold readBytes; split <;> simp

theorem readCount_append {bytes : List UInt8} {n : Nat} (hn : bytes.length = n) (hmax : n ≤ isizeMax)
    (rest : List UInt8) : readCount n (bytes ++ rest) = .ok (bytes, rest) := by
  subst hn; simp [readCount, hmax]

theorem readCount_sound {n : Nat} {input bytes rest : List UInt8}
    (h : readCount n input = .ok (bytes, rest)) :
    n ≤ isizeMax ∧ bytes.length = n ∧ input = bytes ++ rest := by
  by_cases hmax : n ≤ isizeMax
  · simp only [readCount, reserveExact_of_le hmax, ok_bind] at h
    split at h
    · simp only [Except.ok.injEq, Prod.mk.injEq] at h
      obtain ⟨rfl, rfl⟩ := h
      exact ⟨hmax, by simp; omega, (List.take_append_drop n input).symm⟩
    · cases h
  · simp [readCount, reserveExact_of_lt (Nat.lt_of_not_le hmax)] at h

/-- The counted read panics exactly when the count is above `isize::MAX`. -/
theorem readCount_of_lt {n : Nat} (h : isizeMax < n) (input : List UInt8) :
    readCount n input = .error (.panic "capacity overflow") := by
  simp [readCount, reserveExact_of_lt h]

theorem readCount_not_panics {n : Nat} (h : n ≤ isizeMax) (input : List UInt8) :
    ¬ Panics (readCount n input) := by
  simp only [readCount, reserveExact_of_le h, ok_bind]; split <;> simp

theorem readU64_append {n : Nat} (hn : n < 2 ^ 64) (rest : List UInt8) :
    readU64 (writeU64 n ++ rest) = .ok (n, rest) := by
  simp only [readU64, writeU64, readBytes_append (length_encodeLE 8 n), ok_bind, decodeLE_encodeLE,
    Nat.mod_eq_of_lt (show n < 256 ^ 8 from hn)]
  rfl

theorem readU64_sound {input rest : List UInt8} {n : Nat} (h : readU64 input = .ok (n, rest)) :
    n < 2 ^ 64 ∧ input = writeU64 n ++ rest := by
  simp only [readU64, bind_eq_ok, pure_eq_ok, Prod.mk.injEq] at h
  obtain ⟨⟨bytes, r⟩, h₁, rfl, rfl⟩ := h
  obtain ⟨hl, rfl⟩ := readBytes_sound h₁
  refine ⟨by simpa [hl] using decodeLE_lt bytes, ?_⟩
  rw [writeU64, ← hl, encodeLE_decodeLE]

theorem readU64_not_panics (input : List UInt8) : ¬ Panics (readU64 input) :=
  not_panics_bind (readBytes_not_panics 8 input) fun _ _ => by simp

/-! ## UTF-8 -/

/-- A continuation byte `10xxxxxx`. -/
def isCont (b : UInt8) : Bool := 0x80 ≤ b && b ≤ 0xBF

/-- The range of the second byte of a sequence led by `b`, as `String::from_utf8` checks it. -/
def secondInRange (b c : UInt8) : Bool :=
  if b = 0xE0 then 0xA0 ≤ c && c ≤ 0xBF
  else if b = 0xED then 0x80 ≤ c && c ≤ 0x9F
  else if b = 0xF0 then 0x90 ≤ c && c ≤ 0xBF
  else if b = 0xF4 then 0x80 ≤ c && c ≤ 0x8F
  else isCont c

/-- `String::from_utf8` accepts exactly the well-formed UTF-8 byte sequences. -/
def validUtf8 : List UInt8 → Bool
  | [] => true
  | b :: rest =>
    if b < 0x80 then validUtf8 rest
    else if 0xC2 ≤ b && b ≤ 0xDF then
      match rest with
      | c1 :: rest => isCont c1 && validUtf8 rest
      | [] => false
    else if 0xE0 ≤ b && b ≤ 0xEF then
      match rest with
      | c1 :: c2 :: rest => secondInRange b c1 && isCont c2 && validUtf8 rest
      | _ => false
    else if 0xF0 ≤ b && b ≤ 0xF4 then
      match rest with
      | c1 :: c2 :: c3 :: rest => secondInRange b c1 && isCont c2 && isCont c3 && validUtf8 rest
      | _ => false
    else false

example : validUtf8 [0x63, 0xC3, 0xA9] = true ∧ validUtf8 [0xC0, 0x80] = false ∧
    validUtf8 [0xED, 0xA0, 0x80] = false := by decide

end Binrw

end Cryfs
