import Mathlib

/-!
# Bytes, slices and the outcome of a Rust call

`Res α` is what a Rust call ends in: a value, an error returned through `Result`
(`ensure!`, `bail!`, `?`), or a panic (`assert!`, `expect`, `unwrap`, a slice index out
of range). The slice operations here panic exactly where Rust's do, so that "no slice
access goes out of bounds" is the statement that a call does not end in `.panic`.

The fixed-width integers of the on-disk formats are `Nat`s read from and written to byte
lists: `decodeLE`/`encodeLE` are `from_le_bytes`/`to_le_bytes` for a width given in bytes.
-/

namespace Cryfs

/-- Why a Rust call did not return a value. -/
inductive Fault where
  | err (msg : String)
  | panic (msg : String)
  deriving DecidableEq, Repr

abbrev Res := Except Fault

/-- The call ended in a panic. -/
def Panics {α : Type} : Res α → Prop
  | .error (.panic _) => True
  | _ => False

@[simp] theorem not_panics_ok {α : Type} (a : α) : ¬ Panics (Except.ok a : Res α) := id

@[simp] theorem not_panics_pure {α : Type} (a : α) : ¬ Panics (pure a : Res α) := id

@[simp] theorem not_panics_err {α : Type} (m : String) :
    ¬ Panics (Except.error (.err m) : Res α) := id

/-- `assert!(c, msg)`: a violated assertion is a panic. -/
def assert (c : Prop) [Decidable c] (msg : String) : Res Unit :=
  if c then .ok () else .error (.panic msg)

/-- `ensure!(c, msg)`: a violated check is an error returned to the caller. -/
def ensure (c : Prop) [Decidable c] (msg : String) : Res Unit :=
  if c then .ok () else .error (.err msg)

@[simp] theorem assert_of {c : Prop} [Decidable c] {msg : String} (h : c) :
    assert c msg = .ok () := if_pos h

@[simp] theorem ensure_of {c : Prop} [Decidable c] {msg : String} (h : c) :
    ensure c msg = .ok () := if_pos h

@[simp] theorem assert_false {msg : String} : assert False msg = .error (.panic msg) := rfl

@[simp] theorem ensure_false {msg : String} : ensure False msg = .error (.err msg) := rfl

@[simp] theorem ok_bind {α β : Type} (a : α) (f : α → Res β) : (Except.ok a : Res α) >>= f = f a :=
  rfl

@[simp] theorem error_bind {α β : Type} (e : Fault) (f : α → Res β) :
    (Except.error e : Res α) >>= f = .error e := rfl

@[simp] theorem ok_map {α β : Type} (a : α) (f : α → β) : f <$> (Except.ok a : Res α) = .ok (f a) :=
  rfl

theorem assert_panics {c : Prop} [Decidable c] {msg : String} (h : ¬ c) :
    Panics (assert c msg) := by simp [assert, h, Panics]

theorem ensure_eq_err {c : Prop} [Decidable c] {msg : String} (h : ¬ c) :
    ensure c msg = .error (.err msg) := if_neg h

@[simp] theorem bind_eq_ok {α β : Type} {x : Res α} {f : α → Res β} {b : β} :
    x >>= f = .ok b ↔ ∃ a, x = .ok a ∧ f a = .ok b := by
  cases x <;> simp

@[simp] theorem pure_eq_ok {α : Type} {a b : α} : (pure a : Res α) = .ok b ↔ a = b :=
  Except.ok.injEq a b ▸ Iff.rfl

@[simp] theorem assert_eq_ok {c : Prop} [Decidable c] {msg : String} {u : Unit} :
    assert c msg = .ok u ↔ c := by
  unfold assert; split <;> simp [*]

@[simp] theorem ensure_eq_ok {c : Prop} [Decidable c] {msg : String} {u : Unit} :
    ensure c msg = .ok u ↔ c := by
  unfold ensure; split <;> simp [*]

theorem bind_eq_error {α β : Type} {x : Res α} {f : α → Res β} {e : Fault} :
    x >>= f = .error e ↔ x = .error e ∨ ∃ a, x = .ok a ∧ f a = .error e := by
  cases x <;> simp

theorem ne_panic_of_not_panics {α : Type} {x : Res α} (h : ¬ Panics x) (m : String) :
    x ≠ .error (.panic m) := fun e => h (e ▸ trivial)

theorem not_panics_bind {α β : Type} {x : Res α} {f : α → Res β} (hx : ¬ Panics x)
    (hf : ∀ a, x = .ok a → ¬ Panics (f a)) : ¬ Panics (x >>= f) := by
  cases x with
  | error e => cases e <;> simp_all [Panics]
  | ok a => exact hf a rfl

/-! ## Bytes as numbers -/

theorem UInt8.toNat_ofNat (n : Nat) : (UInt8.ofNat n).toNat = n % 256 := BitVec.toNat_ofNat n 8

theorem UInt8.ofNat_toNat (b : UInt8) : UInt8.ofNat b.toNat = b :=
  UInt8.toNat.inj (by rw [UInt8.toNat_ofNat, Nat.mod_eq_of_lt b.toNat_lt_size])

/-- `from_le_bytes`: the little-endian numeral of a byte list. -/
def decodeLE : List UInt8 → Nat
  | [] => 0
  | b :: bs => b.toNat + 256 * decodeLE bs

/-- `to_le_bytes` of a `width`-byte integer holding `n`. -/
def encodeLE : Nat → Nat → List UInt8
  | 0, _ => []
  | width + 1, n => UInt8.ofNat n :: encodeLE width (n / 256)

/-- `from_be_bytes`. -/
def decodeBE (bs : List UInt8) : Nat := decodeLE bs.reverse

/-- `to_be_bytes`. -/
def encodeBE (width n : Nat) : List UInt8 := (encodeLE width n).reverse

@[simp] theorem length_encodeLE (width n : Nat) : (encodeLE width n).length = width := by
  induction width generalizing n <;> simp [encodeLE, *]

@[simp] theorem length_encodeBE (width n : Nat) : (encodeBE width n).length = width := by
  simp [encodeBE]

theorem decodeLE_encodeLE (width n : Nat) : decodeLE (encodeLE width n) = n % 256 ^ width := by
  induction width generalizing n with
  | zero => simp [encodeLE, decodeLE, Nat.mod_one]
  | succ w ih =>
    rw [encodeLE, decodeLE, ih, UInt8.toNat_ofNat, Nat.pow_succ', Nat.mod_mul]

theorem decodeBE_encodeBE (width n : Nat) : decodeBE (encodeBE width n) = n % 256 ^ width := by
  simp [decodeBE, encodeBE, decodeLE_encodeLE]

theorem encodeLE_decodeLE (bs : List UInt8) : encodeLE bs.length (decodeLE bs) = bs := by
  induction bs with
  | nil => rfl
  | cons b bs ih =>
    have hb : b.toNat < 256 := b.toNat_lt_size
    have hlow : (b.toNat + 256 * decodeLE bs) % 256 = b.toNat := by omega
    have hhigh : (b.toNat + 256 * decodeLE bs) / 256 = decodeLE bs := by omega
    simp only [List.length_cons, encodeLE, decodeLE, hhigh, ih]
    exact congrArg (· :: bs) (UInt8.toNat.inj (by rw [UInt8.toNat_ofNat, hlow]))

theorem decodeLE_lt (bs : List UInt8) : decodeLE bs < 256 ^ bs.length := by
  induction bs with
  | nil => simp [decodeLE]
  | cons b bs ih =>
    have hb : b.toNat < 256 := b.toNat_lt_size
    simp only [decodeLE, List.length_cons, Nat.pow_succ']
    omega

/-! ## Slices -/

section Slices

variable {α : Type}

/-- `&xs[start..stop]`, with the two panics of Rust's range indexing. -/
def slice (xs : List α) (start stop : Nat) : Res (List α) :=
  let len := xs.length
  if stop < start then .error (.panic s!"slice index starts at {start} but ends at {stop}")
  else if len < stop then
    .error (.panic s!"range end index {stop} out of range for slice of length {len}")
  else .ok ((xs.drop start).take (stop - start))

/-- `xs` with the window starting at `start` overwritten by `ys`, as `copy_from_slice` into
`xs[start..start + ys.len()]` leaves it. -/
def setSlice (xs : List α) (start : Nat) (ys : List α) : List α :=
  xs.take start ++ ys ++ xs.drop (start + ys.length)

/-- `dest.copy_from_slice(src)`: the new contents of `dest`, which panics unless `src` is as
long as `dest`. -/
def copyFromSlice (dest src : List α) : Res (List α) :=
  let srcLen := src.length
  let destLen := dest.length
  if srcLen = destLen then .ok src
  else .error (.panic
    s!"source slice length ({srcLen}) does not match destination slice length ({destLen})")

@[simp] theorem copyFromSlice_of_length {dest src : List α} (h : src.length = dest.length) :
    copyFromSlice dest src = .ok src := if_pos h

theorem slice_eq_ok {xs : List α} {start stop : Nat} (h1 : start ≤ stop) (h2 : stop ≤ xs.length) :
    slice xs start stop = .ok ((xs.drop start).take (stop - start)) := by
  simp only [slice]
  rw [if_neg (by omega), if_neg (by omega)]

theorem slice_panics {xs : List α} {start stop : Nat} (h : ¬ (start ≤ stop ∧ stop ≤ xs.length)) :
    Panics (slice xs start stop) := by
  simp only [slice]
  split
  · trivial
  · rw [if_pos (by omega)]; trivial

theorem slice_ok_iff {xs : List α} {start stop : Nat} {ys : List α} :
    slice xs start stop = .ok ys ↔
      start ≤ stop ∧ stop ≤ xs.length ∧ ys = (xs.drop start).take (stop - start) := by
  by_cases h : start ≤ stop ∧ stop ≤ xs.length
  · rw [slice_eq_ok h.1 h.2]
    simp [h, eq_comm]
  · have hp := slice_panics h
    constructor
    · intro e; rw [e] at hp; exact absurd hp (not_panics_ok _)
    · intro e; exact absurd ⟨e.1, e.2.1⟩ h

@[simp] theorem length_setSlice {xs : List α} {start : Nat} {ys : List α}
    (h : start + ys.length ≤ xs.length) : (setSlice xs start ys).length = xs.length := by
  simp only [setSlice, List.length_append, List.length_take, List.length_drop]
  omega

theorem take_setSlice {xs : List α} {start : Nat} {ys : List α} (h : start ≤ xs.length) :
    (setSlice xs start ys).take start = xs.take start := by
  simp only [setSlice, List.append_assoc]
  exact List.take_left' (by simp [h])

theorem drop_setSlice {xs : List α} {start : Nat} {ys : List α} (h : start ≤ xs.length) :
    (setSlice xs start ys).drop start = ys ++ xs.drop (start + ys.length) := by
  simp only [setSlice, List.append_assoc]
  exact List.drop_left' (by simp [h])

theorem drop_setSlice_end {xs : List α} {start : Nat} (ys : List α) (h : start ≤ xs.length) :
    (setSlice xs start ys).drop (start + ys.length) = xs.drop (start + ys.length) := by
  rw [← List.drop_drop, drop_setSlice h, List.drop_left]

theorem setSlice_append_right {xs ys zs : List α} {n : Nat} (h : xs.length = n) (o : Nat) :
    setSlice (xs ++ ys) (n + o) zs = xs ++ setSlice ys o zs := by
  subst h; simp [setSlice, List.take_append, List.drop_append, Nat.add_assoc]

theorem setSlice_append_left {xs ys zs : List α} {o : Nat} (h : o + zs.length ≤ xs.length) :
    setSlice (xs ++ ys) o zs = setSlice xs o zs ++ ys := by
  simp [setSlice, List.take_append_of_le_length (by omega : o ≤ xs.length),
    List.drop_append_of_le_length h]

/-- A write through a subslice `xs[a..a + L]` is a write into `xs` at the shifted offset. -/
theorem take_drop_setSlice {xs ys : List α} {a o L : Nat} (h1 : o + ys.length ≤ L)
    (h2 : a + L ≤ xs.length) :
    ((setSlice xs (a + o) ys).drop a).take L = setSlice ((xs.drop a).take L) o ys := by
  have ht : (xs.take a).length = a := by simp; omega
  have hw : ((xs.drop a).take L).length = L := by simp; omega
  conv_lhs => rw [← List.take_append_drop a xs, ← List.take_append_drop L (xs.drop a),
    setSlice_append_right ht, setSlice_append_left (by omega), List.drop_left' ht]
  rw [List.take_left' (by rw [length_setSlice (by omega), hw])]

/-- Overwriting the middle part of `xs ++ (ys ++ zs)` with bytes of its length. -/
theorem setSlice_middle {xs ys zs ys' : List α} {k : Nat} (hx : xs.length = k)
    (h : ys'.length = ys.length) : setSlice (xs ++ (ys ++ zs)) k ys' = xs ++ (ys' ++ zs) := by
  subst hx; simp [setSlice, h, List.drop_append_eq_append_drop]

end Slices

end Cryfs
