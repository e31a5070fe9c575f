import Cryfs.Utils.Bytes

/-!
# Integer helpers

`divCeil` is `DivCeil::div_ceil` of the `divrem` crate on unsigned integers: the quotient,
plus one when there is a remainder. `checkedSub`, `checkedAdd` and `checkedMul` are Rust's
`-`, `+` and `*` on `u64` and `usize` in a debug build: they panic where the result does not
fit. `NonZeroU64.checkedAdd` is `NonZeroU64Ext::checked_add`
(`utils/src/num.rs`); its `unsafe` constructor is the place where the subtype needs the
argument of the code's `SAFETY` comment: an addition that did not overflow is not zero.
-/

namespace Cryfs

/-- `DivCeil::div_ceil(a, b)`. -/
def divCeil (a b : Nat) : Res Nat :=
  if b = 0 then .error (.panic "attempt to divide by zero")
  else .ok (a / b + if 0 < a % b then 1 else 0)

theorem divCeil_eq {a b : Nat} (hb : 0 < b) : divCeil a b = .ok ((a + b - 1) / b) := by
  have hab := Nat.div_add_mod a b
  have hr := Nat.mod_lt a hb
  have e : a + b - 1 = (a % b + b - 1) + b * (a / b) := by omega
  rw [divCeil, if_neg (by omega), e, Nat.add_mul_div_left _ _ hb, Nat.add_comm (_ / b)]
  congr 2
  split
  · rw [Nat.div_eq_of_lt_le (k := 1) (by omega) (by omega)]
  · rw [Nat.div_eq_of_lt (by omega)]

/-- `a - b` on unsigned integers, which panics below zero. -/
def checkedSub (a b : Nat) : Res Nat :=
  if b ≤ a then .ok (a - b) else .error (.panic "attempt to subtract with overflow")

@[simp] theorem checkedSub_of_le {a b : Nat} (h : b ≤ a) : checkedSub a b = .ok (a - b) := if_pos h

/-- `r` as the result of 64-bit unsigned arithmetic, which panics with `msg` when it does not
fit. -/
def checkedU64 (msg : String) (r : Nat) : Res Nat :=
  if r < 2 ^ 64 then .ok r else .error (.panic msg)

/-- `a + b` on `u64` or `usize`. -/
def checkedAdd (a b : Nat) : Res Nat := checkedU64 "attempt to add with overflow" (a + b)

/-- `a * b` on `u64` or `usize`. -/
def checkedMul (a b : Nat) : Res Nat := checkedU64 "attempt to multiply with overflow" (a * b)

theorem checkedU64_of_lt {msg : String} {r : Nat} (h : r < 2 ^ 64) : checkedU64 msg r = .ok r :=
  if_pos h

@[simp] theorem checkedAdd_of_lt {a b : Nat} (h : a + b < 2 ^ 64) : checkedAdd a b = .ok (a + b) :=
  checkedU64_of_lt h

@[simp] theorem checkedMul_of_lt {a b : Nat} (h : a * b < 2 ^ 64) : checkedMul a b = .ok (a * b) :=
  checkedU64_of_lt h

/-- `NonZeroU64`. -/
def NonZeroU64 : Type := {n : Nat // 0 < n ∧ n < 2 ^ 64}

/-- `NonZeroU64Ext::checked_add`: `None` on overflow. -/
def NonZeroU64.checkedAdd (self : NonZeroU64) (other : Nat) : Option NonZeroU64 :=
  if h : self.val + other < 2 ^ 64 then some ⟨self.val + other, by have := self.property.1; omega, h⟩
  else none

theorem NonZeroU64.checkedAdd_val {self : NonZeroU64} {other : Nat} {r : NonZeroU64}
    (h : self.checkedAdd other = some r) : r.val = self.val + other ∧ self.val + other < 2 ^ 64 := by
  unfold checkedAdd at h
  split at h
  · cases h; exact ⟨rfl, ‹_›⟩
  · cases h

theorem NonZeroU64.checkedAdd_eq_none {self : NonZeroU64} {other : Nat} :
    self.checkedAdd other = none ↔ 2 ^ 64 ≤ self.val + other := by
  unfold checkedAdd; split <;> simp <;> omega

end Cryfs
