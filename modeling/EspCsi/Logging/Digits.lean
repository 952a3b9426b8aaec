import EspCsi.Lib.Appending
import EspCsi.Logging.Text

/-!
# The hand-written digit writers

The line formats bypass `core::fmt`: they write their digits one by one into the line's buffer,
without a check of their own.
-/

namespace EspCsi.Logging

open Wire Rendering Appending

def digit (d : UInt8) : Char := Char.ofUInt8 ('0'.toUInt8 + d)

def i8Digits (val : Int8) : List Char :=
  let n := val.toInt16
  let sign := if n < 0 then ['-'] else []
  let n := (if n < 0 then -n else n).toUInt16
  sign ++
    if 100 ≤ n then
      [digit (n / 100).toUInt8, digit ((n / 10) % 10).toUInt8, digit (n % 10).toUInt8]
    else if 10 ≤ n then [digit (n / 10).toUInt8, digit (n % 10).toUInt8]
    else [digit n.toUInt8]

def writeI8Sep (val : Int8) (sep : Char) : Writer Char :=
  seq ((i8Digits val ++ [sep]).map put)

def writeI8Space (val : Int8) : Writer Char := writeI8Sep val ' '

/-- The loop of `write_u32`: the digits as they fill `tmp`, the last one first. `none` is an index
past its end. -/
def tmpDigits : ℕ → UInt32 → Option (List Char)
  | 0, n => if 0 < n then none else some []
  | places + 1, n =>
    if 0 < n then (tmpDigits places (n / 10)).map (digit (n % 10).toUInt8 :: ·) else some []

def writeU32 (n : UInt32) : Writer Char :=
  if n = 0 then put '0'
  else fun capacity buf => do
    let tmp ← tmpDigits 10 n
    seq (tmp.reverse.map put) capacity buf

def writeI32 (n : Int32) : Writer Char :=
  if n < 0 then seq [put '-', writeU32 (-n.toInt64).toUInt64.toUInt32]
  else writeU32 n.toUInt32

/-- The loop of `write_u32_pad6`: what it leaves in `tmp`, which is all zeros at first. -/
def padDigits : ℕ → UInt32 → List Char
  | 0, _ => []
  | places + 1, n =>
    if 0 < n then digit (n % 10).toUInt8 :: padDigits places (n / 10)
    else List.replicate (places + 1) '0'

def writeU32Pad6 (n : UInt32) : Writer Char := seq ((padDigits 6 n).reverse.map put)

def HEX : List Char := "0123456789ABCDEF".toList

def writeHexU8 (n : UInt8) : Writer Char := fun capacity buf => do
  let high ← HEX[(n >>> 4).toNat]?
  let low ← HEX[(n &&& 0x0f).toNat]?
  seq [put high, put low] capacity buf

/-! ## What they write -/

theorem digit_eq (n : UInt32) : digit (n % 10).toUInt8 = Nat.digitChar (n.toNat % 10) := by
  have hdigit : ∀ d < 10, digit (UInt8.ofNat d) = Nat.digitChar d := by decide
  rw [← hdigit _ (Nat.mod_lt _ (by decide))]
  congr 1

theorem i8Digits_eq (val : Int8) : i8Digits val = decimal val.toInt := by
  have h : ∀ b : Fin 256, i8Digits (Int8.ofBitVec (BitVec.ofFin b)) =
      decimal (Int8.ofBitVec (BitVec.ofFin b)).toInt := by decide +kernel
  exact h val.toBitVec.toFin

theorem puts_writeI8Sep (val : Int8) (sep : Char) :
    Puts (writeI8Sep val sep) (decimal val.toInt ++ [sep]) := by
  rw [← i8Digits_eq]
  exact Puts.seq_put _

theorem tmpDigits_eq {places : ℕ} {n : UInt32} (h : n.toNat < 10 ^ places) :
    (tmpDigits places n).map List.reverse =
      some (if n = 0 then [] else Nat.toDigits 10 n.toNat) := by
  induction places generalizing n with
  | zero =>
    have hzero : n = 0 := UInt32.toNat_inj.mp (Nat.lt_one_iff.mp h)
    rw [hzero]
    rfl
  | succ places ih =>
    by_cases hzero : n = 0
    · rw [hzero]
      rfl
    · have hpos : 0 < n := UInt32.pos_iff_ne_zero.mpr hzero
      have hdiv : (n / 10).toNat = n.toNat / 10 := UInt32.toNat_div n 10
      have hrest : (n / 10).toNat < 10 ^ places := by
        rw [hdiv]
        exact Nat.div_lt_of_lt_mul (by rwa [Nat.pow_succ, Nat.mul_comm] at h)
      obtain ⟨tmp, htmp, hrev⟩ := Option.map_eq_some_iff.mp (ih hrest)
      rw [tmpDigits, if_pos hpos, htmp, Option.map_some, Option.map_some, List.reverse_cons, hrev,
        if_neg hzero, digit_eq]
      by_cases hsmall : n.toNat < 10
      -- the loop stops at zero, where a numeral of its own would be one more digit
      · have hlast : n / 10 = 0 := UInt32.toNat_inj.mp (hdiv.trans (Nat.div_eq_of_lt hsmall))
        rw [if_pos hlast, Nat.toDigits_of_lt_base hsmall, Nat.mod_eq_of_lt hsmall,
          List.nil_append]
      · have hmore : n / 10 ≠ 0 := by
          intro h0
          have hdiv0 : n.toNat / 10 = 0 := hdiv.symm.trans (congrArg UInt32.toNat h0)
          omega
        rw [if_neg hmore, hdiv, Nat.toDigits_of_base_le (by decide) (Nat.le_of_not_lt hsmall)]

/-- Ten places are enough for the digits of any `u32`. -/
theorem puts_writeU32 (n : UInt32) : Puts (writeU32 n) (dec32 n) := by
  rw [dec32, decimal_natCast, writeU32]
  by_cases hzero : n = 0
  · rw [if_pos hzero, hzero]
    exact Puts.put '0'
  · have hlt : n.toNat < 10 ^ 10 := Nat.lt_of_lt_of_le n.toNat_lt (by decide)
    obtain ⟨tmp, htmp, hrev⟩ := Option.map_eq_some_iff.mp (tmpDigits_eq hlt)
    rw [if_neg hzero] at hrev ⊢
    rw [← hrev, htmp]
    exact Puts.seq_put _

/-- `i32::MIN` as well: its absolute value is taken in 64 bits. -/
theorem toNat_neg_toInt64 {n : Int32} (h : n.toInt < 0) :
    (-n.toInt64).toUInt64.toUInt32.toNat = n.toInt.natAbs := by
  have hlow := n.le_toInt
  have hneg : (-n.toInt64).toInt = -n.toInt := by
    rw [Int64.toInt_neg, Int32.toInt_toInt64]
    exact Int.bmod_eq_of_le (by omega) (by omega)
  have hle : (0 : Int64) ≤ -n.toInt64 := by
    rw [Int64.le_iff_toInt_le, hneg]
    exact Int.neg_nonneg_of_nonpos (Int.le_of_lt h)
  rw [UInt64.toNat_toUInt32, Int64.toNat_toUInt64_of_le hle, ← Int64.toNat_toInt, hneg,
    Nat.mod_eq_of_lt (by omega)]
  omega

theorem toNat_toUInt32_of_nonneg {n : Int32} (h : 0 ≤ n.toInt) : (n.toUInt32.toNat : ℤ) = n.toInt := by
  have hle : (0 : Int32) ≤ n := Int32.le_iff_toInt_le.mpr h
  rw [Int32.toNat_toUInt32_of_le hle, ← Int32.toNat_toInt]
  exact Int.toNat_of_nonneg h

theorem puts_writeI32 (n : Int32) : Puts (writeI32 n) (decimal n.toInt) := by
  rw [writeI32]
  by_cases hneg : n < 0
  · have hlt : n.toInt < 0 := Int32.lt_iff_toInt_lt.mp hneg
    obtain ⟨k, hk⟩ := Int.eq_negSucc_of_lt_zero hlt
    have hdigits := puts_writeU32 (-n.toInt64).toUInt64.toUInt32
    rw [dec32, toNat_neg_toInt64 hlt, hk, Int.natAbs_negSucc, decimal_natCast] at hdigits
    have hwhole := (Puts.put '-').cons (hdigits.cons Puts.nil)
    rw [List.append_nil] at hwhole
    rw [if_pos hneg, hk]
    exact hwhole
  · have hnonneg : 0 ≤ n.toInt := Int.not_lt.mp fun h => hneg (Int32.lt_iff_toInt_lt.mpr h)
    rw [if_neg hneg, ← toNat_toUInt32_of_nonneg hnonneg]
    exact puts_writeU32 n.toUInt32

theorem zeroPadded_append {width : ℕ} {numeral : List Char} (d : Char) :
    zeroPadded (width + 1) (numeral ++ [d]) = zeroPadded width numeral ++ [d] := by
  rw [zeroPadded, zeroPadded, List.leftpad, List.leftpad, List.length_append,
    List.length_singleton, Nat.add_sub_add_right, List.append_assoc]

theorem padDigits_eq {places : ℕ} {n : UInt32} (h : n.toNat < 10 ^ (places + 1)) :
    (padDigits (places + 1) n).reverse = zeroPadded (places + 1) (Nat.toDigits 10 n.toNat) := by
  induction places generalizing n with
  | zero =>
    have hsmall : n.toNat < 10 := h
    rw [padDigits, Nat.toDigits_of_lt_base hsmall]
    by_cases hzero : n = 0
    · rw [hzero]
      rfl
    · rw [if_pos (UInt32.pos_iff_ne_zero.mpr hzero), digit_eq, Nat.mod_eq_of_lt hsmall]
      rfl
  | succ places ih =>
    rw [padDigits]
    by_cases hzero : n = 0
    · rw [hzero, if_neg (by decide), List.reverse_replicate]
      exact List.replicate_succ'
    · have hdiv : (n / 10).toNat = n.toNat / 10 := UInt32.toNat_div n 10
      have hrest : (n / 10).toNat < 10 ^ (places + 1) := by
        rw [hdiv]
        exact Nat.div_lt_of_lt_mul (by rwa [Nat.pow_succ, Nat.mul_comm] at h)
      rw [if_pos (UInt32.pos_iff_ne_zero.mpr hzero), List.reverse_cons, ih hrest, digit_eq, hdiv]
      by_cases hsmall : n.toNat < 10
      · -- the zero in front is the last of the padding
        rw [Nat.div_eq_of_lt hsmall, Nat.mod_eq_of_lt hsmall, Nat.toDigits_of_lt_base hsmall]
        exact congrArg (· ++ [Nat.digitChar n.toNat]) List.replicate_succ'.symm
      · rw [Nat.toDigits_of_base_le (by decide) (Nat.le_of_not_lt hsmall), zeroPadded_append]

theorem puts_writeU32Pad6 {n : UInt32} (h : n.toNat < 10 ^ 6) :
    Puts (writeU32Pad6 n) (zeroPadded 6 (dec32 n)) := by
  rw [dec32, decimal_natCast, ← padDigits_eq h]
  exact Puts.seq_put _

theorem hex8_eq (n : UInt8) :
    ∃ high low, HEX[(n >>> 4).toNat]? = some high ∧ HEX[(n &&& 0x0f).toNat]? = some low ∧
      hex8 n = [high, low] := by
  have h : ∀ b : Fin 256, (hex8 (UInt8.ofBitVec (BitVec.ofFin b))).length = 2 ∧
      HEX[(UInt8.ofBitVec (BitVec.ofFin b) >>> 4).toNat]? =
        (hex8 (UInt8.ofBitVec (BitVec.ofFin b))).head? ∧
      HEX[(UInt8.ofBitVec (BitVec.ofFin b) &&& 0x0f).toNat]? =
        (hex8 (UInt8.ofBitVec (BitVec.ofFin b))).getLast? := by decide +kernel
  obtain ⟨hlen, hhigh, hlow⟩ :
      (hex8 n).length = 2 ∧ HEX[(n >>> 4).toNat]? = (hex8 n).head? ∧
        HEX[(n &&& 0x0f).toNat]? = (hex8 n).getLast? := h n.toBitVec.toFin
  obtain ⟨high, low, hhex⟩ := List.length_eq_two.mp hlen
  rw [hhex] at hhigh hlow
  exact ⟨high, low, hhigh, hlow, hhex⟩

theorem puts_writeHexU8 (n : UInt8) : Puts (writeHexU8 n) (hex8 n) := by
  obtain ⟨high, low, hhigh, hlow, hhex⟩ := hex8_eq n
  intro capacity buf hroom
  rw [writeHexU8, hhigh, hlow]
  rw [hhex] at hroom ⊢
  exact ((Puts.put high).cons ((Puts.put low).cons Puts.nil)) hroom

end EspCsi.Logging
