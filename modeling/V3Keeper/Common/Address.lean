import Mathlib.Data.Char
import Mathlib.Data.List.Nodup
import V3Keeper.Library.Digits

/-! Addresses as the oracles and the source write them. -/

namespace V3Keeper

def isHexDigit (digit : Char) : Bool :=
  (decide ('0' ≤ digit) && decide (digit ≤ '9')) ||
    (decide ('a' ≤ digit) && decide (digit ≤ 'f')) ||
    (decide ('A' ≤ digit) && decide (digit ≤ 'F'))

def hexDigitValue (digit : Char) : Nat :=
  if digit ≤ '9' then digit.toNat - '0'.toNat
  else if digit ≤ 'F' then digit.toNat - 'A'.toNat + 10
  else digit.toNat - 'a'.toNat + 10

theorem char_le_iff {first second : Char} : first ≤ second ↔ first.toNat ≤ second.toNat :=
  UInt32.le_iff_toNat_le

theorem char_lt_iff {first second : Char} : first < second ↔ first.toNat < second.toNat :=
  UInt32.lt_iff_toNat_lt

theorem toLower_toNat (letter : Char) :
    letter.toLower.toNat =
      if 65 ≤ letter.toNat ∧ letter.toNat ≤ 90 then letter.toNat + 32 else letter.toNat := by
  unfold Char.toLower
  simp only [ge_iff_le, UInt32.le_iff_toNat_le, Char.toNat_val]
  change (if h : 65 ≤ letter.toNat ∧ letter.toNat ≤ 90 then _ else _ : Char).toNat = _
  split
  case isTrue upper =>
    rw [Char.toNat_mk, UInt32.toNat_add, Char.toNat_val]
    change (letter.toNat + 32) % 2 ^ 32 = letter.toNat + 32
    omega
  case isFalse => rfl

theorem hexDigit_codes {digit : Char} (hex : isHexDigit digit = true) :
    hexDigitValue digit < 16 ∧ digit.toLower.toNat =
      if hexDigitValue digit < 10 then 48 + hexDigitValue digit else 87 + hexDigitValue digit := by
  have codes : (48 ≤ digit.toNat ∧ digit.toNat ≤ 57) ∨ (97 ≤ digit.toNat ∧ digit.toNat ≤ 102) ∨
      (65 ≤ digit.toNat ∧ digit.toNat ≤ 70) := by
    simp only [isHexDigit, Bool.or_eq_true, Bool.and_eq_true, decide_eq_true_eq, char_le_iff,
      or_assoc] at hex
    exact hex
  have value : hexDigitValue digit =
      if digit.toNat ≤ 57 then digit.toNat - 48
      else if digit.toNat ≤ 70 then digit.toNat - 65 + 10 else digit.toNat - 97 + 10 := by
    simp only [hexDigitValue, char_le_iff]
    rfl
  rw [toLower_toNat, value]
  rcases codes with range | range | range
  · rw [if_pos range.2, if_neg (by omega)]
    split <;> omega
  · rw [if_neg (by omega), if_neg (by omega), if_neg (by omega)]
    split <;> omega
  · rw [if_neg (by omega), if_pos range.2, if_pos (by omega)]
    split <;> omega

theorem toLower_lt_iff {low high : Char} (lowHex : isHexDigit low = true)
    (highHex : isHexDigit high = true) :
    low.toLower < high.toLower ↔ hexDigitValue low < hexDigitValue high := by
  obtain ⟨-, lowCode⟩ := hexDigit_codes lowHex
  obtain ⟨-, highCode⟩ := hexDigit_codes highHex
  rw [char_lt_iff, lowCode, highCode]
  split <;> split <;> omega

/-- The digits that follow `0x`. -/
structure ChecksumAddress where
  digits : List Char
  hex : ∀ digit ∈ digits, isHexDigit digit = true
  length : digits.length = 40
  deriving DecidableEq

namespace ChecksumAddress

/-- `Web3.to_int(hexstr=...)`. -/
def toInt (address : ChecksumAddress) : Nat :=
  address.digits.foldl (fun value digit => 16 * value + hexDigitValue digit) 0

def ofDigit (digit : Char) (hex : isHexDigit digit = true) : ChecksumAddress where
  digits := List.replicate 39 '0' ++ [digit]
  hex := by
    intro other member
    rcases List.mem_append.mp member with zero | last
    · rw [List.eq_of_mem_replicate zero]
      rfl
    · rw [List.mem_singleton.mp last]
      exact hex
  length := by simp

theorem nodup_of_ascending {α : Type*} {address : α → ChecksumAddress} {signers : List α}
    (ascending : signers.Pairwise fun first second =>
      (address first).toInt < (address second).toInt) : (signers.map address).Nodup := by
  refine List.Nodup.of_map toInt ?_
  rw [List.map_map]
  exact List.pairwise_map.mpr (ascending.imp Nat.ne_of_lt)

def lower (address : ChecksumAddress) : List Char :=
  '0' :: 'x' :: address.digits.map Char.toLower

/-- The addresses have one length, so as lowered texts they compare as their numbers do. -/
theorem lower_lt_iff (first second : ChecksumAddress) :
    first.lower < second.lower ↔ first.toInt < second.toInt := by
  have digits : first.digits.map Char.toLower < second.digits.map Char.toLower ↔
      Digits.value 16 hexDigitValue first.digits < Digits.value 16 hexDigitValue second.digits :=
    Digits.map_lt_iff (by decide) (fun _ hex => (hexDigit_codes hex).1)
      (fun _ _ => toLower_lt_iff) first.hex second.hex (first.length.trans second.length.symm)
  rw [lower, lower, List.cons_lt_cons_iff, List.cons_lt_cons_iff]
  simp only [lt_irrefl, true_and, false_or]
  exact digits

theorem lower_le_iff (first second : ChecksumAddress) :
    first.lower ≤ second.lower ↔ first.toInt ≤ second.toInt := by
  rw [← not_lt, ← not_lt, lower_lt_iff]

end ChecksumAddress

end V3Keeper
