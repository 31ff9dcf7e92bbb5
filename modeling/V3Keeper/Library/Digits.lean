import Mathlib.Data.List.Lex
import Mathlib.Data.Nat.Digits.Defs

/-!
Numerals of one length: the numeric order is the lexicographic order of the digits.
-/

namespace Digits

variable {α β : Type*}

def value (base : Nat) (digit : α → Nat) (numeral : List α) : Nat :=
  numeral.foldl (fun value letter => base * value + digit letter) 0

variable {base : Nat} {digit : α → Nat}

theorem value_eq_ofDigits (numeral : List α) :
    value base digit numeral = Nat.ofDigits base (numeral.map digit).reverse := by
  rw [Nat.ofDigits_eq_foldr, List.foldr_reverse, List.foldl_map]
  simp only [value, Nat.cast_id, Nat.add_comm]

theorem value_cons (letter : α) (rest : List α) :
    value base digit (letter :: rest) =
      digit letter * base ^ rest.length + value base digit rest := by
  rw [value_eq_ofDigits, value_eq_ofDigits, List.map_cons, List.reverse_cons,
    Nat.ofDigits_append, Nat.ofDigits_singleton, List.length_reverse, List.length_map,
    Nat.add_comm, Nat.mul_comm]

theorem value_lt (large : 1 < base) {numeral : List α}
    (bounded : ∀ letter ∈ numeral, digit letter < base) :
    value base digit numeral < base ^ numeral.length := by
  have below := Nat.ofDigits_lt_base_pow_length large (l := (numeral.map digit).reverse)
    (by simpa using bounded)
  rwa [List.length_reverse, List.length_map, ← value_eq_ofDigits] at below

theorem lead_lt_iff {scale first second firstTail secondTail : Nat} (firstBound : firstTail < scale)
    (secondBound : secondTail < scale) :
    first * scale + firstTail < second * scale + secondTail ↔
      first < second ∨ first = second ∧ firstTail < secondTail := by
  have larger {low high : Nat} (below : low < high) : low * scale + scale ≤ high * scale := by
    rw [← Nat.succ_mul]
    exact Nat.mul_le_mul_right _ below
  rcases Nat.lt_trichotomy first second with below | rfl | above
  · have := larger below
    exact iff_of_true (by omega) (Or.inl below)
  · simp
  · have := larger above
    exact iff_of_false (by omega) (by omega)

theorem map_lt_iff [LinearOrder β] (large : 1 < base) {letter : α → β} {alphabet : α → Prop}
    (bounded : ∀ symbol, alphabet symbol → digit symbol < base)
    (ordered : ∀ low high, alphabet low → alphabet high →
      (letter low < letter high ↔ digit low < digit high))
    {first second : List α} (firstLetters : ∀ symbol ∈ first, alphabet symbol)
    (secondLetters : ∀ symbol ∈ second, alphabet symbol) (length : first.length = second.length) :
    first.map letter < second.map letter ↔
      value base digit first < value base digit second := by
  induction first generalizing second with
  | nil =>
      cases second with
      | nil => simp
      | cons symbol rest => cases length
  | cons low lows ih =>
      cases second with
      | nil => cases length
      | cons high highs =>
          rw [List.forall_mem_cons] at firstLetters secondLetters
          have sameLength : lows.length = highs.length := Nat.succ.inj length
          have same : letter low = letter high ↔ digit low = digit high := by
            have up := ordered low high firstLetters.1 secondLetters.1
            have down := ordered high low secondLetters.1 firstLetters.1
            rw [le_antisymm_iff, ← not_lt, ← not_lt, up, down]
            omega
          rw [List.map_cons, List.map_cons, List.cons_lt_cons_iff, value_cons, value_cons,
            sameLength, lead_lt_iff, ih firstLetters.2 secondLetters.2 sameLength, same,
            ordered low high firstLetters.1 secondLetters.1]
          · rw [← sameLength]
            exact value_lt large fun symbol member => bounded symbol (firstLetters.2 symbol member)
          · exact value_lt large fun symbol member => bounded symbol (secondLetters.2 symbol member)

end Digits
