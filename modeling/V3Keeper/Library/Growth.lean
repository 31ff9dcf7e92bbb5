import Mathlib.Order.Iterate
import Mathlib.Data.List.Chain
import Mathlib.Algebra.Order.Floor.Div
import Mathlib.Tactic.Ring

/-!
Sequences in which every entry is at least a given monotone function of the one
before it. Such a sequence outgrows the iterates of the function, so below a
bound it is no longer than the number of iterations that pass the bound.
-/

namespace Growth

variable {α : Type*} [LinearOrder α]

theorem iterate_le_getLast {raise : α → α} (monotone : Monotone raise) (first : α)
    (rest : List α) (rising : (first :: rest).IsChain (fun before after => raise before ≤ after)) :
    raise^[rest.length] first ≤ (first :: rest).getLast (by simp) := by
  induction rest generalizing first with
  | nil => exact le_refl first
  | cons second rest ih =>
      simp only [List.isChain_cons_cons] at rising
      calc raise^[rest.length + 1] first
          = raise^[rest.length] (raise first) := Function.iterate_succ_apply raise _ _
        _ ≤ raise^[rest.length] second := monotone.iterate rest.length rising.1
        _ ≤ (second :: rest).getLast (by simp) := ih second rising.2
        _ = (first :: second :: rest).getLast (by simp) := by simp

/-- A rising sequence that stays within `bound` is at most as long as any number
of iterations that pass `bound` from its first entry. -/
theorem length_le_of_rising {raise : α → α} (monotone : Monotone raise) {bound first : α}
    {rest : List α} (inflationary : ∀ value, value ≤ raise value)
    (rising : (first :: rest).IsChain (fun before after => raise before ≤ after))
    (bounded : ∀ value ∈ first :: rest, value ≤ bound)
    {steps : ℕ} (passed : bound < raise^[steps] first) : (first :: rest).length ≤ steps := by
  have last : raise^[rest.length] first ≤ bound :=
    (iterate_le_getLast monotone first rest rising).trans
      (bounded _ (List.getLast_mem (by simp)))
  by_contra short
  have few : steps ≤ rest.length := by simpa [Nat.lt_succ_iff] using short
  have grown : raise^[steps] first ≤ raise^[rest.length] first :=
    Function.monotone_iterate_of_id_le inflationary few first
  exact absurd (passed.trans_le (grown.trans last)) (lt_irrefl bound)

theorem exists_iterate_gt {raise : ℕ → ℕ} (strict : ∀ value, 0 < value → value < raise value)
    {first : ℕ} (positive : 0 < first) (bound : ℕ) : ∃ steps, bound < raise^[steps] first := by
  have grows : ∀ steps, steps < raise^[steps] first := by
    intro steps
    induction steps with
    | zero => simpa using positive
    | succ steps ih =>
        rw [Function.iterate_succ_apply']
        have next := strict _ (Nat.zero_lt_of_lt ih)
        omega
  exact ⟨bound, grows bound⟩

section Ceiling

/-! `⌈value * numerator / denominator⌉` on natural numbers. -/

def scaleUp (numerator denominator value : ℕ) : ℕ := (numerator * value) ⌈/⌉ denominator

theorem scaleUp_le_iff {numerator denominator value bound : ℕ} (positive : 0 < denominator) :
    scaleUp numerator denominator value ≤ bound ↔ numerator * value ≤ denominator * bound := by
  simpa [scaleUp] using ceilDiv_le_iff_le_smul (b := numerator * value) (c := bound) positive

theorem lt_scaleUp_iff {numerator denominator value bound : ℕ} (positive : 0 < denominator) :
    bound < scaleUp numerator denominator value ↔ denominator * bound < numerator * value := by
  rw [← not_le, scaleUp_le_iff positive, not_le]

theorem scaleUp_spec (numerator : ℕ) {denominator : ℕ} (positive : 0 < denominator) (value : ℕ) :
    numerator * value ≤ denominator * scaleUp numerator denominator value :=
  (scaleUp_le_iff positive).mp le_rfl

theorem scaleUp_monotone {numerator denominator : ℕ} (positive : 0 < denominator) :
    Monotone (scaleUp numerator denominator) := by
  intro first second ordered
  rw [scaleUp_le_iff positive]
  exact (Nat.mul_le_mul_left numerator ordered).trans (scaleUp_spec numerator positive second)

theorem scaleUp_le_scaleUp {smaller larger below above : ℕ} (belowPositive : 0 < below)
    (abovePositive : 0 < above) (ratio : smaller * above ≤ larger * below) (value : ℕ) :
    scaleUp smaller below value ≤ scaleUp larger above value := by
  rw [scaleUp_le_iff belowPositive]
  have spec := scaleUp_spec larger abovePositive value
  refine Nat.le_of_mul_le_mul_left ?_ abovePositive
  calc above * (smaller * value) = (smaller * above) * value := by ring
    _ ≤ (larger * below) * value := Nat.mul_le_mul_right value ratio
    _ = below * (larger * value) := by ring
    _ ≤ below * (above * scaleUp larger above value) := Nat.mul_le_mul_left below spec
    _ = above * (below * scaleUp larger above value) := by ring

end Ceiling

end Growth
