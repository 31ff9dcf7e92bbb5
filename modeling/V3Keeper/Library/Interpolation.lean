import Mathlib.LinearAlgebra.Lagrange
import Mathlib.Data.ZMod.Basic
import Mathlib.Algebra.Field.ZMod

/-!
Evaluation at zero of a polynomial from more values than its degree, and the multiples
of a group element of prime order by scalars of the prime field.
-/

namespace Interpolation

open Polynomial

section Field

variable {ι F : Type*} [DecidableEq ι] [Field F]

def weightAtZero (node : ι → F) (indexes : List ι) (i : ι) : F :=
  ((indexes.filter (· ≠ i)).map fun j => -node j * (node i - node j)⁻¹).prod

theorem basis_eval_zero (node : ι → F) {indexes : List ι} (nodup : indexes.Nodup) (i : ι) :
    (Lagrange.basis indexes.toFinset node i).eval 0 = weightAtZero node indexes i := by
  have others : indexes.toFinset.erase i = (indexes.filter (· ≠ i)).toFinset := by
    ext j
    simp [and_comm]
  rw [Lagrange.basis, eval_prod, others, List.prod_toFinset _ (nodup.filter _), weightAtZero]
  congr 1
  apply List.map_congr_left
  intro j _
  simp only [Lagrange.basisDivisor, eval_mul, eval_C, eval_sub, eval_X]
  ring

theorem eval_zero_eq_sum {node : ι → F} {indexes : List ι} (nodup : indexes.Nodup)
    (apart : Set.InjOn node {i | i ∈ indexes}) {f : F[X]} (degree : f.degree < indexes.length) :
    (indexes.map fun i => weightAtZero node indexes i * f.eval (node i)).sum = f.eval 0 := by
  have injective : Set.InjOn node indexes.toFinset := by
    intro i first j second same
    exact apart (List.mem_toFinset.mp first) (List.mem_toFinset.mp second) same
  have count : f.degree < indexes.toFinset.card := by
    rwa [List.toFinset_card_of_nodup nodup]
  have interpolated := congrArg (Polynomial.eval 0) (Lagrange.eq_interpolate injective count)
  rw [interpolated, Lagrange.interpolate_apply, eval_finsetSum, List.sum_toFinset _ nodup]
  congr 1
  apply List.map_congr_left
  intro i _
  rw [eval_mul, eval_C, basis_eval_zero node nodup, mul_comm]

end Field

section PrimeOrder

variable {A : Type*} [AddCommGroup A] {p : Nat} {base : A}

def multiples (vanishes : p • base = 0) : ZMod p →+ A :=
  ZMod.lift p ⟨zmultiplesHom A base, by simpa using vanishes⟩

theorem multiples_natCast (vanishes : p • base = 0) (n : Nat) :
    multiples vanishes (n : ZMod p) = n • base := by
  have lifted := ZMod.lift_coe p ⟨zmultiplesHom A base, by simpa using vanishes⟩ (n : Int)
  simpa [multiples] using lifted

theorem multiples_eq_val [NeZero p] (vanishes : p • base = 0) (x : ZMod p) :
    multiples vanishes x = x.val • base := by
  rw [← multiples_natCast vanishes, ZMod.natCast_zmod_val]

theorem nsmul_multiples (vanishes : p • base = 0) (n : Nat) (x : ZMod p) :
    n • multiples vanishes x = multiples vanishes (n * x) := by
  rw [← map_nsmul, nsmul_eq_mul]

theorem nsmul_val_nsmul_base [NeZero p] (vanishes : p • base = 0) (x : ZMod p) :
    p • x.val • base = 0 := by
  rw [smul_comm, vanishes, smul_zero]

end PrimeOrder

end Interpolation
