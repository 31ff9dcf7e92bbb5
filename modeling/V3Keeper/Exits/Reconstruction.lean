import Mathlib.NumberTheory.LucasPrimality
import Mathlib.Tactic.FinCases
import Mathlib.Tactic.NormNum.Prime
import Mathlib.Tactic.ReduceModChar
import V3Keeper.Exits.Crypto
import V3Keeper.Library.Interpolation

/-!
Reconstruction from signature shares: at least as many shares as the recovery threshold,
whichever they are, give the signature of the shared secret.
-/

namespace V3Keeper

open Python Polynomial Interpolation

/-- What is relied on of `py_ecc`: its points stand for the elements of a group on which
`add` and `multiply` are the operations, and a signature determines its element. -/
structure PyEcc {G : Type*} (curve : Curve G) (A : Type*) [AddCommGroup A] (p : Nat) where
  element : G → A
  signature : A → Bytes
  order : curve.order = p
  zero : element curve.zero = 0
  add : ∀ left right, element (curve.add left right) = element left + element right
  multiply : ∀ point (n : Nat), element (curve.multiply point n) = n • element point
  inverse : ∀ a : Int, ¬ (p : Int) ∣ a → curve.primeFieldInv a p * a ≡ 1 [ZMOD p]
  encode : ∀ point, curve.g2ToSignature point = signature (element point)
  decode : ∀ a, p • a = 0 →
    ∃ point, curve.signatureToG2 (signature a) = .ok point ∧ element point = a

/-- The shares of the secret `f 0`: the share of index `i` signs with `f (i + 1)`. -/
structure Sharing {G A : Type*} [AddCommGroup A] {curve : Curve G} {p : Nat}
    (ecc : PyEcc curve A p) (f : (ZMod p)[X]) (base : A) (threshold : Nat)
    (shares : PyDict Nat Bytes) : Prop where
  enough : threshold ≤ shares.size
  indexes : ∀ i ∈ shares.keys, i < p - 1
  values : ∀ share ∈ shares.entries,
    share.2 = ecc.signature ((f.eval ((share.1 : ZMod p) + 1)).val • base)

section

variable {G A : Type*} [AddCommGroup A] {curve : Curve G} {p : Nat} [Fact p.Prime]

theorem primeFieldInv_cast (ecc : PyEcc curve A p) {i j : Nat} (iBound : i < p - 1)
    (jBound : j < p - 1) (different : j ≠ i) :
    ((curve.primeFieldInv ((i : Int) - j) curve.order : Int) : ZMod p) =
      ((i : ZMod p) - j)⁻¹ := by
  have apart : ¬ (p : Int) ∣ (i : Int) - j := by
    intro divides
    have small : ((i : Int) - j).natAbs < p := by omega
    have zero := Int.eq_zero_of_dvd_of_natAbs_lt_natAbs divides (by simpa using small)
    omega
  have inverse := (ZMod.intCast_eq_intCast_iff _ _ p).mpr (ecc.inverse _ apart)
  push_cast at inverse
  rw [ecc.order]
  exact eq_inv_of_mul_eq_one_left inverse

theorem shareCoefficient_nonneg (ecc : PyEcc curve A p) (i : Nat) (indexes : List Nat) :
    0 ≤ shareCoefficient curve i indexes := by
  have positive : curve.order ≠ 0 := by
    rw [ecc.order]
    exact_mod_cast (Fact.out : p.Prime).ne_zero
  have kept : ∀ start : Int, 0 ≤ start → 0 ≤ indexes.foldl (fun coef j =>
      if j = i then coef
      else -coef * (j + 1) * curve.primeFieldInv ((i : Int) - j) curve.order % curve.order)
      start := by
    induction indexes with
    | nil => exact fun start nonneg => nonneg
    | cons j rest ih =>
        intro start nonneg
        apply ih
        dsimp only
        split
        · exact nonneg
        · exact Int.emod_nonneg _ positive
  exact kept 1 (by decide)

theorem shareCoefficient_cast (ecc : PyEcc curve A p) {i : Nat} (iBound : i < p - 1)
    {indexes : List Nat} (bounds : ∀ j ∈ indexes, j < p - 1) :
    ((shareCoefficient curve i indexes : Int) : ZMod p) =
      weightAtZero (fun j : Nat => (j : ZMod p) + 1) indexes i := by
  have product : ∀ start : Int, ((indexes.foldl (fun coef j =>
      if j = i then coef
      else -coef * (j + 1) * curve.primeFieldInv ((i : Int) - j) curve.order % curve.order)
      start : Int) : ZMod p) =
      start * weightAtZero (fun j : Nat => (j : ZMod p) + 1) indexes i := by
    induction indexes with
    | nil => simp [weightAtZero]
    | cons j rest ih =>
        intro start
        have restBounds := fun other member => bounds other (List.mem_cons_of_mem j member)
        rw [List.foldl_cons, ih restBounds]
        by_cases same : j = i
        · simp [weightAtZero, same]
        · have inverse := primeFieldInv_cast ecc iBound (bounds j List.mem_cons_self) same
          rw [if_neg same]
          rw [ecc.order] at inverse ⊢
          rw [ZMod.intCast_mod]
          push_cast
          rw [inverse]
          simp only [weightAtZero, List.filter_cons, ne_eq, same, not_false_eq_true,
            decide_true, if_true, List.map_cons, List.prod_cons, add_sub_add_right_eq_sub]
          ring
  simpa [shareCoefficient] using product 1

theorem addShares_element (ecc : PyEcc curve A p) {f : (ZMod p)[X]} {base : A}
    (primeOrder : p • base = 0) {indexes : List Nat} (bounds : ∀ j ∈ indexes, j < p - 1)
    {entries : List (Nat × Bytes)} (known : ∀ share ∈ entries, share.1 ∈ indexes)
    (values : ∀ share ∈ entries,
      share.2 = ecc.signature ((f.eval ((share.1 : ZMod p) + 1)).val • base)) (r : G) :
    ∃ sum, addShares curve indexes r entries = .ok sum ∧
      ecc.element sum = ecc.element r + multiples primeOrder ((entries.map fun share =>
        weightAtZero (fun j : Nat => (j : ZMod p) + 1) indexes share.1 *
          f.eval ((share.1 : ZMod p) + 1)).sum) := by
  induction entries generalizing r with
  | nil => exact ⟨r, rfl, by simp⟩
  | cons share rest ih =>
      obtain ⟨i, sig⟩ := share
      have value : sig = _ := values (i, sig) List.mem_cons_self
      have bound := bounds i (known (i, sig) List.mem_cons_self)
      obtain ⟨sigPoint, decoded, element⟩ := ecc.decode _
        (nsmul_val_nsmul_base primeOrder (f.eval ((i : ZMod p) + 1)))
      obtain ⟨coef, coefEq⟩ := Int.eq_ofNat_of_zero_le (shareCoefficient_nonneg ecc i indexes)
      have weight := shareCoefficient_cast ecc bound bounds
      rw [coefEq, Int.cast_natCast] at weight
      obtain ⟨sum, added, total⟩ := ih
        (fun other member => known other (List.mem_cons_of_mem _ member))
        (fun other member => values other (List.mem_cons_of_mem _ member))
        (curve.add r (curve.multiply sigPoint coef))
      refine ⟨sum, ?_, ?_⟩
      · rw [addShares, value]
        simp only [decoded, coefEq]
        exact added
      · rw [total, ecc.add, ecc.multiply, element, ← multiples_eq_val primeOrder,
          nsmul_multiples, weight, List.map_cons, List.sum_cons, map_add, add_assoc]

theorem reconstruct_element (ecc : PyEcc curve A p) {f : (ZMod p)[X]} {base : A}
    (primeOrder : p • base = 0) {threshold : Nat} (degree : f.degree < threshold)
    {shares : PyDict Nat Bytes} (sharing : Sharing ecc f base threshold shares) :
    reconstructSharedBlsSignature curve shares =
      .ok (ecc.signature ((f.eval 0).val • base)) := by
  have known : ∀ share ∈ shares.entries, share.1 ∈ shares.keys :=
    fun share member => List.mem_map_of_mem member
  have apart : Set.InjOn (fun j : Nat => (j : ZMod p) + 1) {i | i ∈ shares.keys} := by
    intro i iMember j jMember same
    have iBound := sharing.indexes i iMember
    have jBound := sharing.indexes j jMember
    have residues := (ZMod.natCast_eq_natCast_iff' i j p).mp (add_right_cancel same)
    rwa [Nat.mod_eq_of_lt (by omega), Nat.mod_eq_of_lt (by omega)] at residues
  have enough : f.degree < shares.keys.length := by
    refine lt_of_lt_of_le degree ?_
    rw [PyDict.keys, List.length_map]
    exact_mod_cast sharing.enough
  have total := eval_zero_eq_sum shares.nodup_keys apart enough
  obtain ⟨sum, added, element⟩ := addShares_element ecc primeOrder sharing.indexes known
    sharing.values curve.zero
  rw [PyDict.keys, List.map_map] at total
  rw [ecc.zero, zero_add] at element
  simp only [reconstructSharedBlsSignature, added, ecc.encode, element]
  rw [← multiples_eq_val primeOrder, ← total]
  rfl

/-- Any shares of at least the threshold, in any order, reconstruct the signature of the
shared secret. -/
theorem reconstructSharedBlsSignature_sharing (ecc : PyEcc curve A p) {f : (ZMod p)[X]}
    {base : A} (primeOrder : p • base = 0) {threshold : Nat} (degree : f.degree < threshold)
    {shares others : PyDict Nat Bytes} (sharing : Sharing ecc f base threshold shares)
    (otherSharing : Sharing ecc f base threshold others) :
    reconstructSharedBlsSignature curve shares =
        .ok (ecc.signature ((f.eval 0).val • base)) ∧
      reconstructSharedBlsSignature curve others =
        reconstructSharedBlsSignature curve shares := by
  have secret := reconstruct_element ecc primeOrder degree sharing
  refine ⟨secret, ?_⟩
  rw [secret]
  exact reconstruct_element ecc primeOrder degree otherSharing

end

/-- The prime order of the BLS12-381 groups. -/
abbrev scalarOrder : Nat :=
  52435875175126190479447740508185965837690552500527637822603658699938581184513

theorem scalarOrder_factor {q : Nat} (prime : q.Prime)
    (divides : q ∣ 52435875175126190479447740508185965837690552500527637822603658699938581184512) :
    q ∈ [2, 3, 11, 19, 10177, 125527, 859267, 906349, 2508409, 2529403, 52437899, 254760293] := by
  have factored : 52435875175126190479447740508185965837690552500527637822603658699938581184512 =
      2 ^ 32 * 906349 ^ 2 * 254760293 ^ 2 *
        (3 * 11 * 19 * 10177 * 125527 * 859267 * 2508409 * 2529403 * 52437899) := by
    norm_num
  rw [factored] at divides
  simp only [prime.dvd_mul] at divides
  have same : ∀ factor : Nat, factor.Prime → q ∣ factor → q = factor :=
    fun factor factorPrime => (Nat.prime_dvd_prime_iff_eq prime factorPrime).mp
  simp only [List.mem_cons]
  rcases divides with ((power | power) | power) | rest
  · have := same _ (by norm_num) (prime.dvd_of_dvd_pow power)
    omega
  · have := same _ (by norm_num) (prime.dvd_of_dvd_pow power)
    omega
  · have := same _ (by norm_num) (prime.dvd_of_dvd_pow power)
    omega
  · rcases rest with (((((((single | single) | single) | single) | single) | single) | single) |
      single) | single
    all_goals
      have := same _ (by norm_num) single
      omega

theorem natCast_ne_one {p c : Nat} (low : 1 < c) (high : c < p) : (c : ZMod p) ≠ 1 := by
  intro same
  rw [← Nat.cast_one, ZMod.natCast_eq_natCast_iff', Nat.mod_eq_of_lt high,
    Nat.mod_eq_of_lt (by omega)] at same
  omega

/-- Lucas's test with the generator 7. -/
instance scalarOrder_prime : Fact scalarOrder.Prime := by
  refine ⟨lucas_primality
    52435875175126190479447740508185965837690552500527637822603658699938581184513 7 ?_ ?_⟩
  · norm_num only
    reduce_mod_char
  · intro q prime divides
    have factor := scalarOrder_factor prime (by simpa using divides)
    fin_cases factor
    all_goals
      norm_num only
      reduce_mod_char
      exact fun one => natCast_ne_one (by norm_num) (by norm_num) one

theorem gcdA_inverse {p : Nat} (prime : p.Prime) {a : Int} (apart : ¬ (p : Int) ∣ a) :
    Int.gcdA a p % p * a ≡ 1 [ZMOD p] := by
  have coprime : Int.gcd a p = 1 := by
    rw [Int.gcd_comm]
    refine (prime.coprime_iff_not_dvd).mpr ?_
    rwa [← Int.natCast_dvd]
  have bezout := Int.gcd_eq_gcd_ab a p
  rw [coprime, Nat.cast_one] at bezout
  refine ((Int.mod_modEq (Int.gcdA a p) p).mul_right a).trans ?_
  refine Int.modEq_iff_dvd.mpr ⟨Int.gcdB a p, ?_⟩
  linarith

def scalarCurve : Curve (ZMod scalarOrder) where
  order := scalarOrder
  zero := 0
  add := fun left right => left + right
  multiply := fun point n => n * point
  primeFieldInv := fun a n => Int.gcdA a n % n
  signatureToG2 := fun bytes => .ok (Nat.ofDigits 256 (bytes.map UInt8.toNat) : Nat)
  g2ToSignature := fun point => (Nat.digits 256 point.val).map UInt8.ofNat

def scalarEcc : PyEcc scalarCurve (ZMod scalarOrder) scalarOrder where
  element := id
  signature := scalarCurve.g2ToSignature
  order := rfl
  zero := rfl
  add := fun _ _ => rfl
  multiply := fun point n => by simp [scalarCurve, nsmul_eq_mul]
  inverse := fun _ apart => gcdA_inverse scalarOrder_prime.out apart
  encode := fun _ => rfl
  decode := by
    intro a _
    refine ⟨a, ?_, rfl⟩
    have bytes : (((Nat.digits 256 a.val).map UInt8.ofNat).map UInt8.toNat) =
        Nat.digits 256 a.val := by
      rw [List.map_map]
      refine (List.map_congr_left ?_).trans (List.map_id _)
      intro digit member
      have small := Nat.digits_lt_base (by norm_num) member
      simp only [Function.comp_apply, UInt8.toNat_ofNat', id]
      omega
    simp only [scalarCurve, bytes, Nat.ofDigits_digits, ZMod.natCast_zmod_val]

theorem scalarEcc_signature {secret : Nat} (positive : 0 < secret) (byte : secret < 256) :
    scalarEcc.signature (secret : ZMod scalarOrder) = [UInt8.ofNat secret] := by
  have value : (secret : ZMod scalarOrder).val = secret :=
    ZMod.val_natCast_of_lt (lt_trans byte (by norm_num))
  change (Nat.digits 256 (secret : ZMod scalarOrder).val).map UInt8.ofNat = _
  rw [value, Nat.digits_of_lt 256 secret (by omega) byte]
  rfl

def twoShares : PyDict Nat Bytes := ⟨[(0, [6]), (2, [8])], by decide⟩

def threeShares : PyDict Nat Bytes := ⟨[(4, [10]), (1, [7]), (2, [8])], by decide⟩

theorem linear_sharing {shares : PyDict Nat Bytes} (enough : 2 ≤ shares.size)
    (indexes : ∀ i ∈ shares.keys, i < 250)
    (values : ∀ share ∈ shares.entries, share.2 = [UInt8.ofNat (share.1 + 6)]) :
    Sharing scalarEcc (X + C 5) 1 2 shares where
  enough := enough
  indexes := by
    intro i member
    exact lt_trans (indexes i member) (by norm_num)
  values := by
    intro share member
    have small := indexes share.1 (List.mem_map_of_mem member)
    have value : (X + C 5 : (ZMod scalarOrder)[X]).eval ((share.1 : ZMod scalarOrder) + 1) =
        ((share.1 + 6 : Nat) : ZMod scalarOrder) := by
      rw [eval_add, eval_X, eval_C]
      push_cast
      ring
    rw [value, nsmul_one, ZMod.natCast_zmod_val, scalarEcc_signature (by omega) (by omega),
      values share member]

theorem reconstructSharedBlsSignature_linear :
    reconstructSharedBlsSignature scalarCurve twoShares = .ok [5] ∧
      reconstructSharedBlsSignature scalarCurve threeShares = .ok [5] := by
  have degree : (X + C 5 : (ZMod scalarOrder)[X]).degree < (2 : Nat) := by
    rw [degree_X_add_C]
    decide
  have secret : scalarEcc.signature (((X + C 5 : (ZMod scalarOrder)[X]).eval 0).val • 1) = [5] := by
    rw [eval_add, eval_X, eval_C, zero_add, nsmul_one, ZMod.natCast_zmod_val]
    have five : scalarEcc.signature ((5 : Nat) : ZMod scalarOrder) = [5] :=
      scalarEcc_signature (by decide) (by decide)
    exact five
  have two : Sharing scalarEcc (X + C 5) 1 2 twoShares :=
    linear_sharing (by decide) (by decide) (by decide)
  have three : Sharing scalarEcc (X + C 5) 1 2 threeShares :=
    linear_sharing (by decide) (by decide) (by decide)
  have vanishes : scalarOrder • (1 : ZMod scalarOrder) = 0 := by
    rw [nsmul_one, ZMod.natCast_self]
  have both := reconstructSharedBlsSignature_sharing scalarEcc vanishes degree two three
  rw [secret] at both
  exact ⟨both.1, both.2.trans both.1⟩

end V3Keeper
