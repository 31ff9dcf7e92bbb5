import V3Keeper.Library.Growth
import V3Keeper.Library.Python

/-!
EIP-1559 fees as `src/common/transaction.py` computes them. Amounts are in wei and
the ratios 1.125 and 1.1 are the rationals 9/8 and 11/10.
-/

namespace V3Keeper

open Python Growth

/-- Transaction parameters. A key that is absent is `none`. -/
structure TxParams where
  nonce : Option Nat := none
  maxFeePerGas : Option Nat := none
  maxPriorityFeePerGas : Option Nat := none
  other : List (String × Nat) := []
  deriving DecidableEq, Repr

structure Fees where
  feePerGas : Nat
  priorityFeePerGas : Nat
  maxFeePerGas : Nat
  priority_le_fee : priorityFeePerGas ≤ feePerGas
  fee_le_max : feePerGas ≤ maxFeePerGas
  deriving DecidableEq

namespace Fees

/-- The constructor, with `_cap`. -/
def capped (feePerGas priorityFeePerGas maxFeePerGas : Nat) : Fees where
  feePerGas := min feePerGas maxFeePerGas
  priorityFeePerGas := min priorityFeePerGas (min feePerGas maxFeePerGas)
  maxFeePerGas := maxFeePerGas
  priority_le_fee := Nat.min_le_right _ _
  fee_le_max := Nat.min_le_right _ _

def fromTxParams (txParams : TxParams) (maxFeePerGas : Nat) : Except PyError Fees :=
  match txParams.maxFeePerGas, txParams.maxPriorityFeePerGas with
  | some fee, some priority => .ok (capped fee priority maxFeePerGas)
  | _, _ => .error .keyError

def toTxParams (fees : Fees) (txParams : TxParams) : TxParams :=
  { txParams with
    maxFeePerGas := some fees.feePerGas
    maxPriorityFeePerGas := some fees.priorityFeePerGas }

/-- `_bump`: `ceil(value * REPLACEMENT_GAS_BUMP)`. -/
def bumpValue (value : Nat) : Nat := scaleUp 9 8 value

/-- `ceil(value * MIN_REPLACEMENT_RATIO)`. -/
def minReplacement (value : Nat) : Nat := scaleUp 11 10 value

def bump (fees : Fees) : Fees :=
  capped (bumpValue fees.feePerGas) (bumpValue fees.priorityFeePerGas) fees.maxFeePerGas

def maxWith (fees other : Fees) : Fees :=
  capped (max fees.feePerGas other.feePerGas)
    (max fees.priorityFeePerGas other.priorityFeePerGas) fees.maxFeePerGas

def replaces (fees prev : Fees) : Bool :=
  minReplacement prev.feePerGas ≤ fees.feePerGas &&
    minReplacement prev.priorityFeePerGas ≤ fees.priorityFeePerGas

@[simp] theorem capped_maxFeePerGas (fee priority ceiling : Nat) :
    (capped fee priority ceiling).maxFeePerGas = ceiling := rfl

@[simp] theorem capped_feePerGas (fee priority ceiling : Nat) :
    (capped fee priority ceiling).feePerGas = min fee ceiling := rfl

@[simp] theorem capped_priorityFeePerGas (fee priority ceiling : Nat) :
    (capped fee priority ceiling).priorityFeePerGas = min priority (min fee ceiling) := rfl

theorem capped_self (fees : Fees) :
    capped fees.feePerGas fees.priorityFeePerGas fees.maxFeePerGas = fees := by
  obtain ⟨fee, priority, ceiling, priorityBound, feeBound⟩ := fees
  simp [capped, feeBound, priorityBound]

theorem fromTxParams_toTxParams (fees : Fees) (txParams : TxParams) :
    fromTxParams (fees.toTxParams txParams) fees.maxFeePerGas = .ok fees := by
  simp only [fromTxParams, toTxParams]
  rw [capped_self]

theorem fromTxParams_ok {txParams : TxParams} {ceiling : Nat} {fees : Fees}
    (read : fromTxParams txParams ceiling = .ok fees) : fees.maxFeePerGas = ceiling := by
  unfold fromTxParams at read
  split at read
  · cases read; rfl
  · cases read

theorem minReplacement_monotone : Monotone minReplacement := scaleUp_monotone (by decide)

theorem minReplacement_le_bumpValue (value : Nat) : minReplacement value ≤ bumpValue value :=
  scaleUp_le_scaleUp (by decide) (by decide) (by decide) value

theorem le_minReplacement (value : Nat) : value ≤ minReplacement value := by
  have spec := scaleUp_spec 11 (show 0 < 10 by decide) value
  unfold minReplacement
  omega

theorem lt_minReplacement {value : Nat} (positive : 0 < value) : value < minReplacement value :=
  (lt_scaleUp_iff (by decide)).mpr (by omega)

theorem replaces_iff (fees prev : Fees) :
    fees.replaces prev = true ↔ minReplacement prev.feePerGas ≤ fees.feePerGas ∧
      minReplacement prev.priorityFeePerGas ≤ fees.priorityFeePerGas := by
  simp [replaces]

/-- A bump replaces the fees it starts from exactly when the node's minimum for the
fee itself fits below the ceiling: the clamped priority fee never decides. -/
theorem maxWith_bump_replaces_iff (quote prev : Fees)
    (sameCeiling : quote.maxFeePerGas = prev.maxFeePerGas) :
    (quote.maxWith prev.bump).replaces prev = true ↔
      minReplacement prev.feePerGas ≤ prev.maxFeePerGas := by
  have feeBump := minReplacement_le_bumpValue prev.feePerGas
  have priorityBump := minReplacement_le_bumpValue prev.priorityFeePerGas
  have ordered : minReplacement prev.priorityFeePerGas ≤ minReplacement prev.feePerGas :=
    minReplacement_monotone prev.priority_le_fee
  rw [replaces_iff]
  simp only [maxWith, bump, capped_feePerGas, capped_priorityFeePerGas, sameCeiling]
  omega

end Fees

end V3Keeper
