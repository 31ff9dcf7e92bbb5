import V3Keeper.Library.PyDict
import V3Keeper.Library.Python
import V3Keeper.Rewards.Cache

/-! `reconstruct_shared_bls_signature` of `src/exits/crypto.py`. -/

namespace V3Keeper

open Python

structure Curve (G : Type*) where
  order : Int
  zero : G
  add : G → G → G
  multiply : G → Int → G
  primeFieldInv : Int → Int → Int
  signatureToG2 : Bytes → Except PyError G
  g2ToSignature : G → Bytes

variable {G : Type*}

def shareCoefficient (curve : Curve G) (i : Nat) (indexes : List Nat) : Int :=
  indexes.foldl (fun coef j =>
    if j = i then coef
    else -coef * (j + 1) * curve.primeFieldInv ((i : Int) - j) curve.order % curve.order) 1

def addShares (curve : Curve G) (indexes : List Nat) (r : G) :
    List (Nat × Bytes) → Except PyError G
  | [] => .ok r
  | (i, sig) :: rest =>
      match curve.signatureToG2 sig with
      | .error error => .error error
      | .ok sigPoint =>
          addShares curve indexes
            (curve.add r (curve.multiply sigPoint (shareCoefficient curve i indexes))) rest

def reconstructSharedBlsSignature (curve : Curve G) (signatures : PyDict Nat Bytes) :
    Except PyError Bytes :=
  match addShares curve signatures.keys curve.zero signatures.entries with
  | .error error => .error error
  | .ok r => .ok (curve.g2ToSignature r)

theorem addShares_ok_iff (curve : Curve G) (indexes : List Nat) (r : G)
    (entries : List (Nat × Bytes)) :
    (∃ sum, addShares curve indexes r entries = .ok sum) ↔
      ∀ entry ∈ entries, ∃ point, curve.signatureToG2 entry.2 = .ok point := by
  induction entries generalizing r with
  | nil => simp [addShares]
  | cons entry rest ih =>
      rw [List.forall_mem_cons]
      cases decoded : curve.signatureToG2 entry.2 with
      | error error => simp [addShares, decoded]
      | ok point => simp [addShares, decoded, ih]

theorem reconstruct_ok_iff (curve : Curve G) (signatures : PyDict Nat Bytes) :
    (∃ signature, reconstructSharedBlsSignature curve signatures = .ok signature) ↔
      ∀ entry ∈ signatures.entries, ∃ point, curve.signatureToG2 entry.2 = .ok point := by
  rw [← addShares_ok_iff curve signatures.keys curve.zero]
  unfold reconstructSharedBlsSignature
  cases addShares curve signatures.keys curve.zero signatures.entries <;> simp

end V3Keeper
