import V3Keeper.Transaction.Recovery

/-!
Whether `_submit_high_priority` sends a replacement of a recorded transaction: it does
exactly where some pair of fees below the ceiling replaces the recorded one.
-/

namespace V3Keeper

open Python

theorem Fees.exists_replaces_iff (prev : Fees) (ceiling : Nat) :
    (∃ fees : Fees, fees.maxFeePerGas = ceiling ∧ fees.replaces prev = true) ↔
      minReplacement prev.feePerGas ≤ ceiling := by
  constructor
  · rintro ⟨fees, rfl, replaces⟩
    exact ((replaces_iff fees prev).mp replaces).1.trans fees.fee_le_max
  · intro room
    have ordered : minReplacement prev.priorityFeePerGas ≤ minReplacement prev.feePerGas :=
      minReplacement_monotone prev.priority_le_fee
    refine ⟨capped ceiling ceiling ceiling, rfl, ?_⟩
    rw [replaces_iff]
    simp only [capped_feePerGas, capped_priorityFeePerGas]
    omega

theorem submitHighPriority_silent {settings : Settings} {manager : TransactionManager}
    {transact : TxParams → NodeAnswer} {txParams : TxParams} {nonce : Nat}
    {quote : Except PyError TxParams}
    (declined : highPriorityFees settings manager nonce quote = .ok none) :
    (submitHighPriority settings manager transact txParams nonce quote).1 = ⟨[], .ok none⟩ := by
  rw [submitHighPriority, declined]

theorem highPriorityFees_total {settings : Settings} {manager : TransactionManager} {nonce : Nat}
    {prev : TxParams} {prevFees : Fees} (found : manager.nonceToTxParams nonce = some prev)
    (read : Fees.fromTxParams prev settings.maxFeePerGas = .ok prevFees) (quote : GasQuote) :
    ∃ chosen, highPriorityFees settings manager nonce (.ok quote.toTxParams) = .ok chosen := by
  simp only [highPriorityFees, quoteFees, found, read, Except.ok.injEq, exists_eq']

/-- A replacement is withheld exactly where no pair of fees under the ceiling would
replace the recorded pair, and one that is sent replaces it and covers the quote. -/
theorem submitHighPriority_withholds_iff (settings : Settings) (manager : TransactionManager)
    {nonce : Nat} {prev : TxParams} {prevFees : Fees}
    (underCeiling : prevFees.maxFeePerGas = settings.maxFeePerGas)
    (recorded : manager.nonceToTxParams nonce = some (prevFees.toTxParams prev))
    (transact : TxParams → NodeAnswer) (txParams : TxParams) (quote : GasQuote) :
    let submission :=
      (submitHighPriority settings manager transact txParams nonce (.ok quote.toTxParams)).1
    (submission.sends = [] ↔ ¬∃ fees : Fees,
        fees.maxFeePerGas = settings.maxFeePerGas ∧ fees.replaces prevFees = true) ∧
      (submission.sends = [] ↔ submission = ⟨[], .ok none⟩) ∧
      ∀ send ∈ submission.sends, ∃ fees : Fees,
        fees.maxFeePerGas = settings.maxFeePerGas ∧
        send.txParams.maxFeePerGas = some fees.feePerGas ∧
        send.txParams.maxPriorityFeePerGas = some fees.priorityFeePerGas ∧
        fees.replaces prevFees = true ∧
        min quote.maxFeePerGas settings.maxFeePerGas ≤ fees.feePerGas ∧
        min quote.maxPriorityFeePerGas (min quote.maxFeePerGas settings.maxFeePerGas) ≤
          fees.priorityFeePerGas := by
  intro submission
  have read : Fees.fromTxParams (prevFees.toTxParams prev) settings.maxFeePerGas =
      .ok prevFees := by
    rw [← underCeiling]
    exact Fees.fromTxParams_toTxParams prevFees prev
  have declines := highPriorityFees_declines_iff recorded read quote
  rw [← not_le, ← Fees.exists_replaces_iff prevFees settings.maxFeePerGas] at declines
  obtain ⟨chosen, chosenEq⟩ := highPriorityFees_total recorded read quote
  cases chosen with
  | none =>
      have silent : submission = ⟨[], .ok none⟩ := submitHighPriority_silent chosenEq
      rw [silent]
      exact ⟨iff_of_true rfl (declines.mp chosenEq), iff_of_true rfl rfl, by simp⟩
  | some fees =>
      have sends : ¬highPriorityFees settings manager nonce (.ok quote.toTxParams) = .ok none := by
        simp [chosenEq]
      have sent : submission.sends = [highPrioritySend txParams nonce transact fees] :=
        (submitHighPriority_sent chosenEq).1
      have loud : submission.sends ≠ [] := by simp [sent]
      refine ⟨iff_of_false loud (mt declines.mpr sends), iff_of_false loud ?_, ?_⟩
      · intro silent
        exact loud (congrArg Submission.sends silent)
      · obtain ⟨ceiling, ⟨gasParams, quoted, quoteEq, quotedEq, fee, priority⟩, replaces⟩ :=
          highPriorityFees_sent chosenEq
        rw [← Except.ok.inj quoteEq, quoteFees] at quotedEq
        rw [← Except.ok.inj quotedEq] at fee priority
        intro send member
        rw [sent, List.mem_singleton] at member
        subst member
        exact ⟨fees, ceiling, rfl, rfl, replaces _ _ recorded read, fee, priority⟩

def nearCeiling : Fees := Fees.capped 95 10 100

theorem submitHighPriority_withholds_iff_near :
    let manager := TransactionManager.record {} 7 (nearCeiling.toTxParams {})
    (submitHighPriority ⟨100, 1⟩ manager (fun _ => .accepted 0) {} 7
        (.ok (GasQuote.mk 50 3).toTxParams)).1.sends = [] ∧
      ¬∃ fees : Fees, fees.maxFeePerGas = 100 ∧ fees.replaces nearCeiling = true := by
  intro manager
  have withheld := (submitHighPriority_withholds_iff ⟨100, 1⟩ manager rfl
    (TransactionManager.record_same {} 7 (nearCeiling.toTxParams {})) (fun _ => .accepted 0) {}
    ⟨50, 3⟩).1
  have silent : (submitHighPriority ⟨100, 1⟩ manager (fun _ => .accepted 0) {} 7
      (.ok (GasQuote.mk 50 3).toTxParams)).1.sends = [] := rfl
  exact ⟨silent, withheld.mp silent⟩

end V3Keeper
