import V3Keeper.Transaction.Laws

/-!
Recovery of a nonce that a transaction unknown to the manager occupies, as after a
restart: successive `_submit_high_priority` calls at that nonce, against a node that
holds the unknown transaction.
-/

namespace V3Keeper

open Python StepRun

structure GasQuote where
  maxFeePerGas : Nat
  maxPriorityFeePerGas : Nat
  deriving DecidableEq, Repr

def GasQuote.toTxParams (quote : GasQuote) : TxParams :=
  { maxFeePerGas := some quote.maxFeePerGas
    maxPriorityFeePerGas := some quote.maxPriorityFeePerGas }

/-- The node holds a transaction with these fees: it accepts a replacement whose fees
both rise by 10% and rejects every other one as fee-too-low. -/
structure HoldsPending (pendingFee pendingPriority : Nat) (node : TxParams → NodeAnswer) :
    Prop where
  accepts : ∀ txParams, Fees.minReplacement pendingFee ≤ txParams.fee →
    Fees.minReplacement pendingPriority ≤ txParams.priorityFee →
      ∃ txHash, node txParams = .accepted txHash
  rejects : ∀ txParams, ¬(Fees.minReplacement pendingFee ≤ txParams.fee ∧
      Fees.minReplacement pendingPriority ≤ txParams.priorityFee) →
    ∃ error, node txParams = .rejected error ∧ isFeeTooLowError error = true

def pendingNode (pendingFee pendingPriority : Nat) (txParams : TxParams) : NodeAnswer :=
  if Fees.minReplacement pendingFee ≤ txParams.fee ∧
      Fees.minReplacement pendingPriority ≤ txParams.priorityFee then .accepted 0
  else .rejected ⟨some "replacement transaction underpriced", ""⟩

theorem pendingNode_holds (pendingFee pendingPriority : Nat) :
    HoldsPending pendingFee pendingPriority (pendingNode pendingFee pendingPriority) where
  accepts txParams feeEnough priorityEnough :=
    ⟨0, by simp [pendingNode, feeEnough, priorityEnough]⟩
  rejects txParams short := ⟨_, if_neg short, by decide⟩

def Send.isAccepted (send : Send) : Bool :=
  match send.answer with
  | .accepted _ => true
  | _ => false

def recoveryStep (settings : Settings) (node : TxParams → NodeAnswer) (nonce : Nat)
    (manager : TransactionManager) (call : TxParams × GasQuote) :
    Submission × TransactionManager :=
  submitHighPriority settings manager node call.1 nonce (.ok call.2.toTxParams)

abbrev RecoveryRun := List (Transition TransactionManager (TxParams × GasQuote) Submission)

def NothingAccepted (past : RecoveryRun) : Prop :=
  ∀ call ∈ past, ∀ send ∈ call.output.sends, send.isAccepted = false

def NeverGivesUpEarly (calls : RecoveryRun) : Prop :=
  ∀ past call later, calls = past ++ call :: later → NothingAccepted past →
    call.output.sends ≠ []

def Raisable (settings : Settings) (nonce : Nat) (manager : TransactionManager) : Prop :=
  ∀ txParams, manager.nonceToTxParams nonce = some txParams →
    ∃ fees, Fees.fromTxParams txParams settings.maxFeePerGas = .ok fees ∧
      Fees.minReplacement fees.feePerGas ≤ settings.maxFeePerGas

theorem quoteFees (settings : Settings) (quote : GasQuote) :
    Fees.fromTxParams quote.toTxParams settings.maxFeePerGas = .ok
      (Fees.capped quote.maxFeePerGas quote.maxPriorityFeePerGas settings.maxFeePerGas) := rfl

theorem highPriorityFees_unrecorded (settings : Settings) {manager : TransactionManager}
    {nonce : Nat} (unrecorded : manager.nonceToTxParams nonce = none) (quote : GasQuote) :
    highPriorityFees settings manager nonce (.ok quote.toTxParams) = .ok (some
      (Fees.capped quote.maxFeePerGas quote.maxPriorityFeePerGas settings.maxFeePerGas)) := by
  simp [highPriorityFees, quoteFees, unrecorded]

theorem highPriorityFees_declines_iff {settings : Settings} {manager : TransactionManager}
    {nonce : Nat} {prev : TxParams} {prevFees : Fees}
    (found : manager.nonceToTxParams nonce = some prev)
    (read : Fees.fromTxParams prev settings.maxFeePerGas = .ok prevFees) (quote : GasQuote) :
    highPriorityFees settings manager nonce (.ok quote.toTxParams) = .ok none ↔
      settings.maxFeePerGas < Fees.minReplacement prevFees.feePerGas := by
  have ceiling := Fees.fromTxParams_ok read
  have decided := Fees.maxWith_bump_replaces_iff
    (Fees.capped quote.maxFeePerGas quote.maxPriorityFeePerGas settings.maxFeePerGas) prevFees
    (by simp [ceiling])
  rw [ceiling] at decided
  simp only [highPriorityFees, quoteFees, found, read, Except.ok.injEq, ite_eq_right_iff,
    reduceCtorEq, imp_false, decided, not_le]

theorem highPriorityFees_raisable {settings : Settings} {manager : TransactionManager}
    {nonce : Nat} (raisable : Raisable settings nonce manager) (quote : GasQuote) :
    ∃ fees, highPriorityFees settings manager nonce (.ok quote.toTxParams) = .ok (some fees) := by
  cases found : manager.nonceToTxParams nonce with
  | none => exact ⟨_, highPriorityFees_unrecorded settings found quote⟩
  | some prev =>
      obtain ⟨prevFees, read, room⟩ := raisable prev found
      have sends := mt (highPriorityFees_declines_iff found read quote).mp (not_lt.mpr room)
      simp only [highPriorityFees, quoteFees, found, read] at sends ⊢
      split at sends
      case isTrue replaced => exact ⟨_, by rw [if_pos replaced]⟩
      case isFalse => exact absurd rfl sends

theorem recoveryStep_sent {settings : Settings} (node : TxParams → NodeAnswer) {nonce : Nat}
    {manager : TransactionManager} (call : TxParams × GasQuote) {fees : Fees}
    (chosen : highPriorityFees settings manager nonce (.ok call.2.toTxParams) =
      .ok (some fees)) :
    (recoveryStep settings node nonce manager call).1.sends =
        [highPrioritySend call.1 nonce node fees] ∧
      (recoveryStep settings node nonce manager call).2 =
        recordSend manager nonce (highPrioritySend call.1 nonce node fees) :=
  submitHighPriority_sent chosen

theorem recoveryStep_declined {settings : Settings} (node : TxParams → NodeAnswer) {nonce : Nat}
    {manager : TransactionManager} (call : TxParams × GasQuote)
    (declined : highPriorityFees settings manager nonce (.ok call.2.toTxParams) = .ok none) :
    (recoveryStep settings node nonce manager call).1.sends = [] := by
  simp [recoveryStep, submitHighPriority, declined]

theorem highPrioritySend_rejected {pendingFee pendingPriority : Nat}
    {node : TxParams → NodeAnswer} (holds : HoldsPending pendingFee pendingPriority node)
    (txParams : TxParams) (nonce : Nat) (fees : Fees) :
    (highPrioritySend txParams nonce node fees).acceptedOrTooLow = true ∧
      ((highPrioritySend txParams nonce node fees).isAccepted = false ↔
        ¬(Fees.minReplacement pendingFee ≤ fees.feePerGas ∧
          Fees.minReplacement pendingPriority ≤ fees.priorityFeePerGas)) := by
  let send := highPrioritySend txParams nonce node fees
  by_cases enough : Fees.minReplacement pendingFee ≤ fees.feePerGas ∧
      Fees.minReplacement pendingPriority ≤ fees.priorityFeePerGas
  · obtain ⟨txHash, accepted⟩ := holds.accepts send.txParams enough.1 enough.2
    have answered : send.answer = .accepted txHash := accepted
    simp [send, Send.acceptedOrTooLow, Send.isAccepted, answered, enough]
  · obtain ⟨error, rejected, low⟩ := holds.rejects send.txParams enough
    have answered : send.answer = .rejected error := rejected
    simp [send, Send.acceptedOrTooLow, Send.isAccepted, answered, low, enough]

/-- The exact condition on the pending fees and the ceiling. A rejected attempt is
recorded, and it leaves no legal bump once it lies within 10% of the ceiling: a
pending priority fee lets the attempt be rejected at any fee, otherwise the highest
rejected fee is the one just below the acceptance threshold. -/
def RejectionsRaisable (settings : Settings) (pendingFee pendingPriority : Nat) : Prop :=
  pendingPriority = 0 ∧ (pendingFee = 0 ∨
    Fees.minReplacement (Fees.minReplacement pendingFee - 1) ≤ settings.maxFeePerGas)

theorem raisable_of_rejected {settings : Settings} {pendingFee pendingPriority : Nat}
    (condition : RejectionsRaisable settings pendingFee pendingPriority) {fees : Fees}
    (rejected : ¬(Fees.minReplacement pendingFee ≤ fees.feePerGas ∧
      Fees.minReplacement pendingPriority ≤ fees.priorityFeePerGas)) :
    Fees.minReplacement fees.feePerGas ≤ settings.maxFeePerGas := by
  obtain ⟨noPriority, feeCase⟩ := condition
  subst noPriority
  have zero : Fees.minReplacement 0 = 0 := by decide
  have low : fees.feePerGas < Fees.minReplacement pendingFee := by
    by_contra enough
    exact rejected ⟨not_lt.mp enough, by rw [zero]; exact Nat.zero_le _⟩
  rcases feeCase with noFee | room
  · rw [noFee, zero] at low
    omega
  · exact (Fees.minReplacement_monotone (by omega)).trans room

theorem recovery_invariant {settings : Settings} {pendingFee pendingPriority nonce : Nat}
    {node : TxParams → NodeAnswer} (holds : HoldsPending pendingFee pendingPriority node)
    (condition : RejectionsRaisable settings pendingFee pendingPriority)
    {manager : TransactionManager} (unrecorded : manager.nonceToTxParams nonce = none)
    (calls : List (TxParams × GasQuote))
    (pending : NothingAccepted (history (recoveryStep settings node nonce) manager calls)) :
    Raisable settings nonce (final (recoveryStep settings node nonce) manager calls) := by
  refine history_invariant (recoveryStep settings node nonce) NothingAccepted
    (fun _ state => Raisable settings nonce state) ?_ ?_ ?_ calls pending
  · exact fun past next nothing call member => nothing call (List.mem_append_left _ member)
  · intro txParams found
    rw [unrecorded] at found
    cases found
  · intro past state call raisable nothing txParams found
    obtain ⟨fees, chosen⟩ := highPriorityFees_raisable raisable call.2
    obtain ⟨sent, recorded⟩ := recoveryStep_sent node call chosen
    obtain ⟨noted, rejectedIff⟩ := highPrioritySend_rejected holds call.1 nonce fees
    have rejected := rejectedIff.mp (nothing _ (mem_concat_self past _) _
      (by rw [transition_output, sent]; exact List.mem_singleton.mpr rfl))
    rw [recorded, recordSend, if_pos noted, TransactionManager.record_same] at found
    cases found
    refine ⟨fees, ?_, raisable_of_rejected condition rejected⟩
    rw [← (highPriorityFees_sent chosen).1]
    exact Fees.fromTxParams_toTxParams fees _

theorem givesUp_of_rejected {settings : Settings} {pendingFee pendingPriority nonce : Nat}
    {node : TxParams → NodeAnswer} (holds : HoldsPending pendingFee pendingPriority node)
    {manager : TransactionManager} (unrecorded : manager.nonceToTxParams nonce = none)
    (txParams : TxParams) (quote : GasQuote)
    (rejected : ¬(Fees.minReplacement pendingFee ≤ min quote.maxFeePerGas settings.maxFeePerGas ∧
      Fees.minReplacement pendingPriority ≤ min quote.maxPriorityFeePerGas
        (min quote.maxFeePerGas settings.maxFeePerGas)))
    (stuck : settings.maxFeePerGas <
      Fees.minReplacement (min quote.maxFeePerGas settings.maxFeePerGas)) :
    ¬NeverGivesUpEarly (history (recoveryStep settings node nonce) manager
      [(txParams, quote), (txParams, quote)]) := by
  intro never
  let fees := Fees.capped quote.maxFeePerGas quote.maxPriorityFeePerGas settings.maxFeePerGas
  have chosen := highPriorityFees_unrecorded settings unrecorded quote
  obtain ⟨sent, recorded⟩ := recoveryStep_sent node (txParams, quote) chosen
  obtain ⟨noted, rejectedIff⟩ := highPrioritySend_rejected holds txParams nonce fees
  rw [recordSend, if_pos noted] at recorded
  refine never [transition (recoveryStep settings node nonce) manager (txParams, quote)] _ [] rfl
    ?_ ?_
  · intro call member send sentMember
    rw [List.mem_singleton.mp member, transition_output, sent, List.mem_singleton] at sentMember
    rw [sentMember]
    exact rejectedIff.mpr rejected
  · have declined : highPriorityFees settings (manager.record nonce
        (highPrioritySend txParams nonce node fees).txParams) nonce (.ok quote.toTxParams) =
          .ok none :=
      (highPriorityFees_declines_iff (TransactionManager.record_same _ _ _)
        (Fees.fromTxParams_toTxParams fees _) quote).mpr stuck
    rw [transition_output, recorded]
    exact recoveryStep_declined node (txParams, quote) declined

/-- Recovery never gives up early, for every sequence of quotes, exactly when every
fee the node can reject leaves room for another bump. -/
theorem neverGivesUpEarly_iff {settings : Settings} {pendingFee pendingPriority nonce : Nat}
    (ordered : pendingPriority ≤ pendingFee)
    (fits : Fees.minReplacement pendingFee ≤ settings.maxFeePerGas)
    {node : TxParams → NodeAnswer} (holds : HoldsPending pendingFee pendingPriority node)
    {manager : TransactionManager} (unrecorded : manager.nonceToTxParams nonce = none) :
    (∀ calls, NeverGivesUpEarly (history (recoveryStep settings node nonce) manager calls)) ↔
      RejectionsRaisable settings pendingFee pendingPriority := by
  constructor
  · intro never
    by_contra failing
    by_cases noPriority : pendingPriority = 0
    · -- the highest fee below the threshold is rejected and already too close to the ceiling
      simp only [RejectionsRaisable, noPriority, true_and, not_or, not_le] at failing
      have raised := Fees.lt_minReplacement (Nat.pos_of_ne_zero failing.1)
      have capped : min (Fees.minReplacement pendingFee - 1) settings.maxFeePerGas =
          Fees.minReplacement pendingFee - 1 := Nat.min_eq_left (by omega)
      refine givesUp_of_rejected holds unrecorded {}
        ⟨Fees.minReplacement pendingFee - 1, 0⟩ ?_ ?_ (never _)
      · simp only [capped]
        omega
      · simp only [capped]
        exact failing.2
    · -- a quote at the ceiling with a priority fee of 1 is rejected for the priority fee alone
      have feePositive : 0 < pendingFee := by omega
      have raised := Fees.lt_minReplacement feePositive
      have priorityRaised := Fees.lt_minReplacement (Nat.pos_of_ne_zero noPriority)
      refine givesUp_of_rejected holds unrecorded {} ⟨settings.maxFeePerGas, 1⟩ ?_ ?_ (never _)
      · simp only [Nat.min_self]
        omega
      · simp only [Nat.min_self]
        exact Fees.lt_minReplacement (by omega)
  · intro condition calls past call later split nothing
    obtain ⟨earlier, rest, -, pastEq, here⟩ := history_split _ split
    rw [pastEq] at nothing
    have raisable := recovery_invariant holds condition unrecorded earlier nothing
    obtain ⟨fees, chosen⟩ := highPriorityFees_raisable raisable call.input.2
    rw [here, transition_output, (recoveryStep_sent node _ chosen).1]
    simp

theorem neverGivesUpEarly_iff_noPriority :
    (∀ calls, NeverGivesUpEarly (history (recoveryStep ⟨100, 5⟩ (pendingNode 50 0) 5) {} calls)) ↔
      RejectionsRaisable ⟨100, 5⟩ 50 0 :=
  neverGivesUpEarly_iff (by decide) (by decide) (pendingNode_holds 50 0) rfl

/-- With a ceiling of 100 gwei and a pending transaction of 90 and 1 gwei, an attempt at
98 gwei is refused although 99 would be accepted, and the next call sends nothing. -/
theorem recovery_gives_up :
    1 * 10 ^ 9 ≤ 90 * 10 ^ 9 ∧ Fees.minReplacement (90 * 10 ^ 9) ≤ 100 * 10 ^ 9 ∧
      HoldsPending (90 * 10 ^ 9) (1 * 10 ^ 9) (pendingNode (90 * 10 ^ 9) (1 * 10 ^ 9)) ∧
      ¬NeverGivesUpEarly (history
        (recoveryStep ⟨100 * 10 ^ 9, 5⟩ (pendingNode (90 * 10 ^ 9) (1 * 10 ^ 9)) 5) {}
        [({}, ⟨98 * 10 ^ 9, 2 * 10 ^ 9⟩), ({}, ⟨98 * 10 ^ 9, 2 * 10 ^ 9⟩)]) := by
  have holds := pendingNode_holds (90 * 10 ^ 9) (1 * 10 ^ 9)
  exact ⟨by decide, by decide, holds,
    givesUp_of_rejected holds rfl {} ⟨98 * 10 ^ 9, 2 * 10 ^ 9⟩ (by decide) (by decide)⟩

end V3Keeper
