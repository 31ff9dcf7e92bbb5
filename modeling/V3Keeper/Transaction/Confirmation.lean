import V3Keeper.Transaction.Manager

/-!
When `transact` returns `None`: the pending transaction is left in place at the fee
ceiling, its replacement is rejected as underpriced, or the transaction that was
accepted does not get a receipt in time or reverts.
-/

namespace V3Keeper

open Python

def NodeAnswer.TooLow (answer : NodeAnswer) : Prop :=
  ∃ error, answer = .rejected error ∧ isFeeTooLowError error = true

def ReceiptWait.Unconfirmed (wait : ReceiptWait) : Prop :=
  wait = .timeExhausted ∨ ∃ receipt, wait = .receipt receipt ∧ receipt.status = 0

def replacementParams (call : TransactCall) (latestNonce : Nat) (fees : Fees) : TxParams :=
  fees.toTxParams { call.txParams with nonce := some latestNonce }

def defaultGasParams (call : TransactCall) (latestNonce : Nat) : TxParams :=
  { call.txParams with nonce := some latestNonce }

/-- The high-priority path is taken, at once or after the default-gas attempts. -/
def TriesReplacement (settings : Settings) (call : TransactCall) (latestNonce pendingNonce : Nat) :
    Prop :=
  latestNonce < pendingNonce ∨ call.highPriority = true ∨
    ∀ attempt < settings.attemptsWithDefaultGas,
      (call.defaultGasAnswer attempt (defaultGasParams call latestNonce)).TooLow

inductive LeavesNoReceipt (settings : Settings) (manager : TransactionManager)
    (call : TransactCall) : Prop
  | declined (latestNonce pendingNonce : Nat)
      (latestRead : call.latestNonce = .ok latestNonce)
      (pendingRead : call.pendingNonce = .ok pendingNonce)
      (replaces : TriesReplacement settings call latestNonce pendingNonce)
      (ceiling : highPriorityFees settings (manager.forgetBefore latestNonce) latestNonce
        call.quote = .ok none)
  | underpriced (latestNonce pendingNonce : Nat) (fees : Fees)
      (latestRead : call.latestNonce = .ok latestNonce)
      (pendingRead : call.pendingNonce = .ok pendingNonce)
      (replaces : TriesReplacement settings call latestNonce pendingNonce)
      (chosen : highPriorityFees settings (manager.forgetBefore latestNonce) latestNonce
        call.quote = .ok (some fees))
      (rejected : (call.highPriorityAnswer (replacementParams call latestNonce fees)).TooLow)
  | unconfirmedReplacement (latestNonce pendingNonce : Nat) (fees : Fees) (txHash : TxHash)
      (latestRead : call.latestNonce = .ok latestNonce)
      (pendingRead : call.pendingNonce = .ok pendingNonce)
      (replaces : TriesReplacement settings call latestNonce pendingNonce)
      (chosen : highPriorityFees settings (manager.forgetBefore latestNonce) latestNonce
        call.quote = .ok (some fees))
      (accepted : call.highPriorityAnswer (replacementParams call latestNonce fees) =
        .accepted txHash)
      (unconfirmed : (call.receipt txHash).Unconfirmed)
  | unconfirmedDefaultGas (latestNonce pendingNonce attempt : Nat) (txHash : TxHash)
      (latestRead : call.latestNonce = .ok latestNonce)
      (pendingRead : call.pendingNonce = .ok pendingNonce)
      (nothingPending : pendingNonce ≤ latestNonce)
      (defaultGas : call.highPriority = false)
      (bound : attempt < settings.attemptsWithDefaultGas)
      (tooLow : ∀ earlier < attempt,
        (call.defaultGasAnswer earlier (defaultGasParams call latestNonce)).TooLow)
      (accepted : call.defaultGasAnswer attempt (defaultGasParams call latestNonce) =
        .accepted txHash)
      (unconfirmed : (call.receipt txHash).Unconfirmed)

theorem submitDefaultGas_none (transact : Nat → TxParams → NodeAnswer) (params : TxParams)
    (remaining attempt : Nat) :
    (submitDefaultGas transact params remaining attempt).result = .ok none ↔
      ∀ index < remaining, (transact (attempt + index) params).TooLow := by
  induction remaining generalizing attempt with
  | zero => simp [submitDefaultGas]
  | succ remaining ih =>
      have shift : (∀ index < remaining + 1, (transact (attempt + index) params).TooLow) ↔
          (transact attempt params).TooLow ∧
            ∀ index < remaining, (transact (attempt + 1 + index) params).TooLow := by
        rw [Nat.forall_lt_succ_left]
        simp [Nat.add_assoc, Nat.add_comm 1]
      rw [shift, ← ih (attempt + 1)]
      cases answered : transact attempt params with
      | accepted txHash => simp [submitDefaultGas, answered, NodeAnswer.TooLow]
      | rejected error =>
          by_cases low : isFeeTooLowError error = true <;>
            simp [submitDefaultGas, answered, NodeAnswer.TooLow, low]
      | raised error => simp [submitDefaultGas, answered, NodeAnswer.TooLow]

theorem submitDefaultGas_accepted (transact : Nat → TxParams → NodeAnswer) (params : TxParams)
    (remaining attempt : Nat) (txHash : TxHash) :
    (submitDefaultGas transact params remaining attempt).result = .ok (some txHash) ↔
      ∃ index < remaining, transact (attempt + index) params = .accepted txHash ∧
        ∀ earlier < index, (transact (attempt + earlier) params).TooLow := by
  induction remaining generalizing attempt with
  | zero => simp [submitDefaultGas]
  | succ remaining ih =>
      have shift : (∃ index < remaining + 1, transact (attempt + index) params = .accepted txHash ∧
            ∀ earlier < index, (transact (attempt + earlier) params).TooLow) ↔
          transact attempt params = .accepted txHash ∨
            ((transact attempt params).TooLow ∧ ∃ index < remaining,
              transact (attempt + 1 + index) params = .accepted txHash ∧
                ∀ earlier < index, (transact (attempt + 1 + earlier) params).TooLow) := by
        rw [Nat.exists_lt_succ_left]
        simp only [Nat.add_zero, Nat.not_lt_zero, IsEmpty.forall_iff, implies_true, and_true,
          Nat.forall_lt_succ_left, Nat.add_assoc, Nat.add_comm 1]
        refine or_congr Iff.rfl ?_
        constructor
        · rintro ⟨index, bound, accepted, first, rest⟩
          exact ⟨first, index, bound, accepted, rest⟩
        · rintro ⟨first, index, bound, accepted, rest⟩
          exact ⟨index, bound, accepted, first, rest⟩
      rw [shift, ← ih (attempt + 1)]
      cases answered : transact attempt params with
      | accepted other => simp [submitDefaultGas, answered, NodeAnswer.TooLow]
      | rejected error =>
          by_cases low : isFeeTooLowError error = true <;>
            simp [submitDefaultGas, answered, NodeAnswer.TooLow, low]
      | raised error => simp [submitDefaultGas, answered, NodeAnswer.TooLow]

theorem submitHighPriority_none {settings : Settings} {manager : TransactionManager}
    {transact : TxParams → NodeAnswer} {txParams : TxParams} {nonce : Nat}
    {quote : Except PyError TxParams} :
    (submitHighPriority settings manager transact txParams nonce quote).1.result = .ok none ↔
      highPriorityFees settings manager nonce quote = .ok none ∨
        ∃ fees, highPriorityFees settings manager nonce quote = .ok (some fees) ∧
          (transact (fees.toTxParams { txParams with nonce := some nonce })).TooLow := by
  cases chosen : highPriorityFees settings manager nonce quote with
  | error error => simp [submitHighPriority, chosen]
  | ok decision =>
      cases decision with
      | none => simp [submitHighPriority, chosen]
      | some fees =>
          cases answered : transact (fees.toTxParams { txParams with nonce := some nonce }) with
          | accepted txHash => simp [submitHighPriority, chosen, answered, NodeAnswer.TooLow]
          | rejected error =>
              by_cases low : isFeeTooLowError error = true <;>
                simp [submitHighPriority, chosen, answered, NodeAnswer.TooLow, low]
          | raised error => simp [submitHighPriority, chosen, answered, NodeAnswer.TooLow]

theorem submitHighPriority_accepted {settings : Settings} {manager : TransactionManager}
    {transact : TxParams → NodeAnswer} {txParams : TxParams} {nonce : Nat}
    {quote : Except PyError TxParams} {txHash : TxHash} :
    (submitHighPriority settings manager transact txParams nonce quote).1.result =
        .ok (some txHash) ↔
      ∃ fees, highPriorityFees settings manager nonce quote = .ok (some fees) ∧
        transact (fees.toTxParams { txParams with nonce := some nonce }) = .accepted txHash := by
  cases chosen : highPriorityFees settings manager nonce quote with
  | error error => simp [submitHighPriority, chosen]
  | ok decision =>
      cases decision with
      | none => simp [submitHighPriority, chosen]
      | some fees =>
          cases answered : transact (fees.toTxParams { txParams with nonce := some nonce }) with
          | accepted other => simp [submitHighPriority, chosen, answered]
          | rejected error =>
              by_cases low : isFeeTooLowError error = true <;>
                simp [submitHighPriority, chosen, answered, low]
          | raised error => simp [submitHighPriority, chosen, answered]

theorem waitForReceipt_none {wait : ReceiptWait} :
    waitForReceipt wait = .ok none ↔ wait.Unconfirmed := by
  cases wait with
  | receipt receipt => by_cases failed : receipt.status = 0 <;>
      simp [waitForReceipt, ReceiptWait.Unconfirmed, failed]
  | timeExhausted => simp [waitForReceipt, ReceiptWait.Unconfirmed]
  | raised error => simp [waitForReceipt, ReceiptWait.Unconfirmed]

theorem submit_result (settings : Settings) (manager : TransactionManager) (call : TransactCall)
    (latestNonce pendingNonce : Nat) (result : Option TxHash) :
    (submit settings manager call latestNonce pendingNonce).1.result = .ok result ↔
      (TriesReplacement settings call latestNonce pendingNonce ∧
          (submitHighPriority settings manager call.highPriorityAnswer call.txParams latestNonce
            call.quote).1.result = .ok result) ∨
        (pendingNonce ≤ latestNonce ∧ call.highPriority = false ∧
          ∃ txHash, result = some txHash ∧ ∃ attempt < settings.attemptsWithDefaultGas,
            call.defaultGasAnswer attempt (defaultGasParams call latestNonce) = .accepted txHash ∧
            ∀ earlier < attempt,
              (call.defaultGasAnswer earlier (defaultGasParams call latestNonce)).TooLow) := by
  unfold submit
  by_cases pending : latestNonce < pendingNonce
  · simp [pending, TriesReplacement, Nat.not_le.mpr pending]
  · by_cases urgent : call.highPriority = true
    · simp [pending, urgent, TriesReplacement]
    · have usual : call.highPriority = false := Bool.eq_false_iff.mpr urgent
      have tooLow := submitDefaultGas_none call.defaultGasAnswer
        (defaultGasParams call latestNonce) settings.attemptsWithDefaultGas 0
      have accepted := submitDefaultGas_accepted call.defaultGasAnswer
        (defaultGasParams call latestNonce) settings.attemptsWithDefaultGas 0
      simp only [Nat.zero_add] at tooLow accepted
      simp only [defaultGasParams] at tooLow accepted ⊢
      simp only [pending, usual, TriesReplacement, false_or, Bool.false_eq_true, if_false,
        defaultGasParams, Nat.not_lt.mp pending, true_and]
      rw [← tooLow]
      simp only [← accepted]
      cases attempts : (submitDefaultGas call.defaultGasAnswer
          { call.txParams with nonce := some latestNonce }
          settings.attemptsWithDefaultGas 0).result with
      | error error => simp
      | ok found =>
          cases found with
          | none => simp
          | some txHash => cases result <;> simp [eq_comm]

theorem transactStep_none (settings : Settings) (manager : TransactionManager)
    (call : TransactCall) :
    (transactStep settings manager call).1.result = .ok none ↔
      LeavesNoReceipt settings manager call := by
  constructor
  · intro returned
    unfold transactStep at returned
    split at returned
    case h_1 => cases returned
    case h_2 => cases returned
    case h_3 latestNonce pendingNonce latestRead pendingRead =>
      dsimp only at returned
      split at returned
      case h_1 => cases returned
      case h_2 submitted =>
        rcases (submit_result _ _ _ _ _ _).mp submitted with
          ⟨replaces, nothing⟩ | ⟨-, -, txHash, no, -⟩
        · rcases submitHighPriority_none.mp nothing with ceiling | ⟨fees, chosen, rejected⟩
          · exact .declined latestNonce pendingNonce latestRead pendingRead replaces ceiling
          · exact .underpriced latestNonce pendingNonce fees latestRead pendingRead replaces chosen
              rejected
        · cases no
      case h_3 txHash submitted =>
        have unconfirmed := waitForReceipt_none.mp returned
        rcases (submit_result _ _ _ _ _ _).mp submitted with
          ⟨replaces, sent⟩ |
          ⟨nothingPending, defaultGas, other, same, attempt, bound, accepted, low⟩
        · obtain ⟨fees, chosen, accepted⟩ := submitHighPriority_accepted.mp sent
          exact .unconfirmedReplacement latestNonce pendingNonce fees txHash latestRead pendingRead
            replaces chosen accepted unconfirmed
        · cases same
          exact .unconfirmedDefaultGas latestNonce pendingNonce attempt txHash latestRead
            pendingRead nothingPending defaultGas bound low accepted unconfirmed
  · intro leaves
    cases leaves with
    | declined latestNonce pendingNonce latestRead pendingRead replaces ceiling =>
        have submitted := (submit_result settings (manager.forgetBefore latestNonce) call
          latestNonce pendingNonce none).mpr
            (Or.inl ⟨replaces, submitHighPriority_none.mpr (Or.inl ceiling)⟩)
        simp [transactStep, latestRead, pendingRead, submitted]
    | underpriced latestNonce pendingNonce fees latestRead pendingRead replaces chosen rejected =>
        have submitted := (submit_result settings (manager.forgetBefore latestNonce) call
          latestNonce pendingNonce none).mpr
            (Or.inl ⟨replaces, submitHighPriority_none.mpr (Or.inr ⟨fees, chosen, rejected⟩)⟩)
        simp [transactStep, latestRead, pendingRead, submitted]
    | unconfirmedReplacement latestNonce pendingNonce fees txHash latestRead pendingRead replaces
        chosen accepted unconfirmed =>
        have submitted := (submit_result settings (manager.forgetBefore latestNonce) call
          latestNonce pendingNonce (some txHash)).mpr
            (Or.inl ⟨replaces, submitHighPriority_accepted.mpr ⟨fees, chosen, accepted⟩⟩)
        simp [transactStep, latestRead, pendingRead, submitted,
          waitForReceipt_none.mpr unconfirmed]
    | unconfirmedDefaultGas latestNonce pendingNonce attempt txHash latestRead pendingRead
        nothingPending defaultGas bound tooLow accepted unconfirmed =>
        have submitted := (submit_result settings (manager.forgetBefore latestNonce) call
          latestNonce pendingNonce (some txHash)).mpr
            (Or.inr ⟨nothingPending, defaultGas, txHash, rfl, attempt, bound, accepted, tooLow⟩)
        simp [transactStep, latestRead, pendingRead, submitted,
          waitForReceipt_none.mpr unconfirmed]

end V3Keeper
