import V3Keeper.Transaction.Manager

/-!
What one `_transact` run sends and remembers, and with which fees.
-/

namespace V3Keeper

open Python

def TxParams.fee (txParams : TxParams) : Nat := txParams.maxFeePerGas.getD 0

def TxParams.priorityFee (txParams : TxParams) : Nat := txParams.maxPriorityFeePerGas.getD 0

theorem highPriorityFees_sent {settings : Settings} {manager : TransactionManager} {nonce : Nat}
    {quote : Except PyError TxParams} {fees : Fees}
    (chosen : highPriorityFees settings manager nonce quote = .ok (some fees)) :
    fees.maxFeePerGas = settings.maxFeePerGas ∧
      (∃ gasParams quoted, quote = .ok gasParams ∧
        Fees.fromTxParams gasParams settings.maxFeePerGas = .ok quoted ∧
        quoted.feePerGas ≤ fees.feePerGas ∧
        quoted.priorityFeePerGas ≤ fees.priorityFeePerGas) ∧
      ∀ prev prevFees, manager.nonceToTxParams nonce = some prev →
        Fees.fromTxParams prev settings.maxFeePerGas = .ok prevFees →
          fees.replaces prevFees = true := by
  unfold highPriorityFees at chosen
  split at chosen
  case h_1 => cases chosen
  case h_2 gasParams =>
    split at chosen
    case h_1 => cases chosen
    case h_2 quoted quotedEq =>
      have ceiling : quoted.maxFeePerGas = settings.maxFeePerGas := Fees.fromTxParams_ok quotedEq
      split at chosen
      case h_1 absent =>
        cases chosen
        refine ⟨ceiling, ⟨gasParams, fees, rfl, quotedEq, le_rfl, le_rfl⟩, ?_⟩
        intro prev prevFees found
        rw [absent] at found
        cases found
      case h_2 prev found =>
        split at chosen
        case h_1 => cases chosen
        case h_2 prevFees prevEq =>
          simp only [Except.ok.injEq, ite_eq_iff, reduceCtorEq, and_false, or_false,
            Option.some.injEq] at chosen
          obtain ⟨replaced, same⟩ := chosen
          subst same
          refine ⟨ceiling, ⟨gasParams, quoted, rfl, quotedEq, ?_, ?_⟩, ?_⟩
          · have := quoted.fee_le_max
            simp only [Fees.maxWith, Fees.capped_feePerGas]
            omega
          · have := quoted.fee_le_max
            have := quoted.priority_le_fee
            simp only [Fees.maxWith, Fees.capped_priorityFeePerGas]
            omega
          · intro other otherFees otherFound otherEq
            rw [found] at otherFound
            cases otherFound
            rw [prevEq] at otherEq
            cases otherEq
            exact replaced

def highPrioritySend (txParams : TxParams) (nonce : Nat) (transact : TxParams → NodeAnswer)
    (fees : Fees) : Send :=
  let params := fees.toTxParams { txParams with nonce := some nonce }
  ⟨.highPriority, params, transact params⟩

@[simp] theorem highPrioritySend_fee (txParams : TxParams) (nonce : Nat)
    (transact : TxParams → NodeAnswer) (fees : Fees) :
    (highPrioritySend txParams nonce transact fees).txParams.fee = fees.feePerGas := rfl

@[simp] theorem highPrioritySend_nonce (txParams : TxParams) (nonce : Nat)
    (transact : TxParams → NodeAnswer) (fees : Fees) :
    (highPrioritySend txParams nonce transact fees).txParams.nonce = some nonce := rfl

@[simp] theorem highPrioritySend_strategy (txParams : TxParams) (nonce : Nat)
    (transact : TxParams → NodeAnswer) (fees : Fees) :
    (highPrioritySend txParams nonce transact fees).strategy = .highPriority := rfl

def recordSend (manager : TransactionManager) (nonce : Nat) (send : Send) : TransactionManager :=
  if send.acceptedOrTooLow then manager.record nonce send.txParams else manager

theorem submitHighPriority_cases (settings : Settings) (manager : TransactionManager)
    (transact : TxParams → NodeAnswer) (txParams : TxParams) (nonce : Nat)
    (quote : Except PyError TxParams) :
    ((submitHighPriority settings manager transact txParams nonce quote).1.sends = [] ∧
      (submitHighPriority settings manager transact txParams nonce quote).2 = manager) ∨
    ∃ fees, highPriorityFees settings manager nonce quote = .ok (some fees) ∧
      (submitHighPriority settings manager transact txParams nonce quote).1.sends =
        [highPrioritySend txParams nonce transact fees] ∧
      (submitHighPriority settings manager transact txParams nonce quote).2 =
        recordSend manager nonce (highPrioritySend txParams nonce transact fees) := by
  cases chosen : highPriorityFees settings manager nonce quote with
  | error error => left; simp [submitHighPriority, chosen]
  | ok declined =>
      cases declined with
      | none => left; simp [submitHighPriority, chosen]
      | some fees =>
          right
          refine ⟨fees, rfl, ?_⟩
          cases answered : transact (fees.toTxParams { txParams with nonce := some nonce }) with
          | accepted txHash =>
              simp [submitHighPriority, chosen, highPrioritySend, recordSend,
                Send.acceptedOrTooLow, answered]
          | rejected error =>
              by_cases low : isFeeTooLowError error <;>
                simp [submitHighPriority, chosen, highPrioritySend, recordSend,
                  Send.acceptedOrTooLow, answered, low]
          | raised error =>
              simp [submitHighPriority, chosen, highPrioritySend, recordSend,
                Send.acceptedOrTooLow, answered]

theorem submitHighPriority_sent {settings : Settings} {manager : TransactionManager}
    {transact : TxParams → NodeAnswer} {txParams : TxParams} {nonce : Nat}
    {quote : Except PyError TxParams} {fees : Fees}
    (chosen : highPriorityFees settings manager nonce quote = .ok (some fees)) :
    (submitHighPriority settings manager transact txParams nonce quote).1.sends =
        [highPrioritySend txParams nonce transact fees] ∧
      (submitHighPriority settings manager transact txParams nonce quote).2 =
        recordSend manager nonce (highPrioritySend txParams nonce transact fees) := by
  rcases submitHighPriority_cases settings manager transact txParams nonce quote with
    ⟨nothing, -⟩ | ⟨other, same, sent, recorded⟩
  · simp only [submitHighPriority, chosen] at nothing
    split at nothing
    · cases nothing
    · split at nothing <;> cases nothing
    · cases nothing
  · rw [chosen] at same
    cases same
    exact ⟨sent, recorded⟩

theorem submitDefaultGas_sends (transact : Nat → TxParams → NodeAnswer) (params : TxParams)
    (remaining attempt : Nat) :
    ∀ send ∈ (submitDefaultGas transact params remaining attempt).sends,
      send.strategy = .defaultGas ∧ send.txParams = params := by
  induction remaining generalizing attempt with
  | zero => simp [submitDefaultGas]
  | succ remaining ih =>
      intro send member
      simp only [submitDefaultGas] at member
      split at member
      · simp_all
      · split at member
        · rcases List.mem_cons.mp member with same | later
          · simp [same]
          · exact ih _ send later
        · simp_all
      · simp_all

theorem transactStep_sends {manager : TransactionManager} {call : TransactCall}
    {latestNonce pendingNonce : Nat} (settings : Settings)
    (latestRead : call.latestNonce = .ok latestNonce)
    (pendingRead : call.pendingNonce = .ok pendingNonce) :
    (transactStep settings manager call).1.sends =
      (submit settings (manager.forgetBefore latestNonce) call latestNonce
        pendingNonce).1.sends := by
  simp only [transactStep, latestRead, pendingRead]
  split <;> rfl

/-- Everything a `_transact` run sends and remembers. The reads fail and nothing
happens, or the default-gas attempts come first and at most one high-priority
transaction follows, all at the latest nonce. -/
theorem transactStep_cases (settings : Settings) (manager : TransactionManager)
    (call : TransactCall) :
    ((transactStep settings manager call).1.sends = [] ∧
      (transactStep settings manager call).2 = manager) ∨
    ∃ latestNonce pendingNonce defaults,
      call.latestNonce = .ok latestNonce ∧ call.pendingNonce = .ok pendingNonce ∧
      (∀ send ∈ defaults, send.strategy = .defaultGas ∧
        send.txParams.nonce = some latestNonce) ∧
      (latestNonce < pendingNonce → defaults = []) ∧
      (((transactStep settings manager call).1.sends = defaults ∧
          (transactStep settings manager call).2 = manager.forgetBefore latestNonce) ∨
        ∃ fees, highPriorityFees settings (manager.forgetBefore latestNonce) latestNonce
            call.quote = .ok (some fees) ∧
          (transactStep settings manager call).1.sends = defaults ++
            [highPrioritySend call.txParams latestNonce call.highPriorityAnswer fees] ∧
          (transactStep settings manager call).2 =
            recordSend (manager.forgetBefore latestNonce) latestNonce
              (highPrioritySend call.txParams latestNonce call.highPriorityAnswer fees)) := by
  cases latestRead : call.latestNonce with
  | error error => left; simp [transactStep, latestRead]
  | ok latestNonce =>
    cases pendingRead : call.pendingNonce with
    | error error => left; simp [transactStep, latestRead, pendingRead]
    | ok pendingNonce =>
      right
      have sendsEq : (transactStep settings manager call).1.sends =
          (submit settings (manager.forgetBefore latestNonce) call latestNonce
            pendingNonce).1.sends := transactStep_sends settings latestRead pendingRead
      have managerEq : (transactStep settings manager call).2 =
          (submit settings (manager.forgetBefore latestNonce) call latestNonce
            pendingNonce).2 := by
        simp only [transactStep, latestRead, pendingRead]
        split <;> rfl
      rw [sendsEq, managerEq]
      have replace := submitHighPriority_cases settings (manager.forgetBefore latestNonce)
        call.highPriorityAnswer call.txParams latestNonce call.quote
      by_cases direct : latestNonce < pendingNonce ∨ call.highPriority = true
      · -- a pending transaction or `high_priority` skips the default-gas loop
        refine ⟨latestNonce, pendingNonce, [], rfl, rfl, by simp, fun _ => rfl, ?_⟩
        have submitEq : submit settings (manager.forgetBefore latestNonce) call latestNonce
            pendingNonce = submitHighPriority settings (manager.forgetBefore latestNonce)
              call.highPriorityAnswer call.txParams latestNonce call.quote := by
          rcases direct with pending | urgent <;> simp [submit, *]
        rw [submitEq]
        simpa using replace
      · rw [not_or] at direct
        have onlyDefault := submitDefaultGas_sends call.defaultGasAnswer
          { call.txParams with nonce := some latestNonce } settings.attemptsWithDefaultGas 0
        refine ⟨latestNonce, pendingNonce, (submitDefaultGas call.defaultGasAnswer
          { call.txParams with nonce := some latestNonce } settings.attemptsWithDefaultGas 0).sends,
          rfl, rfl, fun send member => ?_, fun pending => absurd pending direct.1, ?_⟩
        · obtain ⟨strategy, params⟩ := onlyDefault send member
          exact ⟨strategy, by rw [params]⟩
        · simp only [submit, direct.1, direct.2, if_false, Bool.false_eq_true]
          split
          · rcases replace with ⟨nothing, kept⟩ | ⟨fees, chosen, sent, recorded⟩
            · exact Or.inl ⟨by simp [nothing], kept⟩
            · exact Or.inr ⟨fees, chosen, by simp [sent], recorded⟩
          · exact Or.inl ⟨rfl, rfl⟩
          · exact Or.inl ⟨rfl, rfl⟩

theorem submitDefaultGas_accepts {transact : Nat → TxParams → NodeAnswer} {params : TxParams}
    {remaining attempt : Nat} {send : Send} {txHash : TxHash}
    (sent : send ∈ (submitDefaultGas transact params remaining attempt).sends)
    (accepted : send.answer = .accepted txHash) :
    (submitDefaultGas transact params remaining attempt).result = .ok (some txHash) := by
  induction remaining generalizing attempt with
  | zero => cases sent
  | succ remaining ih =>
      cases answered : transact attempt params with
      | accepted other =>
          simp only [submitDefaultGas, answered, List.mem_singleton] at sent ⊢
          rw [sent] at accepted
          cases accepted
          rfl
      | rejected error =>
          by_cases low : isFeeTooLowError error = true
          · simp only [submitDefaultGas, answered, low, if_true, List.mem_cons] at sent ⊢
            rcases sent with rfl | later
            · cases accepted
            · exact ih later
          · simp only [submitDefaultGas, answered, low, Bool.false_eq_true, if_false,
              List.mem_singleton] at sent
            rw [sent] at accepted
            cases accepted
      | raised error =>
          simp only [submitDefaultGas, answered, List.mem_singleton] at sent
          rw [sent] at accepted
          cases accepted

theorem submitHighPriority_accepts {settings : Settings} {manager : TransactionManager}
    {transact : TxParams → NodeAnswer} {txParams : TxParams} {nonce : Nat}
    {quote : Except PyError TxParams} {send : Send} {txHash : TxHash}
    (sent : send ∈ (submitHighPriority settings manager transact txParams nonce quote).1.sends)
    (accepted : send.answer = .accepted txHash) :
    (submitHighPriority settings manager transact txParams nonce quote).1.result =
      .ok (some txHash) := by
  rcases submitHighPriority_cases settings manager transact txParams nonce quote with
    ⟨nothing, -⟩ | ⟨fees, chosen, sentEq, -⟩
  · rw [nothing] at sent
    cases sent
  · rw [sentEq, List.mem_singleton] at sent
    rw [sent] at accepted
    have answered : transact (fees.toTxParams { txParams with nonce := some nonce }) =
        .accepted txHash := accepted
    simp only [submitHighPriority, chosen, answered]

theorem submit_accepts {settings : Settings} {manager : TransactionManager} {call : TransactCall}
    {latestNonce pendingNonce : Nat} {send : Send} {txHash : TxHash}
    (sent : send ∈ (submit settings manager call latestNonce pendingNonce).1.sends)
    (accepted : send.answer = .accepted txHash) :
    (submit settings manager call latestNonce pendingNonce).1.result = .ok (some txHash) := by
  simp only [submit] at sent ⊢
  split at sent
  case isTrue pending =>
    rw [if_pos pending]
    exact submitHighPriority_accepts sent accepted
  case isFalse pending =>
    rw [if_neg pending]
    split at sent
    case isTrue urgent =>
      rw [if_pos urgent]
      exact submitHighPriority_accepts sent accepted
    case isFalse usual =>
      rw [if_neg usual]
      split at sent
      case h_1 refused =>
        rcases List.mem_append.mp sent with attempt | replacement
        · rw [submitDefaultGas_accepts attempt accepted] at refused
          cases refused
        · exact submitHighPriority_accepts replacement accepted
      case h_2 other found =>
        rw [submitDefaultGas_accepts sent accepted] at found
        cases found
        rfl
      case h_3 error raised =>
        rw [submitDefaultGas_accepts sent accepted] at raised
        cases raised

theorem transactStep_accepts {settings : Settings} {manager : TransactionManager}
    {call : TransactCall} {send : Send} {txHash : TxHash}
    (sent : send ∈ (transactStep settings manager call).1.sends)
    (accepted : send.answer = .accepted txHash) :
    (transactStep settings manager call).1.result = waitForReceipt (call.receipt txHash) := by
  cases latestRead : call.latestNonce with
  | error error => simp [transactStep, latestRead] at sent
  | ok latestNonce =>
      cases pendingRead : call.pendingNonce with
      | error error => simp [transactStep, latestRead, pendingRead] at sent
      | ok pendingNonce =>
          rw [transactStep_sends settings latestRead pendingRead] at sent
          simp only [transactStep, latestRead, pendingRead, submit_accepts sent accepted]

theorem transactStep_latest_nonce (settings : Settings) (manager : TransactionManager)
    (call : TransactCall) :
    ∀ send ∈ (transactStep settings manager call).1.sends, ∃ latestNonce,
      call.latestNonce = .ok latestNonce ∧ send.txParams.nonce = some latestNonce := by
  intro send sent
  rcases transactStep_cases settings manager call with ⟨nothing, -⟩ | reads
  · simp [nothing] at sent
  · obtain ⟨latestNonce, pendingNonce, defaults, read, -, onlyDefault, -, outcome⟩ := reads
    refine ⟨latestNonce, read, ?_⟩
    rcases outcome with ⟨sentEq, -⟩ | ⟨fees, -, sentEq, -⟩
    · rw [sentEq] at sent
      exact (onlyDefault send sent).2
    · rw [sentEq, List.mem_append, List.mem_singleton] at sent
      rcases sent with usual | rfl
      · exact (onlyDefault send usual).2
      · rfl

theorem transactStep_no_default (settings : Settings) (manager : TransactionManager)
    {call : TransactCall} {latestNonce pendingNonce : Nat}
    (latestRead : call.latestNonce = .ok latestNonce)
    (pendingRead : call.pendingNonce = .ok pendingNonce) (pending : latestNonce < pendingNonce) :
    ∀ send ∈ (transactStep settings manager call).1.sends, send.strategy ≠ .defaultGas := by
  intro send sent
  rcases transactStep_cases settings manager call with ⟨nothing, -⟩ | reads
  · simp [nothing] at sent
  · obtain ⟨latest, pendingCount, defaults, read, pendingReadEq, -, skipped, outcome⟩ := reads
    rw [latestRead] at read
    rw [pendingRead] at pendingReadEq
    cases read
    cases pendingReadEq
    rw [skipped pending] at outcome
    rcases outcome with ⟨sentEq, -⟩ | ⟨fees, -, sentEq, -⟩
    · simp [sentEq] at sent
    · rw [sentEq, List.nil_append, List.mem_singleton] at sent
      simp [sent]

theorem transactStep_highPriority (settings : Settings) (manager : TransactionManager)
    (call : TransactCall) :
    ∀ send ∈ (transactStep settings manager call).1.sends, send.strategy = .highPriority →
      ∃ pruned latestNonce fees,
        highPriorityFees settings pruned latestNonce call.quote = .ok (some fees) ∧
          send = highPrioritySend call.txParams latestNonce call.highPriorityAnswer fees := by
  intro send sent urgent
  rcases transactStep_cases settings manager call with ⟨nothing, -⟩ | reads
  · simp [nothing] at sent
  · obtain ⟨latestNonce, pendingNonce, defaults, -, -, onlyDefault, -, outcome⟩ := reads
    rcases outcome with ⟨sentEq, -⟩ | ⟨fees, chosen, sentEq, -⟩
    · rw [sentEq] at sent
      simp [(onlyDefault send sent).1] at urgent
    · rw [sentEq, List.mem_append, List.mem_singleton] at sent
      rcases sent with usual | same
      · simp [(onlyDefault send usual).1] at urgent
      · exact ⟨_, latestNonce, fees, chosen, same⟩

end V3Keeper
