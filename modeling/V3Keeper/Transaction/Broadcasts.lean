import V3Keeper.Transaction.Confirmation
import V3Keeper.Transaction.Laws

/-!
Whether a replacement clears the fees of the transaction that it replaces. A transaction that
was accepted at the node's default gas is not recorded, so its fees do not enter the bump.
-/

namespace V3Keeper

open Python StepRun

structure FilledFees where
  feePerGas : Nat
  priorityFeePerGas : Nat
  deriving DecidableEq, Repr

def FilledFees.carried (filled : FilledFees) (txParams : TxParams) : TxParams :=
  { txParams with
    maxFeePerGas := some (txParams.maxFeePerGas.getD filled.feePerGas)
    maxPriorityFeePerGas := some (txParams.maxPriorityFeePerGas.getD filled.priorityFeePerGas) }

structure BroadcastCall extends TransactCall where
  filled : FilledFees
  /-- The transactions accepted earlier that the node still holds when this call sends. -/
  stillPending : TxHash → Bool

def broadcastStep (settings : Settings) (manager : TransactionManager) (call : BroadcastCall) :
    TransactOutcome × TransactionManager :=
  transactStep settings manager call.toTransactCall

abbrev BroadcastRun := Transition TransactionManager BroadcastCall TransactOutcome

abbrev Broadcast := FilledFees × Send

def broadcasts (runs : List BroadcastRun) : List Broadcast :=
  runs.flatMap fun run => run.output.sends.map (Prod.mk run.input.filled)

def Broadcast.carried (broadcast : Broadcast) : TxParams :=
  broadcast.1.carried broadcast.2.txParams

structure PendingAt (call : BroadcastCall) (nonce : Nat) (broadcast : Broadcast) : Prop where
  accepted : ∃ txHash, broadcast.2.answer = .accepted txHash ∧ call.stillPending txHash = true
  nonce : broadcast.2.txParams.nonce = some nonce

/-- Every high-priority transaction of the call clears the fees of every transaction that was
accepted earlier at its nonce and is still pending. -/
def StepClears (past : List BroadcastRun) (run : BroadcastRun) : Prop :=
  ∀ before send after, run.output.sends = before ++ send :: after →
    send.strategy = .highPriority → ∀ nonce, send.txParams.nonce = some nonce →
      ∀ broadcast ∈ broadcasts past ++ before.map (Prod.mk run.input.filled),
        PendingAt run.input nonce broadcast → FeesRise broadcast.carried send.txParams

def ReplacementsClear (runs : List BroadcastRun) : Prop :=
  ∀ past run later, runs = past ++ run :: later → StepClears past run

structure SendsReplacement (settings : Settings) (manager : TransactionManager)
    (call : TransactCall) (nonce : Nat) (quote : TxParams) : Prop where
  latest : call.latestNonce = .ok nonce
  pending : ∃ pendingNonce, call.pendingNonce = .ok pendingNonce ∧
    TriesReplacement settings call nonce pendingNonce
  quoteRead : call.quote = .ok quote
  quoted : quote.maxFeePerGas.isSome = true ∧ quote.maxPriorityFeePerGas.isSome = true
  room : ∀ prev, manager.nonceToTxParams nonce = some prev →
    Fees.minReplacement prev.fee ≤ settings.maxFeePerGas

/-- The quote, or what is recorded for the nonce, bumped, clears the fees of `pending`
within the ceiling. -/
structure Outbids (settings : Settings) (manager : TransactionManager) (nonce : Nat)
    (quote pending : TxParams) : Prop where
  fee_fits : Fees.minReplacement pending.fee ≤ settings.maxFeePerGas
  priority_fits : Fees.minReplacement pending.priorityFee ≤ settings.maxFeePerGas
  fee : Fees.minReplacement pending.fee ≤ quote.fee ∨
    ∃ prev, manager.nonceToTxParams nonce = some prev ∧
      Fees.minReplacement pending.fee ≤ Fees.bumpValue prev.fee
  priority : Fees.minReplacement pending.priorityFee ≤ min quote.priorityFee quote.fee ∨
    ∃ prev, manager.nonceToTxParams nonce = some prev ∧
      Fees.minReplacement pending.priorityFee ≤ Fees.bumpValue prev.priorityFee

def OutbidsDefaultGas (settings : Settings) (past : List BroadcastRun) (run : BroadcastRun) :
    Prop :=
  ∀ nonce quote, SendsReplacement settings run.before run.input.toTransactCall nonce quote →
    ∀ broadcast ∈ broadcasts past, broadcast.2.strategy = .defaultGas →
      PendingAt run.input nonce broadcast →
        Outbids settings run.before nonce quote broadcast.carried

def Priced (settings : Settings) (manager : TransactionManager) : Prop :=
  ∀ nonce txParams, manager.nonceToTxParams nonce = some txParams →
    ∃ fees, Fees.fromTxParams txParams settings.maxFeePerGas = .ok fees ∧
      txParams.fee = fees.feePerGas ∧ txParams.priorityFee = fees.priorityFeePerGas

theorem Fees.fromTxParams_some {txParams : TxParams}
    (present : txParams.maxFeePerGas.isSome = true ∧ txParams.maxPriorityFeePerGas.isSome = true)
    (ceiling : Nat) :
    Fees.fromTxParams txParams ceiling =
      .ok (Fees.capped txParams.fee txParams.priorityFee ceiling) := by
  obtain ⟨fee, feeEq⟩ := Option.isSome_iff_exists.mp present.1
  obtain ⟨priority, priorityEq⟩ := Option.isSome_iff_exists.mp present.2
  simp [fromTxParams, TxParams.fee, TxParams.priorityFee, feeEq, priorityEq]

theorem Fees.bumpValue_monotone : Monotone Fees.bumpValue := Growth.scaleUp_monotone (by decide)

theorem highPriorityFees_outbids {settings : Settings} {manager : TransactionManager}
    (priced : Priced settings manager) {nonce : Nat} {quote : TxParams}
    (quoted : quote.maxFeePerGas.isSome = true ∧ quote.maxPriorityFeePerGas.isSome = true)
    (room : ∀ prev, manager.nonceToTxParams nonce = some prev →
      Fees.minReplacement prev.fee ≤ settings.maxFeePerGas) :
    ∃ fees, highPriorityFees settings manager nonce (.ok quote) = .ok (some fees) ∧
      ∀ pending : TxParams,
        (Fees.minReplacement pending.fee ≤ fees.feePerGas ∧
          Fees.minReplacement pending.priorityFee ≤ fees.priorityFeePerGas) ↔
        Outbids settings manager nonce quote pending := by
  have quoteRead := Fees.fromTxParams_some quoted settings.maxFeePerGas
  cases found : manager.nonceToTxParams nonce with
  | none =>
      refine ⟨Fees.capped quote.fee quote.priorityFee settings.maxFeePerGas,
        by simp only [highPriorityFees, quoteRead, found], fun pending => ?_⟩
      simp only [Fees.capped_feePerGas, Fees.capped_priorityFeePerGas]
      constructor
      · intro clears
        exact ⟨by omega, by omega, by omega, by omega⟩
      · rintro ⟨feeFits, priorityFits, fee, priority⟩
        simp only [found, reduceCtorEq, false_and, exists_false, or_false] at fee priority
        omega
  | some prev =>
      obtain ⟨prevFees, prevRead, feeEq, priorityEq⟩ := priced nonce prev found
      have ceiling := Fees.fromTxParams_ok prevRead
      have replaces := (Fees.maxWith_bump_replaces_iff
        (Fees.capped quote.fee quote.priorityFee settings.maxFeePerGas) prevFees
        (by rw [ceiling]; rfl)).mpr (by rw [← feeEq, ceiling]; exact room prev found)
      have ordered : Fees.bumpValue prev.priorityFee ≤ Fees.bumpValue prev.fee :=
        Fees.bumpValue_monotone (by rw [feeEq, priorityEq]; exact prevFees.priority_le_fee)
      refine ⟨(Fees.capped quote.fee quote.priorityFee settings.maxFeePerGas).maxWith prevFees.bump,
        by simp only [highPriorityFees, quoteRead, found, prevRead, replaces, if_true],
        fun pending => ?_⟩
      simp only [Fees.maxWith, Fees.bump, Fees.capped_feePerGas, Fees.capped_priorityFeePerGas,
        Fees.capped_maxFeePerGas, ceiling, ← feeEq, ← priorityEq]
      constructor
      · intro clears
        refine ⟨by omega, by omega, ?_, ?_⟩ <;> simp only [found, Option.some.injEq,
          exists_eq_left'] <;> omega
      · rintro ⟨feeFits, priorityFits, fee, priority⟩
        simp only [found, Option.some.injEq, exists_eq_left'] at fee priority
        omega

theorem highPriorityFees_forgetBefore (settings : Settings) (manager : TransactionManager)
    (nonce : Nat) (quote : Except PyError TxParams) :
    highPriorityFees settings (manager.forgetBefore nonce) nonce quote =
      highPriorityFees settings manager nonce quote := by
  simp only [highPriorityFees, TransactionManager.forgetBefore_kept manager le_rfl]

theorem highPriorityFees_some {settings : Settings} {manager : TransactionManager} {nonce : Nat}
    {quote : Except PyError TxParams} {fees : Fees} (priced : Priced settings manager)
    (chosen : highPriorityFees settings manager nonce quote = .ok (some fees)) :
    ∃ gasParams, quote = .ok gasParams ∧
      (gasParams.maxFeePerGas.isSome = true ∧ gasParams.maxPriorityFeePerGas.isSome = true) ∧
      ∀ prev, manager.nonceToTxParams nonce = some prev →
        Fees.minReplacement prev.fee ≤ settings.maxFeePerGas := by
  obtain ⟨ceiling, ⟨gasParams, quoted, quoteEq, read, -⟩, replaces⟩ := highPriorityFees_sent chosen
  refine ⟨gasParams, quoteEq, ?_, fun prev found => ?_⟩
  · unfold Fees.fromTxParams at read
    split at read
    case h_1 fee priority feeEq priorityEq => simp [feeEq, priorityEq]
    case h_2 => cases read
  · obtain ⟨prevFees, prevRead, feeEq, -⟩ := priced nonce prev found
    have cleared := ((Fees.replaces_iff _ _).mp (replaces prev prevFees found prevRead)).1
    rw [feeEq]
    exact cleared.trans (fees.fee_le_max.trans_eq ceiling)

theorem submitDefaultGas_refused {transact : Nat → TxParams → NodeAnswer} {params : TxParams}
    {remaining attempt : Nat}
    (refused : (submitDefaultGas transact params remaining attempt).result = .ok none) :
    ∀ send ∈ (submitDefaultGas transact params remaining attempt).sends,
      ∀ txHash, send.answer ≠ .accepted txHash := by
  induction remaining generalizing attempt with
  | zero => simp [submitDefaultGas]
  | succ remaining ih =>
      cases answered : transact attempt params with
      | accepted txHash => simp [submitDefaultGas, answered] at refused
      | raised error => simp [submitDefaultGas, answered] at refused
      | rejected error =>
          by_cases low : isFeeTooLowError error = true
          · simp only [submitDefaultGas, answered, low, if_true] at refused ⊢
            rw [List.forall_mem_cons]
            exact ⟨by simp, ih refused⟩
          · simp [submitDefaultGas, answered, low] at refused

theorem submit_sends (settings : Settings) (manager : TransactionManager) (call : TransactCall)
    (latestNonce pendingNonce : Nat) :
    (TriesReplacement settings call latestNonce pendingNonce ∧
      ∃ defaults, (∀ send ∈ defaults, send.strategy = .defaultGas ∧
          ∀ txHash, send.answer ≠ .accepted txHash) ∧
        (submit settings manager call latestNonce pendingNonce).1.sends = defaults ++
          (submitHighPriority settings manager call.highPriorityAnswer call.txParams latestNonce
            call.quote).1.sends) ∨
    (¬TriesReplacement settings call latestNonce pendingNonce ∧
      ∀ send ∈ (submit settings manager call latestNonce pendingNonce).1.sends,
        send.strategy = .defaultGas) := by
  have onlyDefault := submitDefaultGas_sends call.defaultGasAnswer
    (defaultGasParams call latestNonce) settings.attemptsWithDefaultGas 0
  have tooLow := submitDefaultGas_none call.defaultGasAnswer
    (defaultGasParams call latestNonce) settings.attemptsWithDefaultGas 0
  simp only [Nat.zero_add] at tooLow
  by_cases pending : latestNonce < pendingNonce
  · exact Or.inl ⟨Or.inl pending, [], by simp, by simp [submit, pending]⟩
  · by_cases urgent : call.highPriority = true
    · exact Or.inl ⟨Or.inr (Or.inl urgent), [], by simp, by simp [submit, pending, urgent]⟩
    · have triesIff : TriesReplacement settings call latestNonce pendingNonce ↔
          (submitDefaultGas call.defaultGasAnswer (defaultGasParams call latestNonce)
            settings.attemptsWithDefaultGas 0).result = .ok none := by
        rw [tooLow, TriesReplacement]
        simp [pending, urgent]
      rw [triesIff]
      unfold defaultGasParams at onlyDefault ⊢
      cases attempts : (submitDefaultGas call.defaultGasAnswer
          { call.txParams with nonce := some latestNonce }
          settings.attemptsWithDefaultGas 0).result with
      | error error =>
          refine Or.inr ⟨by simp, fun send member => (onlyDefault send ?_).1⟩
          simpa [submit, pending, urgent, attempts] using member
      | ok found =>
          cases found with
          | some txHash =>
              refine Or.inr ⟨by simp, fun send member => (onlyDefault send ?_).1⟩
              simpa [submit, pending, urgent, attempts] using member
          | none =>
              refine Or.inl ⟨rfl, _, fun send member =>
                ⟨(onlyDefault send member).1, submitDefaultGas_refused attempts send member⟩, ?_⟩
              simp [submit, pending, urgent, attempts]

theorem transactStep_replacement {settings : Settings} {manager : TransactionManager}
    (priced : Priced settings manager) (call : TransactCall) :
    (∃ nonce quote fees defaults, SendsReplacement settings manager call nonce quote ∧
      highPriorityFees settings manager nonce (.ok quote) = .ok (some fees) ∧
      (∀ send ∈ defaults, send.strategy = .defaultGas ∧
        ∀ txHash, send.answer ≠ .accepted txHash) ∧
      (transactStep settings manager call).1.sends = defaults ++
        [highPrioritySend call.txParams nonce call.highPriorityAnswer fees]) ∨
    ((∀ nonce quote, ¬SendsReplacement settings manager call nonce quote) ∧
      ∀ send ∈ (transactStep settings manager call).1.sends, send.strategy = .defaultGas) := by
  cases latestRead : call.latestNonce with
  | error error =>
      refine Or.inr ⟨fun nonce quote sends => ?_, by simp [transactStep, latestRead]⟩
      have impossible := sends.latest
      rw [latestRead] at impossible
      cases impossible
  | ok latestNonce =>
      cases pendingRead : call.pendingNonce with
      | error error =>
          refine Or.inr ⟨fun nonce quote sends => ?_,
            by simp [transactStep, latestRead, pendingRead]⟩
          obtain ⟨pendingNonce, impossible, -⟩ := sends.pending
          rw [pendingRead] at impossible
          cases impossible
      | ok pendingNonce =>
          rw [transactStep_sends settings latestRead pendingRead]
          rcases submit_sends settings (manager.forgetBefore latestNonce) call latestNonce
            pendingNonce with ⟨tries, defaults, refused, sendsEq⟩ | ⟨usual, onlyDefault⟩
          · rcases submitHighPriority_cases settings (manager.forgetBefore latestNonce)
              call.highPriorityAnswer call.txParams latestNonce call.quote with
              ⟨nothing, -⟩ | ⟨fees, chosen, sent, -⟩
            · refine Or.inr ⟨fun nonce quote sends => ?_, ?_⟩
              · obtain ⟨fees, chosen, -⟩ :=
                  highPriorityFees_outbids priced sends.quoted sends.room
                have same := sends.latest
                rw [latestRead] at same
                cases same
                rw [(submitHighPriority_sent (by
                  rw [highPriorityFees_forgetBefore, sends.quoteRead]; exact chosen)).1] at nothing
                cases nothing
              · rw [sendsEq, nothing, List.append_nil]
                exact fun send member => (refused send member).1
            · rw [highPriorityFees_forgetBefore] at chosen
              obtain ⟨quote, quoteRead, quoted, room⟩ := highPriorityFees_some priced chosen
              rw [quoteRead] at chosen
              exact Or.inl ⟨latestNonce, quote, fees, defaults,
                ⟨latestRead, ⟨pendingNonce, pendingRead, tries⟩, quoteRead, quoted, room⟩,
                chosen, refused, by rw [sendsEq, sent]⟩
          · refine Or.inr ⟨fun nonce quote sends => usual ?_, onlyDefault⟩
            obtain ⟨other, read, tries⟩ := sends.pending
            have same := sends.latest
            rw [latestRead] at same
            rw [pendingRead] at read
            cases same
            cases read
            exact tries

theorem FilledFees.carried_of_some {filled : FilledFees} {txParams : TxParams}
    (present : txParams.maxFeePerGas.isSome = true ∧
      txParams.maxPriorityFeePerGas.isSome = true) :
    (filled.carried txParams).fee = txParams.fee ∧
      (filled.carried txParams).priorityFee = txParams.priorityFee := by
  obtain ⟨fee, feeEq⟩ := Option.isSome_iff_exists.mp present.1
  obtain ⟨priority, priorityEq⟩ := Option.isSome_iff_exists.mp present.2
  simp [carried, TxParams.fee, TxParams.priorityFee, feeEq, priorityEq]

def BroadcastRun.transact (run : BroadcastRun) : TransactRun :=
  run.mapInput BroadcastCall.toTransactCall

theorem broadcastHistory (settings : Settings) (calls : List BroadcastCall) :
    (history (broadcastStep settings) {} calls).map BroadcastRun.transact =
      history (transactStep settings) {} (calls.map BroadcastCall.toTransactCall) :=
  history_map (transactStep settings) BroadcastCall.toTransactCall {} calls

theorem mem_broadcasts {runs : List BroadcastRun} {broadcast : Broadcast}
    (member : broadcast ∈ broadcasts runs) :
    broadcast.2 ∈ allSends (runs.map BroadcastRun.transact) := by
  obtain ⟨run, inRuns, sent⟩ := List.mem_flatMap.mp member
  obtain ⟨send, own, rfl⟩ := List.mem_map.mp sent
  exact List.mem_flatMap.mpr ⟨run.transact, List.mem_map_of_mem inRuns, own⟩

structure Earlier (settings : Settings) (past : List BroadcastRun) (run : BroadcastRun) : Prop where
  ledger : Ledger settings (past.map BroadcastRun.transact) run.before
  step : run.transact = transition (transactStep settings) run.before run.input.toTransactCall
  never_above : ∀ nonce, run.input.latestNonce = .ok nonce →
    ∀ earlier ∈ past.map BroadcastRun.transact, ∀ before,
      earlier.input.latestNonce = .ok before → before ≤ nonce
  ceiling : ∀ broadcast ∈ broadcasts past, broadcast.2.strategy = .highPriority →
    broadcast.2.txParams.maxFeePerGas.isSome = true ∧
      broadcast.2.txParams.maxPriorityFeePerGas.isSome = true

theorem earlier_of_split {settings : Settings} {calls : List BroadcastCall}
    (monotone : NoncesNeverDecrease (history (transactStep settings) {}
      (calls.map BroadcastCall.toTransactCall)))
    {past later : List BroadcastRun} {run : BroadcastRun}
    (split : history (broadcastStep settings) {} calls = past ++ run :: later) :
    Earlier settings past run := by
  obtain ⟨earlier, rest, callsEq, pastEq, runEq⟩ := history_split (broadcastStep settings) split
  have mapped : past.map BroadcastRun.transact = history (transactStep settings) {}
      (earlier.map BroadcastCall.toTransactCall) := by
    rw [pastEq, broadcastHistory]
  rw [← broadcastHistory, split, List.map_append, NoncesNeverDecrease, List.pairwise_append]
    at monotone
  have inherited := monotone.1
  rw [mapped] at inherited
  refine ⟨?_, ?_, ?_, ?_⟩
  · rw [mapped, runEq]
    have reached : final (broadcastStep settings) {} earlier = final (transactStep settings) {}
        (earlier.map BroadcastCall.toTransactCall) :=
      final_map (transactStep settings) BroadcastCall.toTransactCall {} earlier
    rw [transition_before, reached]
    exact (history_ledger settings _ inherited).1
  · rw [runEq]
    rfl
  · intro nonce read other member before readBefore
    exact monotone.2.2 other member run.transact (by simp) before nonce readBefore read
  · intro broadcast member urgent
    have sent := mem_broadcasts member
    rw [mapped] at sent
    obtain ⟨fee, priority, feeEq, priorityEq, -⟩ := highPriority_within_ceiling sent urgent
    simp [feeEq, priorityEq]

theorem split_at_last {defaults before after : List Send} {last send : Send}
    (onlyDefault : ∀ other ∈ defaults, other.strategy = .defaultGas)
    (urgent : send.strategy = .highPriority)
    (split : defaults ++ [last] = before ++ send :: after) : before = defaults ∧ send = last := by
  rcases List.eq_nil_or_concat after with rfl | ⟨others, final, rfl⟩
  · obtain ⟨same, only⟩ := List.append_inj' split rfl
    exact ⟨same.symm, (List.cons.inj only).1.symm⟩
  · rw [List.concat_eq_append, ← List.cons_append, ← List.append_assoc] at split
    have shorter : defaults = before ++ send :: others := (List.append_inj' split rfl).1
    have usual := onlyDefault send (by rw [shorter]; simp)
    rw [urgent] at usual
    cases usual

theorem stepClears_iff {settings : Settings} {past : List BroadcastRun} {run : BroadcastRun}
    (earlier : Earlier settings past run) :
    StepClears past run ↔ OutbidsDefaultGas settings past run := by
  have outputEq : run.output = (transactStep settings run.before run.input.toTransactCall).1 :=
    congrArg Transition.output earlier.step
  have priced : Priced settings run.before := earlier.ledger.priced
  rcases transactStep_replacement priced run.input.toTransactCall with
    ⟨nonce, quote, fees, defaults, sends, chosen, refused, sent⟩ | ⟨never, onlyDefault⟩
  · obtain ⟨offered, offeredEq, clears⟩ := highPriorityFees_outbids priced sends.quoted sends.room
    rw [chosen] at offeredEq
    cases offeredEq
    rw [← outputEq] at sent
    constructor
    · intro cleared other otherQuote otherSends broadcast member usual pending
      have sameNonce := sends.latest.symm.trans otherSends.latest
      cases sameNonce
      have sameQuote := sends.quoteRead.symm.trans otherSends.quoteRead
      cases sameQuote
      exact (clears broadcast.carried).mp (cleared defaults _ [] sent rfl nonce rfl broadcast
        (List.mem_append_left _ member) pending)
    · intro outbids before send after split urgent other otherEq broadcast member pending
      obtain ⟨rfl, rfl⟩ := split_at_last (fun send own => (refused send own).1) urgent
        (sent.symm.trans split)
      cases otherEq
      rcases List.mem_append.mp member with old | own
      · cases strategy : broadcast.2.strategy with
        | defaultGas =>
            exact (clears broadcast.carried).mpr
              (outbids nonce quote sends broadcast old strategy pending)
        | highPriority =>
            obtain ⟨txHash, accepted, -⟩ := pending.accepted
            have rises := earlier.ledger.risesOver (earlier.never_above nonce sends.latest)
              (by rw [highPriorityFees_forgetBefore]; exact chosen) run.input.txParams
              run.input.highPriorityAnswer broadcast.2 (mem_broadcasts old) strategy rfl
              (by simp [Send.acceptedOrTooLow, accepted]) pending.nonce
            obtain ⟨feeEq, priorityEq⟩ :=
              FilledFees.carried_of_some (earlier.ceiling broadcast old strategy)
            rw [FeesRise, Broadcast.carried, feeEq, priorityEq]
            exact rises
      · obtain ⟨send, refusedSend, rfl⟩ := List.mem_map.mp own
        obtain ⟨txHash, accepted, -⟩ := pending.accepted
        exact absurd accepted ((refused send refusedSend).2 txHash)
  · rw [← outputEq] at onlyDefault
    refine iff_of_true ?_ ?_
    · intro before send after split urgent
      rw [onlyDefault send (by rw [split]; simp)] at urgent
      cases urgent
    · intro nonce quote sends
      exact absurd sends (never nonce quote)

/-- In every run whose latest nonces never decrease, all replacements clear what they replace
exactly when every call that replaces a default-gas transaction outbids it: with its quote or
with what a refused replacement has left recorded. -/
theorem replacementsClear_iff (settings : Settings) (calls : List BroadcastCall)
    (monotone : NoncesNeverDecrease (history (transactStep settings) {}
      (calls.map BroadcastCall.toTransactCall))) :
    ReplacementsClear (history (broadcastStep settings) {} calls) ↔
      ∀ past run later, history (broadcastStep settings) {} calls = past ++ run :: later →
        OutbidsDefaultGas settings past run := by
  constructor
  · intro clear past run later split
    exact (stepClears_iff (earlier_of_split monotone split)).mp (clear past run later split)
  · intro outbids past run later split
    exact (stepClears_iff (earlier_of_split monotone split)).mpr (outbids past run later split)

def timedOutDefaultGas : BroadcastCall where
  latestNonce := .ok 5
  pendingNonce := .ok 5
  quote := .error .requestError
  defaultGasAnswer _ _ := .accepted 1
  highPriorityAnswer _ := .raised .requestError
  receipt _ := .timeExhausted
  filled := ⟨40 * 10 ^ 9, 2 * 10 ^ 9⟩
  stillPending _ := true

def replacedAt (fee priorityFee : Nat) : BroadcastCall :=
  { timedOutDefaultGas with
    pendingNonce := .ok 6
    quote := .ok { maxFeePerGas := some fee, maxPriorityFeePerGas := some priorityFee }
    highPriorityAnswer := fun _ => .accepted 2 }

theorem replacementsClear_iff_outbid :
    ReplacementsClear (history (broadcastStep ⟨100 * 10 ^ 9, 5⟩) {}
        [timedOutDefaultGas, replacedAt (50 * 10 ^ 9) (3 * 10 ^ 9)]) ↔
      ∀ past run later, history (broadcastStep ⟨100 * 10 ^ 9, 5⟩) {}
          [timedOutDefaultGas, replacedAt (50 * 10 ^ 9) (3 * 10 ^ 9)] = past ++ run :: later →
        OutbidsDefaultGas ⟨100 * 10 ^ 9, 5⟩ past run :=
  replacementsClear_iff _ _ (by simp [NoncesNeverDecrease, history, timedOutDefaultGas, replacedAt])

/-- A replacement quoted at 20 and 1 gwei does not clear the 40 and 2 gwei that are pending. -/
theorem replacement_below_default_gas :
    NoncesNeverDecrease (history (transactStep ⟨100 * 10 ^ 9, 5⟩) {}
        ([timedOutDefaultGas, replacedAt (20 * 10 ^ 9) (1 * 10 ^ 9)].map
          BroadcastCall.toTransactCall)) ∧
      ¬ReplacementsClear (history (broadcastStep ⟨100 * 10 ^ 9, 5⟩) {}
        [timedOutDefaultGas, replacedAt (20 * 10 ^ 9) (1 * 10 ^ 9)]) := by
  refine ⟨by simp [NoncesNeverDecrease, history, timedOutDefaultGas, replacedAt], fun clear => ?_⟩
  have rises := (clear [transition (broadcastStep ⟨100 * 10 ^ 9, 5⟩) {} timedOutDefaultGas] _ [] rfl
    [] (highPrioritySend {} 5 (fun _ => .accepted 2)
      (Fees.capped (20 * 10 ^ 9) (1 * 10 ^ 9) (100 * 10 ^ 9))) [] rfl rfl 5 rfl
    (⟨40 * 10 ^ 9, 2 * 10 ^ 9⟩, ⟨.defaultGas, { nonce := some 5 }, .accepted 1⟩)
    (List.mem_append_left _ (List.mem_singleton.mpr rfl)) ⟨⟨1, rfl, rfl⟩, rfl⟩).1
  exact absurd rises (by decide)

end V3Keeper
