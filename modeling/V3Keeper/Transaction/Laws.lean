import V3Keeper.Library.StepRun
import V3Keeper.Transaction.Steps

/-!
What holds over any run of `TransactionManager`: which nonce a transaction uses,
which fees a high-priority transaction carries, and how the fees sent for one nonce
rise until they meet the ceiling.
-/

namespace V3Keeper

open Python StepRun Growth

/-- Both fees of `later` are at least 11/10 of those of `earlier`, rounded up. -/
def FeesRise (earlier later : TxParams) : Prop :=
  Fees.minReplacement earlier.fee ≤ later.fee ∧
    Fees.minReplacement earlier.priorityFee ≤ later.priorityFee

def RisesOver (earlier later : Send) : Prop :=
  earlier.strategy = .highPriority → later.strategy = .highPriority →
    earlier.acceptedOrTooLow = true → earlier.txParams.nonce = later.txParams.nonce →
      FeesRise earlier.txParams later.txParams

def replacements (sends : List Send) (nonce : Nat) : List Send :=
  sends.filter fun send => decide (send.strategy = .highPriority) && send.acceptedOrTooLow &&
    decide (send.txParams.nonce = some nonce)

abbrev TransactRun := Transition TransactionManager TransactCall TransactOutcome

def allSends (runs : List TransactRun) : List Send := runs.flatMap fun run => run.output.sends

structure TransactLaw (settings : Settings) (runs : List TransactRun) : Prop where
  latest_nonce : ∀ run ∈ runs, ∀ send ∈ run.output.sends, ∃ latestNonce,
    run.input.latestNonce = .ok latestNonce ∧ send.txParams.nonce = some latestNonce
  no_default_over_pending : ∀ run ∈ runs, ∀ latestNonce pendingNonce,
    run.input.latestNonce = .ok latestNonce → run.input.pendingNonce = .ok pendingNonce →
      latestNonce < pendingNonce → ∀ send ∈ run.output.sends, send.strategy ≠ .defaultGas
  within_ceiling : ∀ send ∈ allSends runs, send.strategy = .highPriority →
    ∃ fee priority, send.txParams.maxFeePerGas = some fee ∧
      send.txParams.maxPriorityFeePerGas = some priority ∧
      priority ≤ fee ∧ fee ≤ settings.maxFeePerGas
  rising : (allSends runs).Pairwise RisesOver
  bounded : ∀ nonce first rest, replacements (allSends runs) nonce = first :: rest →
    (∀ steps, settings.maxFeePerGas < Fees.minReplacement^[steps] first.txParams.fee →
      (first :: rest).length ≤ steps) ∧
    (0 < settings.maxFeePerGas →
      ∃ steps, settings.maxFeePerGas < Fees.minReplacement^[steps] first.txParams.fee)

def NoncesNeverDecrease (runs : List TransactRun) : Prop :=
  runs.Pairwise fun earlier later => ∀ before after,
    earlier.input.latestNonce = .ok before → later.input.latestNonce = .ok after → before ≤ after

/-- What the record map knows about the past: every recorded entry carries capped fees,
and for a nonce that is not mined yet the entry covers every transaction that was
accepted or fee-too-low at it. -/
structure Ledger (settings : Settings) (past : List TransactRun) (manager : TransactionManager) :
    Prop where
  priced : ∀ nonce txParams, manager.nonceToTxParams nonce = some txParams →
    ∃ fees, Fees.fromTxParams txParams settings.maxFeePerGas = .ok fees ∧
      txParams.fee = fees.feePerGas ∧ txParams.priorityFee = fees.priorityFeePerGas
  covered : ∀ nonce, (∀ run ∈ past, ∀ latestNonce, run.input.latestNonce = .ok latestNonce →
      latestNonce ≤ nonce) →
    ∀ send ∈ replacements (allSends past) nonce, ∃ txParams,
      manager.nonceToTxParams nonce = some txParams ∧ send.txParams.fee ≤ txParams.fee ∧
        send.txParams.priorityFee ≤ txParams.priorityFee

@[simp] theorem allSends_append (first second : List TransactRun) :
    allSends (first ++ second) = allSends first ++ allSends second := by
  simp [allSends]

@[simp] theorem allSends_singleton (run : TransactRun) : allSends [run] = run.output.sends := by
  simp [allSends]

theorem mem_replacements {sends : List Send} {nonce : Nat} {send : Send} :
    send ∈ replacements sends nonce ↔ send ∈ sends ∧ send.strategy = .highPriority ∧
      send.acceptedOrTooLow = true ∧ send.txParams.nonce = some nonce := by
  simp [replacements, and_assoc]

theorem Ledger.initial (settings : Settings) : Ledger settings [] {} where
  priced nonce txParams found := by cases found
  covered nonce _ send member := by simp [replacements, allSends] at member

theorem Ledger.forgetBefore {settings : Settings} {past : List TransactRun}
    {manager : TransactionManager} (ledger : Ledger settings past manager) (latestNonce : Nat) :
    ∀ nonce txParams, (manager.forgetBefore latestNonce).nonceToTxParams nonce = some txParams →
      ∃ fees, Fees.fromTxParams txParams settings.maxFeePerGas = .ok fees ∧
        txParams.fee = fees.feePerGas ∧ txParams.priorityFee = fees.priorityFeePerGas :=
  fun nonce txParams found =>
    ledger.priced nonce txParams (TransactionManager.forgetBefore_some found)

theorem Ledger.risesOver {settings : Settings} {past : List TransactRun}
    {manager : TransactionManager} (ledger : Ledger settings past manager) {latestNonce : Nat}
    (neverAbove : ∀ run ∈ past, ∀ before, run.input.latestNonce = .ok before →
      before ≤ latestNonce)
    {quote : Except PyError TxParams} {fees : Fees}
    (chosen : highPriorityFees settings (manager.forgetBefore latestNonce) latestNonce quote =
      .ok (some fees))
    (txParams : TxParams) (transact : TxParams → NodeAnswer) :
    ∀ earlier ∈ allSends past,
      RisesOver earlier (highPrioritySend txParams latestNonce transact fees) := by
  intro earlier member urgent _ recorded sameNonce
  obtain ⟨prev, found, feeCovered, priorityCovered⟩ := ledger.covered latestNonce neverAbove
    earlier (mem_replacements.mpr ⟨member, urgent, recorded, by simpa using sameNonce⟩)
  obtain ⟨prevFees, prevRead, feeEq, priorityEq⟩ := ledger.priced latestNonce prev found
  have replaced : fees.replaces prevFees = true :=
    (highPriorityFees_sent chosen).2.2 prev prevFees
      (by rw [TransactionManager.forgetBefore_kept _ le_rfl]; exact found) prevRead
  rw [Fees.replaces_iff] at replaced
  constructor
  · calc Fees.minReplacement earlier.txParams.fee
        ≤ Fees.minReplacement prevFees.feePerGas :=
          Fees.minReplacement_monotone (feeCovered.trans_eq feeEq)
      _ ≤ fees.feePerGas := replaced.1
  · calc Fees.minReplacement earlier.txParams.priorityFee
        ≤ Fees.minReplacement prevFees.priorityFeePerGas :=
          Fees.minReplacement_monotone (priorityCovered.trans_eq priorityEq)
      _ ≤ fees.priorityFeePerGas := replaced.2

theorem RisesOver.of_default {earlier later : Send} (usual : later.strategy = .defaultGas) :
    RisesOver earlier later := by
  intro _ urgent
  rw [usual] at urgent
  cases urgent

theorem NoncesNeverDecrease.inherited (past : List TransactRun) (next : TransactRun)
    (monotone : NoncesNeverDecrease (past ++ [next])) : NoncesNeverDecrease past :=
  (List.pairwise_append.mp monotone).1

theorem NoncesNeverDecrease.last {past : List TransactRun} {next : TransactRun}
    (monotone : NoncesNeverDecrease (past ++ [next])) {latestNonce : Nat}
    (read : next.input.latestNonce = .ok latestNonce) :
    ∀ run ∈ past, ∀ before, run.input.latestNonce = .ok before → before ≤ latestNonce :=
  fun run member before readBefore =>
    (List.pairwise_append.mp monotone).2.2 run member next (List.mem_singleton.mpr rfl)
      before latestNonce readBefore read

theorem FeesRise.fee_le {earlier later : TxParams} (rise : FeesRise earlier later) :
    earlier.fee ≤ later.fee ∧ earlier.priorityFee ≤ later.priorityFee :=
  ⟨(Fees.le_minReplacement _).trans rise.1, (Fees.le_minReplacement _).trans rise.2⟩

theorem not_mem_replacements_of_default {sends : List Send}
    (defaults : ∀ send ∈ sends, send.strategy = .defaultGas) {nonce : Nat} {send : Send} :
    send ∉ replacements sends nonce := by
  intro member
  obtain ⟨sent, urgent, -⟩ := mem_replacements.mp member
  rw [defaults send sent] at urgent
  cases urgent

theorem replacements_append (first second : List Send) (nonce : Nat) :
    replacements (first ++ second) nonce =
      replacements first nonce ++ replacements second nonce := by
  simp [replacements]

theorem Ledger.idle {settings : Settings} {past : List TransactRun} {manager : TransactionManager}
    (ledger : Ledger settings past manager) {run : TransactRun} (nothing : run.output.sends = []) :
    Ledger settings (past ++ [run]) manager where
  priced := ledger.priced
  covered nonce neverAbove send member := by
    rw [List.forall_mem_append] at neverAbove
    rw [allSends_append, allSends_singleton, nothing, List.append_nil] at member
    exact ledger.covered nonce neverAbove.1 send member

theorem Ledger.keep {settings : Settings} {past : List TransactRun} {manager : TransactionManager}
    (ledger : Ledger settings past manager) {run : TransactRun} {latestNonce : Nat}
    (read : run.input.latestNonce = .ok latestNonce)
    (defaults : ∀ send ∈ run.output.sends, send.strategy = .defaultGas) :
    Ledger settings (past ++ [run]) (manager.forgetBefore latestNonce) where
  priced := ledger.forgetBefore latestNonce
  covered nonce neverAbove send member := by
    rw [allSends_append, allSends_singleton, replacements_append, List.mem_append] at member
    have old := member.resolve_right (not_mem_replacements_of_default defaults)
    rw [List.forall_mem_append] at neverAbove
    obtain ⟨txParams, found, covers⟩ := ledger.covered nonce neverAbove.1 send old
    have kept : latestNonce ≤ nonce :=
      neverAbove.2 run (List.mem_singleton.mpr rfl) latestNonce read
    exact ⟨txParams, by rw [TransactionManager.forgetBefore_kept _ kept]; exact found, covers⟩

theorem mem_replacements_next {past : List TransactRun} {run : TransactRun} {defaults : List Send}
    (onlyDefault : ∀ send ∈ defaults, send.strategy = .defaultGas) {txParams : TxParams}
    {latestNonce : Nat} {transact : TxParams → NodeAnswer} {fees : Fees}
    (sent : run.output.sends =
      defaults ++ [highPrioritySend txParams latestNonce transact fees])
    {nonce : Nat} {other : Send}
    (member : other ∈ replacements (allSends (past ++ [run])) nonce) :
    other ∈ replacements (allSends past) nonce ∨
      (other = highPrioritySend txParams latestNonce transact fees ∧
        (highPrioritySend txParams latestNonce transact fees).acceptedOrTooLow = true ∧
        nonce = latestNonce) := by
  rw [allSends_append, allSends_singleton, sent, replacements_append, replacements_append,
    List.mem_append, List.mem_append] at member
  rcases member with old | new | new
  · exact Or.inl old
  · exact absurd new (not_mem_replacements_of_default onlyDefault)
  · obtain ⟨only, -, recorded, sameNonce⟩ := mem_replacements.mp new
    have same := List.mem_singleton.mp only
    subst same
    exact Or.inr ⟨rfl, recorded, (Option.some.inj sameNonce).symm⟩

theorem Ledger.recordSend {settings : Settings} {past : List TransactRun}
    {manager : TransactionManager} (ledger : Ledger settings past manager) {run : TransactRun}
    {latestNonce : Nat} (read : run.input.latestNonce = .ok latestNonce)
    {defaults : List Send} (onlyDefault : ∀ send ∈ defaults, send.strategy = .defaultGas)
    {txParams : TxParams} {transact : TxParams → NodeAnswer} {fees : Fees}
    (ceiling : fees.maxFeePerGas = settings.maxFeePerGas)
    (rises : ∀ earlier ∈ allSends past,
      RisesOver earlier (highPrioritySend txParams latestNonce transact fees))
    (sent : run.output.sends =
      defaults ++ [highPrioritySend txParams latestNonce transact fees]) :
    Ledger settings (past ++ [run]) (V3Keeper.recordSend (manager.forgetBefore latestNonce)
      latestNonce (highPrioritySend txParams latestNonce transact fees)) := by
  let send := highPrioritySend txParams latestNonce transact fees
  have own : Fees.fromTxParams send.txParams settings.maxFeePerGas = .ok fees := by
    rw [← ceiling]
    exact Fees.fromTxParams_toTxParams fees _
  have split : ∀ nonce other, other ∈ replacements (allSends (past ++ [run])) nonce →
      other ∈ replacements (allSends past) nonce ∨
        (other = send ∧ send.acceptedOrTooLow = true ∧ nonce = latestNonce) :=
    fun nonce other member => mem_replacements_next onlyDefault sent member
  constructor
  · intro nonce entry found
    by_cases recorded : send.acceptedOrTooLow = true
    · rw [V3Keeper.recordSend, if_pos recorded] at found
      by_cases same : nonce = latestNonce
      · subst same
        rw [TransactionManager.record_same] at found
        cases found
        exact ⟨fees, own, rfl, rfl⟩
      · rw [TransactionManager.record_other _ _ same] at found
        exact ledger.forgetBefore latestNonce nonce entry found
    · rw [V3Keeper.recordSend, if_neg recorded] at found
      exact ledger.forgetBefore latestNonce nonce entry found
  · intro nonce neverAbove other member
    rw [List.forall_mem_append] at neverAbove
    have kept : latestNonce ≤ nonce :=
      neverAbove.2 run (List.mem_singleton.mpr rfl) latestNonce read
    by_cases recorded : send.acceptedOrTooLow = true
    · rw [V3Keeper.recordSend, if_pos recorded]
      by_cases same : nonce = latestNonce
      · subst same
        rw [TransactionManager.record_same]
        refine ⟨send.txParams, rfl, ?_⟩
        rcases split nonce other member with old | ⟨new, -, -⟩
        · obtain ⟨past, urgent, oldRecorded, oldNonce⟩ := mem_replacements.mp old
          exact (rises other past urgent rfl oldRecorded oldNonce).fee_le
        · rw [new]
          exact ⟨le_rfl, le_rfl⟩
      · rw [TransactionManager.record_other _ _ same,
          TransactionManager.forgetBefore_kept _ kept]
        rcases split nonce other member with old | ⟨-, -, new⟩
        · exact ledger.covered nonce neverAbove.1 other old
        · exact absurd new same
    · rw [V3Keeper.recordSend, if_neg recorded, TransactionManager.forgetBefore_kept _ kept]
      rcases split nonce other member with old | ⟨-, new, -⟩
      · exact ledger.covered nonce neverAbove.1 other old
      · exact absurd new recorded

theorem Ledger.next {settings : Settings} {past : List TransactRun} {manager : TransactionManager}
    (ledger : Ledger settings past manager) (call : TransactCall)
    (monotone : NoncesNeverDecrease
      (past ++ [transition (transactStep settings) manager call])) :
    Ledger settings (past ++ [transition (transactStep settings) manager call])
        (transactStep settings manager call).2 ∧
      (transactStep settings manager call).1.sends.Pairwise RisesOver ∧
      ∀ earlier ∈ allSends past, ∀ later ∈ (transactStep settings manager call).1.sends,
        RisesOver earlier later := by
  rcases transactStep_cases settings manager call with ⟨nothing, kept⟩ | reads
  · refine ⟨?_, by simp [nothing], by simp [nothing]⟩
    rw [kept]
    exact ledger.idle nothing
  · obtain ⟨latestNonce, pendingNonce, defaults, latestRead, -, onlyDefault, -, outcome⟩ := reads
    have neverAbove := NoncesNeverDecrease.last monotone latestRead
    rcases outcome with ⟨sent, kept⟩ | ⟨fees, chosen, sent, recorded⟩
    · refine ⟨?_, ?_, ?_⟩
      · rw [kept]
        exact ledger.keep latestRead (by simpa [sent] using fun s m => (onlyDefault s m).1)
      · rw [sent]
        exact List.pairwise_of_forall_mem_list fun _ _ later member =>
          .of_default (onlyDefault later member).1
      · intro earlier _ later member
        rw [sent] at member
        exact .of_default (onlyDefault later member).1
    · have rises := ledger.risesOver neverAbove chosen call.txParams call.highPriorityAnswer
      refine ⟨?_, ?_, ?_⟩
      · rw [recorded]
        exact ledger.recordSend latestRead (fun s m => (onlyDefault s m).1)
          (highPriorityFees_sent chosen).1 rises sent
      · rw [sent, List.pairwise_append]
        refine ⟨List.pairwise_of_forall_mem_list fun _ _ later member =>
          .of_default (onlyDefault later member).1, List.pairwise_singleton _ _, ?_⟩
        intro earlier member later _ urgent
        rw [(onlyDefault earlier member).1] at urgent
        cases urgent
      · intro earlier member later new
        rw [sent, List.mem_append, List.mem_singleton] at new
        rcases new with usual | rfl
        · exact .of_default (onlyDefault later usual).1
        · exact rises earlier member

theorem history_ledger (settings : Settings) (calls : List TransactCall)
    (monotone : NoncesNeverDecrease (history (transactStep settings) {} calls)) :
    Ledger settings (history (transactStep settings) {} calls)
        (final (transactStep settings) {} calls) ∧
      (allSends (history (transactStep settings) {} calls)).Pairwise RisesOver := by
  refine history_invariant (transactStep settings) NoncesNeverDecrease
    (fun past manager => Ledger settings past manager ∧
      (allSends past).Pairwise RisesOver)
    NoncesNeverDecrease.inherited ⟨Ledger.initial settings, by simp [allSends]⟩ ?_ calls monotone
  rintro past manager call ⟨ledger, rising⟩ admitted
  obtain ⟨next, own, overPast⟩ := ledger.next call admitted
  refine ⟨next, ?_⟩
  rw [allSends_append, allSends_singleton, List.pairwise_append]
  exact ⟨rising, own, overPast⟩

theorem highPriority_of_mem_history {settings : Settings} {calls : List TransactCall} {send : Send}
    (member : send ∈ allSends (history (transactStep settings) {} calls))
    (urgent : send.strategy = .highPriority) :
    ∃ call ∈ calls, ∃ manager latestNonce fees,
      highPriorityFees settings manager latestNonce call.quote = .ok (some fees) ∧
        send = highPrioritySend call.txParams latestNonce call.highPriorityAnswer fees := by
  obtain ⟨run, runMember, sent⟩ := List.mem_flatMap.mp member
  have called : run.input ∈ calls := input_mem (transactStep settings) runMember
  rw [mem_history_eq (transactStep settings) runMember, transition_output] at sent
  exact ⟨run.input, called,
    transactStep_highPriority settings run.before run.input send sent urgent⟩

theorem highPriority_within_ceiling {settings : Settings} {calls : List TransactCall} {send : Send}
    (member : send ∈ allSends (history (transactStep settings) {} calls))
    (urgent : send.strategy = .highPriority) :
    ∃ fee priority, send.txParams.maxFeePerGas = some fee ∧
      send.txParams.maxPriorityFeePerGas = some priority ∧
      priority ≤ fee ∧ fee ≤ settings.maxFeePerGas := by
  obtain ⟨call, -, manager, latestNonce, fees, chosen, same⟩ :=
    highPriority_of_mem_history member urgent
  have ceiling := (highPriorityFees_sent chosen).1
  exact ⟨fees.feePerGas, fees.priorityFeePerGas, by rw [same]; rfl, by rw [same]; rfl,
    fees.priority_le_fee, fees.fee_le_max.trans_eq ceiling⟩

def PositiveQuotes (calls : List TransactCall) : Prop :=
  ∀ call ∈ calls, ∀ gasParams, call.quote = .ok gasParams →
    0 < gasParams.fee ∧ 0 < gasParams.priorityFee

theorem Fees.fromTxParams_fee {txParams : TxParams} {ceiling : Nat} {fees : Fees}
    (read : Fees.fromTxParams txParams ceiling = .ok fees) :
    fees.feePerGas = min txParams.fee ceiling := by
  unfold Fees.fromTxParams at read
  split at read
  case h_1 fee priority feeRead _ =>
    cases read
    simp [TxParams.fee, feeRead]
  case h_2 => cases read

theorem fee_positive {settings : Settings} {calls : List TransactCall} {send : Send}
    (member : send ∈ allSends (history (transactStep settings) {} calls))
    (urgent : send.strategy = .highPriority) (positive : PositiveQuotes calls)
    (ceiling : 0 < settings.maxFeePerGas) : 0 < send.txParams.fee := by
  obtain ⟨call, called, manager, latestNonce, fees, chosen, same⟩ :=
    highPriority_of_mem_history member urgent
  obtain ⟨-, ⟨gasParams, quoted, quoteEq, read, feeBound, -⟩, -⟩ := highPriorityFees_sent chosen
  have quotePositive := (positive call called gasParams quoteEq).1
  rw [Fees.fromTxParams_fee read] at feeBound
  rw [same, highPrioritySend_fee]
  omega

theorem replacements_rising {sends : List Send} (rising : sends.Pairwise RisesOver) (nonce : Nat) :
    ((replacements sends nonce).map fun send => send.txParams.fee).IsChain
      (fun before after => Fees.minReplacement before ≤ after) := by
  rw [List.isChain_map]
  apply List.Pairwise.isChain
  refine ((rising.sublist List.filter_sublist).imp_of_mem ?_ : _)
  intro earlier later earlierMember laterMember rises
  obtain ⟨-, earlierUrgent, recorded, earlierNonce⟩ := mem_replacements.mp earlierMember
  obtain ⟨-, laterUrgent, -, laterNonce⟩ := mem_replacements.mp laterMember
  exact (rises earlierUrgent laterUrgent recorded (earlierNonce.trans laterNonce.symm)).1

theorem replacements_bounded {settings : Settings} {calls : List TransactCall}
    (monotone : NoncesNeverDecrease (history (transactStep settings) {} calls))
    (positive : PositiveQuotes calls) {nonce : Nat} {first : Send} {rest : List Send}
    (found : replacements (allSends (history (transactStep settings) {} calls)) nonce =
      first :: rest) :
    (∀ steps, settings.maxFeePerGas < Fees.minReplacement^[steps] first.txParams.fee →
      (first :: rest).length ≤ steps) ∧
    (0 < settings.maxFeePerGas →
      ∃ steps, settings.maxFeePerGas < Fees.minReplacement^[steps] first.txParams.fee) := by
  have members : ∀ send ∈ first :: rest,
      send ∈ allSends (history (transactStep settings) {} calls) ∧
        send.strategy = .highPriority := by
    intro send member
    obtain ⟨sent, urgent, -⟩ := mem_replacements.mp (found ▸ member)
    exact ⟨sent, urgent⟩
  have chain := replacements_rising (history_ledger settings calls monotone).2 nonce
  rw [found, List.map_cons] at chain
  constructor
  · intro steps passed
    have short := length_le_of_rising Fees.minReplacement_monotone Fees.le_minReplacement
      chain ?_ passed
    · simpa using short
    · intro fee member
      have mapped : fee ∈ (first :: rest).map fun send => send.txParams.fee := member
      obtain ⟨send, sendMember, rfl⟩ := List.mem_map.mp mapped
      obtain ⟨sent, urgent⟩ := members send sendMember
      obtain ⟨fee, priority, feeEq, -, -, bound⟩ := highPriority_within_ceiling sent urgent
      simpa [TxParams.fee, feeEq] using bound
  · intro ceiling
    obtain ⟨sent, urgent⟩ := members first List.mem_cons_self
    exact exists_iterate_gt (fun value => Fees.lt_minReplacement)
      (fee_positive sent urgent positive ceiling) settings.maxFeePerGas

/-- The laws of the transaction manager, over every sequence of `_transact` runs whose
latest nonces never decrease. -/
theorem transact_lawful (settings : Settings) (calls : List TransactCall)
    (monotone : NoncesNeverDecrease (history (transactStep settings) {} calls))
    (positive : PositiveQuotes calls) :
    TransactLaw settings (history (transactStep settings) {} calls) where
  latest_nonce run member send sent := by
    rw [mem_history_eq (transactStep settings) member, transition_output] at sent
    exact transactStep_latest_nonce settings run.before run.input send sent
  no_default_over_pending run member latestNonce pendingNonce latestRead pendingRead pending send
      sent := by
    rw [mem_history_eq (transactStep settings) member, transition_output] at sent
    exact transactStep_no_default settings run.before latestRead pendingRead pending send sent
  within_ceiling send member urgent := highPriority_within_ceiling member urgent
  rising := (history_ledger settings calls monotone).2
  bounded nonce first rest found := replacements_bounded monotone positive found

/-- A transaction sent at 20 and 2 gwei is still pending at nonce 5 and gets replaced. -/
theorem transact_lawful_replacement :
    let quote : TxParams :=
      { maxFeePerGas := some (20 * 10 ^ 9), maxPriorityFeePerGas := some (2 * 10 ^ 9) }
    let sent : TransactCall :=
      { highPriority := true, latestNonce := .ok 5, pendingNonce := .ok 5, quote := .ok quote
        defaultGasAnswer := fun _ _ => .accepted 0, highPriorityAnswer := fun _ => .accepted 1
        receipt := fun _ => .timeExhausted }
    let replaced : TransactCall := { sent with highPriority := false, pendingNonce := .ok 6 }
    TransactLaw ⟨100 * 10 ^ 9, 5⟩
      (history (transactStep ⟨100 * 10 ^ 9, 5⟩) {} [sent, replaced]) :=
  transact_lawful _ _
    (by simp [NoncesNeverDecrease, history])
    (by simp [PositiveQuotes, TxParams.fee, TxParams.priorityFee])

end V3Keeper
