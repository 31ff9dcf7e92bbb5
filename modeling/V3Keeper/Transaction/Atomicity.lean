import V3Keeper.Transaction.Exclusion

/-!
A call of `transact` between taking the lock and ending comes to the same as one step of
`transactStep`, whatever the other calls do meanwhile.
-/

namespace V3Keeper

open Python Lts

abbrev CallResult := Except PyError (Option TxReceipt) × TransactionManager

section Rest

variable (settings : Settings) (call : TransactCall)

def finishSubmission (submitted : Submission × TransactionManager) : CallResult :=
  match submitted.1.result with
  | .error error => (.error error, submitted.2)
  | .ok none => (.ok none, submitted.2)
  | .ok (some txHash) => (waitForReceipt (call.receipt txHash), submitted.2)

def finishReplacement (manager : TransactionManager) (nonce : Nat) : CallResult :=
  finishSubmission call (submitHighPriority settings manager call.highPriorityAnswer call.txParams
    nonce call.quote)

def finishAttempts (manager : TransactionManager) (nonce attempt : Nat) : CallResult :=
  match (submitDefaultGas call.defaultGasAnswer { call.txParams with nonce := some nonce }
      (settings.attemptsWithDefaultGas - attempt) attempt).result with
  | .error error => (.error error, manager)
  | .ok none => finishReplacement settings call manager nonce
  | .ok (some txHash) => (waitForReceipt (call.receipt txHash), manager)

def finishSend (manager : TransactionManager) (nonce : Nat) (txParams : TxParams) : CallResult :=
  match call.highPriorityAnswer txParams with
  | .accepted txHash => (waitForReceipt (call.receipt txHash), manager.record nonce txParams)
  | .rejected error =>
      if isFeeTooLowError error then (.ok none, manager.record nonce txParams)
      else (.error (.rpcError (rpcErrorMessage error)), manager)
  | .raised error => (.error error, manager)

def finish (manager : TransactionManager) : Phase → CallResult
  | .pendingCount latestNonce =>
      match call.pendingNonce with
      | .error error => (.error error, manager)
      | .ok pendingNonce =>
          finishSubmission call
            (submit settings (manager.forgetBefore latestNonce) call latestNonce pendingNonce)
  | .defaultGas nonce attempt => finishAttempts settings call manager nonce attempt
  | .sleep nonce attempt => finishAttempts settings call manager nonce (attempt + 1)
  | .quote nonce => finishReplacement settings call manager nonce
  | .highPriority nonce txParams => finishSend call manager nonce txParams
  | .receipt _ txHash => (waitForReceipt (call.receipt txHash), manager)
  | .ended result => (result, manager)
  | .lock | .estimateGas | .latestCount =>
      ((transactStep settings manager call).1.result, (transactStep settings manager call).2)

def Agrees : Phase → Answer → Prop
  | .latestCount, .count result => result = call.latestNonce
  | .pendingCount _, .count result => result = call.pendingNonce
  | .defaultGas nonce attempt, .transacted answer _ =>
      answer = call.defaultGasAnswer attempt { call.txParams with nonce := some nonce }
  | .sleep _ _, .done result => result = .ok ()
  | .quote _, .quoted quote => quote = call.quote
  | .highPriority _ txParams, .transacted answer _ => answer = call.highPriorityAnswer txParams
  | .receipt _ txHash, .waited wait => wait = call.receipt txHash
  | _, _ => True

variable {settings call}

theorem finish_attempt (manager : TransactionManager) (id : CallId) (nonce attempt : Nat) :
    finish settings call (attemptDefaultGas settings manager id nonce attempt).manager
        (attemptDefaultGas settings manager id nonce attempt).phase =
      finishAttempts settings call manager nonce attempt := by
  unfold attemptDefaultGas
  split
  case isTrue => rfl
  case isFalse used =>
    have none : settings.attemptsWithDefaultGas - attempt = 0 := by omega
    simp only [finish, finishAttempts, none, submitDefaultGas]

theorem finish_defaultGas (manager : TransactionManager) (id : CallId) {nonce attempt : Nat}
    (remains : attempt < settings.attemptsWithDefaultGas) (landed : Bool) :
    finish settings call
        (resumeDefaultGas settings manager id nonce attempt (call.defaultGasAnswer attempt
          { call.txParams with nonce := some nonce }) landed).manager
        (resumeDefaultGas settings manager id nonce attempt (call.defaultGasAnswer attempt
          { call.txParams with nonce := some nonce }) landed).phase =
      finishAttempts settings call manager nonce attempt := by
  obtain ⟨rest, restEq⟩ : ∃ rest, settings.attemptsWithDefaultGas - attempt = rest + 1 :=
    ⟨settings.attemptsWithDefaultGas - attempt - 1, by omega⟩
  have later : settings.attemptsWithDefaultGas - (attempt + 1) = rest := by omega
  rw [finishAttempts, restEq]
  simp only [submitDefaultGas]
  cases call.defaultGasAnswer attempt { call.txParams with nonce := some nonce } with
  | accepted txHash => rfl
  | raised error => rfl
  | rejected error =>
      by_cases low : isFeeTooLowError error = true
      · by_cases more : attempt + 1 < settings.attemptsWithDefaultGas
        · simp only [resumeDefaultGas, low, more, if_true, finish, finishAttempts, later]
        · have none : rest = 0 := by omega
          subst none
          simp only [resumeDefaultGas, low, more, if_true, if_false, finish, submitDefaultGas]
      · simp only [resumeDefaultGas, low, Bool.false_eq_true, if_false]
        rfl

theorem finish_replacement (manager : TransactionManager) (id : CallId)
    {request : TransactRequest} (sameParams : request.txParams = call.txParams) (nonce : Nat) :
    finish settings call (resumeQuote settings request manager id nonce call.quote).manager
        (resumeQuote settings request manager id nonce call.quote).phase =
      finishReplacement settings call manager nonce := by
  unfold resumeQuote finishReplacement submitHighPriority
  cases highPriorityFees settings manager nonce call.quote with
  | error error => rfl
  | ok decision =>
      cases decision with
      | none => rfl
      | some fees =>
          simp only [finish, finishSend, sameParams]
          cases call.highPriorityAnswer
              (fees.toTxParams { call.txParams with nonce := some nonce }) with
          | accepted txHash => rfl
          | raised error => rfl
          | rejected error =>
              by_cases low : isFeeTooLowError error = true
              · simp only [low, if_true]
                rfl
              · simp only [low, Bool.false_eq_true, if_false]
                rfl

theorem finish_highPriority (manager : TransactionManager) (id : CallId) (nonce : Nat)
    (txParams : TxParams) (landed : Bool) :
    finish settings call (resumeHighPriority manager id nonce txParams
        (call.highPriorityAnswer txParams) landed).manager
      (resumeHighPriority manager id nonce txParams
        (call.highPriorityAnswer txParams) landed).phase =
      finishSend call manager nonce txParams := by
  unfold finishSend
  cases call.highPriorityAnswer txParams with
  | accepted txHash => rfl
  | raised error => rfl
  | rejected error =>
      by_cases low : isFeeTooLowError error = true
      · simp only [resumeHighPriority, low, if_true]
        rfl
      · simp only [resumeHighPriority, low, Bool.false_eq_true, if_false]
        rfl

theorem finish_submit (manager : TransactionManager) (nonce pendingNonce : Nat) :
    finishSubmission call (submit settings manager call nonce pendingNonce) =
      if nonce < pendingNonce ∨ call.highPriority = true then
        finishReplacement settings call manager nonce
      else finishAttempts settings call manager nonce 0 := by
  by_cases pending : nonce < pendingNonce
  · simp [submit, pending, finishReplacement]
  · by_cases urgent : call.highPriority = true
    · simp [submit, pending, urgent, finishReplacement]
    · simp only [submit, pending, urgent, if_false, Bool.false_eq_true, false_or,
        finishAttempts, Nat.sub_zero]
      split
      case h_1 nothing => simp only [nothing]; rfl
      case h_2 txHash found => simp only [found]; rfl
      case h_3 error raised => simp only [raised]; rfl

theorem finish_latestCount {manager : TransactionManager} {latestNonce : Nat}
    (latestRead : call.latestNonce = .ok latestNonce) :
    finish settings call manager (.pendingCount latestNonce) =
      finish settings call manager .latestCount := by
  cases pendingRead : call.pendingNonce with
  | error error => simp only [finish, transactStep, latestRead, pendingRead]
  | ok pendingNonce =>
      simp only [finish, transactStep, latestRead, pendingRead, finishSubmission]
      cases submitted : (submit settings (manager.forgetBefore latestNonce) call latestNonce
          pendingNonce).1.result with
      | error error => simp only
      | ok found => cases found <;> simp only

theorem finish_pendingCount {request : TransactRequest} {manager : TransactionManager}
    {id : CallId} {resumed : Resumed} {latestNonce pendingNonce : Nat}
    (samePriority : request.highPriority = call.highPriority)
    (pendingRead : call.pendingNonce = .ok pendingNonce)
    (result : resume settings request manager id (.pendingCount latestNonce)
      (.count (.ok pendingNonce)) = some resumed) :
    finish settings call resumed.manager resumed.phase =
      finish settings call manager (.pendingCount latestNonce) := by
  have rest : finish settings call manager (.pendingCount latestNonce) =
      if latestNonce < pendingNonce ∨ call.highPriority = true then
        finishReplacement settings call (manager.forgetBefore latestNonce) latestNonce
      else finishAttempts settings call (manager.forgetBefore latestNonce) latestNonce 0 := by
    simp only [finish, pendingRead, finish_submit]
  rw [rest]
  simp only [resume, samePriority] at result
  split at result
  case isTrue pending =>
    cases result
    rw [if_pos (Or.inl pending)]
    rfl
  case isFalse pending =>
    split at result
    case isTrue urgent =>
      cases result
      rw [if_pos (Or.inr urgent)]
      rfl
    case isFalse usual =>
      cases result
      rw [if_neg (by simp [pending, usual])]
      exact finish_attempt _ id latestNonce 0

theorem resume_finish {request : TransactRequest} {manager : TransactionManager} {id : CallId}
    {phase : Phase} {answer : Answer} {resumed : Resumed}
    (sameParams : request.txParams = call.txParams)
    (samePriority : request.highPriority = call.highPriority)
    (started : phase ≠ .estimateGas)
    (remains : ∀ nonce attempt, phase = .defaultGas nonce attempt →
      attempt < settings.attemptsWithDefaultGas)
    (agrees : Agrees call phase answer)
    (result : resume settings request manager id phase answer = some resumed) :
    finish settings call resumed.manager resumed.phase = finish settings call manager phase := by
  unfold resume at result
  split at result
  case h_1 => exact absurd rfl started
  case h_2 => exact absurd rfl started
  case h_3 latestNonce =>
    cases result
    exact finish_latestCount agrees.symm
  case h_4 error =>
    cases result
    have latestRead : call.latestNonce = .error error := agrees.symm
    simp only [finish, transactStep, latestRead]
    rfl
  case h_5 latestNonce pendingNonce =>
    exact finish_pendingCount samePriority agrees.symm result
  case h_6 latestNonce error =>
    cases result
    have pendingRead : call.pendingNonce = .error error := agrees.symm
    simp only [finish, pendingRead]
    rfl
  case h_7 nonce attempt answer landed =>
    cases result
    have same : answer = call.defaultGasAnswer attempt
        { call.txParams with nonce := some nonce } := agrees
    rw [same]
    exact finish_defaultGas manager id (remains nonce attempt rfl) landed
  case h_8 nonce attempt =>
    cases result
    exact finish_attempt manager id nonce (attempt + 1)
  case h_9 =>
    have impossible := (agrees : Except.error _ = Except.ok ())
    cases impossible
  case h_10 nonce quote =>
    cases result
    have same : quote = call.quote := agrees
    rw [same]
    exact finish_replacement manager id sameParams nonce
  case h_11 nonce txParams answer landed =>
    cases result
    have same : answer = call.highPriorityAnswer txParams := agrees
    rw [same]
    exact finish_highPriority manager id nonce txParams landed
  case h_12 nonce txHash wait =>
    cases result
    have same : wait = call.receipt txHash := agrees
    rw [same]
    rfl
  case h_13 => cases result

theorem attemptDefaultGas_next (settings : Settings) (manager : TransactionManager) (id : CallId)
    (nonce attempt : Nat) :
    (attemptDefaultGas settings manager id nonce attempt).phase ≠ .estimateGas ∧
      ∀ other index, (attemptDefaultGas settings manager id nonce attempt).phase =
        .defaultGas other index → index < settings.attemptsWithDefaultGas := by
  unfold attemptDefaultGas
  split
  case isTrue remains =>
    refine ⟨by simp, fun other index same => ?_⟩
    cases same
    exact remains
  case isFalse => simp

theorem resume_next {request : TransactRequest} {manager : TransactionManager} {id : CallId}
    {phase : Phase} {answer : Answer} {resumed : Resumed}
    (result : resume settings request manager id phase answer = some resumed) :
    resumed.phase ≠ .estimateGas ∧ ∀ nonce attempt, resumed.phase = .defaultGas nonce attempt →
      attempt < settings.attemptsWithDefaultGas := by
  unfold resume at result
  split at result
  case h_5 latestNonce pendingNonce =>
    dsimp only at result
    split at result
    · cases result
      simp
    · split at result
      · cases result
        simp
      · cases result
        exact attemptDefaultGas_next settings _ id latestNonce 0
  case h_7 nonce attempt answer landed =>
    cases result
    cases answer with
    | accepted txHash => simp [resumeDefaultGas, acceptTransaction]
    | raised error => simp [resumeDefaultGas, failTransaction]
    | rejected error =>
        simp only [resumeDefaultGas]
        split
        · split <;> simp
        · simp [endCall]
  case h_8 nonce attempt =>
    cases result
    exact attemptDefaultGas_next settings manager id nonce (attempt + 1)
  case h_10 nonce quote =>
    cases result
    unfold resumeQuote
    split <;> simp [endCall]
  case h_11 nonce txParams answer landed =>
    cases result
    cases answer with
    | accepted txHash => simp [resumeHighPriority, acceptTransaction]
    | raised error => simp [resumeHighPriority, failTransaction]
    | rejected error =>
        simp only [resumeHighPriority]
        split <;> simp [endCall]
  case h_13 => cases result
  all_goals
    cases result
    simp [endCall, resumeReceipt]

end Rest

section Run

variable {settings : Settings} {requests : CallId → TransactRequest} {call : TransactCall}
  {id : CallId}

structure Underway (settings : Settings) (call : TransactCall) (id : CallId) (target : CallResult)
    (wallet : Wallet) : Prop where
  serialized : Serialized wallet
  owner : wallet.lock = some id
  started : wallet.phases id ≠ .estimateGas
  remains : ∀ nonce attempt, wallet.phases id = .defaultGas nonce attempt →
    attempt < settings.attemptsWithDefaultGas
  rest : finish settings call wallet.manager (wallet.phases id) = target

def AgreesAlong (settings : Settings) (requests : CallId → TransactRequest) (call : TransactCall)
    (id : CallId) : Wallet → List WalletAction → Prop
  | _, [] => True
  | wallet, action :: rest =>
      (∀ answer, action = .resume id answer → Agrees call (wallet.phases id) answer) ∧
        ∀ next, walletStep settings requests wallet action = some next →
          AgreesAlong settings requests call id next rest

theorem Underway.step {target : CallResult} {wallet next : Wallet} {action : WalletAction}
    (underway : Underway settings call id target wallet)
    (sameParams : (requests id).txParams = call.txParams)
    (samePriority : (requests id).highPriority = call.highPriority)
    (agrees : ∀ answer, action = .resume id answer → Agrees call (wallet.phases id) answer)
    (stepped : walletStep settings requests wallet action = some next) :
    Underway settings call id target next ∨
      ∃ result, next.phases id = .ended result ∧ (result, next.manager) = target := by
  have serialized := underway.serialized.step stepped
  have holds := (underway.serialized.owner id).mpr underway.owner
  cases action with
  | acquire other => simp [walletStep, underway.owner] at stepped
  | abandon other error =>
      simp only [walletStep] at stepped
      split at stepped
      case h_2 => cases stepped
      case h_1 waits =>
        cases stepped
        have different : id ≠ other := by
          rintro rfl
          rw [waits] at holds
          cases holds
        exact Or.inl ⟨serialized, underway.owner, by
          simpa [setPhase, different] using underway.started, by
          simpa [setPhase, different] using underway.remains, by
          simpa [setPhase, different] using underway.rest⟩
  | resume other answer =>
      simp only [walletStep] at stepped
      split at stepped
      case isFalse => cases stepped
      case isTrue =>
        obtain ⟨resumed, result, rfl⟩ := Option.map_eq_some_iff.mp stepped
        have owner := (underway.serialized.owner other).mp (resume_holdsLock result)
        rw [underway.owner] at owner
        cases owner
        have rest := resume_finish sameParams samePriority underway.started underway.remains
          (agrees answer rfl) result
        rw [underway.rest] at rest
        cases ended : resumed.phase.isEnded with
        | false =>
            refine Or.inl ⟨serialized, ?_, ?_, ?_, ?_⟩
            · simpa [Wallet.resumed, ended] using underway.owner
            · simpa [Wallet.resumed, setPhase] using (resume_next result).1
            · simpa [Wallet.resumed, setPhase] using (resume_next result).2
            · simpa [Wallet.resumed, setPhase] using rest
        | true =>
            refine Or.inr ?_
            cases phase : resumed.phase with
            | ended outcome =>
                rw [phase] at rest
                exact ⟨outcome, by simp [Wallet.resumed, setPhase, phase], rest⟩
            | _ =>
                rw [phase] at ended
                cases ended

theorem ended_step {wallet next : Wallet} {action : WalletAction}
    (ended : (wallet.phases id).isEnded = true)
    (stepped : walletStep settings requests wallet action = some next) :
    (next.phases id).isEnded = true := by
  have kept : ∀ other phase, other ≠ id →
      (setPhase wallet.phases other phase id).isEnded = true := by
    intro other phase different
    simpa [setPhase, Ne.symm different] using ended
  cases action with
  | acquire other =>
      simp only [walletStep] at stepped
      split at stepped
      case h_2 => cases stepped
      case h_1 waits =>
        cases stepped
        refine kept other _ ?_
        rintro rfl
        rw [waits] at ended
        cases ended
  | abandon other error =>
      simp only [walletStep] at stepped
      split at stepped
      case h_2 => cases stepped
      case h_1 waits =>
        cases stepped
        refine kept other _ ?_
        rintro rfl
        rw [waits] at ended
        cases ended
  | resume other answer =>
      simp only [walletStep] at stepped
      split at stepped
      case isFalse => cases stepped
      case isTrue =>
        obtain ⟨resumed, result, rfl⟩ := Option.map_eq_some_iff.mp stepped
        refine kept other _ ?_
        rintro rfl
        have goesOn := Phase.notEnded_of_holdsLock (resume_holdsLock result)
        rw [ended] at goesOn
        cases goesOn

theorem underway_run {target : CallResult} {start before : Wallet} {actions : List WalletAction}
    (underway : Underway settings call id target start)
    (sameParams : (requests id).txParams = call.txParams)
    (samePriority : (requests id).highPriority = call.highPriority)
    (agrees : AgreesAlong settings requests call id start actions)
    (reached : run (walletStep settings requests) start actions = some before)
    (goesOn : (before.phases id).isEnded = false) : Underway settings call id target before := by
  induction actions generalizing start with
  | nil =>
      cases reached
      exact underway
  | cons action rest ih =>
      rw [run] at reached
      split at reached
      case h_1 => cases reached
      case h_2 next stepped =>
        rcases underway.step sameParams samePriority agrees.1 stepped with
          still | ⟨result, finished, -⟩
        · exact ih still (agrees.2 next stepped) reached
        · have reachedEnd : (next.phases id).isEnded = true := by
            rw [finished]
            rfl
          have ended : (before.phases id).isEnded = true :=
            run_invariant (fun _ _ _ => ended_step) reachedEnd reached
          rw [goesOn] at ended
          cases ended

/-- From the latest count to its end a call returns and remembers what `transactStep` does,
under any interleaving with other calls. -/
theorem transact_atomic {start before final : Wallet} {actions : List WalletAction}
    {answer : Answer} {result : Except PyError (Option TxReceipt)}
    (serialized : Serialized start) (begins : start.phases id = .latestCount)
    (sameParams : (requests id).txParams = call.txParams)
    (samePriority : (requests id).highPriority = call.highPriority)
    (agrees : AgreesAlong settings requests call id start actions)
    (reached : run (walletStep settings requests) start actions = some before)
    (goesOn : (before.phases id).isEnded = false)
    (lastAgrees : Agrees call (before.phases id) answer)
    (stepped : walletStep settings requests before (.resume id answer) = some final)
    (ended : final.phases id = .ended result) :
    (transactStep settings start.manager call).1.result = result ∧
      (transactStep settings start.manager call).2 = final.manager := by
  have owner : start.lock = some id := (serialized.owner id).mp (by rw [begins]; rfl)
  have underway : Underway settings call id (finish settings call start.manager .latestCount)
      start :=
    ⟨serialized, owner, by rw [begins]; simp, by rw [begins]; simp, by rw [begins]⟩
  have reachedUnderway := underway_run underway sameParams samePriority agrees reached goesOn
  rcases reachedUnderway.step sameParams samePriority (fun other same => by
    cases same
    exact lastAgrees) stepped with still | ⟨outcome, finished, target⟩
  · have holds := (still.serialized.owner id).mpr still.owner
    rw [ended] at holds
    cases holds
  · rw [ended] at finished
    cases finished
    exact ⟨(congrArg Prod.fst target).symm, (congrArg Prod.snd target).symm⟩

end Run

end V3Keeper
