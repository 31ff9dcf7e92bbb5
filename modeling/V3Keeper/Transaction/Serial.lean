import V3Keeper.Library.StepRun
import V3Keeper.Transaction.Laws
import V3Keeper.Transaction.Progress

/-!
The interleaved calls of the wallet refine a sequential history of `transactStep`: the calls that
held the lock, in the order in which they ended, with the answers they got.
-/

namespace V3Keeper

open Python Lts StepRun

section Rest

variable (settings : Settings) (call : TransactCall)

def replacementSends (manager : TransactionManager) (nonce : Nat) : List Send :=
  (submitHighPriority settings manager call.highPriorityAnswer call.txParams nonce
    call.quote).1.sends

def attemptSends (manager : TransactionManager) (nonce attempt : Nat) : List Send :=
  let attempts := submitDefaultGas call.defaultGasAnswer
    { call.txParams with nonce := some nonce } (settings.attemptsWithDefaultGas - attempt) attempt
  match attempts.result with
  | .ok none => attempts.sends ++ replacementSends settings call manager nonce
  | _ => attempts.sends

def finishSends (manager : TransactionManager) : Phase → List Send
  | .pendingCount latestNonce =>
      match call.pendingNonce with
      | .error _ => []
      | .ok pendingNonce =>
          (submit settings (manager.forgetBefore latestNonce) call latestNonce
            pendingNonce).1.sends
  | .defaultGas nonce attempt => attemptSends settings call manager nonce attempt
  | .sleep nonce attempt => attemptSends settings call manager nonce (attempt + 1)
  | .quote nonce => replacementSends settings call manager nonce
  | .highPriority _ txParams => [⟨.highPriority, txParams, call.highPriorityAnswer txParams⟩]
  | .receipt _ _ | .ended _ => []
  | .lock | .estimateGas | .latestCount => (transactStep settings manager call).1.sends

def answeredSends (txParams : TxParams) : Phase → Answer → List Send
  | .defaultGas nonce _, .transacted answer _ =>
      [⟨.defaultGas, { txParams with nonce := some nonce }, answer⟩]
  | .highPriority _ params, .transacted answer _ => [⟨.highPriority, params, answer⟩]
  | _, _ => []

def TransactCall.latestCounts : List Nat :=
  match call.latestNonce with
  | .ok latestNonce => [latestNonce]
  | .error _ => []

def restCounts : Phase → List Nat
  | .lock | .estimateGas | .latestCount => call.latestCounts
  | _ => []

def answeredCounts : Phase → Answer → List Nat
  | .latestCount, .count (.ok latestNonce) => [latestNonce]
  | _, _ => []

variable {settings call}

theorem finishSends_attempt (manager : TransactionManager) (id : CallId) (nonce attempt : Nat) :
    finishSends settings call (attemptDefaultGas settings manager id nonce attempt).manager
        (attemptDefaultGas settings manager id nonce attempt).phase =
      attemptSends settings call manager nonce attempt := by
  unfold attemptDefaultGas
  split
  case isTrue => rfl
  case isFalse used =>
    have none : settings.attemptsWithDefaultGas - attempt = 0 := by omega
    simp only [finishSends, attemptSends, none, submitDefaultGas, List.nil_append]

theorem finishSends_defaultGas (manager : TransactionManager) (id : CallId) {nonce attempt : Nat}
    (remains : attempt < settings.attemptsWithDefaultGas) (landed : Bool) :
    let params : TxParams := { call.txParams with nonce := some nonce }
    let answer := call.defaultGasAnswer attempt params
    ⟨.defaultGas, params, answer⟩ :: finishSends settings call
        (resumeDefaultGas settings manager id nonce attempt answer landed).manager
        (resumeDefaultGas settings manager id nonce attempt answer landed).phase =
      attemptSends settings call manager nonce attempt := by
  intro params answer
  obtain ⟨rest, restEq⟩ : ∃ rest, settings.attemptsWithDefaultGas - attempt = rest + 1 :=
    ⟨settings.attemptsWithDefaultGas - attempt - 1, by omega⟩
  have later : settings.attemptsWithDefaultGas - (attempt + 1) = rest := by omega
  rw [attemptSends, restEq]
  simp only [submitDefaultGas]
  change _ :: finishSends settings call
      (resumeDefaultGas settings manager id nonce attempt answer landed).manager
      (resumeDefaultGas settings manager id nonce attempt answer landed).phase = _
  cases answered : call.defaultGasAnswer attempt { call.txParams with nonce := some nonce } with
  | accepted txHash => simp [answer, params, answered, resumeDefaultGas, acceptTransaction,
      finishSends]
  | raised error => simp [answer, params, answered, resumeDefaultGas, failTransaction, finishSends]
  | rejected error =>
      by_cases low : isFeeTooLowError error = true
      · by_cases more : attempt + 1 < settings.attemptsWithDefaultGas
        · simp only [answer, params, answered, resumeDefaultGas, low, more, if_true, finishSends,
            attemptSends, later]
          split <;> rfl
        · have none : rest = 0 := by omega
          subst none
          simp [answer, params, answered, resumeDefaultGas, low, more, finishSends,
            submitDefaultGas]
      · simp [answer, params, answered, resumeDefaultGas, low, endCall, finishSends]

theorem finishSends_replacement (manager : TransactionManager) (id : CallId)
    {request : TransactRequest} (sameParams : request.txParams = call.txParams) (nonce : Nat) :
    finishSends settings call (resumeQuote settings request manager id nonce call.quote).manager
        (resumeQuote settings request manager id nonce call.quote).phase =
      replacementSends settings call manager nonce := by
  unfold resumeQuote replacementSends submitHighPriority
  cases highPriorityFees settings manager nonce call.quote with
  | error error => rfl
  | ok decision =>
      cases decision with
      | none => rfl
      | some fees =>
          simp only [finishSends, sameParams]
          cases call.highPriorityAnswer
              (fees.toTxParams { call.txParams with nonce := some nonce }) with
          | accepted txHash => rfl
          | raised error => rfl
          | rejected error =>
              dsimp only
              split <;> rfl

theorem finishSends_highPriority (manager : TransactionManager) (id : CallId) (nonce : Nat)
    (txParams : TxParams) (answer : NodeAnswer) (landed : Bool) :
    finishSends settings call
        (resumeHighPriority manager id nonce txParams answer landed).manager
        (resumeHighPriority manager id nonce txParams answer landed).phase = [] := by
  cases answer with
  | accepted txHash => rfl
  | raised error => rfl
  | rejected error =>
      simp only [resumeHighPriority]
      split <;> rfl

theorem sends_submit (manager : TransactionManager) (nonce pendingNonce : Nat) :
    (submit settings manager call nonce pendingNonce).1.sends =
      if nonce < pendingNonce ∨ call.highPriority = true then
        replacementSends settings call manager nonce
      else attemptSends settings call manager nonce 0 := by
  by_cases pending : nonce < pendingNonce
  · simp [submit, pending, replacementSends]
  · by_cases urgent : call.highPriority = true
    · simp [submit, pending, urgent, replacementSends]
    · simp only [submit, pending, urgent, if_false, Bool.false_eq_true, or_self, attemptSends,
        Nat.sub_zero]
      split
      case h_1 nothing => simp only [nothing]; rfl
      case h_2 txHash found => simp only [found]
      case h_3 error raised => simp only [raised]

theorem finishSends_latestCount {manager : TransactionManager} {latestNonce : Nat}
    (latestRead : call.latestNonce = .ok latestNonce) :
    finishSends settings call manager (.pendingCount latestNonce) =
      finishSends settings call manager .latestCount := by
  cases pendingRead : call.pendingNonce with
  | error error => simp only [finishSends, transactStep, latestRead, pendingRead]
  | ok pendingNonce =>
      simp only [finishSends, pendingRead]
      exact (transactStep_sends settings latestRead pendingRead).symm

theorem finishSends_pendingCount {request : TransactRequest} {manager : TransactionManager}
    {id : CallId} {resumed : Resumed} {latestNonce pendingNonce : Nat}
    (samePriority : request.highPriority = call.highPriority)
    (pendingRead : call.pendingNonce = .ok pendingNonce)
    (result : resume settings request manager id (.pendingCount latestNonce)
      (.count (.ok pendingNonce)) = some resumed) :
    finishSends settings call resumed.manager resumed.phase =
      finishSends settings call manager (.pendingCount latestNonce) := by
  have rest : finishSends settings call manager (.pendingCount latestNonce) =
      if latestNonce < pendingNonce ∨ call.highPriority = true then
        replacementSends settings call (manager.forgetBefore latestNonce) latestNonce
      else attemptSends settings call (manager.forgetBefore latestNonce) latestNonce 0 := by
    simp only [finishSends, pendingRead, sends_submit]
  rw [rest]
  simp only [resume, samePriority] at result
  split at result
  case isTrue pending =>
    cases result
    rw [if_pos (Or.inl pending)]
    rfl
  case isFalse pending =>
    split at result
    case isTrue urgent =>
      cases result
      rw [if_pos (Or.inr urgent)]
      rfl
    case isFalse usual =>
      cases result
      rw [if_neg (by simp [pending, usual])]
      exact finishSends_attempt _ id latestNonce 0

theorem resume_sends {request : TransactRequest} {manager : TransactionManager} {id : CallId}
    {phase : Phase} {answer : Answer} {resumed : Resumed}
    (sameParams : request.txParams = call.txParams)
    (samePriority : request.highPriority = call.highPriority)
    (started : phase ≠ .estimateGas)
    (inside : phase.InAttempts settings.attemptsWithDefaultGas)
    (agrees : Agrees call phase answer)
    (result : resume settings request manager id phase answer = some resumed) :
    answeredSends request.txParams phase answer ++
        finishSends settings call resumed.manager resumed.phase =
      finishSends settings call manager phase := by
  unfold resume at result
  split at result
  case h_1 => exact absurd rfl started
  case h_2 => exact absurd rfl started
  case h_3 latestNonce =>
    cases result
    exact finishSends_latestCount agrees.symm
  case h_4 error =>
    cases result
    have latestRead : call.latestNonce = .error error := agrees.symm
    simp only [finishSends, transactStep, latestRead]
    rfl
  case h_5 latestNonce pendingNonce =>
    exact finishSends_pendingCount samePriority agrees.symm result
  case h_6 latestNonce error =>
    cases result
    have pendingRead : call.pendingNonce = .error error := agrees.symm
    simp only [finishSends, pendingRead]
    rfl
  case h_7 nonce attempt answer landed =>
    cases result
    have same : answer = call.defaultGasAnswer attempt
        { call.txParams with nonce := some nonce } := agrees
    rw [same, answeredSends, sameParams]
    exact finishSends_defaultGas manager id inside landed
  case h_8 nonce attempt =>
    cases result
    exact finishSends_attempt manager id nonce (attempt + 1)
  case h_9 =>
    have impossible := (agrees : Except.error _ = Except.ok ())
    cases impossible
  case h_10 nonce quote =>
    cases result
    have same : quote = call.quote := agrees
    rw [same]
    exact finishSends_replacement manager id sameParams nonce
  case h_11 nonce txParams answer landed =>
    cases result
    have same : answer = call.highPriorityAnswer txParams := agrees
    rw [finishSends_highPriority, same]
    rfl
  case h_12 nonce txHash wait =>
    cases result
    rfl
  case h_13 => cases result

theorem restCounts_of_later {attempts : Nat} {phase : Phase} (later : 2 < phase.rank attempts) :
    restCounts call phase = [] := by
  cases phase with
  | lock => cases later
  | estimateGas => simp [Phase.rank] at later
  | latestCount => simp [Phase.rank] at later
  | _ => rfl

theorem resume_rank_lt {request : TransactRequest} {manager : TransactionManager} {id : CallId}
    {phase : Phase} {answer : Answer} {resumed : Resumed} (started : phase ≠ .estimateGas)
    (inside : phase.InAttempts settings.attemptsWithDefaultGas)
    (result : resume settings request manager id phase answer = some resumed) :
    2 < resumed.phase.rank settings.attemptsWithDefaultGas := by
  have rises := (resume_later inside result).1
  refine lt_of_le_of_lt ?_ rises
  cases phase with
  | lock => cases answer <;> cases result
  | estimateGas => exact absurd rfl started
  | _ =>
      simp only [Phase.rank]
      omega

theorem resume_counts {request : TransactRequest} {manager : TransactionManager} {id : CallId}
    {phase : Phase} {answer : Answer} {resumed : Resumed} (started : phase ≠ .estimateGas)
    (inside : phase.InAttempts settings.attemptsWithDefaultGas)
    (agrees : Agrees call phase answer)
    (result : resume settings request manager id phase answer = some resumed) :
    answeredCounts phase answer ++ restCounts call resumed.phase = restCounts call phase := by
  have later := resume_rank_lt started inside result
  rw [restCounts_of_later later, List.append_nil]
  by_cases latest : phase = .latestCount
  · subst latest
    cases answer with
    | count read =>
        have same : read = call.latestNonce := agrees
        subst same
        cases call with
        | mk txParams highPriority latestNonce => cases latestNonce <;> rfl
    | _ => cases result
  · have noCount : answeredCounts phase answer = [] := by
      cases phase <;> first | rfl | exact absurd rfl latest
    rw [noCount]
    cases phase with
    | lock => cases answer <;> cases result
    | estimateGas => exact absurd rfl started
    | latestCount => exact absurd rfl latest
    | _ => rfl

end Rest

section Answers

variable {settings : Settings} {requests : CallId → TransactRequest}

/-- No `asyncio.sleep` is cancelled. -/
def SleepsComplete (settings : Settings) (requests : CallId → TransactRequest) :
    Wallet → List WalletAction → Prop :=
  Along (walletStep settings requests) fun wallet action =>
    ∀ id nonce attempt, wallet.phases id = .sleep nonce attempt →
      ∀ error, action ≠ .resume id (.done (.error error))

theorem agreesAlong_iff {call : TransactCall} {id : CallId} {wallet : Wallet}
    {actions : List WalletAction} :
    AgreesAlong settings requests call id wallet actions ↔
      Along (walletStep settings requests)
        (fun wallet action => ∀ answer, action = .resume id answer →
          Agrees call (wallet.phases id) answer) wallet actions := by
  induction actions generalizing wallet with
  | nil => rfl
  | cons action rest ih => simp only [AgreesAlong, Along, ih]

def TransactCall.answering (call : TransactCall) : Phase → Answer → TransactCall
  | .latestCount, .count result => { call with latestNonce := result }
  | .pendingCount _, .count result => { call with pendingNonce := result }
  | .defaultGas _ attempt, .transacted answer _ =>
      { call with
        defaultGasAnswer := fun other params =>
          if other = attempt then answer else call.defaultGasAnswer other params }
  | .quote _, .quoted quote => { call with quote }
  | .highPriority _ _, .transacted answer _ => { call with highPriorityAnswer := fun _ => answer }
  | .receipt _ _, .waited wait => { call with receipt := fun _ => wait }
  | _, _ => call

@[simp] theorem TransactCall.answering_txParams (call : TransactCall) (phase : Phase)
    (answer : Answer) : (call.answering phase answer).txParams = call.txParams := by
  unfold TransactCall.answering
  split <;> rfl

@[simp] theorem TransactCall.answering_highPriority (call : TransactCall) (phase : Phase)
    (answer : Answer) : (call.answering phase answer).highPriority = call.highPriority := by
  unfold TransactCall.answering
  split <;> rfl

theorem agrees_answering_self (call : TransactCall) {phase : Phase} {answer : Answer}
    (completes : ∀ nonce attempt, phase = .sleep nonce attempt → ∀ error,
      answer ≠ .done (.error error)) :
    Agrees (call.answering phase answer) phase answer := by
  cases phase with
  | sleep nonce attempt =>
      cases answer with
      | done result =>
          cases result with
          | ok => rfl
          | error error => exact absurd rfl (completes nonce attempt rfl error)
      | _ => trivial
  | defaultGas nonce attempt =>
      cases answer with
      | transacted answer landed => simp [Agrees, TransactCall.answering]
      | _ => trivial
  | _ =>
      cases answer <;> first | rfl | trivial

theorem agrees_answering_later {attempts : Nat} (call : TransactCall) {earlier later : Phase}
    (rises : earlier.rank attempts < later.rank attempts) (old answer : Answer) :
    Agrees (call.answering earlier old) later answer ↔ Agrees call later answer := by
  unfold TransactCall.answering
  split
  case h_3 nonce attempt node landed =>
    cases later with
    | defaultGas other index =>
        cases answer with
        | transacted reply reached =>
            have different : index ≠ attempt := by
              rintro rfl
              exact absurd rises (lt_irrefl _)
            simp [Agrees, different]
        | _ => rfl
    | _ => cases answer <;> rfl
  case h_7 => rfl
  all_goals
    cases later <;> first
      | (cases answer <;> rfl)
      | (simp [Phase.rank] at rises)

theorem walletStep_rank {wallet next : Wallet} {action : WalletAction}
    (inside : wallet.InAttempts settings.attemptsWithDefaultGas)
    (stepped : walletStep settings requests wallet action = some next) (id : CallId) :
    (wallet.phases id).rank settings.attemptsWithDefaultGas ≤
      (next.phases id).rank settings.attemptsWithDefaultGas := by
  obtain ⟨phase, phasesEq, rises, -⟩ := walletStep_later (inside action.call) stepped
  rw [phasesEq, setPhase]
  split
  case isTrue same => exact same ▸ rises.le
  case isFalse => exact le_rfl

theorem agreesAlong_answering {call : TransactCall} {id : CallId} {earlier : Phase} {old : Answer}
    {actions : List WalletAction} {wallet : Wallet}
    (inside : wallet.InAttempts settings.attemptsWithDefaultGas)
    (rises : earlier.rank settings.attemptsWithDefaultGas <
      (wallet.phases id).rank settings.attemptsWithDefaultGas)
    (agrees : AgreesAlong settings requests call id wallet actions) :
    AgreesAlong settings requests (call.answering earlier old) id wallet actions := by
  induction actions generalizing wallet with
  | nil => trivial
  | cons action rest ih =>
      refine ⟨fun answer resumes => ?_, fun next stepped => ?_⟩
      · exact (agrees_answering_later call rises old answer).mpr (agrees.1 answer resumes)
      · exact ih (inside.step stepped) (rises.trans_le (walletStep_rank inside stepped id))
          (agrees.2 next stepped)

def TransactRequest.someCall (request : TransactRequest) : TransactCall where
  txParams := request.txParams
  highPriority := request.highPriority
  latestNonce := .error .requestError
  pendingNonce := .error .requestError
  quote := .error .requestError
  defaultGasAnswer := fun _ _ => .raised .requestError
  highPriorityAnswer := fun _ => .raised .requestError
  receipt := fun _ => .timeExhausted

structure AnsweredBy (settings : Settings) (requests : CallId → TransactRequest) (id : CallId)
    (wallet : Wallet) (actions : List WalletAction) (call : TransactCall) : Prop where
  txParams : (requests id).txParams = call.txParams
  highPriority : (requests id).highPriority = call.highPriority
  answers : AgreesAlong settings requests call id wallet actions

theorem exists_answeredBy (id : CallId) {actions : List WalletAction} {wallet : Wallet}
    (inside : wallet.InAttempts settings.attemptsWithDefaultGas)
    (complete : SleepsComplete settings requests wallet actions) :
    ∃ call, AnsweredBy settings requests id wallet actions call := by
  induction actions generalizing wallet with
  | nil => exact ⟨(requests id).someCall, rfl, rfl, trivial⟩
  | cons action rest ih =>
      have tail : ∃ call : TransactCall, (requests id).txParams = call.txParams ∧
          (requests id).highPriority = call.highPriority ∧
          ∀ next, walletStep settings requests wallet action = some next →
            AgreesAlong settings requests call id next rest := by
        cases stepped : walletStep settings requests wallet action with
        | none => exact ⟨(requests id).someCall, rfl, rfl, by simp⟩
        | some next =>
            obtain ⟨call, same⟩ := ih (inside.step stepped) (complete.2 next stepped)
            exact ⟨call, same.txParams, same.highPriority, fun other otherEq =>
              Option.some.inj otherEq ▸ same.answers⟩
      obtain ⟨call, sameParams, samePriority, agrees⟩ := tail
      by_cases own : ∃ answer, action = .resume id answer
      · obtain ⟨answer, rfl⟩ := own
        refine ⟨call.answering (wallet.phases id) answer, by simpa using sameParams,
          by simpa using samePriority, ?_, ?_⟩
        · intro other same
          cases same
          refine agrees_answering_self call fun nonce attempt sleeps error raised => ?_
          exact complete.1 id nonce attempt sleeps error (by rw [raised])
        · intro next stepped
          obtain ⟨phase, phasesEq, rises, -⟩ := walletStep_later (inside id) stepped
          refine agreesAlong_answering (inside.step stepped) ?_ (agrees next stepped)
          rw [phasesEq]
          simpa [setPhase, WalletAction.call] using rises
      · exact ⟨call, sameParams, samePriority, fun answer resumes => absurd ⟨answer, resumes⟩ own,
          agrees⟩

end Answers

section Refinement

variable (settings : Settings) (requests : CallId → TransactRequest)

def actionSends (wallet : Wallet) : WalletAction → List Send
  | .resume id answer => answeredSends (requests id).txParams (wallet.phases id) answer
  | _ => []

def sendsAlong (start : Wallet) (actions : List WalletAction) : List Send :=
  observe (walletStep settings requests) (actionSends requests) start actions

def endedCalls (trace : List TransactEvent) : List CallId :=
  trace.filterMap fun event =>
    match event with
    | .ended call _ => some call
    | _ => none

def actionCounts (wallet : Wallet) : WalletAction → List Nat
  | .resume id answer => answeredCounts (wallet.phases id) answer
  | _ => []

def countsAlong (start : Wallet) (actions : List WalletAction) : List Nat :=
  observe (walletStep settings requests) actionCounts start actions

variable (calls : CallId → TransactCall) (start : TransactionManager)

def servedRuns (served : List CallId) : List TransactRun :=
  history (transactStep settings) start (served.map calls)

def servedManager (served : List CallId) : TransactionManager :=
  final (transactStep settings) start (served.map calls)

def servedCounts (served : List CallId) : List Nat :=
  served.flatMap fun id => (calls id).latestCounts

def Wallet.begins (wallet : Wallet) : Prop :=
  ∃ id, wallet.lock = some id ∧
    (wallet.phases id = .estimateGas ∨ wallet.phases id = .latestCount)

/-- The calls of `served` are done, one after the other, and the one that holds the lock is
under way. -/
structure Serial (served : List CallId) (sends : List Send) (counts : List Nat)
    (wallet : Wallet) : Prop where
  serialized : Serialized wallet
  inside : wallet.InAttempts settings.attemptsWithDefaultGas
  distinct : served.Nodup
  order : served.Sublist (endedCalls wallet.trace)
  results : List.Forall₂ (fun id run => wallet.phases id = .ended run.output.result) served
    (servedRuns settings calls start served)
  idle : wallet.lock = none ∨ wallet.begins →
    wallet.manager = servedManager settings calls start served ∧
      sends = allSends (servedRuns settings calls start served) ∧
      counts = servedCounts calls served
  underway : ∀ id, wallet.lock = some id → wallet.phases id ≠ .estimateGas →
    finish settings (calls id) wallet.manager (wallet.phases id) =
        finish settings (calls id) (servedManager settings calls start served) .latestCount ∧
      sends ++ finishSends settings (calls id) wallet.manager (wallet.phases id) =
        allSends (servedRuns settings calls start served) ++
          (transactStep settings (servedManager settings calls start served) (calls id)).1.sends ∧
      counts ++ restCounts (calls id) (wallet.phases id) =
        servedCounts calls served ++ (calls id).latestCounts
  unserved : ∀ id result, wallet.phases id = .ended result → id ∉ served →
    (∃ error, result = .error error) ∧ ∀ nonce, .sent id nonce ∉ wallet.trace

variable {settings requests calls start} {served : List CallId} {sends : List Send}
  {counts : List Nat} {wallet : Wallet}

theorem Serial.initial (manager : TransactionManager) :
    Serial settings calls manager [] [] [] (Wallet.initial manager) where
  serialized := Serialized.initial manager
  inside _ := trivial
  distinct := List.nodup_nil
  order := List.nil_sublist _
  results := List.Forall₂.nil
  idle _ := ⟨rfl, rfl, rfl⟩
  underway id held := by cases held
  unserved id result ended := by cases ended

theorem Serial.served_ended (serial : Serial settings calls start served sends counts wallet)
    {id : CallId} (member : id ∈ served) : (wallet.phases id).isEnded = true := by
  obtain ⟨index, bound, rfl⟩ := List.getElem_of_mem member
  have ended := (List.forall₂_iff_get.mp serial.results).2 index bound
    (serial.results.length_eq ▸ bound)
  rw [List.get_eq_getElem] at ended
  rw [ended]
  rfl

theorem Serial.results_kept (serial : Serial settings calls start served sends counts wallet)
    {phases : CallId → Phase}
    (kept : ∀ id, (wallet.phases id).isEnded = true → phases id = wallet.phases id) :
    List.Forall₂ (fun id run => phases id = .ended run.output.result) served
      (servedRuns settings calls start served) := by
  refine (List.Forall₂.imp (fun id run ended => ?_) serial.results)
  rw [← ended]
  exact kept id (by rw [ended]; rfl)

theorem endedCalls_append (first second : List TransactEvent) :
    endedCalls (first ++ second) = endedCalls first ++ endedCalls second :=
  List.filterMap_append

theorem servedRuns_concat (served : List CallId) (id : CallId) :
    servedRuns settings calls start (served ++ [id]) =
      servedRuns settings calls start served ++
        [transition (transactStep settings) (servedManager settings calls start served)
          (calls id)] := by
  simp only [servedRuns, List.map_append, List.map_singleton, history_append]
  rfl

theorem servedManager_concat (served : List CallId) (id : CallId) :
    servedManager settings calls start (served ++ [id]) =
      (transactStep settings (servedManager settings calls start served) (calls id)).2 := by
  simp only [servedManager, List.map_append, List.map_singleton, final_append]
  rfl

theorem Advance.endedCalls_eq {call : CallId} {phase next : Phase} {events : List TransactEvent}
    (advance : Advance call phase events next) :
    endedCalls events = if next.isEnded then [call] else [] := by
  cases advance with
  | moves next holds => rw [Phase.notEnded_of_holdsLock holds]; rfl
  | sends nonce next _ _ _ holds => rw [Phase.notEnded_of_holdsLock holds]; rfl
  | accepts => rfl
  | loses => rfl
  | receives => rfl
  | ends => rfl

theorem Advance.sent_at {call : CallId} {phase next : Phase} {events : List TransactEvent}
    (advance : Advance call phase events next) {nonce : Nat} (sent : .sent call nonce ∈ events) :
    phase.nonce = some nonce := by
  cases advance with
  | sends own next found =>
      cases List.mem_singleton.mp sent
      exact found
  | _ => simp at sent

theorem Serial.acquire (serial : Serial settings calls start served sends counts wallet)
    {next : Wallet} {call : CallId}
    (stepped : walletStep settings requests wallet (.acquire call) = some next) :
    Serial settings calls start served sends counts next := by
  have serialized := serial.serialized.step stepped
  have inside := serial.inside.step stepped
  obtain ⟨free, waits, rfl⟩ := walletStep_acquire stepped
  obtain ⟨manager, sent, counted⟩ := serial.idle (Or.inl free)
  have kept : ∀ phase id, (wallet.phases id).isEnded = true →
      setPhase wallet.phases call phase id = wallet.phases id := by
    intro phase id ended
    rw [setPhase, if_neg]
    rintro rfl
    rw [waits] at ended
    cases ended
  refine ⟨serialized, inside, serial.distinct, serial.order, serial.results_kept (kept _),
    fun _ => ⟨manager, sent, counted⟩, ?_, ?_⟩
  · intro id held started
    cases held
    have latest : (if (requests call).estimateGas then Phase.estimateGas else .latestCount) =
        .latestCount := by
      cases estimates : (requests call).estimateGas with
      | false => rfl
      | true => simp [setPhase, estimates] at started
    simp only [setPhase, if_true, latest]
    rw [manager, sent, counted]
    exact ⟨rfl, rfl, rfl⟩
  · intro id result ended
    refine serial.unserved id result ?_
    by_cases same : id = call
    · simp only [setPhase, if_pos same] at ended
      split at ended <;> cases ended
    · simpa only [setPhase, if_neg same] using ended

theorem Serial.order_kept (serial : Serial settings calls start served sends counts wallet)
    (events : List TransactEvent) : served.Sublist (endedCalls (wallet.trace ++ events)) := by
  rw [endedCalls_append]
  exact serial.order.trans (List.sublist_append_left _ _)

theorem Serial.abandon (serial : Serial settings calls start served sends counts wallet)
    {next : Wallet} {call : CallId} {error : PyError}
    (stepped : walletStep settings requests wallet (.abandon call error) = some next) :
    Serial settings calls start served sends counts next := by
  have serialized := serial.serialized.step stepped
  have inside := serial.inside.step stepped
  obtain ⟨waits, rfl⟩ := walletStep_abandon stepped
  have other : ∀ id, wallet.phases id ≠ .lock →
      setPhase wallet.phases call (.ended (.error error)) id = wallet.phases id := by
    intro id different
    rw [setPhase, if_neg]
    rintro rfl
    exact different waits
  have holder : ∀ id, wallet.lock = some id → wallet.phases id ≠ .lock := by
    intro id held locked
    have holds := (serial.serialized.owner id).mpr held
    rw [locked] at holds
    cases holds
  refine ⟨serialized, inside, serial.distinct, ?_, ?_, ?_, ?_, ?_⟩
  · exact serial.order_kept _
  · refine serial.results_kept fun id ended => other id ?_
    intro locked
    rw [locked] at ended
    cases ended
  · rintro (free | ⟨id, held, begins⟩)
    · exact serial.idle (Or.inl free)
    · simp only [other id (holder id held)] at begins
      exact serial.idle (Or.inr ⟨id, held, begins⟩)
  · intro id held started
    simp only [other id (holder id held)] at started ⊢
    exact serial.underway id held started
  · intro id result ended notServed
    by_cases same : id = call
    · simp only [setPhase, if_pos same] at ended
      cases ended
      refine ⟨⟨error, rfl⟩, fun nonce sent => ?_⟩
      have earlier : .sent id nonce ∈ wallet.trace := by simpa using sent
      obtain ⟨own, found, -⟩ := serial.serialized.own id (by rw [same, waits]; rfl) _ earlier rfl
      rw [same, waits] at found
      cases found
    · simp only [setPhase, if_neg same] at ended
      obtain ⟨failed, silent⟩ := serial.unserved id result ended notServed
      exact ⟨failed, fun nonce sent => silent nonce (by simpa using sent)⟩

theorem Serialized.ended_kept (serialized : Serialized wallet) {id : CallId}
    (held : wallet.lock = some id) (phase : Phase) :
    ∀ other, (wallet.phases other).isEnded = true →
      setPhase wallet.phases id phase other = wallet.phases other := by
  intro other ended
  rw [setPhase, if_neg]
  rintro rfl
  rw [Phase.notEnded_of_holdsLock ((serialized.owner other).mpr held)] at ended
  cases ended

theorem Serial.unserved_kept (serial : Serial settings calls start served sends counts wallet)
    {id : CallId} {resumed : Resumed}
    (advance : Advance id (wallet.phases id) resumed.events resumed.phase) {other : CallId}
    (different : other ≠ id) {result : Except PyError (Option TxReceipt)}
    (ended : setPhase wallet.phases id resumed.phase other = .ended result)
    (notServed : other ∉ served) :
    (∃ error, result = .error error) ∧
      ∀ nonce, .sent other nonce ∉ wallet.trace ++ resumed.events := by
  rw [setPhase, if_neg different] at ended
  obtain ⟨failed, silent⟩ := serial.unserved other result ended notServed
  refine ⟨failed, fun nonce sent => ?_⟩
  rcases List.mem_append.mp sent with earlier | new
  · exact silent nonce earlier
  · exact different (advance.call_eq _ new)

theorem resume_estimateGas {request : TransactRequest} {manager : TransactionManager}
    {id : CallId} {answer : Answer} {resumed : Resumed}
    (result : resume settings request manager id .estimateGas answer = some resumed) :
    resumed.manager = manager ∧
      (resumed.phase = .latestCount ∨ ∃ error, resumed.phase = .ended (.error error)) := by
  cases answer with
  | done outcome =>
      cases outcome with
      | ok =>
          cases result
          exact ⟨rfl, Or.inl rfl⟩
      | error error =>
          cases result
          exact ⟨rfl, Or.inr ⟨error, rfl⟩⟩
  | _ => cases result

theorem Serial.estimated (serial : Serial settings calls start served sends counts wallet)
    {id : CallId} {answer : Answer} {resumed : Resumed} (held : wallet.lock = some id)
    (estimates : wallet.phases id = .estimateGas)
    (result : resume settings (requests id) wallet.manager id (wallet.phases id) answer =
      some resumed)
    (serialized : Serialized (wallet.resumed id resumed))
    (inside : (wallet.resumed id resumed).InAttempts settings.attemptsWithDefaultGas) :
    Serial settings calls start served sends counts (wallet.resumed id resumed) := by
  obtain ⟨manager, sent, counted⟩ := serial.idle (Or.inr ⟨id, held, Or.inl estimates⟩)
  have advance := resume_advance result
  have kept := serial.serialized.ended_kept held resumed.phase
  rw [estimates] at result
  obtain ⟨sameManager, phases⟩ := resume_estimateGas result
  have silent : ∀ nonce, .sent id nonce ∉ wallet.trace := by
    intro nonce earlier
    obtain ⟨own, found, -⟩ := serial.serialized.own id (by rw [estimates]; rfl) _ earlier rfl
    rw [estimates] at found
    cases found
  refine ⟨serialized, inside, serial.distinct, ?_, serial.results_kept kept,
    fun _ => ⟨sameManager.trans manager, sent, counted⟩, ?_, ?_⟩
  · exact serial.order_kept resumed.events
  · intro other otherHeld started
    rcases phases with latest | ⟨error, ended⟩
    · simp only [Wallet.resumed, latest, Phase.isEnded, Bool.false_eq_true, if_false, held,
        Option.some.injEq] at otherHeld
      subst otherHeld
      have latestPhase : (wallet.resumed id resumed).phases id = .latestCount := by
        simp [Wallet.resumed, setPhase, latest]
      have servedSo : (wallet.resumed id resumed).manager =
          servedManager settings calls start served := sameManager.trans manager
      rw [latestPhase, servedSo, sent, counted]
      exact ⟨rfl, rfl, rfl⟩
    · simp [Wallet.resumed, ended, Phase.isEnded] at otherHeld
  · intro other outcome ended notServed
    by_cases same : other = id
    · subst same
      simp only [Wallet.resumed, setPhase, if_true] at ended
      rcases phases with latest | ⟨error, failed⟩
      · rw [latest] at ended
        cases ended
      · rw [failed] at ended
        cases ended
        refine ⟨⟨error, rfl⟩, fun nonce sent => ?_⟩
        rcases List.mem_append.mp sent with earlier | new
        · exact silent nonce earlier
        · have found := advance.sent_at new
          rw [estimates] at found
          cases found
    · exact serial.unserved_kept advance same ended notServed

section Underway

variable {id : CallId} {answer : Answer} {resumed : Resumed}

theorem Serial.goesOn (serial : Serial settings calls start served sends counts wallet)
    (held : wallet.lock = some id)
    (advance : Advance id (wallet.phases id) resumed.events resumed.phase)
    (started : 2 < resumed.phase.rank settings.attemptsWithDefaultGas)
    (unfinished : resumed.phase.isEnded = false)
    {answered : List Send} {counted : List Nat}
    (rest : finish settings (calls id) resumed.manager resumed.phase =
      finish settings (calls id) (servedManager settings calls start served) .latestCount)
    (restSends : answered ++ finishSends settings (calls id) resumed.manager resumed.phase =
      allSends (servedRuns settings calls start served) ++
        (transactStep settings (servedManager settings calls start served) (calls id)).1.sends)
    (left : counted ++ restCounts (calls id) resumed.phase =
      servedCounts calls served ++ (calls id).latestCounts)
    (serialized : Serialized (wallet.resumed id resumed))
    (inside : (wallet.resumed id resumed).InAttempts settings.attemptsWithDefaultGas) :
    Serial settings calls start served answered counted (wallet.resumed id resumed) := by
  have stillHeld : (wallet.resumed id resumed).lock = some id := by
    simp [Wallet.resumed, unfinished, held]
  have samePhase : (wallet.resumed id resumed).phases id = resumed.phase := by
    simp [Wallet.resumed, setPhase]
  refine ⟨serialized, inside, serial.distinct, ?_,
    serial.results_kept (serial.serialized.ended_kept held resumed.phase), ?_, ?_, ?_⟩
  · exact serial.order_kept resumed.events
  · rintro (free | ⟨other, otherHeld, begins⟩)
    · rw [stillHeld] at free
      cases free
    · rw [stillHeld] at otherHeld
      cases otherHeld
      rw [samePhase] at begins
      rcases begins with estimates | latest
      · simp [estimates, Phase.rank] at started
      · simp [latest, Phase.rank] at started
  · intro other otherHeld _
    rw [stillHeld] at otherHeld
    cases otherHeld
    rw [samePhase]
    exact ⟨rest, restSends, left⟩
  · intro other outcome ended notServed
    by_cases same : other = id
    · subst same
      rw [samePhase] at ended
      rw [ended] at unfinished
      cases unfinished
    · exact serial.unserved_kept advance same ended notServed

theorem Serial.serve (serial : Serial settings calls start served sends counts wallet)
    (held : wallet.lock = some id)
    (advance : Advance id (wallet.phases id) resumed.events resumed.phase)
    {outcome : Except PyError (Option TxReceipt)} (ended : resumed.phase = .ended outcome)
    {answered : List Send} {counted : List Nat}
    (rest : finish settings (calls id) resumed.manager resumed.phase =
      finish settings (calls id) (servedManager settings calls start served) .latestCount)
    (restSends : answered ++ finishSends settings (calls id) resumed.manager resumed.phase =
      allSends (servedRuns settings calls start served) ++
        (transactStep settings (servedManager settings calls start served) (calls id)).1.sends)
    (left : counted ++ restCounts (calls id) resumed.phase =
      servedCounts calls served ++ (calls id).latestCounts)
    (serialized : Serialized (wallet.resumed id resumed))
    (inside : (wallet.resumed id resumed).InAttempts settings.attemptsWithDefaultGas) :
    Serial settings calls start (served ++ [id]) answered counted
      (wallet.resumed id resumed) := by
  have released : (wallet.resumed id resumed).lock = none := by
    simp [Wallet.resumed, ended, Phase.isEnded]
  have samePhase : (wallet.resumed id resumed).phases id = .ended outcome := by
    simp [Wallet.resumed, setPhase, ended]
  have fresh : id ∉ served := by
    intro member
    have ended := serial.served_ended member
    rw [Phase.notEnded_of_holdsLock ((serial.serialized.owner id).mpr held)] at ended
    cases ended
  rw [ended] at rest restSends left
  obtain ⟨sameResult, sameManager⟩ := Prod.mk.inj rest
  refine ⟨serialized, inside, ?_, ?_, ?_, fun _ => ⟨?_, ?_, ?_⟩, ?_, ?_⟩
  · exact List.nodup_append.mpr ⟨serial.distinct, List.nodup_singleton id, by
      rintro member isServed other own rfl
      exact fresh (List.mem_singleton.mp own ▸ isServed)⟩
  · change (served ++ [id]).Sublist (endedCalls (wallet.trace ++ resumed.events))
    rw [endedCalls_append, advance.endedCalls_eq, ended]
    exact serial.order.append (List.Sublist.refl _)
  · rw [servedRuns_concat]
    refine List.rel_append (serial.results_kept
      (serial.serialized.ended_kept held resumed.phase)) ?_
    refine List.Forall₂.cons (samePhase.trans ?_) List.Forall₂.nil
    rw [sameResult]
    rfl
  · rw [servedManager_concat]
    exact sameManager
  · rw [servedRuns_concat, allSends_append, allSends_singleton]
    exact (List.append_nil answered).symm.trans restSends
  · simpa [servedCounts, restCounts] using left
  · intro other otherHeld
    rw [released] at otherHeld
    cases otherHeld
  · intro other otherOutcome otherEnded notServed
    rw [List.mem_append, List.mem_singleton, not_or] at notServed
    exact serial.unserved_kept advance notServed.2 otherEnded notServed.1

/-- From one await to the next the call that holds the lock goes on, fails its estimate, or ends
as the next call that is served. -/
theorem Serial.resumes (serial : Serial settings calls start served sends counts wallet)
    (sameParams : (requests id).txParams = (calls id).txParams)
    (samePriority : (requests id).highPriority = (calls id).highPriority)
    (agrees : Agrees (calls id) (wallet.phases id) answer)
    (result : resume settings (requests id) wallet.manager id (wallet.phases id) answer =
      some resumed)
    (serialized : Serialized (wallet.resumed id resumed))
    (inside : (wallet.resumed id resumed).InAttempts settings.attemptsWithDefaultGas) :
    ∃ served, Serial settings calls start served
      (sends ++ answeredSends (requests id).txParams (wallet.phases id) answer)
      (counts ++ answeredCounts (wallet.phases id) answer) (wallet.resumed id resumed) := by
  have held := (serial.serialized.owner id).mp (resume_holdsLock result)
  by_cases started : wallet.phases id = .estimateGas
  · have silent : answeredSends (requests id).txParams (wallet.phases id) answer = [] := by
      rw [started]
      cases answer <;> rfl
    have uncounted : answeredCounts (wallet.phases id) answer = [] := by
      rw [started]
      rfl
    rw [silent, uncounted, List.append_nil, List.append_nil]
    exact ⟨served, serial.estimated held started result serialized inside⟩
  · obtain ⟨rest, restSends, left⟩ := serial.underway id held started
    have sameRest := resume_finish sameParams samePriority started
      (fun nonce attempt phase => by
        have bound := serial.inside id
        rw [phase] at bound
        exact bound) agrees result
    have sameSends := resume_sends sameParams samePriority started (serial.inside id) agrees
      result
    rw [← sameRest] at rest
    rw [← sameSends, ← List.append_assoc] at restSends
    rw [← resume_counts started (serial.inside id) agrees result, ← List.append_assoc] at left
    have advance := resume_advance result
    have later := resume_rank_lt started (serial.inside id) result
    cases phase : resumed.phase with
    | ended outcome =>
        exact ⟨served ++ [id], serial.serve held advance phase rest restSends left serialized
          inside⟩
    | _ =>
        exact ⟨served, serial.goesOn held advance later (by rw [phase]; rfl) rest restSends left
          serialized inside⟩

end Underway

theorem Serial.step (serial : Serial settings calls start served sends counts wallet)
    {next : Wallet} {action : WalletAction}
    (sameParams : ∀ id, (requests id).txParams = (calls id).txParams)
    (samePriority : ∀ id, (requests id).highPriority = (calls id).highPriority)
    (agrees : ∀ id answer, action = .resume id answer →
      Agrees (calls id) (wallet.phases id) answer)
    (stepped : walletStep settings requests wallet action = some next) :
    ∃ served, Serial settings calls start served
      (sends ++ actionSends requests wallet action)
      (counts ++ actionCounts wallet action) next := by
  cases action with
  | acquire call =>
      simp only [actionSends, actionCounts, List.append_nil]
      exact ⟨served, serial.acquire stepped⟩
  | abandon call error =>
      simp only [actionSends, actionCounts, List.append_nil]
      exact ⟨served, serial.abandon stepped⟩
  | resume id answer =>
      have serialized := serial.serialized.step stepped
      have inside := serial.inside.step stepped
      obtain ⟨resumed, result, rfl⟩ := walletStep_resume stepped
      exact serial.resumes (sameParams id) (samePriority id) (agrees id answer rfl) result
        serialized inside

def SerialAfter (settings : Settings) (requests : CallId → TransactRequest)
    (calls : CallId → TransactCall) (manager : TransactionManager) (actions : List WalletAction)
    (wallet : Wallet) : Prop :=
  (∀ id, AgreesAlong settings requests (calls id) id (Wallet.initial manager) actions) →
    ∃ served, Serial settings calls manager served
      (sendsAlong settings requests (Wallet.initial manager) actions)
      (countsAlong settings requests (Wallet.initial manager) actions) wallet

theorem run_serial (manager : TransactionManager) {actions : List WalletAction}
    (answered : ∀ id, AnsweredBy settings requests id (Wallet.initial manager) actions (calls id))
    (reached : run (walletStep settings requests) (Wallet.initial manager) actions = some wallet) :
    ∃ served, Serial settings calls manager served
      (sendsAlong settings requests (Wallet.initial manager) actions)
      (countsAlong settings requests (Wallet.initial manager) actions) wallet := by
  have initial : SerialAfter settings requests calls manager [] (Wallet.initial manager) :=
    fun _ => ⟨[], Serial.initial manager⟩
  refine run_history initial ?_ reached fun id => (answered id).answers
  intro past state action next before holds stepped agrees
  have split := fun id => (along_concat before).mp (agreesAlong_iff.mp (agrees id))
  obtain ⟨served, serial⟩ := holds fun id => agreesAlong_iff.mpr (split id).1
  rw [sendsAlong, countsAlong, observe_concat _ _ before stepped, observe_concat _ _ before stepped]
  exact serial.step (fun id => (answered id).txParams) (fun id => (answered id).highPriority)
    (fun id => (split id).2) stepped

end Refinement

/-- Every interleaving refines the sequential history of the calls that held the lock: they are
served in the order in which they end, each with the answers it got. -/
theorem wallet_serializes (settings : Settings) (requests : CallId → TransactRequest)
    (manager : TransactionManager) (actions : List WalletAction) (wallet : Wallet)
    (complete : SleepsComplete settings requests (Wallet.initial manager) actions)
    (reached : run (walletStep settings requests) (Wallet.initial manager) actions = some wallet) :
    ∃ calls served,
      (∀ id, AnsweredBy settings requests id (Wallet.initial manager) actions (calls id)) ∧
        Serial settings calls manager served
          (sendsAlong settings requests (Wallet.initial manager) actions)
          (countsAlong settings requests (Wallet.initial manager) actions) wallet := by
  have answered := fun id => exists_answeredBy id
    (Wallet.InAttempts.initial _ settings.attemptsWithDefaultGas) complete
  obtain ⟨served, serial⟩ := run_serial manager (fun id => (answered id).choose_spec) reached
  exact ⟨fun id => (answered id).choose, served, fun id => (answered id).choose_spec, serial⟩

theorem wallet_serializes_replaced :
    ∃ wallet, run (walletStep ⟨100, 5⟩ fun _ => {}) (Wallet.initial {}) replacedRun = some wallet ∧
      ∃ calls served, Serial ⟨100, 5⟩ calls {} served
        (sendsAlong ⟨100, 5⟩ (fun _ => {}) (Wallet.initial {}) replacedRun)
        (countsAlong ⟨100, 5⟩ (fun _ => {}) (Wallet.initial {}) replacedRun) wallet := by
  have complete : SleepsComplete ⟨100, 5⟩ (fun _ => {}) (Wallet.initial {}) replacedRun := by
    simp [SleepsComplete, Along, replacedRun, walletStep]
  obtain ⟨calls, served, -, serial⟩ :=
    wallet_serializes ⟨100, 5⟩ (fun _ => {}) {} replacedRun _ complete rfl
  exact ⟨_, rfl, calls, served, serial⟩

section Fees

variable {settings : Settings} {requests : CallId → TransactRequest}
  {calls : CallId → TransactCall} {start : TransactionManager} {served : List CallId}

theorem servedRuns_neverDecrease (monotone : (servedCounts calls served).Pairwise (· ≤ ·)) :
    NoncesNeverDecrease (servedRuns settings calls start served) := by
  have inputs : (servedRuns settings calls start served).map Transition.input =
      served.map calls := history_inputs _ _ _
  have ordered : (served.map calls).Pairwise fun earlier later => ∀ before after,
      earlier.latestNonce = .ok before → later.latestNonce = .ok after → before ≤ after := by
    refine List.pairwise_map.mpr ((List.pairwise_flatMap.mp monotone).2.imp ?_)
    intro earlier later below before after earlierRead laterRead
    exact below before (by simp [TransactCall.latestCounts, earlierRead]) after
      (by simp [TransactCall.latestCounts, laterRead])
  rw [← inputs] at ordered
  exact List.pairwise_map.mp ordered

theorem Serial.history {sends : List Send} {counts : List Nat} {wallet : Wallet}
    (serial : Serial settings calls start served sends counts wallet) :
    ∃ read, sends <+: allSends (servedRuns settings calls start read) ∧
      counts = servedCounts calls read := by
  by_cases quiet : wallet.lock = none ∨ wallet.begins
  · obtain ⟨-, sent, counted⟩ := serial.idle quiet
    exact ⟨served, sent ▸ List.prefix_refl _, counted⟩
  · rw [not_or] at quiet
    obtain ⟨id, held⟩ := Option.ne_none_iff_exists'.mp quiet.1
    have started : wallet.phases id ≠ .estimateGas := fun phase =>
      quiet.2 ⟨id, held, Or.inl phase⟩
    have counted : restCounts (calls id) (wallet.phases id) = [] := by
      have holds := (serial.serialized.owner id).mpr held
      cases phase : wallet.phases id with
      | lock =>
          rw [phase] at holds
          cases holds
      | estimateGas => exact absurd phase started
      | latestCount => exact absurd ⟨id, held, Or.inr phase⟩ quiet.2
      | _ => rfl
    obtain ⟨-, sent, left⟩ := serial.underway id held started
    rw [counted, List.append_nil] at left
    refine ⟨served ++ [id], ?_, ?_⟩
    · rw [servedRuns_concat, allSends_append, allSends_singleton]
      exact ⟨_, sent⟩
    · simpa [servedCounts] using left

/-- Under every interleaving in which the latest counts never decrease, high-priority fees stay
under the ceiling and rise by a tenth over what was sent for the same nonce before. -/
theorem wallet_fees_rise (settings : Settings) (requests : CallId → TransactRequest)
    (actions : List WalletAction) (wallet : Wallet)
    (complete : SleepsComplete settings requests (Wallet.initial {}) actions)
    (monotone : (countsAlong settings requests (Wallet.initial {}) actions).Pairwise (· ≤ ·))
    (reached : run (walletStep settings requests) (Wallet.initial {}) actions = some wallet) :
    (sendsAlong settings requests (Wallet.initial {}) actions).Pairwise RisesOver ∧
      ∀ send ∈ sendsAlong settings requests (Wallet.initial {}) actions,
        send.strategy = .highPriority → ∃ fee priority,
          send.txParams.maxFeePerGas = some fee ∧
          send.txParams.maxPriorityFeePerGas = some priority ∧
          priority ≤ fee ∧ fee ≤ settings.maxFeePerGas := by
  have answered := fun id => exists_answeredBy id
    (Wallet.InAttempts.initial _ settings.attemptsWithDefaultGas) complete
  obtain ⟨served, serial⟩ := run_serial {} (fun id => (answered id).choose_spec) reached
  obtain ⟨read, sent, counted⟩ := serial.history
  rw [counted] at monotone
  have rising := (history_ledger settings _ (servedRuns_neverDecrease monotone)).2
  refine ⟨rising.sublist sent.sublist, fun send member urgent => ?_⟩
  exact highPriority_within_ceiling (sent.subset member) urgent

theorem wallet_fees_rise_replaced :
    (sendsAlong ⟨100, 5⟩ (fun _ => {}) (Wallet.initial {}) replacedRun).Pairwise RisesOver := by
  have complete : SleepsComplete ⟨100, 5⟩ (fun _ => {}) (Wallet.initial {}) replacedRun := by
    simp [SleepsComplete, Along, replacedRun, walletStep]
  have counts : countsAlong ⟨100, 5⟩ (fun _ => {}) (Wallet.initial {}) replacedRun = [5, 5] := rfl
  exact (wallet_fees_rise ⟨100, 5⟩ (fun _ => {}) replacedRun _ complete (by simp [counts]) rfl).1

end Fees

end V3Keeper
