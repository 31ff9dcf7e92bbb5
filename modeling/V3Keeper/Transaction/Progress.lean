import Mathlib.Algebra.Order.BigOperators.Group.Finset
import V3Keeper.Transaction.Atomicity

/-!
A call of `transact` goes on from await to await: it never comes back to an earlier one, the lock
is never left behind, and any number of calls ends after a bounded number of steps.
-/

namespace V3Keeper

open Python Lts

def Phase.rank (attempts : Nat) : Phase → Nat
  | .lock => 0
  | .estimateGas => 1
  | .latestCount => 2
  | .pendingCount _ => 3
  | .defaultGas _ attempt => 4 + 2 * attempt
  | .sleep _ attempt => 5 + 2 * attempt
  | .quote _ => 4 + 2 * attempts
  | .highPriority _ _ => 5 + 2 * attempts
  | .receipt _ _ => 6 + 2 * attempts
  | .ended _ => 7 + 2 * attempts

def Phase.InAttempts (attempts : Nat) : Phase → Prop
  | .defaultGas _ attempt | .sleep _ attempt => attempt < attempts
  | _ => True

def Later (attempts : Nat) (phase next : Phase) : Prop :=
  phase.rank attempts < next.rank attempts ∧ next.InAttempts attempts

section Call

variable {settings : Settings} {request : TransactRequest} {manager : TransactionManager}
  {call : CallId}

theorem later_ended {attempts : Nat} (phase : Phase) (inside : phase.InAttempts attempts)
    (goesOn : phase.isEnded = false) (result : Except PyError (Option TxReceipt)) :
    Later attempts phase (.ended result) := by
  refine ⟨?_, trivial⟩
  cases phase with
  | ended => cases goesOn
  | defaultGas nonce attempt =>
      have bound : attempt < attempts := inside
      simp only [Phase.rank]
      omega
  | sleep nonce attempt =>
      have bound : attempt < attempts := inside
      simp only [Phase.rank]
      omega
  | _ =>
      simp only [Phase.rank]
      omega

theorem attemptDefaultGas_later {phase : Phase} {nonce attempt : Nat}
    (before : phase.rank settings.attemptsWithDefaultGas < 4 + 2 * attempt)
    (bound : attempt ≤ settings.attemptsWithDefaultGas) :
    Later settings.attemptsWithDefaultGas phase
      (attemptDefaultGas settings manager call nonce attempt).phase := by
  unfold attemptDefaultGas
  split
  case isTrue remains => exact ⟨before, remains⟩
  case isFalse used =>
    refine ⟨?_, trivial⟩
    change phase.rank settings.attemptsWithDefaultGas < 4 + 2 * settings.attemptsWithDefaultGas
    omega

theorem resumeDefaultGas_later {nonce attempt : Nat}
    (inside : attempt < settings.attemptsWithDefaultGas) (answer : NodeAnswer) (landed : Bool) :
    Later settings.attemptsWithDefaultGas (.defaultGas nonce attempt)
      (resumeDefaultGas settings manager call nonce attempt answer landed).phase := by
  cases answer with
  | accepted txHash =>
      refine ⟨?_, trivial⟩
      simp only [resumeDefaultGas, acceptTransaction, Phase.rank]
      omega
  | raised error => exact later_ended (.defaultGas nonce attempt) inside rfl _
  | rejected error =>
      simp only [resumeDefaultGas]
      split
      · split
        · refine ⟨?_, inside⟩
          simp only [Phase.rank]
          omega
        · refine ⟨?_, trivial⟩
          simp only [Phase.rank]
          omega
      · exact later_ended (.defaultGas nonce attempt) inside rfl _

theorem resumeQuote_later (nonce : Nat) (quote : Except PyError TxParams) :
    Later settings.attemptsWithDefaultGas (.quote nonce)
      (resumeQuote settings request manager call nonce quote).phase := by
  unfold resumeQuote
  split
  · exact later_ended (.quote nonce) trivial rfl _
  · exact later_ended (.quote nonce) trivial rfl _
  · refine ⟨?_, trivial⟩
    simp only [Phase.rank]
    omega

theorem resumeHighPriority_later (nonce : Nat) (txParams : TxParams) (answer : NodeAnswer)
    (landed : Bool) :
    Later settings.attemptsWithDefaultGas (.highPriority nonce txParams)
      (resumeHighPriority manager call nonce txParams answer landed).phase := by
  cases answer with
  | accepted txHash =>
      refine ⟨?_, trivial⟩
      simp only [resumeHighPriority, acceptTransaction, Phase.rank]
      omega
  | raised error => exact later_ended (.highPriority nonce txParams) trivial rfl _
  | rejected error =>
      simp only [resumeHighPriority]
      split
      · exact later_ended (.highPriority nonce txParams) trivial rfl _
      · exact later_ended (.highPriority nonce txParams) trivial rfl _

theorem resume_later {phase : Phase} {answer : Answer} {resumed : Resumed}
    (inside : phase.InAttempts settings.attemptsWithDefaultGas)
    (result : resume settings request manager call phase answer = some resumed) :
    Later settings.attemptsWithDefaultGas phase resumed.phase := by
  unfold resume at result
  split at result
  case h_1 =>
    cases result
    exact ⟨Nat.lt_succ_self _, trivial⟩
  case h_3 =>
    cases result
    exact ⟨Nat.lt_succ_self _, trivial⟩
  case h_5 latestNonce pendingNonce =>
    have quoted : Later settings.attemptsWithDefaultGas (.pendingCount latestNonce)
        (.quote latestNonce) := by
      refine ⟨?_, trivial⟩
      simp only [Phase.rank]
      omega
    dsimp only at result
    split at result
    · cases result
      exact quoted
    · split at result
      · cases result
        exact quoted
      · cases result
        exact attemptDefaultGas_later (Nat.lt_succ_self _) (Nat.zero_le _)
  case h_7 nonce attempt answer landed =>
    cases result
    exact resumeDefaultGas_later inside answer landed
  case h_8 nonce attempt =>
    cases result
    refine attemptDefaultGas_later ?_ inside
    simp only [Phase.rank]
    omega
  case h_10 nonce quote =>
    cases result
    exact resumeQuote_later nonce quote
  case h_11 nonce txParams answer landed =>
    cases result
    exact resumeHighPriority_later nonce txParams answer landed
  case h_12 nonce txHash wait =>
    cases result
    exact later_ended (.receipt nonce txHash) trivial rfl _
  case h_13 => cases result
  all_goals
    cases result
    exact later_ended _ inside rfl _

end Call

section Wallet

variable {settings : Settings} {requests : CallId → TransactRequest}

def WalletAction.call : WalletAction → CallId
  | .acquire call | .abandon call _ | .resume call _ => call

theorem walletStep_acquire {wallet next : Wallet} {call : CallId}
    (stepped : walletStep settings requests wallet (.acquire call) = some next) :
    wallet.lock = none ∧ wallet.phases call = .lock ∧
      next = { wallet with
        lock := some call
        phases := setPhase wallet.phases call
          (if (requests call).estimateGas then .estimateGas else .latestCount) } := by
  simp only [walletStep] at stepped
  split at stepped
  case h_1 free waits => exact ⟨free, waits, (Option.some.inj stepped).symm⟩
  case h_2 => cases stepped

theorem walletStep_abandon {wallet next : Wallet} {call : CallId} {error : PyError}
    (stepped : walletStep settings requests wallet (.abandon call error) = some next) :
    wallet.phases call = .lock ∧
      next = { wallet with
        phases := setPhase wallet.phases call (.ended (.error error))
        trace := wallet.trace ++ [.ended call (.error error)] } := by
  simp only [walletStep] at stepped
  split at stepped
  case h_1 waits => exact ⟨waits, (Option.some.inj stepped).symm⟩
  case h_2 => cases stepped

theorem walletStep_resume {wallet next : Wallet} {call : CallId} {answer : Answer}
    (stepped : walletStep settings requests wallet (.resume call answer) = some next) :
    ∃ resumed, resume settings (requests call) wallet.manager call (wallet.phases call) answer =
      some resumed ∧ next = wallet.resumed call resumed := by
  simp only [walletStep] at stepped
  split at stepped
  case isTrue =>
    obtain ⟨resumed, result, same⟩ := Option.map_eq_some_iff.mp stepped
    exact ⟨resumed, result, same.symm⟩
  case isFalse => cases stepped

theorem walletStep_later {wallet next : Wallet} {action : WalletAction}
    (inside : (wallet.phases action.call).InAttempts settings.attemptsWithDefaultGas)
    (stepped : walletStep settings requests wallet action = some next) :
    ∃ phase, next.phases = setPhase wallet.phases action.call phase ∧
      Later settings.attemptsWithDefaultGas (wallet.phases action.call) phase := by
  cases action with
  | acquire call =>
      obtain ⟨-, waits, rfl⟩ := walletStep_acquire stepped
      refine ⟨_, rfl, ?_⟩
      rw [WalletAction.call, waits]
      cases (requests call).estimateGas
      · exact ⟨Nat.zero_lt_two, trivial⟩
      · exact ⟨Nat.zero_lt_one, trivial⟩
  | abandon call error =>
      obtain ⟨waits, rfl⟩ := walletStep_abandon stepped
      exact ⟨_, rfl, later_ended _ inside (by rw [WalletAction.call, waits]; rfl) _⟩
  | resume call answer =>
      obtain ⟨resumed, result, rfl⟩ := walletStep_resume stepped
      exact ⟨_, rfl, resume_later inside result⟩

def Wallet.InAttempts (wallet : Wallet) (attempts : Nat) : Prop :=
  ∀ call, (wallet.phases call).InAttempts attempts

theorem Wallet.InAttempts.initial (manager : TransactionManager) (attempts : Nat) :
    (Wallet.initial manager).InAttempts attempts := fun _ => trivial

theorem Wallet.InAttempts.step {wallet next : Wallet} {action : WalletAction}
    (inside : wallet.InAttempts settings.attemptsWithDefaultGas)
    (stepped : walletStep settings requests wallet action = some next) :
    next.InAttempts settings.attemptsWithDefaultGas := by
  obtain ⟨phase, phasesEq, -, later⟩ := walletStep_later (inside action.call) stepped
  intro call
  rw [phasesEq, setPhase]
  split
  · exact later
  · exact inside call

def Wallet.rank (wallet : Wallet) (attempts : Nat) (calls : Finset CallId) : Nat :=
  ∑ call ∈ calls, (wallet.phases call).rank attempts

/-- The call is cancelled, or what it awaits raises. -/
def WalletAction.raises : WalletAction → Bool
  | .abandon _ _ => true
  | .resume _ (.done result) => !result.isOk
  | .resume _ (.count result) => !result.isOk
  | .resume _ (.quoted quote) => !quote.isOk
  | .resume _ (.transacted (.raised _) _) => true
  | .resume _ (.waited (.raised _)) => true
  | _ => false

def Phase.someAnswer (trace : List TransactEvent) : Phase → Answer
  | .latestCount => .count (.ok ((receivedNonces trace).sum + 1))
  | .pendingCount latestNonce => .count (.ok latestNonce)
  | .defaultGas _ _ | .highPriority _ _ => .transacted (.accepted 0) true
  | .quote _ => .quoted (.ok {})
  | .receipt _ _ => .waited .timeExhausted
  | _ => .done (.ok ())

theorem countCovers_someAnswer (trace : List TransactEvent) (phase : Phase) :
    countCovers trace phase (phase.someAnswer trace) = true := by
  cases phase with
  | latestCount =>
      simp only [Phase.someAnswer, countCovers, List.all_eq_true, decide_eq_true_eq]
      intro nonce received
      exact Nat.lt_succ_of_le (List.le_sum_of_mem received)
  | _ => rfl

theorem someAnswer_raises (call : CallId) (trace : List TransactEvent) (phase : Phase) :
    (WalletAction.resume call (phase.someAnswer trace)).raises = false := by
  cases phase <;> rfl

theorem resume_someAnswer (settings : Settings) (request : TransactRequest)
    (manager : TransactionManager) (call : CallId) (trace : List TransactEvent) {phase : Phase}
    (holds : phase.holdsLock = true) :
    ∃ resumed, resume settings request manager call phase (phase.someAnswer trace) =
      some resumed := by
  cases phase with
  | lock => cases holds
  | ended => cases holds
  | pendingCount latestNonce =>
      simp only [Phase.someAnswer, resume]
      split
      · exact ⟨_, rfl⟩
      · split
        · exact ⟨_, rfl⟩
        · exact ⟨_, rfl⟩
  | _ => exact ⟨_, rfl⟩

theorem Serialized.enabled {wallet : Wallet} (serialized : Serialized wallet) {call : CallId}
    (goesOn : (wallet.phases call).isEnded = false) :
    ∃ action next, action.raises = false ∧
      (action.call = call ∨ wallet.lock = some action.call) ∧
      walletStep settings requests wallet action = some next := by
  cases lock : wallet.lock with
  | none =>
      have waits : wallet.phases call = .lock := by
        have idle : (wallet.phases call).holdsLock = false := by
          rw [← Bool.not_eq_true, serialized.owner call, lock]
          simp
        cases phase : wallet.phases call with
        | lock => rfl
        | ended =>
            rw [phase] at goesOn
            cases goesOn
        | _ =>
            rw [phase] at idle
            cases idle
      exact ⟨.acquire call, _, rfl, Or.inl rfl, by simp only [walletStep, lock, waits]; rfl⟩
  | some owner =>
      have holds := (serialized.owner owner).mpr lock
      obtain ⟨resumed, result⟩ := resume_someAnswer settings (requests owner) wallet.manager owner
        wallet.trace holds
      refine ⟨.resume owner ((wallet.phases owner).someAnswer wallet.trace),
        wallet.resumed owner resumed, someAnswer_raises _ _ _, Or.inr rfl, ?_⟩
      simp only [walletStep, countCovers_someAnswer, if_true, result, Option.map_some]

def replacedRun : List WalletAction :=
  [.acquire 0, .resume 0 (.count (.ok 5)), .resume 0 (.count (.ok 5)),
    .resume 0 (.transacted (.accepted 1) true), .resume 0 (.waited .timeExhausted),
    .acquire 1, .resume 1 (.count (.ok 5)), .resume 1 (.count (.ok 6)),
    .resume 1 (.quoted (.ok { maxFeePerGas := some 20, maxPriorityFeePerGas := some 2 })),
    .resume 1 (.transacted (.accepted 2) true)]

end Wallet

end V3Keeper
