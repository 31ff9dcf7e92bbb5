import V3Keeper.Transaction.Manager

/-!
Concurrent calls of `TransactionManager.transact`. A call runs on its own from one await to the
next one, and the calls interleave at their awaits.
-/

namespace V3Keeper

open Python

abbrev CallId := Nat

structure TransactRequest where
  txParams : TxParams := {}
  highPriority : Bool := false
  estimateGas : Bool := false

inductive Phase where
  | lock
  | estimateGas
  | latestCount
  | pendingCount (latestNonce : Nat)
  | defaultGas (nonce attempt : Nat)
  | sleep (nonce attempt : Nat)
  | quote (nonce : Nat)
  | highPriority (nonce : Nat) (txParams : TxParams)
  | receipt (nonce : Nat) (txHash : TxHash)
  | ended (result : Except PyError (Option TxReceipt))

/-- What an awaited operation comes to. The node may have accepted a transaction whose answer
is lost. -/
inductive Answer where
  | done (result : Except PyError Unit)
  | count (result : Except PyError Nat)
  | quoted (result : Except PyError TxParams)
  | transacted (answer : NodeAnswer) (landed : Bool)
  | waited (wait : ReceiptWait)

inductive TransactEvent where
  | sent (call : CallId) (nonce : Nat)
  | accepted (call : CallId) (nonce : Nat)
  | received (call : CallId) (nonce : Nat)
  | ended (call : CallId) (result : Except PyError (Option TxReceipt))

def TransactEvent.call : TransactEvent → CallId
  | .sent call _ | .accepted call _ | .received call _ | .ended call _ => call

structure Resumed where
  phase : Phase
  manager : TransactionManager
  events : List TransactEvent

section Call

variable (settings : Settings) (request : TransactRequest) (manager : TransactionManager)
  (call : CallId)

def endCall (result : Except PyError (Option TxReceipt)) : Resumed :=
  ⟨.ended result, manager, [.ended call result]⟩

/-- The next attempt of `_submit_default_gas`, or the escalation once all are used up. -/
def attemptDefaultGas (nonce attempt : Nat) : Resumed :=
  if attempt < settings.attemptsWithDefaultGas then
    ⟨.defaultGas nonce attempt, manager, [.sent call nonce]⟩
  else ⟨.quote nonce, manager, []⟩

def acceptTransaction (nonce : Nat) (txHash : TxHash) : Resumed :=
  ⟨.receipt nonce txHash, manager, [.accepted call nonce]⟩

/-- An exception of `tx_function.transact` that is no rejection as fee-too-low. -/
def failTransaction (nonce : Nat) (error : PyError) (landed : Bool) : Resumed :=
  ⟨.ended (.error error), manager,
    (if landed then [.accepted call nonce] else []) ++ [.ended call (.error error)]⟩

def resumeDefaultGas (nonce attempt : Nat) : NodeAnswer → (landed : Bool) → Resumed
  | .accepted txHash, _ => acceptTransaction manager call nonce txHash
  | .rejected error, _ =>
      if isFeeTooLowError error then
        if attempt + 1 < settings.attemptsWithDefaultGas then ⟨.sleep nonce attempt, manager, []⟩
        else ⟨.quote nonce, manager, []⟩
      else endCall manager call (.error (.rpcError (rpcErrorMessage error)))
  | .raised error, landed => failTransaction manager call nonce error landed

def resumeQuote (nonce : Nat) (quote : Except PyError TxParams) : Resumed :=
  match highPriorityFees settings manager nonce quote with
  | .error error => endCall manager call (.error error)
  | .ok none => endCall manager call (.ok none)
  | .ok (some fees) =>
      ⟨.highPriority nonce (fees.toTxParams { request.txParams with nonce := some nonce }), manager,
        [.sent call nonce]⟩

def resumeHighPriority (nonce : Nat) (txParams : TxParams) : NodeAnswer → (landed : Bool) → Resumed
  | .accepted txHash, _ => acceptTransaction (manager.record nonce txParams) call nonce txHash
  | .rejected error, _ =>
      if isFeeTooLowError error then endCall (manager.record nonce txParams) call (.ok none)
      else endCall manager call (.error (.rpcError (rpcErrorMessage error)))
  | .raised error, landed => failTransaction manager call nonce error landed

def resumeReceipt (nonce : Nat) (wait : ReceiptWait) : Resumed :=
  let received : List TransactEvent :=
    match wait with
    | .receipt _ => [.received call nonce]
    | _ => []
  ⟨.ended (waitForReceipt wait), manager, received ++ [.ended call (waitForReceipt wait)]⟩

def resume : Phase → Answer → Option Resumed
  | .estimateGas, .done (.ok ()) => some ⟨.latestCount, manager, []⟩
  | .estimateGas, .done (.error error) => some (endCall manager call (.error error))
  | .latestCount, .count (.ok latestNonce) => some ⟨.pendingCount latestNonce, manager, []⟩
  | .latestCount, .count (.error error) => some (endCall manager call (.error error))
  | .pendingCount latestNonce, .count (.ok pendingNonce) =>
      let kept := manager.forgetBefore latestNonce
      if latestNonce < pendingNonce then some ⟨.quote latestNonce, kept, []⟩
      else if request.highPriority then some ⟨.quote latestNonce, kept, []⟩
      else some (attemptDefaultGas settings kept call latestNonce 0)
  | .pendingCount _, .count (.error error) => some (endCall manager call (.error error))
  | .defaultGas nonce attempt, .transacted answer landed =>
      some (resumeDefaultGas settings manager call nonce attempt answer landed)
  | .sleep nonce attempt, .done (.ok ()) =>
      some (attemptDefaultGas settings manager call nonce (attempt + 1))
  | .sleep _ _, .done (.error error) => some (endCall manager call (.error error))
  | .quote nonce, .quoted quote => some (resumeQuote settings request manager call nonce quote)
  | .highPriority nonce txParams, .transacted answer landed =>
      some (resumeHighPriority manager call nonce txParams answer landed)
  | .receipt nonce _, .waited wait => some (resumeReceipt manager call nonce wait)
  | _, _ => none

end Call

structure Wallet where
  manager : TransactionManager
  lock : Option CallId
  phases : CallId → Phase
  trace : List TransactEvent

def Wallet.initial (manager : TransactionManager) : Wallet := ⟨manager, none, fun _ => .lock, []⟩

inductive WalletAction where
  | acquire (call : CallId)
  /-- The call is cancelled while it waits for the lock. -/
  | abandon (call : CallId) (error : PyError)
  | resume (call : CallId) (answer : Answer)

def receivedNonces (trace : List TransactEvent) : List Nat :=
  trace.filterMap fun event =>
    match event with
    | .received _ nonce => some nonce
    | _ => none

/-- The latest count covers every transaction whose receipt was returned. -/
def countCovers (trace : List TransactEvent) : Phase → Answer → Bool
  | .latestCount, .count (.ok latestNonce) =>
      (receivedNonces trace).all fun nonce => decide (nonce < latestNonce)
  | _, _ => true

def setPhase (phases : CallId → Phase) (call : CallId) (phase : Phase) : CallId → Phase :=
  fun other => if other = call then phase else phases other

def Phase.isEnded : Phase → Bool
  | .ended _ => true
  | _ => false

def Wallet.resumed (wallet : Wallet) (call : CallId) (resumed : Resumed) : Wallet where
  manager := resumed.manager
  lock := if resumed.phase.isEnded then none else wallet.lock
  phases := setPhase wallet.phases call resumed.phase
  trace := wallet.trace ++ resumed.events

def walletStep (settings : Settings) (requests : CallId → TransactRequest) (wallet : Wallet) :
    WalletAction → Option Wallet
  | .acquire call =>
      match wallet.lock, wallet.phases call with
      | none, .lock =>
          let phase := if (requests call).estimateGas then .estimateGas else .latestCount
          some { wallet with lock := some call, phases := setPhase wallet.phases call phase }
      | _, _ => none
  | .abandon call error =>
      match wallet.phases call with
      | .lock =>
          some { wallet with
            phases := setPhase wallet.phases call (.ended (.error error))
            trace := wallet.trace ++ [.ended call (.error error)] }
      | _ => none
  | .resume call answer =>
      if countCovers wallet.trace (wallet.phases call) answer then
        (resume settings (requests call) wallet.manager call (wallet.phases call) answer).map
          (wallet.resumed call)
      else none

end V3Keeper
