import Mathlib.Data.List.Infix
import V3Keeper.Transaction.Fees

/-!
`TransactionManager` of `src/common/transaction.py`. The node, the gas manager and
the receipt wait are inputs of a call; a call lists every transaction it sends.
-/

namespace V3Keeper

open Python

structure Settings where
  maxFeePerGas : Nat
  attemptsWithDefaultGas : Nat
  deriving DecidableEq, Repr

abbrev TxHash := Nat

structure TxReceipt where
  transactionHash : TxHash
  status : Nat
  deriving DecidableEq, Repr

structure Web3RPCError where
  responseMessage : Option String
  text : String
  deriving DecidableEq, Repr

def feeTooLowMessages : List String :=
  ["feetoolow", "fee too low", "underpriced", "replacementnotallowed", "could not replace"]

def rpcErrorMessage (error : Web3RPCError) : String := error.responseMessage.getD error.text

def isFeeTooLowError (error : Web3RPCError) : Bool :=
  let message := (rpcErrorMessage error).toList.map Char.toLower
  feeTooLowMessages.any fun token => decide (token.toList <:+: message)

/-- What `tx_function.transact` does: return a hash, raise `Web3RPCError`, raise another error. -/
inductive NodeAnswer where
  | accepted (txHash : TxHash)
  | rejected (error : Web3RPCError)
  | raised (error : PyError)
  deriving DecidableEq, Repr

inductive GasStrategy where
  | defaultGas
  | highPriority
  deriving DecidableEq, Repr

structure Send where
  strategy : GasStrategy
  txParams : TxParams
  answer : NodeAnswer
  deriving DecidableEq, Repr

def Send.acceptedOrTooLow (send : Send) : Bool :=
  match send.answer with
  | .accepted _ => true
  | .rejected error => isFeeTooLowError error
  | .raised _ => false

inductive ReceiptWait where
  | receipt (receipt : TxReceipt)
  | timeExhausted
  | raised (error : PyError)
  deriving DecidableEq, Repr

structure TransactionManager where
  nonceToTxParams : Nat → Option TxParams := fun _ => none

namespace TransactionManager

def record (manager : TransactionManager) (nonce : Nat) (txParams : TxParams) :
    TransactionManager where
  nonceToTxParams key := if key = nonce then some txParams else manager.nonceToTxParams key

def forgetBefore (manager : TransactionManager) (latestNonce : Nat) : TransactionManager where
  nonceToTxParams key := if latestNonce ≤ key then manager.nonceToTxParams key else none

@[simp] theorem record_same (manager : TransactionManager) (nonce : Nat) (txParams : TxParams) :
    (manager.record nonce txParams).nonceToTxParams nonce = some txParams := by simp [record]

@[simp] theorem record_other (manager : TransactionManager) {nonce key : Nat} (txParams : TxParams)
    (different : key ≠ nonce) :
    (manager.record nonce txParams).nonceToTxParams key = manager.nonceToTxParams key := by
  simp [record, different]

@[simp] theorem forgetBefore_kept (manager : TransactionManager) {latestNonce key : Nat}
    (kept : latestNonce ≤ key) :
    (manager.forgetBefore latestNonce).nonceToTxParams key = manager.nonceToTxParams key := by
  simp [forgetBefore, kept]

theorem forgetBefore_some {manager : TransactionManager} {latestNonce key : Nat}
    {txParams : TxParams}
    (found : (manager.forgetBefore latestNonce).nonceToTxParams key = some txParams) :
    manager.nonceToTxParams key = some txParams := by
  simp only [forgetBefore] at found
  split at found
  · exact found
  · cases found

end TransactionManager

structure Submission where
  sends : List Send
  result : Except PyError (Option TxHash)

/-- The fees `_submit_high_priority` sends with, `none` where it leaves the pending
transaction in place. -/
def highPriorityFees (settings : Settings) (manager : TransactionManager) (nonce : Nat)
    (quote : Except PyError TxParams) : Except PyError (Option Fees) :=
  match quote with
  | .error error => .error error
  | .ok gasParams =>
      match Fees.fromTxParams gasParams settings.maxFeePerGas with
      | .error error => .error error
      | .ok fees =>
          match manager.nonceToTxParams nonce with
          | none => .ok (some fees)
          | some prev =>
              match Fees.fromTxParams prev settings.maxFeePerGas with
              | .error error => .error error
              | .ok prevFees =>
                  let bumped := fees.maxWith prevFees.bump
                  .ok (if bumped.replaces prevFees then some bumped else none)

def submitHighPriority (settings : Settings) (manager : TransactionManager)
    (transact : TxParams → NodeAnswer) (txParams : TxParams) (nonce : Nat)
    (quote : Except PyError TxParams) : Submission × TransactionManager :=
  match highPriorityFees settings manager nonce quote with
  | .error error => (⟨[], .error error⟩, manager)
  | .ok none => (⟨[], .ok none⟩, manager)
  | .ok (some fees) =>
      let params := fees.toTxParams { txParams with nonce := some nonce }
      let send : Send := ⟨.highPriority, params, transact params⟩
      match transact params with
      | .accepted txHash => (⟨[send], .ok (some txHash)⟩, manager.record nonce params)
      | .rejected error =>
          if isFeeTooLowError error then (⟨[send], .ok none⟩, manager.record nonce params)
          else (⟨[send], .error (.rpcError (rpcErrorMessage error))⟩, manager)
      | .raised error => (⟨[send], .error error⟩, manager)

def submitDefaultGas (transact : Nat → TxParams → NodeAnswer) (params : TxParams) :
    (remaining attempt : Nat) → Submission
  | 0, _ => ⟨[], .ok none⟩
  | remaining + 1, attempt =>
      let send : Send := ⟨.defaultGas, params, transact attempt params⟩
      match transact attempt params with
      | .accepted txHash => ⟨[send], .ok (some txHash)⟩
      | .rejected error =>
          if isFeeTooLowError error then
            let later := submitDefaultGas transact params remaining (attempt + 1)
            ⟨send :: later.sends, later.result⟩
          else ⟨[send], .error (.rpcError (rpcErrorMessage error))⟩
      | .raised error => ⟨[send], .error error⟩

structure TransactCall where
  txParams : TxParams := {}
  highPriority : Bool := false
  latestNonce : Except PyError Nat
  pendingNonce : Except PyError Nat
  quote : Except PyError TxParams
  defaultGasAnswer : Nat → TxParams → NodeAnswer
  highPriorityAnswer : TxParams → NodeAnswer
  receipt : TxHash → ReceiptWait

structure TransactOutcome where
  sends : List Send
  result : Except PyError (Option TxReceipt)

def submit (settings : Settings) (manager : TransactionManager) (call : TransactCall)
    (latestNonce pendingNonce : Nat) : Submission × TransactionManager :=
  let replace := submitHighPriority settings manager call.highPriorityAnswer call.txParams
    latestNonce call.quote
  if latestNonce < pendingNonce then replace
  else if call.highPriority then replace
  else
    let attempts := submitDefaultGas call.defaultGasAnswer
      { call.txParams with nonce := some latestNonce } settings.attemptsWithDefaultGas 0
    match attempts.result with
    | .ok none => (⟨attempts.sends ++ replace.1.sends, replace.1.result⟩, replace.2)
    | .ok (some txHash) => (⟨attempts.sends, .ok (some txHash)⟩, manager)
    | .error error => (⟨attempts.sends, .error error⟩, manager)

def waitForReceipt (wait : ReceiptWait) : Except PyError (Option TxReceipt) :=
  match wait with
  | .receipt receipt => .ok (if receipt.status = 0 then none else some receipt)
  | .timeExhausted => .ok none
  | .raised error => .error error

def transactStep (settings : Settings) (manager : TransactionManager) (call : TransactCall) :
    TransactOutcome × TransactionManager :=
  match call.latestNonce, call.pendingNonce with
  | .error error, _ => (⟨[], .error error⟩, manager)
  | .ok _, .error error => (⟨[], .error error⟩, manager)
  | .ok latestNonce, .ok pendingNonce =>
      let submitted :=
        submit settings (manager.forgetBefore latestNonce) call latestNonce pendingNonce
      match submitted.1.result with
      | .error error => (⟨submitted.1.sends, .error error⟩, submitted.2)
      | .ok none => (⟨submitted.1.sends, .ok none⟩, submitted.2)
      | .ok (some txHash) =>
          (⟨submitted.1.sends, waitForReceipt (call.receipt txHash)⟩, submitted.2)

end V3Keeper
