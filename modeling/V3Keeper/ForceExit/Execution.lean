import V3Keeper.Common.Graph
import V3Keeper.Library.Traced
import V3Keeper.Transaction.Manager

/-!
`src/force_exit/execution.py`. A call into a leverage strategy goes through the multicall
contract, with an update of the vault's state before it where the vault can be harvested.
-/

namespace V3Keeper

open Python

structure ExitRequest where
  positionTicket : Int
  timestamp : Int
  exitQueueIndex : Option Int
  isClaimable : Bool
  exitedAssets : Int
  totalAssets : Int
  deriving DecidableEq, Repr

def ExitRequest.isFullyClaimable (request : ExitRequest) : Bool :=
  request.isClaimable && request.exitedAssets == request.totalAssets

inductive StrategyFunction where
  | updateVaultState (vault : ChecksumAddress) (harvestParams : HarvestParams)
  | canForceEnterExitQueue (vault user : ChecksumAddress)
  | claimExitedAssets (vault user : ChecksumAddress) (positionTicket timestamp : Int)
      (exitQueueIndex : Option Int)
  | forceEnterExitQueue (vault user : ChecksumAddress)
  deriving DecidableEq

abbrev EncodeAbi := StrategyFunction → Except PyError String

abbrev MulticallData := List (ChecksumAddress × String)

abbrev CanHarvest := ChecksumAddress → (blockNumber : Nat) → Except PyError Bool

structure CheckReads where
  canHarvest : CanHarvest
  aggregate : MulticallData → (blockNumber : Nat) → Except PyError (List (List UInt8))

structure SubmitReads where
  canHarvest : CanHarvest
  transact : MulticallData → Except PyError (Option TxReceipt)

inductive TransactionKind where
  | claimExitedAssets
  | forceEnterExitQueue
  deriving DecidableEq, Repr

structure ForceExitTransaction where
  kind : TransactionKind
  calls : MulticallData
  receipt : Except PyError (Option TxReceipt)

def ForceExitTransaction.txHash (transaction : ForceExitTransaction) : Option TxHash :=
  match transaction.receipt with
  | .ok (some receipt) => some receipt.transactionHash
  | _ => none

/-- What a run leaves behind: the state that a check was answered from, and the transactions. -/
inductive ForceExitEvent where
  | checked (blockNumber : Nat) (answer : Bool)
  | transacted (transaction : ForceExitTransaction)

/-- `if harvest_params and await keeper_contract.can_harvest(...)`. -/
def updateStateCalls (encodeAbi : EncodeAbi) (strategy vault : ChecksumAddress)
    (harvestParams : Option HarvestParams) (canHarvest : CanHarvest) (blockNumber : Nat) :
    Except PyError MulticallData :=
  match harvestParams with
  | none => .ok []
  | some params => do
      if ← canHarvest vault blockNumber then
        let data ← encodeAbi (.updateVaultState vault params)
        return [(strategy, data)]
      else return []

/-- `Web3.to_int` of bytes. -/
def bytesToInt (bytes : List UInt8) : Nat :=
  bytes.foldl (fun value byte => 256 * value + byte.toNat) 0

def answerAfter (updates : MulticallData) (response : List (List UInt8)) :
    Except PyError Bool :=
  match response.drop updates.length with
  | [] => .error .indexError
  | answer :: _ => .ok (bytesToInt answer != 0)

def canForceEnterExitQueue (encodeAbi : EncodeAbi) (strategy vault user : ChecksumAddress)
    (harvestParams : Option HarvestParams) (blockNumber : Nat) (reads : CheckReads) :
    Except PyError Bool := do
  let updates ← updateStateCalls encodeAbi strategy vault harvestParams reads.canHarvest blockNumber
  let data ← encodeAbi (.canForceEnterExitQueue vault user)
  let response ← reads.aggregate (updates ++ [(strategy, data)]) blockNumber
  answerAfter updates response

def transactionCalls (encodeAbi : EncodeAbi) (strategy vault : ChecksumAddress)
    (harvestParams : Option HarvestParams) (blockNumber : Nat) (canHarvest : CanHarvest)
    (function : StrategyFunction) : Except PyError MulticallData := do
  let updates ← updateStateCalls encodeAbi strategy vault harvestParams canHarvest blockNumber
  let data ← encodeAbi function
  return updates ++ [(strategy, data)]

def checked (blockNumber : Nat) (answer : Except PyError Bool) : Traced ForceExitEvent Bool := do
  let eligible ← .lift answer
  .emit (.checked blockNumber eligible)
  return eligible

/-- Reads before the transaction raise, the transaction's own failure does not. -/
def submitTransaction (kind : TransactionKind) (calls : Except PyError MulticallData)
    (transact : MulticallData → Except PyError (Option TxReceipt)) :
    Traced ForceExitEvent (Option TxHash) := do
  let data ← .lift calls
  let transaction : ForceExitTransaction := ⟨kind, data, transact data⟩
  .emit (.transacted transaction)
  return transaction.txHash

def claimCalls (encodeAbi : EncodeAbi) (strategy vault user : ChecksumAddress)
    (exitRequest : ExitRequest) (harvestParams : Option HarvestParams) (blockNumber : Nat)
    (canHarvest : CanHarvest) : Except PyError MulticallData :=
  transactionCalls encodeAbi strategy vault harvestParams blockNumber canHarvest
    (.claimExitedAssets vault user exitRequest.positionTicket exitRequest.timestamp
      exitRequest.exitQueueIndex)

def claimExitedAssets (encodeAbi : EncodeAbi) (strategy vault user : ChecksumAddress)
    (exitRequest : ExitRequest) (harvestParams : Option HarvestParams) (blockNumber : Nat)
    (reads : SubmitReads) : Traced ForceExitEvent (Option TxHash) :=
  submitTransaction .claimExitedAssets
    (claimCalls encodeAbi strategy vault user exitRequest harvestParams blockNumber
      reads.canHarvest)
    reads.transact

def forceEnterCalls (encodeAbi : EncodeAbi) (strategy vault user : ChecksumAddress)
    (harvestParams : Option HarvestParams) (blockNumber : Nat) (canHarvest : CanHarvest) :
    Except PyError MulticallData :=
  transactionCalls encodeAbi strategy vault harvestParams blockNumber canHarvest
    (.forceEnterExitQueue vault user)

def forceEnterExitQueue (encodeAbi : EncodeAbi) (strategy vault user : ChecksumAddress)
    (harvestParams : Option HarvestParams) (blockNumber : Nat) (reads : SubmitReads) :
    Traced ForceExitEvent (Option TxHash) :=
  submitTransaction .forceEnterExitQueue
    (forceEnterCalls encodeAbi strategy vault user harvestParams blockNumber reads.canHarvest)
    reads.transact

end V3Keeper
