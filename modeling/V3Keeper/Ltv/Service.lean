import V3Keeper.Common.AppState
import V3Keeper.Common.Graph
import V3Keeper.Library.Traced
import V3Keeper.Transaction.Manager

/-!
`src/ltv/service.py`. All vaults are read in a first loop, and a second one submits the users
that have changed.
-/

namespace V3Keeper

open Python

structure LtvVault where
  vault : ChecksumAddress
  maxLtvAllocator : Except PyError (Option ChecksumAddress)
  vaultMaxLtv : HarvestParams → Except PyError Nat
  maxLtvUser : Except PyError ChecksumAddress
  updateVaultMaxLtvUser : (user : ChecksumAddress) → HarvestParams →
    Except PyError (Option TxReceipt)
  updatedMaxLtv : HarvestParams → Except PyError Nat

structure VaultMaxLtvUser where
  vault : LtvVault
  address : ChecksumAddress
  prevAddress : ChecksumAddress
  ltv : Nat
  harvestParams : HarvestParams

/-- The body of the loop of `get_max_ltv_users`; a vault without allocators is passed over. -/
def vaultMaxLtvUser (graphVaults : PyDict ChecksumAddress Vault) (vault : LtvVault) :
    Except PyError (Option VaultMaxLtvUser) := do
  match ← vault.maxLtvAllocator with
  | none => return none
  | some address =>
      let harvestParams ← vaultHarvestParams graphVaults vault.vault
      let ltv ← vault.vaultMaxLtv harvestParams
      let prevAddress ← vault.maxLtvUser
      return some { vault, address, prevAddress, ltv, harvestParams }

def collectMaxLtvUsers (graphVaults : PyDict ChecksumAddress Vault) :
    List LtvVault → Except PyError (List VaultMaxLtvUser)
  | [] => .ok []
  | vault :: rest => do
      let user ← vaultMaxLtvUser graphVaults vault
      let users ← collectMaxLtvUsers graphVaults rest
      return user.toList ++ users

structure LtvSettings where
  ltvUpdateInterval : Int
  graphEndpoint : String

structure LtvCall where
  currentTime : Nat
  finalizedBlock : Except PyError Nat
  latestGraphBlock : Except String Nat
  ostokenVaults : (blockNumber : Nat) → Except PyError (List LtvVault)
  graphVaults : (blockNumber : Nat) → Except PyError (List Vault)

def getMaxLtvUsers (call : LtvCall) (blockNumber : Nat) :
    Except PyError (List VaultMaxLtvUser) := do
  let ostokenVaults ← call.ostokenVaults blockNumber
  if ostokenVaults.isEmpty then return []
  else
    let graphVaults ← call.graphVaults blockNumber
    collectMaxLtvUsers (graphVaultsMap graphVaults) ostokenVaults

structure LtvUpdate where
  user : VaultMaxLtvUser
  receipt : Except PyError (Option TxReceipt)

def confirmUpdate (update : LtvUpdate) : Except PyError Unit :=
  match update.receipt with
  | .error error => .error error
  | .ok none => .error (.runtimeError "Update tx failed")
  | .ok (some _) => (update.user.vault.updatedMaxLtv update.user.harvestParams).map fun _ => ()

def handleMaxLtvUser (user : VaultMaxLtvUser) : Traced LtvUpdate Unit := do
  let update : LtvUpdate :=
    ⟨user, user.vault.updateVaultMaxLtvUser user.address user.harvestParams⟩
  .emit update
  .lift (confirmUpdate update)

/-- A user that did not change since the last update is skipped. -/
def updateMaxLtvUser (user : VaultMaxLtvUser) : Traced LtvUpdate Unit :=
  if user.address = user.prevAddress then return () else handleMaxLtvUser user

def updateMaxLtvUsers (settings : LtvSettings) (call : LtvCall) : Traced LtvUpdate Bool := do
  let blockNumber ← .lift call.finalizedBlock
  .lift (checkForGraphNodeSyncToBlock settings.graphEndpoint call.latestGraphBlock blockNumber)
  let maxLtvUsers ← .lift (getMaxLtvUsers call blockNumber)
  if maxLtvUsers.isEmpty then return false
  else
    .forEach maxLtvUsers updateMaxLtvUser
    return true

structure LtvOutcome where
  updates : List LtvUpdate
  result : Except PyError Unit

def processVaultMaxLtvUser (settings : LtvSettings) (state : AppState) (call : LtvCall) :
    LtvOutcome × AppState :=
  if withinInterval state.ltvUpdatedTimestamp settings.ltvUpdateInterval call.currentTime then
    (⟨[], .ok ()⟩, state)
  else
    let updated := updateMaxLtvUsers settings call
    match updated.result with
    | .error error => (⟨updated.events, .error error⟩, state)
    | .ok false => (⟨updated.events, .ok ()⟩, state)
    | .ok true =>
        (⟨updated.events, .ok ()⟩, { state with ltvUpdatedTimestamp := some call.currentTime })

end V3Keeper
