import V3Keeper.Common.Address
import V3Keeper.Library.Json
import V3Keeper.Library.PyDict
import V3Keeper.Library.Python

/-!
What the tasks share of the subgraph: the harvest parameters of `src/common/typings.py` and
the checks and lookups of `src/common/graph.py`.
-/

namespace V3Keeper

open Python

structure HarvestParams where
  rewardsRoot : List UInt8
  reward : Int
  unlockedMevReward : Int
  proof : List (List UInt8)
  deriving DecidableEq, Repr

structure Vault where
  address : ChecksumAddress
  rewardsRoot : List UInt8
  proofReward : Int
  proofUnlockedMevReward : Int
  proof : List (List UInt8)
  deriving DecidableEq

def Vault.harvestParams (vault : Vault) : HarvestParams where
  rewardsRoot := vault.rewardsRoot
  reward := vault.proofReward
  unlockedMevReward := vault.proofUnlockedMevReward
  proof := vault.proof

/-- The dictionary that `graph_get_vaults` builds from the vaults of the reply. -/
def graphVaultsMap (reply : List Vault) : PyDict ChecksumAddress Vault :=
  reply.foldl (fun vaults vault => vaults.set vault.address vault) PyDict.empty

/-- `graph_vaults[vault].harvest_params`. -/
def vaultHarvestParams (vaults : PyDict ChecksumAddress Vault) (vault : ChecksumAddress) :
    Except PyError HarvestParams :=
  match vaults.get? vault with
  | none => .error .keyError
  | some found => .ok found.harvestParams

/-- `check_for_graph_node_sync_to_block` for a block number. A failed query is the text of its
exception. -/
def checkForGraphNodeSyncToBlock (endpoint : String) (latestBlock : Except String Nat)
    (blockNumber : Nat) : Except PyError Unit :=
  match latestBlock with
  | .error text =>
      .error (.connectionError
        ("The graph node located at " ++ endpoint ++ " is not available: " ++ text))
  | .ok graphBlockNumber =>
      if blockNumber ≤ graphBlockNumber then .ok ()
      else
        .error (.connectionError ("The graph node located at " ++ endpoint ++
          " is not synced to block: " ++ toString blockNumber))

end V3Keeper
