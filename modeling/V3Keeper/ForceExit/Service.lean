import V3Keeper.Common.AppState
import V3Keeper.ForceExit.Execution

/-!
`process_force_exits` of `src/force_exit/service.py`. The lists that `fetch_leverage_positions`
and `fetch_ostoken_exit_requests` return are inputs; an item of them comes with the answers to
everything that is read and sent while it is handled.
-/

namespace V3Keeper

open Python

structure LeveragePosition where
  user : ChecksumAddress
  vault : ChecksumAddress
  proxy : ChecksumAddress
  exitRequest : Option ExitRequest

structure OsTokenExitRequest where
  vault : ChecksumAddress
  owner : ChecksumAddress
  exitRequest : ExitRequest

structure LeverageItem where
  position : LeveragePosition
  strategyContract : (proxy : ChecksumAddress) → Except PyError ChecksumAddress
  check : CheckReads
  claim : SubmitReads
  recheck : CheckReads
  forceEnter : SubmitReads

structure ExitRequestItem where
  request : OsTokenExitRequest
  leverageStrategyPositions : (proxy : ChecksumAddress) → Except PyError (List ChecksumAddress)
  strategyContract : (proxy : ChecksumAddress) → Except PyError ChecksumAddress
  claim : SubmitReads

inductive ForceExitItem where
  | position (item : LeverageItem)
  | request (item : ExitRequestItem)

def LeveragePosition.claimable (position : LeveragePosition) : Option ExitRequest :=
  position.exitRequest.filter ExitRequest.isFullyClaimable

/-- Whether `handle_leverage_position` goes on: nothing was to be claimed or the claim is
confirmed. -/
def claimActiveExitRequest (encodeAbi : EncodeAbi) (strategy : ChecksumAddress)
    (item : LeverageItem) (harvestParams : Option HarvestParams) (blockNumber : Nat) :
    Traced ForceExitEvent Bool :=
  match item.position.claimable with
  | none => return true
  | some exitRequest => do
      let txHash ← claimExitedAssets encodeAbi strategy item.position.vault item.position.user
        exitRequest harvestParams blockNumber item.claim
      return txHash.isSome

/-- The position's state has changed after claiming assets, so it is checked again. -/
def recheckAndForceEnter (encodeAbi : EncodeAbi) (strategy : ChecksumAddress)
    (item : LeverageItem) (harvestParams : Option HarvestParams) (blockNumber : Nat) :
    Traced ForceExitEvent Unit := do
  let eligible ← checked blockNumber (canForceEnterExitQueue encodeAbi strategy
    item.position.vault item.position.user harvestParams blockNumber item.recheck)
  if eligible then
    let _ ← forceEnterExitQueue encodeAbi strategy item.position.vault item.position.user
      harvestParams blockNumber item.forceEnter
    return ()
  else return ()

def handleLeveragePosition (encodeAbi : EncodeAbi) (item : LeverageItem)
    (harvestParams : Option HarvestParams) (blockNumber : Nat) : Traced ForceExitEvent Unit := do
  let strategy ← .lift (item.strategyContract item.position.proxy)
  let eligible ← checked blockNumber (canForceEnterExitQueue encodeAbi strategy
    item.position.vault item.position.user harvestParams blockNumber item.check)
  if eligible then
    let claimed ← claimActiveExitRequest encodeAbi strategy item harvestParams blockNumber
    if claimed then recheckAndForceEnter encodeAbi strategy item harvestParams blockNumber
    else return ()
  else return ()

/-- `response['leverageStrategyPositions'][0]['user']`. -/
def graphGetLeveragePositionOwner (response : Except PyError (List ChecksumAddress)) :
    Except PyError ChecksumAddress :=
  match response with
  | .error error => .error error
  | .ok [] => .error .indexError
  | .ok (user :: _) => .ok user

def handleOstokenExitRequest (encodeAbi : EncodeAbi) (vaults : PyDict ChecksumAddress Vault)
    (blockNumber : Nat) (item : ExitRequestItem) : Traced ForceExitEvent Unit := do
  let positionOwner ← .lift
    (graphGetLeveragePositionOwner (item.leverageStrategyPositions item.request.owner))
  let harvestParams ← .lift (vaultHarvestParams vaults item.request.vault)
  let strategy ← .lift (item.strategyContract item.request.owner)
  let _ ← claimExitedAssets encodeAbi strategy item.request.vault positionOwner
    item.request.exitRequest (some harvestParams) blockNumber item.claim
  return ()

structure ForceExitSettings where
  forceExitsUpdateInterval : Int
  graphEndpoint : String
  encodeAbi : EncodeAbi

structure ForceExitsCall where
  currentTime : Nat
  finalizedBlock : Except PyError Nat
  latestGraphBlock : Except String Nat
  leveragePositions : (blockNumber : Nat) → Except PyError (List LeverageItem)
  positionVaults : Except PyError (List Vault)
  exitRequests : (blockNumber : Nat) → Except PyError (List ExitRequestItem)
  requestVaults : Except PyError (List Vault)

def handlePositionOf (encodeAbi : EncodeAbi) (vaults : PyDict ChecksumAddress Vault)
    (blockNumber : Nat) (item : LeverageItem) : Traced ForceExitEvent Unit := do
  let harvestParams ← .lift (vaultHarvestParams vaults item.position.vault)
  handleLeveragePosition encodeAbi item (some harvestParams) blockNumber

abbrev ForceExitLog := ForceExitItem × ForceExitEvent

def handleLeveragePositions (settings : ForceExitSettings) (call : ForceExitsCall)
    (blockNumber : Nat) : Traced ForceExitLog Unit := do
  let leveragePositions ← .lift (call.leveragePositions blockNumber)
  if leveragePositions.isEmpty then return ()
  else
    let graphVaults ← .lift call.positionVaults
    .forEach leveragePositions fun item =>
      (handlePositionOf settings.encodeAbi (graphVaultsMap graphVaults) blockNumber item).label
        (.position item)

def handleOstokenExitRequests (settings : ForceExitSettings) (call : ForceExitsCall)
    (blockNumber : Nat) : Traced ForceExitLog Unit := do
  let exitRequests ← .lift (call.exitRequests blockNumber)
  if exitRequests.isEmpty then return ()
  else
    let graphVaults ← .lift call.requestVaults
    .forEach exitRequests fun item =>
      (handleOstokenExitRequest settings.encodeAbi (graphVaultsMap graphVaults) blockNumber
        item).label (.request item)

def handleForceExits (settings : ForceExitSettings) (call : ForceExitsCall) :
    Traced ForceExitLog Unit := do
  let blockNumber ← .lift call.finalizedBlock
  .lift (checkForGraphNodeSyncToBlock settings.graphEndpoint call.latestGraphBlock blockNumber)
  handleLeveragePositions settings call blockNumber
  handleOstokenExitRequests settings call blockNumber

structure ForceExitsOutcome where
  events : List ForceExitLog
  advanced : Bool
  result : Except PyError Unit

def processForceExits (settings : ForceExitSettings) (state : AppState) (call : ForceExitsCall) :
    ForceExitsOutcome × AppState :=
  if withinInterval state.forceExitsUpdatedTimestamp settings.forceExitsUpdateInterval
      call.currentTime then (⟨[], false, .ok ()⟩, state)
  else
    let handled := handleForceExits settings call
    match handled.result with
    | .error error => (⟨handled.events, false, .error error⟩, state)
    | .ok () =>
        (⟨handled.events, true, .ok ()⟩,
          { state with forceExitsUpdatedTimestamp := some call.currentTime })

end V3Keeper
