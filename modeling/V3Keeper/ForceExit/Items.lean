import V3Keeper.ForceExit.Positions

/-!
The two loops of `process_force_exits` as one loop over the positions and then the exit
requests, and what each item of it fails on, submits and leaves unconfirmed.
-/

namespace V3Keeper

open Python

structure ForceExitContext where
  encodeAbi : EncodeAbi
  blockNumber : Nat
  positions : List LeverageItem
  positionVaults : PyDict ChecksumAddress Vault
  requests : List ExitRequestItem
  requestVaults : PyDict ChecksumAddress Vault

def ForceExitContext.items (context : ForceExitContext) : List ForceExitItem :=
  context.positions.map .position ++ context.requests.map .request

structure SharedReads (settings : ForceExitSettings) (call : ForceExitsCall)
    (context : ForceExitContext) : Prop where
  encodeAbi : context.encodeAbi = settings.encodeAbi
  finalized : call.finalizedBlock = .ok context.blockNumber
  synced : checkForGraphNodeSyncToBlock settings.graphEndpoint call.latestGraphBlock
    context.blockNumber = .ok ()
  positions : call.leveragePositions context.blockNumber = .ok context.positions
  positionVaults : context.positions ≠ [] → ∃ reply, call.positionVaults = .ok reply ∧
    graphVaultsMap reply = context.positionVaults
  requests : call.exitRequests context.blockNumber = .ok context.requests
  requestVaults : context.requests ≠ [] → ∃ reply, call.requestVaults = .ok reply ∧
    graphVaultsMap reply = context.requestVaults

section Items

variable (context : ForceExitContext)

def handleItem : ForceExitItem → Traced ForceExitEvent Unit
  | .position item =>
      handlePositionOf context.encodeAbi context.positionVaults context.blockNumber item
  | .request item =>
      handleOstokenExitRequest context.encodeAbi context.requestVaults context.blockNumber item

def handleAll (items : List ForceExitItem) : Traced ForceExitLog Unit :=
  .forEach items fun item => (handleItem context item).label item

def positionParams (item : LeverageItem) : Except PyError HarvestParams :=
  vaultHarvestParams context.positionVaults item.position.vault

structure RequestClaims (item : ExitRequestItem) (data : MulticallData) : Prop where
  owner : ∃ user params strategy,
    graphGetLeveragePositionOwner (item.leverageStrategyPositions item.request.owner) = .ok user ∧
    vaultHarvestParams context.requestVaults item.request.vault = .ok params ∧
    item.strategyContract item.request.owner = .ok strategy ∧
    claimCalls context.encodeAbi strategy item.request.vault user item.request.exitRequest
      (some params) context.blockNumber item.claim.canHarvest = .ok data

def requestClaimOf (item : ExitRequestItem) (data : MulticallData) : ForceExitTransaction :=
  ⟨.claimExitedAssets, data, item.claim.transact data⟩

inductive OwnCallsFail : ForceExitItem → Prop where
  | positionVault (item : LeverageItem) (error : PyError) :
      positionParams context item = .error error → OwnCallsFail (.position item)
  | position (item : LeverageItem) (params : HarvestParams) :
      positionParams context item = .ok params →
      PositionFails context.encodeAbi item (some params) context.blockNumber →
      OwnCallsFail (.position item)
  | request (item : ExitRequestItem) :
      (∀ data, ¬RequestClaims context item data) → OwnCallsFail (.request item)

inductive HasTransaction : ForceExitItem → Prop where
  | claim (item : LeverageItem) (params : HarvestParams) (strategy : ChecksumAddress)
      (data : MulticallData) :
      positionParams context item = .ok params →
      Claims context.encodeAbi item (some params) context.blockNumber strategy data →
      HasTransaction (.position item)
  | forceEnter (item : LeverageItem) (params : HarvestParams) (strategy : ChecksumAddress)
      (data : MulticallData) :
      positionParams context item = .ok params →
      ReachesRecheck context.encodeAbi item (some params) context.blockNumber strategy [] →
      eligible context.encodeAbi item (some params) context.blockNumber strategy item.recheck =
        .ok true →
      positionForceCalls context.encodeAbi item (some params) context.blockNumber strategy =
        .ok data →
      HasTransaction (.position item)
  | request (item : ExitRequestItem) (data : MulticallData) :
      RequestClaims context item data → HasTransaction (.request item)

inductive LeavesUnconfirmed : ForceExitItem → Prop where
  | claim (item : LeverageItem) (params : HarvestParams) (strategy : ChecksumAddress)
      (data : MulticallData) :
      positionParams context item = .ok params →
      Claims context.encodeAbi item (some params) context.blockNumber strategy data →
      (claimOf item data).txHash = none → LeavesUnconfirmed (.position item)
  | forceEnter (item : LeverageItem) (params : HarvestParams) (strategy : ChecksumAddress)
      (before : List ForceExitTransaction) (data : MulticallData) :
      positionParams context item = .ok params →
      ReachesRecheck context.encodeAbi item (some params) context.blockNumber strategy before →
      eligible context.encodeAbi item (some params) context.blockNumber strategy item.recheck =
        .ok true →
      positionForceCalls context.encodeAbi item (some params) context.blockNumber strategy =
        .ok data →
      (forceEnterOf item data).txHash = none → LeavesUnconfirmed (.position item)
  | request (item : ExitRequestItem) (data : MulticallData) :
      RequestClaims context item data → (requestClaimOf item data).txHash = none →
      LeavesUnconfirmed (.request item)

variable {context}

theorem handlePosition_error {item : LeverageItem} {error : PyError}
    (missing : positionParams context item = .error error) :
    handleItem context (.position item) = ⟨[], .error error⟩ := by
  have missing : vaultHarvestParams context.positionVaults item.position.vault = .error error :=
    missing
  rw [handleItem, handlePositionOf, missing]
  rfl

theorem handlePosition_ok {item : LeverageItem} {params : HarvestParams}
    (found : positionParams context item = .ok params) :
    handleItem context (.position item) =
      handleLeveragePosition context.encodeAbi item (some params) context.blockNumber := by
  have found : vaultHarvestParams context.positionVaults item.position.vault = .ok params := found
  rw [handleItem, handlePositionOf, found]
  rfl

theorem handleRequest_claims {item : ExitRequestItem} {data : MulticallData}
    (claims : RequestClaims context item data) :
    handleItem context (.request item) =
      ⟨[.transacted (requestClaimOf item data)], .ok ()⟩ := by
  obtain ⟨user, params, strategy, owner, vault, contract, calls⟩ := claims.owner
  simp only [handleItem, handleOstokenExitRequest, owner, vault, contract, claimExitedAssets,
    Traced.lift_ok_bind, calls, submitTransaction_ok_bind]
  rfl

theorem handleRequest_fails {item : ExitRequestItem}
    (fails : ∀ data, ¬RequestClaims context item data) :
    ∃ error, handleItem context (.request item) = ⟨[], .error error⟩ := by
  simp only [handleItem, handleOstokenExitRequest]
  cases owner : graphGetLeveragePositionOwner
      (item.leverageStrategyPositions item.request.owner) with
  | error error => exact ⟨error, rfl⟩
  | ok user =>
      cases vault : vaultHarvestParams context.requestVaults item.request.vault with
      | error error => exact ⟨error, rfl⟩
      | ok params =>
          cases contract : item.strategyContract item.request.owner with
          | error error => exact ⟨error, rfl⟩
          | ok strategy =>
              simp only [claimExitedAssets, Traced.lift_ok_bind]
              cases calls : claimCalls context.encodeAbi strategy item.request.vault user
                  item.request.exitRequest (some params) context.blockNumber
                  item.claim.canHarvest with
              | error error => exact ⟨error, rfl⟩
              | ok data =>
                  exact absurd ⟨user, params, strategy, owner, vault, contract, calls⟩
                    (fun claims => fails data ⟨claims⟩)

theorem handleItem_succeeds_iff {item : ForceExitItem} :
    (handleItem context item).succeeds = false ↔ OwnCallsFail context item := by
  constructor
  · intro raised
    cases item with
    | position item =>
        cases found : positionParams context item with
        | error error => exact .positionVault item error found
        | ok params =>
            rw [handlePosition_ok found] at raised
            rcases handleLeveragePosition_run context.encodeAbi item (some params)
              context.blockNumber with fails | ⟨returned, -⟩
            · exact .position item params found fails
            · rw [returned] at raised
              cases raised
    | request item =>
        refine .request item fun data claims => ?_
        rw [handleRequest_claims claims] at raised
        cases raised
  · intro fails
    cases fails with
    | positionVault item error missing => rw [handlePosition_error missing]; rfl
    | position item params found fails =>
        rw [handlePosition_ok found]
        exact fails.raises
    | request item fails =>
        obtain ⟨error, raised⟩ := handleRequest_fails fails
        rw [raised]
        rfl

theorem ReachesRecheck.confirmed {encodeAbi : EncodeAbi} {item : LeverageItem}
    {harvestParams : Option HarvestParams} {blockNumber : Nat} {strategy : ChecksumAddress}
    {before : List ForceExitTransaction}
    (reaches : ReachesRecheck encodeAbi item harvestParams blockNumber strategy before) :
    ∀ transaction ∈ before, transaction.txHash ≠ none := by
  cases reaches with
  | unclaimed => simp
  | claimed data txHash claims confirmed => simp [confirmed]

theorem handleItem_hasTransaction {item : ForceExitItem} (has : HasTransaction context item) :
    ∃ transaction, .transacted transaction ∈ (handleItem context item).events := by
  cases has with
  | claim item params strategy data found claims =>
      rw [handlePosition_ok found]
      cases confirmed : (claimOf item data).txHash with
      | none => exact ⟨claimOf item data, by
          rw [handleLeveragePosition_unconfirmed claims confirmed]; simp⟩
      | some txHash => exact ⟨claimOf item data, by
          rw [handleLeveragePosition_reaches (.claimed data txHash claims confirmed)]; simp⟩
  | forceEnter item params strategy data found reaches recheck calls =>
      rw [handlePosition_ok found, handleLeveragePosition_reaches reaches,
        recheckAndForceEnter_eligible recheck, calls]
      exact ⟨forceEnterOf item data, by simp⟩
  | request item data claims =>
      rw [handleRequest_claims claims]
      exact ⟨requestClaimOf item data, by simp⟩

theorem handleItem_leavesUnconfirmed {item : ForceExitItem}
    (leaves : LeavesUnconfirmed context item) :
    ∃ transaction, .transacted transaction ∈ (handleItem context item).events ∧
      transaction.txHash = none := by
  cases leaves with
  | claim item params strategy data found claims unconfirmed =>
      rw [handlePosition_ok found, handleLeveragePosition_unconfirmed claims unconfirmed]
      exact ⟨claimOf item data, by simp, unconfirmed⟩
  | forceEnter item params strategy before data found reaches recheck calls unconfirmed =>
      rw [handlePosition_ok found, handleLeveragePosition_reaches reaches,
        recheckAndForceEnter_eligible recheck, calls]
      exact ⟨forceEnterOf item data, by simp, unconfirmed⟩
  | request item data claims unconfirmed =>
      rw [handleRequest_claims claims]
      exact ⟨requestClaimOf item data, by simp, unconfirmed⟩

theorem handleItem_transacted {item : ForceExitItem} (succeed : ¬OwnCallsFail context item)
    {transaction : ForceExitTransaction}
    (submitted : .transacted transaction ∈ (handleItem context item).events) :
    HasTransaction context item ∧
      (transaction.txHash = none → LeavesUnconfirmed context item) := by
  cases item with
  | request item =>
      by_cases claims : ∃ data, RequestClaims context item data
      · obtain ⟨data, claims⟩ := claims
        rw [handleRequest_claims claims] at submitted
        have same : transaction = requestClaimOf item data := by simpa using submitted
        exact ⟨.request item data claims, fun none => .request item data claims (same ▸ none)⟩
      · exact absurd (.request item fun data own => claims ⟨data, own⟩) succeed
  | position item =>
      cases found : positionParams context item with
      | error error => exact absurd (.positionVault item error found) succeed
      | ok params =>
          rw [handlePosition_ok found] at submitted
          rcases handleLeveragePosition_run context.encodeAbi item (some params)
            context.blockNumber with fails | ⟨-, returns⟩
          · exact absurd (.position item params found fails) succeed
          · generalize eventsEq : (handleLeveragePosition context.encodeAbi item (some params)
              context.blockNumber).events = events at returns submitted
            cases returns with
            | ineligible strategy owner check => simp at submitted
            | unconfirmed strategy data claims none =>
                have same : transaction = claimOf item data := by simpa using submitted
                exact ⟨.claim item params strategy data found claims,
                  fun _ => .claim item params strategy data found claims none⟩
            | noLongerEligible strategy before reaches recheck =>
                have member : transaction ∈ before := by simpa using submitted
                cases reaches with
                | unclaimed => cases member
                | claimed data txHash claims confirmed =>
                    rw [List.mem_singleton.mp member, confirmed]
                    exact ⟨.claim item params strategy data found claims, by simp⟩
            | forced strategy before data reaches recheck calls =>
                have member : transaction ∈ before ∨ transaction = forceEnterOf item data := by
                  simpa using submitted
                constructor
                · cases reaches with
                  | unclaimed passes claimable =>
                      exact .forceEnter item params strategy data found
                        (.unclaimed passes claimable) recheck calls
                  | claimed data txHash claims confirmed =>
                      exact .claim item params strategy data found claims
                · intro none
                  rcases member with earlier | rfl
                  · exact absurd none (reaches.confirmed transaction earlier)
                  · exact .forceEnter item params strategy before data found reaches recheck
                      calls none

theorem handleForceExits_eq {settings : ForceExitSettings} {call : ForceExitsCall}
    (reads : SharedReads settings call context) :
    handleForceExits settings call = handleAll context context.items := by
  have positions : handleLeveragePositions settings call context.blockNumber =
      handleAll context (context.positions.map .position) := by
    rw [handleLeveragePositions, reads.positions, Traced.lift_ok_bind, handleAll,
      Traced.forEach_map]
    cases listed : context.positions with
    | nil => rfl
    | cons first rest =>
        obtain ⟨reply, replied, vaults⟩ := reads.positionVaults (by simp [listed])
        rw [replied, Traced.lift_ok_bind, vaults, ← reads.encodeAbi]
        rfl
  have requests : handleOstokenExitRequests settings call context.blockNumber =
      handleAll context (context.requests.map .request) := by
    rw [handleOstokenExitRequests, reads.requests, Traced.lift_ok_bind, handleAll,
      Traced.forEach_map]
    cases listed : context.requests with
    | nil => rfl
    | cons first rest =>
        obtain ⟨reply, replied, vaults⟩ := reads.requestVaults (by simp [listed])
        rw [replied, Traced.lift_ok_bind, vaults, ← reads.encodeAbi]
        rfl
  simp only [handleForceExits, reads.finalized, reads.synced, Traced.lift_ok_bind, positions,
    requests]
  exact (Traced.forEach_append _ _ _).symm

end Items

end V3Keeper
