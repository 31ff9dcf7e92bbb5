import V3Keeper.ForceExit.Service

/-!
Everything that the handling of one item can do: which reads it makes, where one of them
raises, and what it has checked and submitted by then.
-/

namespace V3Keeper

open Python

section Position

variable (encodeAbi : EncodeAbi) (item : LeverageItem) (harvestParams : Option HarvestParams)
  (blockNumber : Nat)

def eligible (strategy : ChecksumAddress) (reads : CheckReads) : Except PyError Bool :=
  canForceEnterExitQueue encodeAbi strategy item.position.vault item.position.user harvestParams
    blockNumber reads

def positionClaimCalls (strategy : ChecksumAddress) (exitRequest : ExitRequest) :
    Except PyError MulticallData :=
  claimCalls encodeAbi strategy item.position.vault item.position.user exitRequest harvestParams
    blockNumber item.claim.canHarvest

def positionForceCalls (strategy : ChecksumAddress) : Except PyError MulticallData :=
  forceEnterCalls encodeAbi strategy item.position.vault item.position.user harvestParams
    blockNumber item.forceEnter.canHarvest

def claimOf (data : MulticallData) : ForceExitTransaction :=
  ⟨.claimExitedAssets, data, item.claim.transact data⟩

def forceEnterOf (data : MulticallData) : ForceExitTransaction :=
  ⟨.forceEnterExitQueue, data, item.forceEnter.transact data⟩

structure PassesCheck (strategy : ChecksumAddress) : Prop where
  owner : item.strategyContract item.position.proxy = .ok strategy
  check : eligible encodeAbi item harvestParams blockNumber strategy item.check = .ok true

structure Claims (strategy : ChecksumAddress) (data : MulticallData) : Prop
    extends PassesCheck encodeAbi item harvestParams blockNumber strategy where
  claim : ∃ exitRequest, item.position.claimable = some exitRequest ∧
    positionClaimCalls encodeAbi item harvestParams blockNumber strategy exitRequest = .ok data

inductive ReachesRecheck (strategy : ChecksumAddress) : List ForceExitTransaction → Prop where
  | unclaimed : PassesCheck encodeAbi item harvestParams blockNumber strategy →
      item.position.claimable = none → ReachesRecheck strategy []
  | claimed (data : MulticallData) (txHash : TxHash) :
      Claims encodeAbi item harvestParams blockNumber strategy data →
      (claimOf item data).txHash = some txHash → ReachesRecheck strategy [claimOf item data]

inductive PositionFails : Prop where
  | owner (error : PyError) : item.strategyContract item.position.proxy = .error error →
      PositionFails
  | check (strategy : ChecksumAddress) (error : PyError) :
      item.strategyContract item.position.proxy = .ok strategy →
      eligible encodeAbi item harvestParams blockNumber strategy item.check = .error error →
      PositionFails
  | claim (strategy : ChecksumAddress) (exitRequest : ExitRequest) (error : PyError) :
      PassesCheck encodeAbi item harvestParams blockNumber strategy →
      item.position.claimable = some exitRequest →
      positionClaimCalls encodeAbi item harvestParams blockNumber strategy exitRequest =
        .error error → PositionFails
  | recheck (strategy : ChecksumAddress) (before : List ForceExitTransaction) (error : PyError) :
      ReachesRecheck encodeAbi item harvestParams blockNumber strategy before →
      eligible encodeAbi item harvestParams blockNumber strategy item.recheck = .error error →
      PositionFails
  | forceEnter (strategy : ChecksumAddress) (before : List ForceExitTransaction)
      (error : PyError) :
      ReachesRecheck encodeAbi item harvestParams blockNumber strategy before →
      eligible encodeAbi item harvestParams blockNumber strategy item.recheck = .ok true →
      positionForceCalls encodeAbi item harvestParams blockNumber strategy = .error error →
      PositionFails

inductive PositionReturns : List ForceExitEvent → Prop where
  | ineligible (strategy : ChecksumAddress) :
      item.strategyContract item.position.proxy = .ok strategy →
      eligible encodeAbi item harvestParams blockNumber strategy item.check = .ok false →
      PositionReturns [.checked blockNumber false]
  | unconfirmed (strategy : ChecksumAddress) (data : MulticallData) :
      Claims encodeAbi item harvestParams blockNumber strategy data →
      (claimOf item data).txHash = none →
      PositionReturns [.checked blockNumber true, .transacted (claimOf item data)]
  | noLongerEligible (strategy : ChecksumAddress) (before : List ForceExitTransaction) :
      ReachesRecheck encodeAbi item harvestParams blockNumber strategy before →
      eligible encodeAbi item harvestParams blockNumber strategy item.recheck = .ok false →
      PositionReturns
        (.checked blockNumber true :: before.map .transacted ++ [.checked blockNumber false])
  | forced (strategy : ChecksumAddress) (before : List ForceExitTransaction)
      (data : MulticallData) :
      ReachesRecheck encodeAbi item harvestParams blockNumber strategy before →
      eligible encodeAbi item harvestParams blockNumber strategy item.recheck = .ok true →
      positionForceCalls encodeAbi item harvestParams blockNumber strategy = .ok data →
      PositionReturns (.checked blockNumber true :: before.map .transacted ++
        [.checked blockNumber true, .transacted (forceEnterOf item data)])

@[simp] theorem submitTransaction_ok_bind {β : Type} (kind : TransactionKind)
    (data : MulticallData) (transact : MulticallData → Except PyError (Option TxReceipt))
    (next : Option TxHash → Traced ForceExitEvent β) :
    submitTransaction kind (.ok data) transact >>= next =
      ⟨.transacted ⟨kind, data, transact data⟩ ::
          (next (ForceExitTransaction.txHash ⟨kind, data, transact data⟩)).events,
        (next (ForceExitTransaction.txHash ⟨kind, data, transact data⟩)).result⟩ := rfl

variable {encodeAbi item harvestParams blockNumber}

theorem handleLeveragePosition_passes {strategy : ChecksumAddress}
    (passes : PassesCheck encodeAbi item harvestParams blockNumber strategy) :
    handleLeveragePosition encodeAbi item harvestParams blockNumber =
      checked blockNumber (.ok true) >>= fun _ =>
        claimActiveExitRequest encodeAbi strategy item harvestParams blockNumber >>= fun claimed =>
          if claimed then recheckAndForceEnter encodeAbi strategy item harvestParams blockNumber
          else return () := by
  have check : canForceEnterExitQueue encodeAbi strategy item.position.vault item.position.user
      harvestParams blockNumber item.check = .ok true := passes.check
  rw [handleLeveragePosition, passes.owner, Traced.lift_ok_bind, check]
  rfl

theorem claimActiveExitRequest_claims {strategy : ChecksumAddress} {data : MulticallData}
    (claims : Claims encodeAbi item harvestParams blockNumber strategy data) :
    claimActiveExitRequest encodeAbi strategy item harvestParams blockNumber =
      ⟨[.transacted (claimOf item data)], .ok (claimOf item data).txHash.isSome⟩ := by
  obtain ⟨exitRequest, claimable, calls⟩ := claims.claim
  have calls : claimCalls encodeAbi strategy item.position.vault item.position.user exitRequest
      harvestParams blockNumber item.claim.canHarvest = .ok data := calls
  simp only [claimActiveExitRequest, claimable, claimExitedAssets, calls]
  rfl

theorem handleLeveragePosition_unconfirmed {strategy : ChecksumAddress} {data : MulticallData}
    (claims : Claims encodeAbi item harvestParams blockNumber strategy data)
    (unconfirmed : (claimOf item data).txHash = none) :
    handleLeveragePosition encodeAbi item harvestParams blockNumber =
      ⟨[.checked blockNumber true, .transacted (claimOf item data)], .ok ()⟩ := by
  rw [handleLeveragePosition_passes claims.toPassesCheck, claimActiveExitRequest_claims claims,
    unconfirmed]
  rfl

theorem handleLeveragePosition_claimRaises {strategy : ChecksumAddress}
    {exitRequest : ExitRequest} {error : PyError}
    (passes : PassesCheck encodeAbi item harvestParams blockNumber strategy)
    (claimable : item.position.claimable = some exitRequest)
    (calls : positionClaimCalls encodeAbi item harvestParams blockNumber strategy exitRequest =
      .error error) :
    handleLeveragePosition encodeAbi item harvestParams blockNumber =
      ⟨[.checked blockNumber true], .error error⟩ := by
  have calls : claimCalls encodeAbi strategy item.position.vault item.position.user exitRequest
      harvestParams blockNumber item.claim.canHarvest = .error error := calls
  simp only [handleLeveragePosition_passes passes, claimActiveExitRequest, claimable,
    claimExitedAssets, calls]
  rfl

theorem handleLeveragePosition_reaches {strategy : ChecksumAddress}
    {before : List ForceExitTransaction}
    (reaches : ReachesRecheck encodeAbi item harvestParams blockNumber strategy before) :
    handleLeveragePosition encodeAbi item harvestParams blockNumber =
      ⟨.checked blockNumber true :: before.map .transacted ++
          (recheckAndForceEnter encodeAbi strategy item harvestParams blockNumber).events,
        (recheckAndForceEnter encodeAbi strategy item harvestParams blockNumber).result⟩ := by
  cases reaches with
  | unclaimed passes claimable =>
      rw [handleLeveragePosition_passes passes, claimActiveExitRequest, claimable]
      rfl
  | claimed data txHash claims confirmed =>
      rw [handleLeveragePosition_passes claims.toPassesCheck,
        claimActiveExitRequest_claims claims, confirmed]
      rfl

theorem recheckAndForceEnter_error {strategy : ChecksumAddress} {error : PyError}
    (recheck : eligible encodeAbi item harvestParams blockNumber strategy item.recheck =
      .error error) :
    recheckAndForceEnter encodeAbi strategy item harvestParams blockNumber =
      ⟨[], .error error⟩ := by
  have recheck : canForceEnterExitQueue encodeAbi strategy item.position.vault
      item.position.user harvestParams blockNumber item.recheck = .error error := recheck
  rw [recheckAndForceEnter, recheck]
  rfl

theorem recheckAndForceEnter_ineligible {strategy : ChecksumAddress}
    (recheck : eligible encodeAbi item harvestParams blockNumber strategy item.recheck =
      .ok false) :
    recheckAndForceEnter encodeAbi strategy item harvestParams blockNumber =
      ⟨[.checked blockNumber false], .ok ()⟩ := by
  have recheck : canForceEnterExitQueue encodeAbi strategy item.position.vault
      item.position.user harvestParams blockNumber item.recheck = .ok false := recheck
  rw [recheckAndForceEnter, recheck]
  rfl

theorem recheckAndForceEnter_eligible {strategy : ChecksumAddress}
    (recheck : eligible encodeAbi item harvestParams blockNumber strategy item.recheck =
      .ok true) :
    recheckAndForceEnter encodeAbi strategy item harvestParams blockNumber =
      match positionForceCalls encodeAbi item harvestParams blockNumber strategy with
      | .error error => ⟨[.checked blockNumber true], .error error⟩
      | .ok data =>
          ⟨[.checked blockNumber true, .transacted (forceEnterOf item data)], .ok ()⟩ := by
  have recheck : canForceEnterExitQueue encodeAbi strategy item.position.vault
      item.position.user harvestParams blockNumber item.recheck = .ok true := recheck
  rw [recheckAndForceEnter, recheck, positionForceCalls]
  simp only [forceEnterExitQueue]
  cases forceEnterCalls encodeAbi strategy item.position.vault item.position.user harvestParams
    blockNumber item.forceEnter.canHarvest <;> rfl

theorem PositionFails.raises
    (fails : PositionFails encodeAbi item harvestParams blockNumber) :
    (handleLeveragePosition encodeAbi item harvestParams blockNumber).succeeds = false := by
  cases fails with
  | owner error owner => rw [handleLeveragePosition, owner]; rfl
  | check strategy error owner check =>
      have check : canForceEnterExitQueue encodeAbi strategy item.position.vault
          item.position.user harvestParams blockNumber item.check = .error error := check
      rw [handleLeveragePosition, owner, Traced.lift_ok_bind, check]
      rfl
  | claim strategy exitRequest error passes claimable calls =>
      rw [handleLeveragePosition_claimRaises passes claimable calls]
      rfl
  | recheck strategy before error reaches recheck =>
      rw [handleLeveragePosition_reaches reaches, recheckAndForceEnter_error recheck]
      rfl
  | forceEnter strategy before error reaches recheck calls =>
      rw [handleLeveragePosition_reaches reaches, recheckAndForceEnter_eligible recheck, calls]
      rfl

theorem recheckAndForceEnter_run {strategy : ChecksumAddress}
    {before : List ForceExitTransaction}
    (reaches : ReachesRecheck encodeAbi item harvestParams blockNumber strategy before) :
    PositionFails encodeAbi item harvestParams blockNumber ∨
      (handleLeveragePosition encodeAbi item harvestParams blockNumber).succeeds = true ∧
        PositionReturns encodeAbi item harvestParams blockNumber
          (handleLeveragePosition encodeAbi item harvestParams blockNumber).events := by
  rw [handleLeveragePosition_reaches reaches]
  cases recheck : eligible encodeAbi item harvestParams blockNumber strategy item.recheck with
  | error error => exact Or.inl (.recheck strategy before error reaches recheck)
  | ok answer =>
      cases answer with
      | false =>
          rw [recheckAndForceEnter_ineligible recheck]
          exact Or.inr ⟨rfl, .noLongerEligible strategy before reaches recheck⟩
      | true =>
          rw [recheckAndForceEnter_eligible recheck]
          cases calls : positionForceCalls encodeAbi item harvestParams blockNumber strategy with
          | error error =>
              exact Or.inl (.forceEnter strategy before error reaches recheck calls)
          | ok data => exact Or.inr ⟨rfl, .forced strategy before data reaches recheck calls⟩

variable (encodeAbi item harvestParams blockNumber) in
theorem handleLeveragePosition_run :
    PositionFails encodeAbi item harvestParams blockNumber ∨
      (handleLeveragePosition encodeAbi item harvestParams blockNumber).succeeds = true ∧
        PositionReturns encodeAbi item harvestParams blockNumber
          (handleLeveragePosition encodeAbi item harvestParams blockNumber).events := by
  cases owner : item.strategyContract item.position.proxy with
  | error error => exact Or.inl (.owner error owner)
  | ok strategy =>
      cases check : eligible encodeAbi item harvestParams blockNumber strategy item.check with
      | error error => exact Or.inl (.check strategy error owner check)
      | ok answer =>
          cases answer with
          | false =>
              have answered : canForceEnterExitQueue encodeAbi strategy item.position.vault
                  item.position.user harvestParams blockNumber item.check = .ok false := check
              rw [handleLeveragePosition, owner, Traced.lift_ok_bind, answered]
              exact Or.inr ⟨rfl, .ineligible strategy owner check⟩
          | true =>
              have passes : PassesCheck encodeAbi item harvestParams blockNumber strategy :=
                ⟨owner, check⟩
              cases claimable : item.position.claimable with
              | none => exact recheckAndForceEnter_run (.unclaimed passes claimable)
              | some exitRequest =>
                  cases calls : positionClaimCalls encodeAbi item harvestParams blockNumber
                      strategy exitRequest with
                  | error error =>
                      exact Or.inl (.claim strategy exitRequest error passes claimable calls)
                  | ok data =>
                      have claims : Claims encodeAbi item harvestParams blockNumber strategy data :=
                        ⟨passes, exitRequest, claimable, calls⟩
                      cases confirmed : (claimOf item data).txHash with
                      | none =>
                          rw [handleLeveragePosition_unconfirmed claims confirmed]
                          exact Or.inr ⟨rfl, .unconfirmed strategy data claims confirmed⟩
                      | some txHash =>
                          exact recheckAndForceEnter_run (.claimed data txHash claims confirmed)

end Position

end V3Keeper
