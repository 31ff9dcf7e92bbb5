import V3Keeper.ForceExit.Positions

/-!
The recheck of `handle_leverage_position` after a claim. It is made at the block that was
finalized when the task began, so it is answered from the state before the claim.
-/

namespace V3Keeper

open Python

/-- The states of a chain by block, the answers of view calls on a state, and the blocks that
transactions are mined in. -/
structure Chain (σ : Type) where
  stateAt : (blockNumber : Nat) → σ
  canHarvest : σ → ChecksumAddress → Bool
  aggregate : σ → MulticallData → List (List UInt8)
  minedAt : TxHash → Nat

variable {σ : Type}

def Chain.reads (chain : Chain σ) : CheckReads where
  canHarvest vault blockNumber := .ok (chain.canHarvest (chain.stateAt blockNumber) vault)
  aggregate data blockNumber := .ok (chain.aggregate (chain.stateAt blockNumber) data)

structure CheckReads.SeesChain (reads : CheckReads) (chain : Chain σ) : Prop where
  canHarvest : ∀ vault blockNumber answer, reads.canHarvest vault blockNumber = .ok answer →
    chain.reads.canHarvest vault blockNumber = .ok answer
  aggregate : ∀ data blockNumber response, reads.aggregate data blockNumber = .ok response →
    chain.reads.aggregate data blockNumber = .ok response

def ForceExitTransaction.isConfirmedClaim (transaction : ForceExitTransaction)
    (txHash : TxHash) : Prop :=
  transaction.kind = .claimExitedAssets ∧ transaction.txHash = some txHash

def RechecksAfterClaims (chain : Chain σ) (events : List ForceExitEvent) : Prop :=
  ∀ before claim between forced after txHash,
    events = before ++ .transacted claim :: between ++ .transacted forced :: after →
    claim.isConfirmedClaim txHash → forced.kind = .forceEnterExitQueue →
    ∃ blockNumber, .checked blockNumber true ∈ before ++ between ∧
      chain.minedAt txHash ≤ blockNumber

section Position

variable (encodeAbi : EncodeAbi) (item : LeverageItem) (harvestParams : Option HarvestParams)
  (blockNumber : Nat)

structure ForcesAfterClaim (strategy : ChecksumAddress) (claim forced : MulticallData)
    (txHash : TxHash) : Prop where
  claims : Claims encodeAbi item harvestParams blockNumber strategy claim
  confirmed : (claimOf item claim).txHash = some txHash
  recheck : ∃ answer,
    eligible encodeAbi item harvestParams blockNumber strategy item.recheck = .ok answer
  calls : positionForceCalls encodeAbi item harvestParams blockNumber strategy = .ok forced

variable {encodeAbi item harvestParams blockNumber}

theorem updateStateCalls_reads {chain : Chain σ} {reads : CheckReads}
    (sees : reads.SeesChain chain) {strategy vault : ChecksumAddress} {updates : MulticallData}
    (answered : updateStateCalls encodeAbi strategy vault harvestParams reads.canHarvest
      blockNumber = .ok updates) :
    updateStateCalls encodeAbi strategy vault harvestParams chain.reads.canHarvest blockNumber =
      .ok updates := by
  cases harvestParams with
  | none => exact answered
  | some params =>
      obtain ⟨answer, harvest, calls⟩ := bind_eq_ok.mp answered
      exact bind_eq_ok.mpr ⟨answer, sees.canHarvest vault blockNumber answer harvest, calls⟩

theorem eligible_reads {chain : Chain σ} {reads : CheckReads} (sees : reads.SeesChain chain)
    {strategy : ChecksumAddress} {answer : Bool}
    (answered : eligible encodeAbi item harvestParams blockNumber strategy reads = .ok answer) :
    eligible encodeAbi item harvestParams blockNumber strategy chain.reads = .ok answer := by
  obtain ⟨updates, updated, rest⟩ := bind_eq_ok.mp answered
  obtain ⟨data, encoded, rest⟩ := bind_eq_ok.mp rest
  obtain ⟨response, replied, answerEq⟩ := bind_eq_ok.mp rest
  refine bind_eq_ok.mpr ⟨updates, updateStateCalls_reads sees updated, ?_⟩
  refine bind_eq_ok.mpr ⟨data, encoded, ?_⟩
  exact bind_eq_ok.mpr ⟨response, sees.aggregate _ _ _ replied, answerEq⟩

theorem recheck_repeats_check {chain : Chain σ} (check : item.check.SeesChain chain)
    (recheck : item.recheck.SeesChain chain) {strategy : ChecksumAddress} {answer again : Bool}
    (before : eligible encodeAbi item harvestParams blockNumber strategy item.check = .ok answer)
    (after : eligible encodeAbi item harvestParams blockNumber strategy item.recheck =
      .ok again) : again = answer := by
  have same := (eligible_reads recheck after).symm.trans (eligible_reads check before)
  exact Except.ok.inj same

theorem forced_after_claim {strategy : ChecksumAddress} {claim forced : MulticallData}
    {txHash : TxHash}
    (passes : eligible encodeAbi item harvestParams blockNumber strategy item.recheck = .ok true)
    (forces : ForcesAfterClaim encodeAbi item harvestParams blockNumber strategy claim forced
      txHash) :
    (handleLeveragePosition encodeAbi item harvestParams blockNumber).events =
      [.checked blockNumber true, .transacted (claimOf item claim), .checked blockNumber true,
        .transacted (forceEnterOf item forced)] := by
  rw [handleLeveragePosition_reaches (.claimed claim txHash forces.claims forces.confirmed),
    recheckAndForceEnter_eligible passes, forces.calls]
  rfl

theorem ReachesRecheck.claim {strategy : ChecksumAddress} {before : List ForceExitTransaction}
    (reaches : ReachesRecheck encodeAbi item harvestParams blockNumber strategy before) :
    ∀ transaction ∈ before, transaction.kind = .claimExitedAssets := by
  cases reaches with
  | unclaimed => simp
  | claimed data txHash claims confirmed => simp [claimOf]

theorem PositionFails.transacted (fails : PositionFails encodeAbi item harvestParams blockNumber)
    {transaction : ForceExitTransaction}
    (submitted : .transacted transaction ∈
      (handleLeveragePosition encodeAbi item harvestParams blockNumber).events) :
    transaction.kind = .claimExitedAssets := by
  cases fails with
  | owner error owner =>
      rw [handleLeveragePosition, owner] at submitted
      cases submitted
  | check strategy error owner check =>
      have check : canForceEnterExitQueue encodeAbi strategy item.position.vault
          item.position.user harvestParams blockNumber item.check = .error error := check
      rw [handleLeveragePosition, owner, Traced.lift_ok_bind, check] at submitted
      cases submitted
  | claim strategy exitRequest error passes claimable calls =>
      rw [handleLeveragePosition_claimRaises passes claimable calls] at submitted
      simp at submitted
  | recheck strategy before error reaches recheck =>
      rw [handleLeveragePosition_reaches reaches, recheckAndForceEnter_error recheck] at submitted
      exact reaches.claim transaction (by simpa using submitted)
  | forceEnter strategy before error reaches recheck calls =>
      rw [handleLeveragePosition_reaches reaches, recheckAndForceEnter_eligible recheck, calls]
        at submitted
      exact reaches.claim transaction (by simpa using submitted)

theorem forceEnter_submitted {transaction : ForceExitTransaction}
    (submitted : .transacted transaction ∈
      (handleLeveragePosition encodeAbi item harvestParams blockNumber).events)
    (kind : transaction.kind = .forceEnterExitQueue) :
    ∃ strategy before data,
      ReachesRecheck encodeAbi item harvestParams blockNumber strategy before ∧
      eligible encodeAbi item harvestParams blockNumber strategy item.recheck = .ok true ∧
      positionForceCalls encodeAbi item harvestParams blockNumber strategy = .ok data := by
  rcases handleLeveragePosition_run encodeAbi item harvestParams blockNumber with
    fails | ⟨-, returns⟩
  · rw [fails.transacted submitted] at kind
    cases kind
  · generalize (handleLeveragePosition encodeAbi item harvestParams blockNumber).events = events
      at returns submitted
    cases returns with
    | ineligible strategy owner check => simp at submitted
    | unconfirmed strategy data claims none =>
        have same : transaction = claimOf item data := by simpa using submitted
        rw [same] at kind
        cases kind
    | noLongerEligible strategy before reaches recheck =>
        rw [reaches.claim transaction (by simpa using submitted)] at kind
        cases kind
    | forced strategy before data reaches recheck calls =>
        exact ⟨strategy, before, data, reaches, recheck, calls⟩

/-- A force exit is checked after the claim before it exactly where none follows a claim: the
recheck is answered from the state before the claim. -/
theorem rechecksAfterClaims_iff {chain : Chain σ} (check : item.check.SeesChain chain)
    (recheck : item.recheck.SeesChain chain)
    (minedLater : ∀ strategy claim txHash,
      Claims encodeAbi item harvestParams blockNumber strategy claim →
      (claimOf item claim).txHash = some txHash → blockNumber < chain.minedAt txHash) :
    RechecksAfterClaims chain
        (handleLeveragePosition encodeAbi item harvestParams blockNumber).events ↔
      ∀ strategy claim forced txHash, ¬ForcesAfterClaim encodeAbi item harvestParams blockNumber
        strategy claim forced txHash := by
  constructor
  · intro rechecks strategy claim forced txHash forces
    obtain ⟨answer, answered⟩ := forces.recheck
    have passes : answer = true :=
      recheck_repeats_check check recheck forces.claims.check answered
    obtain ⟨block, member, included⟩ := rechecks [.checked blockNumber true]
      (claimOf item claim) [.checked blockNumber true] (forceEnterOf item forced) [] txHash
      (forced_after_claim (by rw [answered, passes]) forces) ⟨rfl, forces.confirmed⟩ rfl
    have same : block = blockNumber := by simpa using member
    have later := minedLater strategy claim txHash forces.claims forces.confirmed
    omega
  · intro never before claim between forced after txHash split isClaim kind
    have submitted : .transacted forced ∈
        (handleLeveragePosition encodeAbi item harvestParams blockNumber).events := by
      rw [split]
      simp
    obtain ⟨strategy, earlier, data, reaches, passes, calls⟩ :=
      forceEnter_submitted submitted kind
    cases reaches with
    | claimed claimData hash claims confirmed =>
        exact absurd ⟨claims, confirmed, ⟨true, passes⟩, calls⟩
          (never strategy claimData data hash)
    | unclaimed passed claimable =>
        have claimed : .transacted claim ∈
            (handleLeveragePosition encodeAbi item harvestParams blockNumber).events := by
          rw [split]
          simp
        rw [handleLeveragePosition_reaches (.unclaimed passed claimable),
          recheckAndForceEnter_eligible passes, calls] at claimed
        have same : claim = forceEnterOf item data := by simpa using claimed
        have kind := isClaim.1
        rw [same] at kind
        cases kind

end Position

section ClaimedAtHeight

def claimedAtHeight : Chain Bool where
  stateAt blockNumber := decide (1010 ≤ blockNumber)
  canHarvest _ _ := false
  aggregate claimed _ := [[if claimed then 0 else 1]]
  minedAt _ := 1010

def claimablePosition : LeverageItem where
  position :=
    { user := .ofDigit '1' rfl, vault := .ofDigit '2' rfl, proxy := .ofDigit '3' rfl
      exitRequest := some ⟨1, 1700000000, some 0, true, 5, 5⟩ }
  strategyContract _ := .ok (.ofDigit '4' rfl)
  check := claimedAtHeight.reads
  claim := ⟨fun _ _ => .ok false, fun _ => .ok (some ⟨7, 1⟩)⟩
  recheck := claimedAtHeight.reads
  forceEnter := ⟨fun _ _ => .ok false, fun _ => .ok (some ⟨8, 1⟩)⟩

theorem rechecksAfterClaims_iff_claimable :
    RechecksAfterClaims claimedAtHeight
        (handleLeveragePosition (fun _ => .ok "0x") claimablePosition none 1000).events ↔
      ∀ strategy claim forced txHash, ¬ForcesAfterClaim (fun _ => .ok "0x") claimablePosition none
        1000 strategy claim forced txHash :=
  rechecksAfterClaims_iff ⟨fun _ _ _ answered => answered, fun _ _ _ answered => answered⟩
    ⟨fun _ _ _ answered => answered, fun _ _ _ answered => answered⟩
    fun _ _ _ _ _ => (by decide : 1000 < 1010)

/-- The state after the claim forbids the force exit, and it is submitted all the same. -/
theorem ineligible_position_forced :
    eligible (fun _ => .ok "0x") claimablePosition none 1010 (.ofDigit '4' rfl)
        claimedAtHeight.reads = .ok false ∧
      ¬RechecksAfterClaims claimedAtHeight
        (handleLeveragePosition (fun _ => .ok "0x") claimablePosition none 1000).events := by
  refine ⟨rfl, fun rechecks => ?_⟩
  obtain ⟨block, member, included⟩ := rechecks [.checked 1000 true]
    (claimOf claimablePosition [(.ofDigit '4' rfl, "0x")]) [.checked 1000 true]
    (forceEnterOf claimablePosition [(.ofDigit '4' rfl, "0x")]) [] 7 rfl ⟨rfl, rfl⟩ rfl
  have same : block = 1000 := by simpa using member
  have mined : 1010 ≤ block := included
  omega

end ClaimedAtHeight

end V3Keeper
