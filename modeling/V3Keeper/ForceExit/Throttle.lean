import V3Keeper.ForceExit.Isolation

/-!
Whether the throttle of `process_force_exits` drops a force exit. A transaction that is not
confirmed is logged and forgotten, and the timestamp is written all the same.
-/

namespace V3Keeper

open Python

def ForceExitLog.unconfirmed (log : ForceExitLog) : Bool :=
  match log.2 with
  | .checked _ _ => false
  | .transacted transaction => transaction.txHash.isNone

/-- A call that advances the timestamp has confirmed what it attempted, and after an attempt
that is not confirmed the next iteration runs the task again. -/
structure NoForceExitDropped (settings : ForceExitSettings) (state : AppState)
    (call : ForceExitsCall) : Prop where
  confirmed : (processForceExits settings state call).1.advanced = true →
    ∀ log ∈ (processForceExits settings state call).1.events, ForceExitLog.unconfirmed log = false
  retried : (∃ log ∈ (processForceExits settings state call).1.events,
      ForceExitLog.unconfirmed log = true) →
    ∀ later, call.currentTime ≤ later →
      withinInterval (processForceExits settings state call).2.forceExitsUpdatedTimestamp
        settings.forceExitsUpdateInterval later = false

theorem sharedReads_of_succeeds {settings : ForceExitSettings} {call : ForceExitsCall}
    (succeeded : (handleForceExits settings call).succeeds = true) :
    ∃ context, SharedReads settings call context := by
  obtain ⟨blockNumber, finalized, rest⟩ := Traced.bind_succeeds.mp succeeded
  obtain ⟨synced, syncedResult, rest⟩ := Traced.bind_succeeds.mp rest
  obtain ⟨handled, handledPositions, handledRequests⟩ := Traced.bind_succeeds.mp rest
  obtain ⟨positions, listed, positionsRest⟩ := Traced.bind_succeeds.mp
    (Traced.succeeds_iff.mpr ⟨_, handledPositions⟩)
  obtain ⟨requests, requested, requestsRest⟩ := Traced.bind_succeeds.mp handledRequests
  have vaultsOf : ∀ {κ : Type} (items : List κ) (reply : Except PyError (List Vault))
      (loop : List Vault → Traced ForceExitLog Unit),
      (if items.isEmpty then (return ()) else (Traced.lift reply >>= loop)).succeeds = true →
        ∃ vaults, items ≠ [] → ∃ found, reply = .ok found ∧ graphVaultsMap found = vaults := by
    intro κ items reply loop ran
    cases items with
    | nil => exact ⟨PyDict.empty, fun listed => absurd rfl listed⟩
    | cons first others =>
        obtain ⟨found, replied, -⟩ := Traced.bind_succeeds.mp ran
        exact ⟨graphVaultsMap found, fun _ => ⟨found, replied, rfl⟩⟩
  obtain ⟨positionVaults, foundPositions⟩ := vaultsOf positions _ _ positionsRest
  obtain ⟨requestVaults, foundRequests⟩ := vaultsOf requests _ _ requestsRest
  exact ⟨⟨settings.encodeAbi, blockNumber, positions, positionVaults, requests, requestVaults⟩,
    rfl, finalized, syncedResult, listed, foundPositions, requested, foundRequests⟩

theorem handleAll_succeeds {context : ForceExitContext} {items : List ForceExitItem} :
    (handleAll context items).succeeds = true ↔ ∀ item ∈ items, ¬OwnCallsFail context item := by
  rw [handleAll, Traced.forEach_succeeds, List.all_eq_true]
  refine forall₂_congr fun item _ => ?_
  rw [Traced.label_succeeds, ← handleItem_succeeds_iff, Bool.not_eq_false]

theorem unconfirmed_iff {context : ForceExitContext} {items : List ForceExitItem}
    (succeed : ∀ item ∈ items, ¬OwnCallsFail context item) :
    (∃ log ∈ (handleAll context items).events, ForceExitLog.unconfirmed log = true) ↔
      ∃ item ∈ items, LeavesUnconfirmed context item := by
  have events : (handleAll context items).events =
      items.flatMap fun item => ((handleItem context item).label item).events := by
    refine Traced.forEach_events _ fun item member => ?_
    rw [Traced.label_succeeds, ← Bool.not_eq_false]
    exact fun raised => succeed item member (handleItem_succeeds_iff.mp raised)
  rw [events]
  constructor
  · rintro ⟨log, member, unconfirmed⟩
    obtain ⟨item, listed, labelled⟩ := List.mem_flatMap.mp member
    obtain ⟨event, submitted, rfl⟩ := List.mem_map.mp labelled
    cases event with
    | checked blockNumber answer => cases unconfirmed
    | transacted transaction =>
        exact ⟨item, listed, (handleItem_transacted (succeed item listed) submitted).2
          (Option.isNone_iff_eq_none.mp unconfirmed)⟩
  · rintro ⟨item, listed, leaves⟩
    obtain ⟨transaction, submitted, none⟩ := handleItem_leavesUnconfirmed leaves
    refine ⟨(item, .transacted transaction), ?_, Option.isNone_iff_eq_none.mpr none⟩
    exact List.mem_flatMap.mpr ⟨item, listed, List.mem_map_of_mem submitted⟩

theorem processForceExits_advanced (settings : ForceExitSettings) {state : AppState}
    {call : ForceExitsCall}
    (due : withinInterval state.forceExitsUpdatedTimestamp settings.forceExitsUpdateInterval
      call.currentTime = false) :
    (processForceExits settings state call).1.advanced =
        (handleForceExits settings call).succeeds ∧
      ((handleForceExits settings call).succeeds = false →
        (processForceExits settings state call).2 = state) := by
  rw [processForceExits, if_neg (by simp [due])]
  cases result : (handleForceExits settings call).result <;> simp [Traced.succeeds, result]

/-- No force exit is dropped exactly where the task is not due, or one of its reads fails, or
every transaction that its items come to gets a receipt. -/
theorem noForceExitDropped_iff (settings : ForceExitSettings) (state : AppState)
    (call : ForceExitsCall) :
    NoForceExitDropped settings state call ↔
      withinInterval state.forceExitsUpdatedTimestamp settings.forceExitsUpdateInterval
        call.currentTime = true ∨
      ∀ context, SharedReads settings call context →
        (∃ item ∈ context.items, OwnCallsFail context item) ∨
          ∀ item ∈ context.items, ¬LeavesUnconfirmed context item := by
  cases due : withinInterval state.forceExitsUpdatedTimestamp settings.forceExitsUpdateInterval
      call.currentTime with
  | true =>
      refine iff_of_true ⟨?_, ?_⟩ (Or.inl rfl)
      · simp [processForceExits, due]
      · simp [processForceExits, due]
  | false =>
      obtain ⟨advancedEq, kept⟩ := processForceExits_advanced settings due
      simp only [Bool.false_eq_true, false_or]
      constructor
      · intro dropped context reads
        by_contra failing
        simp only [not_or, not_exists, not_and, not_forall, not_not] at failing
        obtain ⟨succeed, leaves⟩ := failing
        have handled := handleForceExits_eq reads
        obtain ⟨log, member, unconfirmed⟩ := (unconfirmed_iff succeed).mpr (by simpa using leaves)
        have advanced : (processForceExits settings state call).1.advanced = true := by
          rw [advancedEq, handled]
          exact handleAll_succeeds.mpr succeed
        have confirmed := dropped.confirmed advanced log (by
          rw [processForceExits_due settings call due, handled]
          exact member)
        rw [unconfirmed] at confirmed
        cases confirmed
      · intro condition
        have confirmed : (processForceExits settings state call).1.advanced = true →
            ∀ log ∈ (processForceExits settings state call).1.events,
              ForceExitLog.unconfirmed log = false := by
          intro advanced log member
          rw [advancedEq] at advanced
          obtain ⟨context, reads⟩ := sharedReads_of_succeeds advanced
          rw [processForceExits_due settings call due, handleForceExits_eq reads] at member
          rw [handleForceExits_eq reads] at advanced
          have succeed := handleAll_succeeds.mp advanced
          rw [← Bool.not_eq_true]
          intro unconfirmed
          obtain ⟨item, listed, leaves⟩ := (unconfirmed_iff succeed).mp ⟨log, member, unconfirmed⟩
          rcases condition context reads with ⟨other, otherListed, fails⟩ | clean
          · exact succeed other otherListed fails
          · exact clean item listed leaves
        refine ⟨confirmed, ?_⟩
        rintro ⟨log, member, unconfirmed⟩ later order
        have unwritten : (handleForceExits settings call).succeeds = false := by
          rw [← Bool.not_eq_true, ← advancedEq]
          intro advanced
          rw [confirmed advanced log member] at unconfirmed
          cases unconfirmed
        rw [kept unwritten]
        exact withinInterval_later due order

/-- One claim, whose receipt does not arrive in time: the task is skipped from then on. -/
theorem claim_dropped_by_throttle :
    let address (digit : Char) (hex : isHexDigit digit = true) := ChecksumAddress.ofDigit digit hex
    let settings : ForceExitSettings := ⟨21600, "https://graph", fun _ => .ok "0x"⟩
    let request : OsTokenExitRequest :=
      ⟨address '2' rfl, address '3' rfl, ⟨1, 1700000000, some 0, true, 5, 5⟩⟩
    let item : ExitRequestItem :=
      { request, leverageStrategyPositions := fun _ => .ok [address '1' rfl]
        strategyContract := fun _ => .ok (address '4' rfl)
        claim := ⟨fun _ _ => .ok false, fun _ => .ok none⟩ }
    let call : ForceExitsCall :=
      { currentTime := 100000, finalizedBlock := .ok 1000, latestGraphBlock := .ok 1000
        leveragePositions := fun _ => .ok [], positionVaults := .ok []
        exitRequests := fun _ => .ok [item]
        requestVaults := .ok [⟨address '2' rfl, [], 0, 0, []⟩] }
    ¬NoForceExitDropped settings {} call := by
  intro address settings request item call dropped
  have clean : ∀ log ∈ (processForceExits settings {} call).1.events,
      ForceExitLog.unconfirmed log = false := dropped.confirmed (by decide)
  have unconfirmed : (processForceExits settings {} call).1.events.any
      ForceExitLog.unconfirmed = true := by decide
  obtain ⟨log, member, failed⟩ := List.any_eq_true.mp unconfirmed
  rw [clean log member] at failed
  cases failed

end V3Keeper
