import V3Keeper.ForceExit.Items

/-!
Whether an item is handled as if the failing ones were not listed. Only a transaction's own
failure is caught, so the first read, lookup or encoding that fails ends both loops.
-/

namespace V3Keeper

open Python

def ForceExitEvent.isTransaction : ForceExitEvent → Bool
  | .checked _ _ => false
  | .transacted _ => true

def ownCallsSucceed (context : ForceExitContext) (item : ForceExitItem) : Bool :=
  (handleItem context item).succeeds

def withoutFailing (context : ForceExitContext) (call : ForceExitsCall) : ForceExitsCall :=
  { call with
    leveragePositions := fun blockNumber => (call.leveragePositions blockNumber).map fun items =>
      items.filter fun item => ownCallsSucceed context (.position item)
    exitRequests := fun blockNumber => (call.exitRequests blockNumber).map fun items =>
      items.filter fun item => ownCallsSucceed context (.request item) }

def transactionsOfSucceeding (context : ForceExitContext) (events : List ForceExitLog) :
    List ForceExitLog :=
  events.filter fun log => log.2.isTransaction && ownCallsSucceed context log.1

def ForceExitsIsolated (settings : ForceExitSettings) (state : AppState) (call : ForceExitsCall)
    (context : ForceExitContext) : Prop :=
  transactionsOfSucceeding context (processForceExits settings state call).1.events =
    transactionsOfSucceeding context
      (processForceExits settings state (withoutFailing context call)).1.events

/-- An item whose own calls fail stands before one that has a transaction to submit. -/
def StarvesLater (context : ForceExitContext) : Prop :=
  ∃ before item after, context.items = before ++ item :: after ∧ OwnCallsFail context item ∧
    ∃ later ∈ after, ¬OwnCallsFail context later ∧ HasTransaction context later

def ForceExitContext.withoutFailing (context : ForceExitContext) : ForceExitContext :=
  { context with
    positions := context.positions.filter fun item => ownCallsSucceed context (.position item)
    requests := context.requests.filter fun item => ownCallsSucceed context (.request item) }

theorem SharedReads.withoutFailing {settings : ForceExitSettings} {call : ForceExitsCall}
    {context : ForceExitContext} (reads : SharedReads settings call context) :
    SharedReads settings (V3Keeper.withoutFailing context call) context.withoutFailing where
  encodeAbi := reads.encodeAbi
  finalized := reads.finalized
  synced := reads.synced
  positions := by
    change (call.leveragePositions context.blockNumber).map _ = _
    rw [reads.positions]
    rfl
  positionVaults listed := reads.positionVaults fun none => listed (by
    simp [ForceExitContext.withoutFailing, none])
  requests := by
    change (call.exitRequests context.blockNumber).map _ = _
    rw [reads.requests]
    rfl
  requestVaults listed := reads.requestVaults fun none => listed (by
    simp [ForceExitContext.withoutFailing, none])

theorem items_withoutFailing (context : ForceExitContext) :
    context.withoutFailing.items = context.items.filter (ownCallsSucceed context) := by
  rw [ForceExitContext.items, ForceExitContext.items, List.filter_append, List.filter_map,
    List.filter_map]
  rfl

theorem processForceExits_due (settings : ForceExitSettings) {state : AppState}
    (call : ForceExitsCall)
    (due : withinInterval state.forceExitsUpdatedTimestamp settings.forceExitsUpdateInterval
      call.currentTime = false) :
    (processForceExits settings state call).1.events = (handleForceExits settings call).events := by
  rw [processForceExits, if_neg (by simp [due])]
  dsimp only
  split <;> rfl

theorem noTransaction_iff {context : ForceExitContext} {item : ForceExitItem}
    (succeed : ¬OwnCallsFail context item) :
    transactionsOfSucceeding context (((handleItem context item).label item).events) = [] ↔
      ¬HasTransaction context item := by
  have own : ownCallsSucceed context item = true := by
    rw [← Bool.not_eq_false]
    exact fun fails => succeed (handleItem_succeeds_iff.mp fails)
  rw [transactionsOfSucceeding, List.filter_eq_nil_iff]
  constructor
  · intro nothing has
    obtain ⟨transaction, submitted⟩ := handleItem_hasTransaction has
    exact nothing (item, .transacted transaction) (List.mem_map_of_mem submitted)
      (by simp [ForceExitEvent.isTransaction, own])
  · rintro none ⟨owner, event⟩ member selected
    obtain ⟨other, submitted, same⟩ := List.mem_map.mp member
    cases same
    cases event with
    | checked blockNumber answer => simp [ForceExitEvent.isTransaction] at selected
    | transacted transaction => exact none (handleItem_transacted succeed submitted).1

/-- Every item is handled as if the failing ones were not listed exactly where the task is
not due or no failing item stands before one that has a transaction to submit. -/
theorem forceExitsIsolated_iff {settings : ForceExitSettings} (state : AppState)
    {call : ForceExitsCall} {context : ForceExitContext}
    (reads : SharedReads settings call context) :
    ForceExitsIsolated settings state call context ↔
      withinInterval state.forceExitsUpdatedTimestamp settings.forceExitsUpdateInterval
        call.currentTime = true ∨ ¬StarvesLater context := by
  cases due : withinInterval state.forceExitsUpdatedTimestamp settings.forceExitsUpdateInterval
      call.currentTime with
  | true => simp [ForceExitsIsolated, processForceExits, due, withoutFailing]
  | false =>
      rw [ForceExitsIsolated, processForceExits_due settings call due,
        processForceExits_due settings (withoutFailing context call) due,
        handleForceExits_eq reads, handleForceExits_eq reads.withoutFailing,
        items_withoutFailing]
      have silent : ∀ item ∈ context.items,
          ((handleItem context item).label item).succeeds = false →
            ∀ log ∈ ((handleItem context item).label item).events,
              (log.2.isTransaction && ownCallsSucceed context log.1) = false := by
        rintro item - raised log member
        obtain ⟨event, -, rfl⟩ := List.mem_map.mp member
        rw [Traced.label_succeeds] at raised
        simp [ownCallsSucceed, raised]
      have isolated := Traced.forEach_isolated_iff
        (fun item => (handleItem context item).label item)
        (fun log => log.2.isTransaction && ownCallsSucceed context log.1) silent
      refine isolated.trans ?_
      simp only [Traced.label_succeeds, Bool.false_eq_true, false_or]
      constructor
      · rintro clean ⟨before, item, after, split, fails, later, member, succeed, has⟩
        have laterSucceeds : (handleItem context later).succeeds = true := by
          rw [← Bool.not_eq_false]
          exact fun raised => succeed (handleItem_succeeds_iff.mp raised)
        exact (noTransaction_iff succeed).mp
          (clean before item after split (handleItem_succeeds_iff.mpr fails) later member
            laterSucceeds) has
      · intro starves before item after split raised later member succeeds
        have succeed : ¬OwnCallsFail context later := by
          intro fails
          rw [handleItem_succeeds_iff.mpr fails] at succeeds
          cases succeeds
        refine (noTransaction_iff succeed).mpr fun has => starves ?_
        exact ⟨before, item, after, split, handleItem_succeeds_iff.mp raised, later, member,
          succeed, has⟩

theorem forceExitsIsolated_iff_alone :
    let settings : ForceExitSettings := ⟨21600, "https://graph", fun _ => .ok "0x"⟩
    let check : CheckReads := ⟨fun _ _ => .ok false, fun _ _ => .ok [[1]]⟩
    let submit : SubmitReads := ⟨fun _ _ => .ok false, fun _ => .ok (some ⟨7, 1⟩)⟩
    let item : LeverageItem :=
      { position := ⟨.ofDigit '1' rfl, .ofDigit '2' rfl, .ofDigit '3' rfl, none⟩
        strategyContract := fun _ => .ok (.ofDigit '4' rfl)
        check := check, claim := submit, recheck := check, forceEnter := submit }
    let vault : Vault := ⟨.ofDigit '2' rfl, [], 0, 0, []⟩
    let call : ForceExitsCall :=
      { currentTime := 100000, finalizedBlock := .ok 1000, latestGraphBlock := .ok 1000
        leveragePositions := fun _ => .ok [item], positionVaults := .ok [vault]
        exitRequests := fun _ => .ok [], requestVaults := .ok [] }
    let context : ForceExitContext :=
      ⟨settings.encodeAbi, 1000, [item], graphVaultsMap [vault], [], graphVaultsMap []⟩
    ForceExitsIsolated settings {} call context ↔
      withinInterval none 21600 100000 = true ∨ ¬StarvesLater context := by
  intro settings check submit item vault call context
  exact forceExitsIsolated_iff {}
    ⟨rfl, rfl, rfl, rfl, fun _ => ⟨_, rfl, rfl⟩, rfl, fun _ => ⟨_, rfl, rfl⟩⟩

/-- Two positions; the proxy-owner call of the first one fails, and the second one is starved. -/
theorem position_starved_by_failing_owner :
    let address (digit : Char) (hex : isHexDigit digit = true) := ChecksumAddress.ofDigit digit hex
    let settings : ForceExitSettings := ⟨21600, "https://graph", fun _ => .ok "0x"⟩
    let check : CheckReads := ⟨fun _ _ => .ok false, fun _ _ => .ok [[1]]⟩
    let submit : SubmitReads := ⟨fun _ _ => .ok false, fun _ => .ok (some ⟨7, 1⟩)⟩
    let item (owner : Except PyError ChecksumAddress) : LeverageItem :=
      { position := ⟨address '1' rfl, address '2' rfl, address '3' rfl, none⟩
        strategyContract := fun _ => owner
        check := check, claim := submit, recheck := check, forceEnter := submit }
    let items := [item (.error .requestError), item (.ok (address '4' rfl))]
    let vault : Vault := ⟨address '2' rfl, [], 0, 0, []⟩
    let call : ForceExitsCall :=
      { currentTime := 100000, finalizedBlock := .ok 1000, latestGraphBlock := .ok 1000
        leveragePositions := fun _ => .ok items, positionVaults := .ok [vault]
        exitRequests := fun _ => .ok [], requestVaults := .ok [] }
    let context : ForceExitContext :=
      ⟨settings.encodeAbi, 1000, items, graphVaultsMap [vault], [], graphVaultsMap []⟩
    SharedReads settings call context ∧ ¬ForceExitsIsolated settings {} call context := by
  intro address settings check submit item items vault call context
  refine ⟨⟨rfl, rfl, rfl, rfl, fun _ => ⟨_, rfl, rfl⟩, rfl, fun _ => ⟨_, rfl, rfl⟩⟩, ?_⟩
  intro isolated
  have lengths := congrArg List.length isolated
  have starved : (transactionsOfSucceeding context
      (processForceExits settings {} call).1.events).length = 0 := by decide
  have alone : (transactionsOfSucceeding context
      (processForceExits settings {} (withoutFailing context call)).1.events).length = 1 := by
    decide
  omega

end V3Keeper
