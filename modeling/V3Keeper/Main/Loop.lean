import V3Keeper.Distributor.Service
import V3Keeper.Exits.Service
import V3Keeper.ForceExit.Service
import V3Keeper.Library.Component
import V3Keeper.Ltv.Service
import V3Keeper.Price.Service
import V3Keeper.ProtocolConfig.Service

/-!
`main` and `start_keeper` of `src/main.py`. `asyncio.gather` runs the tasks of a round side by
side: a task that gets past its checks waits for its answers before it writes the state the
tasks share, and the others move in between.
-/

namespace V3Keeper

open Python Component

structure ConfigOracle extends Oracle where
  endpoints : List String

/-- `ProtocolConfig` of `sw_utils`. -/
structure ProtocolConfig where
  oracles : List ConfigOracle
  rewardsThreshold : Nat
  exitSignatureRecoverThreshold : Nat

def ProtocolConfig.ask {α β : Type} (config : ProtocolConfig)
    (answer : (oracle endpoint : Nat) → (url : String) → α) (reply : Oracle → List α → β) :
    List β :=
  config.oracles.zipIdx.map fun entry =>
    reply entry.1.toOracle
      (entry.1.endpoints.zipIdx.map fun endpoint => answer entry.2 endpoint.2 endpoint.1)

variable {κ τ ρ G : Type} [BEq τ] [BEq ρ]

structure RewardsInput (τ ρ : Type) where
  canUpdate : Except PyError Bool
  endpoint : (oracle endpoint : Nat) → (url : String) → Except PyError (VoteReply τ ρ)
  rewardsNonce : Except PyError Int
  receipt : RewardsSubmission τ ρ → Except PyError (Option TxReceipt)

def RewardsInput.call (input : RewardsInput τ ρ) (config : ProtocolConfig) : RewardsCall τ ρ where
  canUpdate := input.canUpdate
  replies := config.ask input.endpoint OracleReply.mk
  rewardsNonce := input.rewardsNonce
  rewardsThreshold := config.rewardsThreshold
  receipt := input.receipt

structure ExitsInput where
  chainHead : Except PyError Nat
  endpoint : (oracle endpoint : Nat) → (url : String) → Except PyError Json
  validatorsByIds : (stateId : Nat) → List String → Except PyError (List ConsensusValidator)
  submitVoluntaryExit : Json → Bytes → SubmitOutcome

def ExitsInput.call (input : ExitsInput) (config : ProtocolConfig) : ExitsCall where
  chainHead := input.chainHead
  answers := config.ask (fun oracle endpoint url => ⟨url, input.endpoint oracle endpoint url⟩)
    OracleAnswer.mk
  validatorsByIds := input.validatorsByIds
  exitSignatureRecoverThreshold := config.exitSignatureRecoverThreshold
  submitVoluntaryExit := input.submitVoluntaryExit

structure DistributorInput (τ ρ : Type) where
  endpoint : (oracle endpoint : Nat) → (url : String) →
    Except PyError (Option (DistributorVoteReply τ ρ))
  nonce : Except PyError Int
  nextUpdateTimestamp : Except PyError Int
  rewardsMinOracles : Except PyError Nat
  rewardsRoot : Except PyError String
  receipt : DistributorSubmission τ ρ → Except PyError (Option TxReceipt)

def DistributorInput.call (input : DistributorInput τ ρ) (config : ProtocolConfig) :
    DistributorCall τ ρ where
  replies := config.ask input.endpoint DistributorReply.mk
  nonce := input.nonce
  nextUpdateTimestamp := input.nextUpdateTimestamp
  rewardsMinOracles := input.rewardsMinOracles
  rewardsRoot := input.rewardsRoot
  receipt := input.receipt

abbrev RewardsAsked (τ ρ : Type) := ProtocolConfig × RewardsInput τ ρ
abbrev ExitsAsked := ProtocolConfig × ExitsInput
abbrev DistributorAsked (τ ρ : Type) := ProtocolConfig × DistributorInput τ ρ

/-- The transaction manager is shared, so the price task meets it as the others left it. -/
abbrev PriceAsked := TransactionManager × PriceCall

section Services

variable [PyOrder τ] [PyText ρ]

def rewardsService (cache : RewardsCache τ ρ) (asked : RewardsAsked τ ρ) :
    RewardsOutcome τ ρ × RewardsCache τ ρ :=
  processRewards cache (asked.2.call asked.1)

/-- Halfway, `process_rewards` awaits the transaction of `_submit_vote`. -/
def rewardsHalves : Halves (@rewardsService τ ρ _ _ _ _) (RewardsSubmission τ ρ) where
  first cache asked :=
    match prepareRewards cache (asked.2.call asked.1).toRewardsReads with
    | (.error error, updated) => (.inl ⟨none, .error error⟩, updated)
    | (.ok none, updated) => (.inl ⟨none, .ok ()⟩, updated)
    | (.ok (some submission), updated) => (.inr submission, updated)
  second cache asked submission := finishRewards submission (asked.2.receipt submission) cache
  whole cache asked := by
    rw [rewardsService, processRewards]
    rcases prepareRewards cache (asked.2.call asked.1).toRewardsReads with
      ⟨error | _ | submission, updated⟩ <;> rfl

def exitsService (settings : ExitSettings) (curve : Curve G) (_ : Unit) (asked : ExitsAsked) :
    ExitsOutcome × Unit :=
  (processExits settings curve (asked.2.call asked.1), ())

def distributorService (_ : Unit) (asked : DistributorAsked τ ρ) : DistributorOutcome τ ρ × Unit :=
  (processDistributorRewards (asked.2.call asked.1), ())

def priceService (settings : PriceSettings) (state : AppState) (asked : PriceAsked) :
    PriceOutcome × AppState :=
  let processed := processLayerTwoOsethPrice settings ⟨state, asked.1⟩ asked.2
  (processed.1, processed.2.appState)

/-- Halfway, the marker is reset and the rate is not synced yet. -/
def priceHalves (settings : PriceSettings) : Halves (priceService settings) Unit where
  first state asked :=
    match asked.2.latestTimestamp with
    | .error error => (.inl ⟨[], .error error⟩, state)
    | .ok latestTimestamp =>
        if (asked.2.currentTime : Int) - latestTimestamp < settings.priceUpdateInterval then
          (.inl ⟨[], .ok ()⟩, state)
        else if withinInterval state.lastPriceUpdatedTimestamp settings.priceMaxWaitingTime
            asked.2.currentTime then (.inl ⟨[], .ok ()⟩, state)
        else (.inr (), state.resetPriceUpdate)
  second state asked _ :=
    let synced := syncPrice settings ⟨state, asked.1⟩ asked.2
    (synced.1, synced.2.appState)
  whole state asked := by
    rw [priceService, processLayerTwoOsethPrice]
    cases asked.2.latestTimestamp with
    | error error => rfl
    | ok latestTimestamp =>
        dsimp only
        split
        case isTrue => rfl
        case isFalse => split <;> rfl

/-- Halfway, the throttle has let the call through at its `current_time`. -/
def forceExitsHalves (settings : ForceExitSettings) :
    Halves (processForceExits settings) Unit where
  first state call :=
    if withinInterval state.forceExitsUpdatedTimestamp settings.forceExitsUpdateInterval
        call.currentTime then (.inl ⟨[], false, .ok ()⟩, state)
    else (.inr (), state)
  second state call _ :=
    let handled := handleForceExits settings call
    match handled.result with
    | .error error => (⟨handled.events, false, .error error⟩, state)
    | .ok () =>
        (⟨handled.events, true, .ok ()⟩,
          { state with forceExitsUpdatedTimestamp := some call.currentTime })
  whole state call := by
    rw [processForceExits]
    split <;> rfl

def ltvHalves (settings : LtvSettings) : Halves (processVaultMaxLtvUser settings) Unit where
  first state call :=
    if withinInterval state.ltvUpdatedTimestamp settings.ltvUpdateInterval call.currentTime then
      (.inl ⟨[], .ok ()⟩, state)
    else (.inr (), state)
  second state call _ :=
    let updated := updateMaxLtvUsers settings call
    match updated.result with
    | .error error => (⟨updated.events, .error error⟩, state)
    | .ok false => (⟨updated.events, .ok ()⟩, state)
    | .ok true =>
        (⟨updated.events, .ok ()⟩, { state with ltvUpdatedTimestamp := some call.currentTime })
  whole state call := by
    rw [processVaultMaxLtvUser]
    split <;> rfl

end Services

/-- Of `src/config/settings.py`, what `start_keeper` chooses the tasks of a round by. -/
structure LoopSettings where
  network : String
  osethPriceSupportedNetworks : List String
  forceExitsSupportedNetworks : List String
  skipDistributorRewards : Bool
  skipOsethPriceUpdate : Bool
  skipForceExits : Bool
  skipUpdateLtv : Bool

def LoopSettings.updatesPrice (settings : LoopSettings) : Bool :=
  settings.osethPriceSupportedNetworks.contains settings.network && !settings.skipOsethPriceUpdate

def LoopSettings.forcesExits (settings : LoopSettings) : Bool :=
  settings.forceExitsSupportedNetworks.contains settings.network && !settings.skipForceExits

structure MainSettings where
  loop : LoopSettings
  config : ConfigNetwork
  exits : ExitSettings
  price : PriceSettings
  forceExits : ForceExitSettings
  ltv : LtvSettings

structure Round (τ ρ : Type) where
  config : ProtocolConfig
  rewards : Status (RewardsAsked τ ρ) (RewardsSubmission τ ρ)
  exits : Status ExitsAsked Unit
  distributor : Status (DistributorAsked τ ρ) Unit
  price : Status PriceAsked Unit
  forceExits : Status ForceExitsCall Unit
  ltv : Status LtvCall Unit

def taskIf {ι μ : Type} (chosen : Bool) : Status ι μ := if chosen then .ready else .ended

def LoopSettings.round (settings : LoopSettings) (config : ProtocolConfig) : Round τ ρ where
  config := config
  rewards := .ready
  exits := .ready
  distributor := taskIf (!settings.skipDistributorRewards)
  price := taskIf settings.updatesPrice
  forceExits := taskIf settings.forcesExits
  ltv := taskIf (!settings.skipUpdateLtv)

inductive MainPhase (τ ρ : Type) where
  | starting
  | stopped
  | sleeping
  | gathering (round : Round τ ρ)

structure Keeper (κ τ ρ : Type) [BEq τ] [BEq ρ] where
  oraclesCache : OraclesCache κ
  rewardsCache : RewardsCache τ ρ
  appState : AppState := {}
  phase : MainPhase τ ρ := .starting

inductive TaskInput (τ ρ : Type) where
  | rewards (input : RewardsInput τ ρ)
  | exits (input : ExitsInput)
  | distributor (input : DistributorInput τ ρ)
  | price (manager : TransactionManager) (call : PriceCall)
  | forceExits (call : ForceExitsCall)
  | ltv (call : LtvCall)

inductive HalfwayTask where
  | rewards
  | price
  | forceExits
  | ltv
  deriving DecidableEq

inductive MainAction (κ τ ρ : Type) where
  /-- `startup_checks`: what those before its `get_protocol_config` come to, and that call. -/
  | startup (checks : Except PyError Unit) (call : ConfigCall κ)
  | readConfig (call : ConfigCall κ)
  | start (input : TaskInput τ ρ)
  | finish (task : HalfwayTask)
  | gathered

inductive Returned (κ τ ρ : Type) where
  | config (call : ConfigCall κ) (result : Except PyError ProtocolConfig)
  | rewards (asked : RewardsAsked τ ρ) (outcome : RewardsOutcome τ ρ)
  | exits (asked : ExitsAsked) (outcome : ExitsOutcome)
  | distributor (asked : DistributorAsked τ ρ) (outcome : DistributorOutcome τ ρ)
  | price (asked : PriceAsked) (outcome : PriceOutcome)
  | forceExits (call : ForceExitsCall) (outcome : ForceExitsOutcome)
  | ltv (call : LtvCall) (outcome : LtvOutcome)

abbrev Turn (κ τ ρ : Type) [BEq τ] [BEq ρ] := Keeper κ τ ρ × List (Returned κ τ ρ)

namespace Keeper

def inRound (keeper : Keeper κ τ ρ) (round : Round τ ρ) : Keeper κ τ ρ :=
  { keeper with phase := .gathering round }

variable (keeper : Keeper κ τ ρ) (round : Round τ ρ)

def rewardsMoved (moved : Moved (RewardsCache τ ρ) (RewardsAsked τ ρ) (RewardsSubmission τ ρ)
    (RewardsOutcome τ ρ)) : Turn κ τ ρ :=
  ({ keeper with rewardsCache := moved.state }.inRound { round with rewards := moved.status },
    moved.calls.map fun call => .rewards call.1 call.2)

def exitsMoved (moved : Moved Unit ExitsAsked Unit ExitsOutcome) : Turn κ τ ρ :=
  (keeper.inRound { round with exits := moved.status },
    moved.calls.map fun call => .exits call.1 call.2)

def distributorMoved (moved : Moved Unit (DistributorAsked τ ρ) Unit (DistributorOutcome τ ρ)) :
    Turn κ τ ρ :=
  (keeper.inRound { round with distributor := moved.status },
    moved.calls.map fun call => .distributor call.1 call.2)

def priceMoved (moved : Moved AppState PriceAsked Unit PriceOutcome) : Turn κ τ ρ :=
  ({ keeper with appState := moved.state }.inRound { round with price := moved.status },
    moved.calls.map fun call => .price call.1 call.2)

def forceExitsMoved (moved : Moved AppState ForceExitsCall Unit ForceExitsOutcome) : Turn κ τ ρ :=
  ({ keeper with appState := moved.state }.inRound { round with forceExits := moved.status },
    moved.calls.map fun call => .forceExits call.1 call.2)

def ltvMoved (moved : Moved AppState LtvCall Unit LtvOutcome) : Turn κ τ ρ :=
  ({ keeper with appState := moved.state }.inRound { round with ltv := moved.status },
    moved.calls.map fun call => .ltv call.1 call.2)

end Keeper

section Step

variable [PyOrder τ] [PyText ρ]

def startTask (settings : MainSettings) (curve : Curve G) (keeper : Keeper κ τ ρ)
    (round : Round τ ρ) : TaskInput τ ρ → Option (Turn κ τ ρ)
  | .rewards input =>
      (rewardsHalves.start round.rewards keeper.rewardsCache (round.config, input)).map
        (keeper.rewardsMoved round)
  | .exits input =>
      ((Halves.undivided (exitsService settings.exits curve)).start round.exits ()
        (round.config, input)).map (keeper.exitsMoved round)
  | .distributor input =>
      ((Halves.undivided distributorService).start round.distributor ()
        (round.config, input)).map (keeper.distributorMoved round)
  | .price manager call =>
      ((priceHalves settings.price).start round.price keeper.appState (manager, call)).map
        (keeper.priceMoved round)
  | .forceExits call =>
      ((forceExitsHalves settings.forceExits).start round.forceExits keeper.appState call).map
        (keeper.forceExitsMoved round)
  | .ltv call =>
      ((ltvHalves settings.ltv).start round.ltv keeper.appState call).map (keeper.ltvMoved round)

def finishTask (settings : MainSettings) (keeper : Keeper κ τ ρ) (round : Round τ ρ) :
    HalfwayTask → Option (Turn κ τ ρ)
  | .rewards =>
      (rewardsHalves.finish round.rewards keeper.rewardsCache).map (keeper.rewardsMoved round)
  | .price =>
      ((priceHalves settings.price).finish round.price keeper.appState).map
        (keeper.priceMoved round)
  | .forceExits =>
      ((forceExitsHalves settings.forceExits).finish round.forceExits keeper.appState).map
        (keeper.forceExitsMoved round)
  | .ltv =>
      ((ltvHalves settings.ltv).finish round.ltv keeper.appState).map (keeper.ltvMoved round)

/-- A round without oracles is skipped, and so is one whose config cannot be read. -/
def LoopSettings.next (settings : LoopSettings) (result : Except PyError ProtocolConfig) :
    MainPhase τ ρ :=
  match result with
  | .error _ => .sleeping
  | .ok config => if config.oracles.isEmpty then .sleeping else .gathering (settings.round config)

def readConfig (settings : MainSettings) (build : κ → Nat → Except PyError ProtocolConfig)
    (keeper : Keeper κ τ ρ) (call : ConfigCall κ)
    (next : Except PyError ProtocolConfig → MainPhase τ ρ) : Turn κ τ ρ :=
  let read := getProtocolConfig settings.config build keeper.oraclesCache call
  ({ keeper with oraclesCache := read.2, phase := next read.1 }, [.config call read.1])

/-- An exception of `startup_checks` ends the process. -/
def afterStartup (result : Except PyError ProtocolConfig) : MainPhase τ ρ :=
  match result with
  | .error _ => .stopped
  | .ok _ => .sleeping

/-- `asyncio.gather` returns. -/
def Round.over (round : Round τ ρ) : Bool :=
  round.rewards.isEnded && round.exits.isEnded && round.distributor.isEnded &&
    round.price.isEnded && round.forceExits.isEnded && round.ltv.isEnded

def mainTurn (settings : MainSettings) (build : κ → Nat → Except PyError ProtocolConfig)
    (curve : Curve G) (keeper : Keeper κ τ ρ) (action : MainAction κ τ ρ) :
    Option (Turn κ τ ρ) :=
  match keeper.phase, action with
  | .starting, .startup (.error _) _ => some ({ keeper with phase := .stopped }, [])
  | .starting, .startup (.ok ()) call => some (readConfig settings build keeper call afterStartup)
  | .sleeping, .readConfig call =>
      some (readConfig settings build keeper call settings.loop.next)
  | .gathering round, .start input => startTask settings curve keeper round input
  | .gathering round, .finish task => finishTask settings keeper round task
  | .gathering round, .gathered =>
      if round.over then some ({ keeper with phase := .sleeping }, []) else none
  | _, _ => none

def mainStep (settings : MainSettings) (build : κ → Nat → Except PyError ProtocolConfig)
    (curve : Curve G) (keeper : Keeper κ τ ρ) (action : MainAction κ τ ρ) :
    Option (Keeper κ τ ρ) :=
  (mainTurn settings build curve keeper action).map Prod.fst

def returned (settings : MainSettings) (build : κ → Nat → Except PyError ProtocolConfig)
    (curve : Curve G) (keeper : Keeper κ τ ρ) (action : MainAction κ τ ρ) :
    List (Returned κ τ ρ) :=
  ((mainTurn settings build curve keeper action).map Prod.snd).getD []

end Step

def Keeper.initial [Inhabited κ] : Keeper κ τ ρ where
  oraclesCache := OraclesCache.initial
  rewardsCache := RewardsCache.new defaultCacheSize

end V3Keeper
