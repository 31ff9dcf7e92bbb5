import V3Keeper.Common.AppState
import V3Keeper.Transaction.Manager

/-!
`src/price/service.py`. The rate goes to the target chain through a bridge, so the task marks
a transaction that is confirmed and waits for the target feed before it sends another.
-/

namespace V3Keeper

open Python

structure PriceSettings where
  priceUpdateInterval : Int
  priceMaxWaitingTime : Int
  keeperAccount : Nat
  transactions : Settings

structure PriceCall where
  latestTimestamp : Except PyError Nat
  currentTime : Nat
  quoteRateSync : Except PyError Nat
  transact : TransactCall
  /-- The time read once the receipt is there. -/
  confirmedAt : Nat

structure PriceState where
  appState : AppState := {}
  manager : TransactionManager := {}

structure PriceOutcome where
  sends : List Send
  result : Except PyError Unit

/-- The marker is reset once the waiting time has passed. A marker of 0 is falsy. -/
def AppState.resetPriceUpdate (appState : AppState) : AppState :=
  match appState.lastPriceUpdatedTimestamp with
  | some 0 => appState
  | _ => { appState with lastPriceUpdatedTimestamp := none }

def PriceCall.syncRate (call : PriceCall) (settings : PriceSettings) (currentRate : Nat) :
    TransactCall :=
  { call.transact with
    txParams := { other := [("from", settings.keeperAccount), ("value", currentRate)] }
    highPriority := false }

/-- Steps 3 and 4: get the cost, sync the rate. -/
def syncPrice (settings : PriceSettings) (state : PriceState) (call : PriceCall) :
    PriceOutcome × PriceState :=
  match call.quoteRateSync with
  | .error error => (⟨[], .error error⟩, state)
  | .ok currentRate =>
      let transacted :=
        transactStep settings.transactions state.manager (call.syncRate settings currentRate)
      match transacted.1.result with
      | .error error => (⟨transacted.1.sends, .error error⟩, { state with manager := transacted.2 })
      | .ok none =>
          (⟨transacted.1.sends, .error (.runtimeError "Sync transaction failed")⟩,
            { state with manager := transacted.2 })
      | .ok (some _) =>
          (⟨transacted.1.sends, .ok ()⟩,
            { appState := { state.appState with
                lastPriceUpdatedTimestamp := some call.confirmedAt }
              manager := transacted.2 })

def processLayerTwoOsethPrice (settings : PriceSettings) (state : PriceState) (call : PriceCall) :
    PriceOutcome × PriceState :=
  match call.latestTimestamp with
  | .error error => (⟨[], .error error⟩, state)
  | .ok latestTimestamp =>
      if (call.currentTime : Int) - latestTimestamp < settings.priceUpdateInterval then
        (⟨[], .ok ()⟩, state)
      else if withinInterval state.appState.lastPriceUpdatedTimestamp settings.priceMaxWaitingTime
          call.currentTime then (⟨[], .ok ()⟩, state)
      else syncPrice settings { state with appState := state.appState.resetPriceUpdate } call

end V3Keeper
