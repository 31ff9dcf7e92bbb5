import V3Keeper.Library.StepRun
import V3Keeper.Price.Service
import V3Keeper.Transaction.Steps

/-!
How far apart the transactions of `process_layer_two_oseth_price` are. The marker is written
when a receipt arrives, and a transaction may be mined after the wait for it has ended.
-/

namespace V3Keeper

open Python StepRun

/-- A call with what happens outside: when its sends go out, and when the transaction that
the node accepts is mined, where it is mined and succeeds. -/
structure SyncCall extends PriceCall where
  sentAt : (send : Nat) → Nat
  minedAt : Option Nat

inductive KeeperCall where
  | price (call : SyncCall)
  | other (call : TransactCall)

def keeperStep (settings : PriceSettings) (state : PriceState) :
    KeeperCall → PriceOutcome × PriceState
  | .price call => processLayerTwoOsethPrice settings state call.toPriceCall
  | .other call =>
      (⟨[], .ok ()⟩,
        { state with manager := (transactStep settings.transactions state.manager call).2 })

abbrev KeeperRun := Transition PriceState KeeperCall PriceOutcome

structure SyncSent (run : KeeperRun) (call : SyncCall) (nonce time : Nat) (txHash : TxHash) :
    Prop where
  input : run.input = .price call
  sent : ∃ index send, run.output.sends[index]? = some send ∧ send.answer = .accepted txHash ∧
    send.txParams.nonce = some nonce ∧ time = call.sentAt index

/-- No transaction is accepted at a new nonce less than `PRICE_MAX_WAITING_TIME` seconds after
an earlier one has been mined. -/
def StepSpaced (settings : PriceSettings) (past : List KeeperRun) (run : KeeperRun) : Prop :=
  ∀ call nonce time txHash, SyncSent run call nonce time txHash →
    ∀ own ∈ past, ∀ earlier earlierNonce earlierTime earlierHash,
      SyncSent own earlier earlierNonce earlierTime earlierHash → earlierNonce ≠ nonce →
        ∀ mined, earlier.minedAt = some mined → mined ≤ time →
          (mined : Int) + settings.priceMaxWaitingTime ≤ time

def SyncsSpaced (settings : PriceSettings) (runs : List KeeperRun) : Prop :=
  ∀ past run later, runs = past ++ run :: later → StepSpaced settings past run

def SyncCall.confirms (call : SyncCall) (txHash : TxHash) : Prop :=
  ∃ receipt, call.transact.receipt txHash = .receipt receipt ∧ receipt.status ≠ 0

/-- The target feed is behind, no marked transaction is waited for, and the node accepts the
transaction of the call. -/
structure SubmitsSync (settings : PriceSettings) (state : PriceState) (call : SyncCall)
    (nonce time : Nat) (txHash : TxHash) : Prop where
  behind : ∃ latestTimestamp, call.latestTimestamp = .ok latestTimestamp ∧
    settings.priceUpdateInterval ≤ (call.currentTime : Int) - latestTimestamp
  waited : withinInterval state.appState.lastPriceUpdatedTimestamp settings.priceMaxWaitingTime
    call.currentTime = false
  accepted : ∃ currentRate, call.quoteRateSync = .ok currentRate ∧
    ∃ index send, (transactStep settings.transactions state.manager
        (call.syncRate settings currentRate)).1.sends[index]? = some send ∧
      send.answer = .accepted txHash ∧ send.txParams.nonce = some nonce ∧
      time = call.sentAt index

/-- Where a call submits, the transactions mined shortly before were confirmed in time. -/
def RecentConfirmed (settings : PriceSettings) (past : List KeeperRun) (run : KeeperRun) : Prop :=
  ∀ call nonce time txHash, run.input = .price call →
    SubmitsSync settings run.before call nonce time txHash →
    ∀ own ∈ past, ∀ earlier earlierNonce earlierTime earlierHash,
      SyncSent own earlier earlierNonce earlierTime earlierHash → earlierNonce ≠ nonce →
        ∀ mined, earlier.minedAt = some mined → mined ≤ time →
          (time : Int) < mined + settings.priceMaxWaitingTime → earlier.confirms earlierHash

/-- Where a call submits, it sends at its `current_time` or later, no earlier call of the task
has read a later one, and no receipt came before its transaction was mined. -/
def InTime (settings : PriceSettings) (past : List KeeperRun) (run : KeeperRun) : Prop :=
  ∀ call nonce time txHash, run.input = .price call →
    SubmitsSync settings run.before call nonce time txHash →
    call.currentTime ≤ time ∧ ∀ own ∈ past, ∀ earlier, own.input = .price earlier →
      earlier.currentTime ≤ call.currentTime ∧
      ∀ earlierNonce earlierTime earlierHash,
        SyncSent own earlier earlierNonce earlierTime earlierHash →
          earlier.confirms earlierHash → ∀ mined, earlier.minedAt = some mined →
            0 < earlier.confirmedAt ∧ mined ≤ earlier.confirmedAt

theorem syncPrice_confirms {settings : PriceSettings} {state : PriceState} {call : PriceCall}
    {send : Send} {txHash : TxHash} {receipt : TxReceipt}
    (sent : send ∈ (syncPrice settings state call).1.sends)
    (accepted : send.answer = .accepted txHash)
    (received : call.transact.receipt txHash = .receipt receipt) (succeeded : receipt.status ≠ 0) :
    (syncPrice settings state call).2.appState.lastPriceUpdatedTimestamp =
      some call.confirmedAt := by
  unfold syncPrice at sent ⊢
  split at sent
  case h_1 => cases sent
  case h_2 currentRate quoted =>
    have sentBy : send ∈ (transactStep settings.transactions state.manager
        (call.syncRate settings currentRate)).1.sends := by
      dsimp only at sent
      split at sent <;> exact sent
    have waited := transactStep_accepts sentBy accepted
    have receiptEq : (call.syncRate settings currentRate).receipt txHash = .receipt receipt :=
      received
    rw [receiptEq, waitForReceipt, if_neg succeeded] at waited
    simp only [waited]

theorem processLayerTwoOsethPrice_cases (settings : PriceSettings) (state : PriceState)
    (call : PriceCall) :
    ((processLayerTwoOsethPrice settings state call).1.sends = [] ∧
      (processLayerTwoOsethPrice settings state call).2 = state) ∨
    (withinInterval state.appState.lastPriceUpdatedTimestamp settings.priceMaxWaitingTime
        call.currentTime = false ∧
      ∀ send ∈ (processLayerTwoOsethPrice settings state call).1.sends, ∀ txHash receipt,
        send.answer = .accepted txHash → call.transact.receipt txHash = .receipt receipt →
          receipt.status ≠ 0 →
          (processLayerTwoOsethPrice settings state call).2.appState.lastPriceUpdatedTimestamp =
            some call.confirmedAt) := by
  unfold processLayerTwoOsethPrice
  split
  case h_1 => exact Or.inl ⟨rfl, rfl⟩
  case h_2 latestTimestamp read =>
    split
    case isTrue => exact Or.inl ⟨rfl, rfl⟩
    case isFalse =>
      split
      case isTrue => exact Or.inl ⟨rfl, rfl⟩
      case isFalse outside =>
        exact Or.inr ⟨Bool.eq_false_iff.mpr outside, fun send sent txHash receipt accepted
          received succeeded => syncPrice_confirms sent accepted received succeeded⟩

theorem syncPrice_sends (settings : PriceSettings) (state : PriceState) (call : PriceCall)
    {currentRate : Nat} (quoted : call.quoteRateSync = .ok currentRate) :
    (syncPrice settings state call).1.sends = (transactStep settings.transactions state.manager
      (call.syncRate settings currentRate)).1.sends := by
  simp only [syncPrice, quoted]
  split <;> rfl

theorem SyncSent.submits {settings : PriceSettings} {run : KeeperRun} {call : SyncCall}
    {nonce time : Nat} {txHash : TxHash} (sent : SyncSent run call nonce time txHash)
    (output : run.output = (processLayerTwoOsethPrice settings run.before call.toPriceCall).1) :
    SubmitsSync settings run.before call nonce time txHash := by
  obtain ⟨index, send, found, answer⟩ := sent.sent
  rw [output] at found
  unfold processLayerTwoOsethPrice at found
  split at found
  case h_1 => cases found
  case h_2 latestTimestamp read =>
    split at found
    case isTrue => cases found
    case isFalse behind =>
      split at found
      case isTrue => cases found
      case isFalse outside =>
        refine ⟨⟨latestTimestamp, read, Int.not_lt.mp behind⟩, Bool.eq_false_iff.mpr outside, ?_⟩
        cases quoted : call.quoteRateSync with
        | error error => simp [syncPrice, quoted] at found
        | ok currentRate =>
            rw [syncPrice_sends settings _ _ quoted] at found
            exact ⟨currentRate, rfl, index, send, found, answer⟩

theorem SubmitsSync.sent {settings : PriceSettings} {run : KeeperRun} {call : SyncCall}
    {nonce time : Nat} {txHash : TxHash}
    (submits : SubmitsSync settings run.before call nonce time txHash)
    (input : run.input = .price call)
    (output : run.output = (processLayerTwoOsethPrice settings run.before call.toPriceCall).1) :
    SyncSent run call nonce time txHash := by
  obtain ⟨latestTimestamp, read, behind⟩ := submits.behind
  obtain ⟨currentRate, quoted, index, send, found, answer⟩ := submits.accepted
  refine ⟨input, index, send, ?_, answer⟩
  rw [output]
  simp only [processLayerTwoOsethPrice, read, if_neg (Int.not_lt.mpr behind), submits.waited,
    Bool.false_eq_true, if_false]
  rw [syncPrice_sends settings _ _ quoted]
  exact found

theorem expired_of_outside {timestamp : Option Nat} {interval : Int} {currentTime marker : Nat}
    (outside : withinInterval timestamp interval currentTime = false)
    (marked : timestamp = some marker) (positive : 0 < marker) :
    (marker : Int) + interval ≤ currentTime := by
  rw [marked] at outside
  simp only [withinInterval, Bool.and_eq_false_iff, bne_eq_false_iff_eq,
    decide_eq_false_iff_not, Int.not_lt] at outside
  omega

def Marked (settings : PriceSettings) (past : List KeeperRun) (state : PriceState) : Prop :=
  ∀ own ∈ past, ∀ call nonce time txHash, SyncSent own call nonce time txHash →
    call.confirms txHash → 0 < call.confirmedAt →
      state.appState.lastPriceUpdatedTimestamp = some call.confirmedAt ∨
      ∃ passed ∈ past, ∃ other, passed.input = .price other ∧
        (call.confirmedAt : Int) + settings.priceMaxWaitingTime ≤ other.currentTime

theorem Marked.extend {settings : PriceSettings} {past : List KeeperRun} {state : PriceState}
    (marked : Marked settings past state) {next : PriceState} {run : KeeperRun}
    (kept : next.appState.lastPriceUpdatedTimestamp = state.appState.lastPriceUpdatedTimestamp)
    (nothing : run.output.sends = []) : Marked settings (past ++ [run]) next := by
  intro own member call nonce time txHash sent confirmed positive
  rcases List.mem_append.mp member with old | new
  · rw [kept]
    rcases marked own old call nonce time txHash sent confirmed positive with
      marker | ⟨passed, passedMember, other, input, expired⟩
    · exact Or.inl marker
    · exact Or.inr ⟨passed, List.mem_append_left _ passedMember, other, input, expired⟩
  · rw [List.mem_singleton] at new
    obtain ⟨index, send, found, -⟩ := sent.sent
    rw [new, nothing] at found
    cases found

theorem Marked.next {settings : PriceSettings} {past : List KeeperRun} {state : PriceState}
    (marked : Marked settings past state) (input : KeeperCall) :
    Marked settings (past ++ [transition (keeperStep settings) state input])
      (keeperStep settings state input).2 := by
  cases input with
  | other call => exact marked.extend rfl rfl
  | price call =>
      rcases processLayerTwoOsethPrice_cases settings state call.toPriceCall with
        ⟨nothing, kept⟩ | ⟨outside, confirms⟩
      · exact marked.extend (congrArg (fun next => next.appState.lastPriceUpdatedTimestamp) kept)
          nothing
      · intro own member earlier nonce sentAt txHash sent confirmed positive
        rcases List.mem_append.mp member with old | new
        · refine Or.inr ?_
          rcases marked own old earlier nonce sentAt txHash sent confirmed positive with
            marker | ⟨passed, passedMember, other, input, expired⟩
          · have expired := expired_of_outside outside marker positive
            exact ⟨_, mem_concat_self past _, call, rfl, expired⟩
          · exact ⟨passed, List.mem_append_left _ passedMember, other, input, expired⟩
        · have same := List.mem_singleton.mp new
          obtain ⟨index, send, found, accepted, -⟩ := sent.sent
          have input := sent.input
          rw [same] at found input
          cases input
          obtain ⟨receipt, received, succeeded⟩ := confirmed
          exact Or.inl (confirms send (List.mem_of_getElem? found) txHash receipt accepted received
            succeeded)

theorem history_marked (settings : PriceSettings) (calls : List KeeperCall) :
    Marked settings (history (keeperStep settings) {} calls)
      (final (keeperStep settings) {} calls) :=
  history_invariant (keeperStep settings) (fun _ => True) (Marked settings)
    (fun _ _ _ => trivial) (fun own member => by cases member)
    (fun past state input marked _ => marked.next input) calls trivial

theorem price_output {settings : PriceSettings} {run : KeeperRun} {call : SyncCall}
    (step : run = transition (keeperStep settings) run.before run.input)
    (input : run.input = .price call) :
    run.output = (processLayerTwoOsethPrice settings run.before call.toPriceCall).1 := by
  have stepped : run.output = (keeperStep settings run.before run.input).1 :=
    congrArg Transition.output step
  rw [input] at stepped
  exact stepped

theorem spaced_of_recentConfirmed {settings : PriceSettings} {past : List KeeperRun}
    {run : KeeperRun} (marked : Marked settings past run.before)
    (step : run = transition (keeperStep settings) run.before run.input)
    (inTime : InTime settings past run) (recent : RecentConfirmed settings past run) :
    StepSpaced settings past run := by
  intro call nonce time txHash sent own member earlier earlierNonce earlierTime earlierHash
    earlierSent different mined minedEq before
  by_contra early
  have submits := sent.submits (price_output step sent.input)
  have confirmed := recent call nonce time txHash sent.input submits own member earlier
    earlierNonce earlierTime earlierHash earlierSent different mined minedEq before (by omega)
  obtain ⟨started, earlierCalls⟩ := inTime call nonce time txHash sent.input submits
  obtain ⟨positive, covered⟩ := (earlierCalls own member earlier earlierSent.input).2 earlierNonce
    earlierTime earlierHash earlierSent confirmed mined minedEq
  rcases marked own member earlier earlierNonce earlierTime earlierHash earlierSent confirmed
    positive with marker | ⟨passed, passedMember, other, input, expired⟩
  · have expired := expired_of_outside submits.waited marker positive
    omega
  · have order := (earlierCalls passed passedMember other input).1
    omega

theorem inTime_of_forward {settings : PriceSettings} {calls : List KeeperCall}
    (within : ∀ call, .price call ∈ calls → 0 < call.confirmedAt ∧
      (∀ index, call.currentTime ≤ call.sentAt index) ∧
        ∀ mined, call.minedAt = some mined → mined ≤ call.confirmedAt)
    (between : calls.Pairwise fun earlier later => ∀ first second, earlier = .price first →
      later = .price second → first.currentTime ≤ second.currentTime)
    {past later : List KeeperRun} {run : KeeperRun}
    (split : history (keeperStep settings) {} calls = past ++ run :: later) :
    InTime settings past run := by
  obtain ⟨before, rest, rfl, rfl, -⟩ := history_split (keeperStep settings) split
  intro call nonce time txHash input submits
  have listed : .price call ∈ before ++ run.input :: rest := by simp [input]
  obtain ⟨currentRate, -, index, send, -, -, -, rfl⟩ := submits.accepted
  refine ⟨(within call listed).2.1 index, fun own member earlier earlierInput => ?_⟩
  have earlierListed : own.input ∈ before := input_mem (keeperStep settings) member
  refine ⟨(List.pairwise_append.mp between).2.2 own.input earlierListed run.input
    List.mem_cons_self earlier call earlierInput input, ?_⟩
  intro earlierNonce earlierTime earlierHash _ _ mined minedEq
  rw [earlierInput] at earlierListed
  obtain ⟨positive, -, mines⟩ := within earlier (List.mem_append_left _ earlierListed)
  exact ⟨positive, mines mined minedEq⟩

theorem recentConfirmed_of_receipts {settings : PriceSettings} {calls : List KeeperCall}
    (received : ∀ call, .price call ∈ calls → ∀ txHash, call.confirms txHash)
    {past later : List KeeperRun} {run : KeeperRun}
    (split : history (keeperStep settings) {} calls = past ++ run :: later) :
    RecentConfirmed settings past run := by
  obtain ⟨before, rest, rfl, rfl, -⟩ := history_split (keeperStep settings) split
  intro call nonce time txHash input submits own member earlier earlierNonce earlierTime
    earlierHash sent different mined minedEq order early
  have listed : own.input ∈ before := input_mem (keeperStep settings) member
  rw [sent.input] at listed
  exact received earlier (List.mem_append_left _ listed) earlierHash

/-- In every run whose steps are in time, the transactions are spaced where every one that was
mined within the waiting time before a call that submits was confirmed in its own call. Of
these conditions the second one holds of every spaced run, whatever the clock does. -/
theorem syncsSpaced_of_confirmed (settings : PriceSettings) (calls : List KeeperCall) :
    ((∀ past run later, history (keeperStep settings) {} calls = past ++ run :: later →
        InTime settings past run ∧ RecentConfirmed settings past run) →
      SyncsSpaced settings (history (keeperStep settings) {} calls)) ∧
    (SyncsSpaced settings (history (keeperStep settings) {} calls) →
      ∀ past run later, history (keeperStep settings) {} calls = past ++ run :: later →
        RecentConfirmed settings past run) := by
  constructor
  · intro conditions past run later split
    obtain ⟨earlier, rest, -, pastEq, runEq⟩ := history_split (keeperStep settings) split
    have marked : Marked settings past run.before := by
      rw [runEq, transition_before, pastEq]
      exact history_marked settings earlier
    obtain ⟨inTime, recent⟩ := conditions past run later split
    exact spaced_of_recentConfirmed marked
      (mem_history_eq (keeperStep settings) (by rw [split]; simp)) inTime recent
  · intro spaced past run later split call nonce time txHash input submits own member earlier
      earlierNonce earlierTime earlierHash earlierSent different mined minedEq before early
    have step : run = transition (keeperStep settings) run.before run.input :=
      mem_history_eq (keeperStep settings) (by rw [split]; simp)
    have sent := submits.sent input (price_output step input)
    have apart := spaced past run later split call nonce time txHash sent own member earlier
      earlierNonce earlierTime earlierHash earlierSent different mined minedEq before
    omega

def syncAt (nonce time : Nat) (quoteRateSync : Except PyError Nat) (wait : TxHash → ReceiptWait) :
    SyncCall where
  latestTimestamp := .ok 0
  currentTime := time
  quoteRateSync := quoteRateSync
  transact :=
    { latestNonce := .ok nonce, pendingNonce := .ok nonce, quote := .error .requestError
      defaultGasAnswer := fun _ _ => .accepted nonce
      highPriorityAnswer := fun _ => .raised .requestError
      receipt := wait }
  confirmedAt := time + 400
  sentAt := fun _ => time
  minedAt := some (time + 400)

def sentAtNonce (nonce : Nat) : Send :=
  ⟨.defaultGas, { nonce := some nonce, other := [("from", 1), ("value", 1)] }, .accepted nonce⟩

def confirmedWait (txHash : TxHash) : ReceiptWait := .receipt ⟨txHash, 1⟩

def timedOutWait (_ : TxHash) : ReceiptWait := .timeExhausted

def hourApart : PriceSettings := ⟨43200, 3600, 1, ⟨100 * 10 ^ 9, 5⟩⟩

theorem syncsSpaced_of_confirmed_twice :
    SyncsSpaced hourApart (history (keeperStep hourApart) {}
      [.price (syncAt 5 100000 (.ok 1) confirmedWait),
        .price (syncAt 6 104000 (.ok 1) confirmedWait)]) := by
  refine (syncsSpaced_of_confirmed hourApart _).1 fun past run later split => ⟨?_, ?_⟩
  · exact inTime_of_forward (by simp [syncAt]) (by simp [syncAt]) split
  · exact recentConfirmed_of_receipts (by simp [SyncCall.confirms, syncAt, confirmedWait]) split

/-- The wait for the first receipt times out; the transaction is mined all the same, and the
next call sends the second one 1000 seconds later. Nor is it enough that every transaction is
confirmed in its own call, where the clock is set back after a call that has reset the marker and
got no quote. -/
theorem sync_repeated :
    let late := history (keeperStep hourApart) {}
      [.price (syncAt 5 100000 (.ok 1) timedOutWait),
        .price (syncAt 6 101400 (.ok 1) timedOutWait)]
    let setBack := history (keeperStep hourApart) {}
      [.price (syncAt 5 100000 (.ok 1) confirmedWait),
        .price (syncAt 6 104000 (.error .requestError) confirmedWait),
        .price (syncAt 6 101000 (.ok 1) confirmedWait)]
    ((∀ past run later, late = past ++ run :: later → InTime hourApart past run) ∧
      ¬SyncsSpaced hourApart late) ∧
    (∀ past run later, setBack = past ++ run :: later → RecentConfirmed hourApart past run) ∧
      ¬SyncsSpaced hourApart setBack := by
  intro late setBack
  refine ⟨⟨fun past run later split => ?_, fun spaced => ?_⟩,
    fun past run later split => ?_, fun spaced => ?_⟩
  · exact inTime_of_forward (by simp [syncAt]) (by simp [syncAt]) split
  · have apart := spaced [_] _ [] rfl _ 6 101400 6 ⟨rfl, 0, sentAtNonce 6, by decide, rfl, rfl, rfl⟩
      _ (List.mem_singleton.mpr rfl) _ 5 100000 5 ⟨rfl, 0, sentAtNonce 5, by decide, rfl, rfl, rfl⟩
      (by decide) 100400 rfl (by decide)
    exact absurd apart (by decide)
  · exact recentConfirmed_of_receipts (by simp [SyncCall.confirms, syncAt, confirmedWait]) split
  · have apart := spaced [_, _] _ [] rfl _ 6 101000 6
      ⟨rfl, 0, sentAtNonce 6, by decide, rfl, rfl, rfl⟩ _ List.mem_cons_self _ 5 100000 5
      ⟨rfl, 0, sentAtNonce 5, by decide, rfl, rfl, rfl⟩ (by decide) 100400 rfl (by decide)
    exact absurd apart (by decide)

end V3Keeper
