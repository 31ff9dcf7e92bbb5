import V3Keeper.Exits.Quorums
import V3Keeper.Main.Loop

/-!
Whatever the other tasks of a round do between the halves of a call, its outcome is the one that
its service has in the history of its own calls. The transactions belong to the calls: a price call
is given the manager as the others left it, the other calls what their transactions come to.
-/

namespace V3Keeper

open Python StepRun Lts Component

variable {κ τ ρ G : Type}

namespace Returned

def configCall : Returned κ τ ρ → Option (ConfigCall κ × Except PyError ProtocolConfig)
  | .config call result => some (call, result)
  | _ => none

def rewardsCall : Returned κ τ ρ → Option (RewardsAsked τ ρ × RewardsOutcome τ ρ)
  | .rewards asked outcome => some (asked, outcome)
  | _ => none

def exitsCall : Returned κ τ ρ → Option (ExitsAsked × ExitsOutcome)
  | .exits asked outcome => some (asked, outcome)
  | _ => none

def distributorCall : Returned κ τ ρ → Option (DistributorAsked τ ρ × DistributorOutcome τ ρ)
  | .distributor asked outcome => some (asked, outcome)
  | _ => none

def priceCall : Returned κ τ ρ → Option (PriceAsked × PriceOutcome)
  | .price asked outcome => some (asked, outcome)
  | _ => none

def forceExitsCall : Returned κ τ ρ → Option (ForceExitsCall × ForceExitsOutcome)
  | .forceExits call outcome => some (call, outcome)
  | _ => none

def ltvCall : Returned κ τ ρ → Option (LtvCall × LtvOutcome)
  | .ltv call outcome => some (call, outcome)
  | _ => none

end Returned

section Selection

variable {ι γ : Type} {select : Returned κ τ ρ → Option γ}

theorem selected_own {calls : List γ} {returns : γ → Returned κ τ ρ}
    (own : ∀ call, select (returns call) = some call) :
    (calls.map returns).filterMap select = calls := by
  have same : select ∘ returns = some := funext own
  rw [List.filterMap_map, same]
  exact List.filterMap_some

theorem selected_other {calls : List ι} {returns : ι → Returned κ τ ρ}
    (others : ∀ call, select (returns call) = none) :
    (calls.map returns).filterMap select = [] := by
  rw [List.filterMap_map]
  exact List.filterMap_eq_nil_iff.mpr fun call _ => others call

end Selection

def AppState.priceOnly (state : AppState) : AppState :=
  { lastPriceUpdatedTimestamp := state.lastPriceUpdatedTimestamp }

def AppState.forceExitsOnly (state : AppState) : AppState :=
  { forceExitsUpdatedTimestamp := state.forceExitsUpdatedTimestamp }

def AppState.ltvOnly (state : AppState) : AppState :=
  { ltvUpdatedTimestamp := state.ltvUpdatedTimestamp }

section Frames

theorem resetPriceUpdate_priceOnly (state : AppState) :
    state.priceOnly.resetPriceUpdate = state.resetPriceUpdate.priceOnly := by
  unfold AppState.resetPriceUpdate AppState.priceOnly
  split <;> simp_all

theorem resetPriceUpdate_leaves (state : AppState) :
    state.resetPriceUpdate.forceExitsOnly = state.forceExitsOnly ∧
      state.resetPriceUpdate.ltvOnly = state.ltvOnly := by
  unfold AppState.resetPriceUpdate
  split <;> exact ⟨rfl, rfl⟩

theorem priceHalves_respects (settings : PriceSettings) :
    (priceHalves settings).Respects AppState.priceOnly where
  first state asked := by
    simp only [priceHalves]
    split
    case h_1 => rfl
    case h_2 =>
      split
      case isTrue => rfl
      case isFalse =>
        have marker : state.priceOnly.lastPriceUpdatedTimestamp =
          state.lastPriceUpdatedTimestamp := rfl
        rw [marker, resetPriceUpdate_priceOnly]
        split <;> rfl
  second state asked _ := by
    simp only [priceHalves, syncPrice]
    split
    case h_1 => rfl
    case h_2 => split <;> rfl

theorem priceHalves_leaves (settings : PriceSettings) : (priceHalves settings).Leaves
    fun state : AppState => (state.forceExitsOnly, state.ltvOnly) where
  first state asked := by
    simp only [priceHalves]
    split
    case h_1 => rfl
    case h_2 =>
      split
      case isTrue => rfl
      case isFalse =>
        split
        case isTrue => rfl
        case isFalse => rw [(resetPriceUpdate_leaves state).1, (resetPriceUpdate_leaves state).2]
  second state asked _ := by
    simp only [priceHalves, syncPrice]
    split
    case h_1 => rfl
    case h_2 => split <;> rfl

theorem forceExitsHalves_respects (settings : ForceExitSettings) :
    (forceExitsHalves settings).Respects AppState.forceExitsOnly where
  first state call := by
    have timestamp : state.forceExitsOnly.forceExitsUpdatedTimestamp =
      state.forceExitsUpdatedTimestamp := rfl
    simp only [forceExitsHalves, timestamp]
    split <;> rfl
  second state call _ := by
    simp only [forceExitsHalves]
    split <;> rfl

theorem forceExitsHalves_leaves (settings : ForceExitSettings) :
    (forceExitsHalves settings).Leaves fun state : AppState =>
      (state.priceOnly, state.ltvOnly) where
  first state call := by
    simp only [forceExitsHalves]
    split <;> rfl
  second state call _ := by
    simp only [forceExitsHalves]
    split <;> rfl

theorem ltvHalves_respects (settings : LtvSettings) :
    (ltvHalves settings).Respects AppState.ltvOnly where
  first state call := by
    have timestamp : state.ltvOnly.ltvUpdatedTimestamp = state.ltvUpdatedTimestamp := rfl
    simp only [ltvHalves, timestamp]
    split <;> rfl
  second state call _ := by
    simp only [ltvHalves]
    split <;> rfl

theorem ltvHalves_leaves (settings : LtvSettings) : (ltvHalves settings).Leaves
    fun state : AppState => (state.priceOnly, state.forceExitsOnly) where
  first state call := by
    simp only [ltvHalves]
    split <;> rfl
  second state call _ := by
    simp only [ltvHalves]
    split <;> rfl

end Frames

structure Round.Idle (round : Round τ ρ) : Prop where
  rewards : round.rewards.call = none
  exits : round.exits.call = none
  distributor : round.distributor.call = none
  price : round.price.call = none
  forceExits : round.forceExits.call = none
  ltv : round.ltv.call = none

@[simp] theorem taskIf_call {ι μ : Type} (chosen : Bool) :
    (taskIf chosen : Status ι μ).call = none := by cases chosen <;> rfl

theorem LoopSettings.round_idle (settings : LoopSettings) (config : ProtocolConfig) :
    (settings.round config : Round τ ρ).Idle where
  rewards := rfl
  exits := rfl
  distributor := taskIf_call _
  price := taskIf_call _
  forceExits := taskIf_call _
  ltv := taskIf_call _

structure Round.Ended (round : Round τ ρ) : Prop where
  rewards : round.rewards.isEnded = true
  exits : round.exits.isEnded = true
  distributor : round.distributor.isEnded = true
  price : round.price.isEnded = true
  forceExits : round.forceExits.isEnded = true
  ltv : round.ltv.isEnded = true

theorem Round.over_ended {round : Round τ ρ} (ended : round.over = true) : round.Ended := by
  simp only [Round.over, Bool.and_eq_true] at ended
  obtain ⟨⟨⟨⟨⟨rewards, exits⟩, distributor⟩, price⟩, forceExits⟩, ltv⟩ := ended
  exact ⟨rewards, exits, distributor, price, forceExits, ltv⟩

theorem Round.Ended.idle {round : Round τ ρ} (ended : round.Ended) : round.Idle where
  rewards := Status.call_of_isEnded ended.rewards
  exits := Status.call_of_isEnded ended.exits
  distributor := Status.call_of_isEnded ended.distributor
  price := Status.call_of_isEnded ended.price
  forceExits := Status.call_of_isEnded ended.forceExits
  ltv := Status.call_of_isEnded ended.ltv

theorem afterStartup_stays {result : Except PyError ProtocolConfig} {round : Round τ ρ}
    (entered : afterStartup result = .gathering round) : False := by
  cases result <;> cases entered

theorem LoopSettings.next_opens {settings : LoopSettings} {result : Except PyError ProtocolConfig}
    {round : Round τ ρ} (entered : settings.next result = .gathering round) :
    ∃ config, result = .ok config ∧ config.oracles ≠ [] ∧ round = settings.round config := by
  unfold LoopSettings.next at entered
  split at entered
  case h_1 => cases entered
  case h_2 config =>
    split at entered
    case isTrue => cases entered
    case isFalse some =>
      cases entered
      exact ⟨config, rfl, by simpa using some, rfl⟩

section State

variable [BEq τ] [BEq ρ]

namespace Keeper

def round (keeper : Keeper κ τ ρ) : Option (Round τ ρ) :=
  match keeper.phase with
  | .gathering round => some round
  | _ => none

variable (keeper : Keeper κ τ ρ)

def slice {σ ι μ : Type} (state : σ) (status : Round τ ρ → Status ι μ) : Slice σ ι μ :=
  ⟨state, keeper.round.bind fun round => (status round).call⟩

def configSlice : Slice (OraclesCache κ) (ConfigCall κ) Unit := ⟨keeper.oraclesCache, none⟩

def rewardsSlice : Slice (RewardsCache τ ρ) (RewardsAsked τ ρ) (RewardsSubmission τ ρ) :=
  keeper.slice keeper.rewardsCache Round.rewards

def exitsSlice : Slice Unit ExitsAsked Unit := keeper.slice () Round.exits

def distributorSlice : Slice Unit (DistributorAsked τ ρ) Unit := keeper.slice () Round.distributor

def priceSlice : Slice AppState PriceAsked Unit :=
  keeper.slice keeper.appState.priceOnly Round.price

def forceExitsSlice : Slice AppState ForceExitsCall Unit :=
  keeper.slice keeper.appState.forceExitsOnly Round.forceExits

def ltvSlice : Slice AppState LtvCall Unit := keeper.slice keeper.appState.ltvOnly Round.ltv

end Keeper

def Keeper.Idle (keeper : Keeper κ τ ρ) : Prop := ∀ round, keeper.round = some round → round.Idle

theorem Keeper.Idle.slice {keeper : Keeper κ τ ρ} (idle : keeper.Idle) {σ ι μ : Type} (state : σ)
    {status : Round τ ρ → Status ι μ}
    (none : ∀ round : Round τ ρ, round.Idle → (status round).call = none) :
    keeper.slice state status = ⟨state, Option.none⟩ := by
  have halfway := Option.bind_eq_none_iff.mpr fun round inRound => none round (idle round inRound)
  rw [Keeper.slice, halfway]

@[simp] theorem Keeper.round_inRound (keeper : Keeper κ τ ρ) (round : Round τ ρ) :
    (keeper.inRound round).round = some round := rfl

theorem Keeper.round_eq_some {keeper : Keeper κ τ ρ} {round : Round τ ρ} :
    keeper.round = some round ↔ keeper.phase = .gathering round := by
  rw [Keeper.round]
  split
  case h_1 other inRound => rw [inRound, Option.some.injEq, MainPhase.gathering.injEq]
  case h_2 outside => simpa using outside round

theorem Keeper.round_eq_none {keeper : Keeper κ τ ρ}
    (outside : ∀ round, keeper.phase ≠ .gathering round) : keeper.round = none :=
  Option.eq_none_iff_forall_not_mem.mpr fun round inRound =>
    outside round (Keeper.round_eq_some.mp inRound)

theorem Keeper.idle_of_none {keeper : Keeper κ τ ρ} (outside : keeper.round = none) :
    keeper.Idle := by
  intro round inRound
  rw [outside] at inRound
  cases inRound

/-- What happens outside of a round: only the config service moves, and the round that it may
open is that of the config it returns. -/
structure Between (settings : MainSettings) (build : κ → Nat → Except PyError ProtocolConfig)
    (keeper : Keeper κ τ ρ) (turn : Turn κ τ ρ) : Prop where
  config : Moves (Halves.undivided (getProtocolConfig settings.config build)) keeper.configSlice
    (turn.2.filterMap Returned.configCall) turn.1.configSlice
  calls : ∀ call ∈ turn.2, ∃ asked result, call = .config asked result
  rewardsCache : turn.1.rewardsCache = keeper.rewardsCache
  appState : turn.1.appState = keeper.appState
  before : keeper.Idle
  after : turn.1.Idle
  entered : ∀ round, turn.1.round = some round →
    round.config.oracles ≠ [] ∧ ∃ call, turn.2 = [.config call (.ok round.config)]

section Slices

variable {settings : MainSettings} {build : κ → Nat → Except PyError ProtocolConfig}
  {keeper later : Keeper κ τ ρ} {turn : Turn κ τ ρ} {round next : Round τ ρ}

theorem left_between {keeper : Keeper κ τ ρ} {phase : MainPhase τ ρ} (idle : keeper.Idle)
    (left : ∀ round, phase ≠ .gathering round) :
    Between settings build keeper ({ keeper with phase := phase }, []) where
  config := .idle _
  calls := by simp
  rewardsCache := rfl
  appState := rfl
  before := idle
  after := Keeper.idle_of_none (Keeper.round_eq_none left)
  entered round inRound := by
    rw [Keeper.round_eq_none left] at inRound
    cases inRound

theorem readConfig_between {keeper : Keeper κ τ ρ} (outside : keeper.round = none)
    (call : ConfigCall κ) {next : Except PyError ProtocolConfig → MainPhase τ ρ}
    (opens : ∀ result round, next result = .gathering round →
      ∃ config, result = .ok config ∧ config.oracles ≠ [] ∧ round = settings.loop.round config) :
    Between settings build keeper (readConfig settings build keeper call next) := by
  have opened : ∀ round, (readConfig settings build keeper call next).1.round = some round →
      ∃ config, (getProtocolConfig settings.config build keeper.oraclesCache call).1 =
        .ok config ∧ config.oracles ≠ [] ∧ round = settings.loop.round config :=
    fun round inRound => opens _ round (Keeper.round_eq_some.mp inRound)
  constructor
  case config => exact .ends keeper.oraclesCache call _ _ rfl
  case calls => simp [readConfig]
  case rewardsCache => rfl
  case appState => rfl
  case before => exact Keeper.idle_of_none outside
  case after =>
    intro round inRound
    obtain ⟨config, -, -, rfl⟩ := opened round inRound
    exact settings.loop.round_idle config
  case entered =>
    intro round inRound
    obtain ⟨config, read, some, rfl⟩ := opened round inRound
    refine ⟨some, call, ?_⟩
    rw [readConfig, read]
    rfl

variable {σ ι μ ο : Type} {service : σ → ι → ο × σ} {halves : Halves service μ}
  {before after : σ} {status : Round τ ρ → Status ι μ} {select : Returned κ τ ρ → Option (ι × ο)}

theorem Between.slice (between : Between settings build keeper turn) (state : after = before)
    (idle : ∀ round : Round τ ρ, round.Idle → (status round).call = none)
    (others : ∀ asked result, select (.config asked result) = none) :
    Moves halves (keeper.slice before status) (turn.2.filterMap select)
      (turn.1.slice after status) := by
  refine Moves.unmoved (List.filterMap_eq_nil_iff.mpr fun call member => ?_) ?_
  · obtain ⟨asked, result, rfl⟩ := between.calls call member
    exact others asked result
  · rw [between.after.slice after idle, between.before.slice before idle, state]

theorem moves_inRound {calls : List (ι × ο)} {returns : ι × ο → Returned κ τ ρ}
    (inRound : keeper.round = some round)
    (moves : Moves halves ⟨before, (status round).call⟩ calls ⟨after, (status next).call⟩)
    (own : ∀ call, select (returns call) = some call) :
    Moves halves (keeper.slice before status) ((calls.map returns).filterMap select)
      ((later.inRound next).slice after status) := by
  rw [Keeper.slice, inRound, selected_own own]
  exact moves

theorem unmoved_inRound {γ : Type} {calls : List γ} {returns : γ → Returned κ τ ρ}
    (inRound : keeper.round = some round) (state : after = before)
    (kept : status next = status round) (others : ∀ call, select (returns call) = none) :
    Moves halves (keeper.slice before status) ((calls.map returns).filterMap select)
      ((later.inRound next).slice after status) := by
  refine Moves.unmoved (selected_other others) ?_
  rw [Keeper.slice, Keeper.slice, inRound, Keeper.round_inRound, Option.bind_some,
    Option.bind_some, kept, state]

end Slices

end State

section Turns

variable [BEq τ] [BEq ρ] [PyOrder τ] [PyText ρ] {settings : MainSettings}
  {build : κ → Nat → Except PyError ProtocolConfig} {curve : Curve G}

inductive TaskMoves (settings : MainSettings) (curve : Curve G) (keeper : Keeper κ τ ρ) :
    Turn κ τ ρ → Prop
  | rewards (round : Round τ ρ) (inRound : keeper.round = some round)
      (moved : Moved (RewardsCache τ ρ) (RewardsAsked τ ρ) (RewardsSubmission τ ρ)
        (RewardsOutcome τ ρ))
      (turns : rewardsHalves.Turns round.rewards keeper.rewardsCache
        (fun asked => asked.1 = round.config) moved) :
      TaskMoves settings curve keeper (keeper.rewardsMoved round moved)
  | exits (round : Round τ ρ) (inRound : keeper.round = some round)
      (moved : Moved Unit ExitsAsked Unit ExitsOutcome) (input : ExitsInput)
      (started : (Halves.undivided (exitsService settings.exits curve)).start round.exits ()
        (round.config, input) = some moved) :
      TaskMoves settings curve keeper (keeper.exitsMoved round moved)
  | distributor (round : Round τ ρ) (inRound : keeper.round = some round)
      (moved : Moved Unit (DistributorAsked τ ρ) Unit (DistributorOutcome τ ρ))
      (input : DistributorInput τ ρ)
      (started : (Halves.undivided distributorService).start round.distributor ()
        (round.config, input) = some moved) :
      TaskMoves settings curve keeper (keeper.distributorMoved round moved)
  | price (round : Round τ ρ) (inRound : keeper.round = some round)
      (moved : Moved AppState PriceAsked Unit PriceOutcome)
      (turns : (priceHalves settings.price).Turns round.price keeper.appState (fun _ => True)
        moved) :
      TaskMoves settings curve keeper (keeper.priceMoved round moved)
  | forceExits (round : Round τ ρ) (inRound : keeper.round = some round)
      (moved : Moved AppState ForceExitsCall Unit ForceExitsOutcome)
      (turns : (forceExitsHalves settings.forceExits).Turns round.forceExits keeper.appState
        (fun _ => True) moved) :
      TaskMoves settings curve keeper (keeper.forceExitsMoved round moved)
  | ltv (round : Round τ ρ) (inRound : keeper.round = some round)
      (moved : Moved AppState LtvCall Unit LtvOutcome)
      (turns : (ltvHalves settings.ltv).Turns round.ltv keeper.appState (fun _ => True) moved) :
      TaskMoves settings curve keeper (keeper.ltvMoved round moved)

inductive TurnMoves (settings : MainSettings) (build : κ → Nat → Except PyError ProtocolConfig)
    (curve : Curve G) (keeper : Keeper κ τ ρ) : MainAction κ τ ρ → Turn κ τ ρ → Prop
  | stops (error : PyError) (call : ConfigCall κ) (starting : keeper.phase = .starting) :
      TurnMoves settings build curve keeper (.startup (.error error) call)
        ({ keeper with phase := .stopped }, [])
  | startsUp (call : ConfigCall κ) (starting : keeper.phase = .starting) :
      TurnMoves settings build curve keeper (.startup (.ok ()) call)
        (readConfig settings build keeper call afterStartup)
  | reads (call : ConfigCall κ) (sleeping : keeper.phase = .sleeping) :
      TurnMoves settings build curve keeper (.readConfig call)
        (readConfig settings build keeper call settings.loop.next)
  | starts (input : TaskInput τ ρ) (turn : Turn κ τ ρ)
      (moves : TaskMoves settings curve keeper turn) :
      TurnMoves settings build curve keeper (.start input) turn
  | finishes (task : HalfwayTask) (turn : Turn κ τ ρ)
      (moves : TaskMoves settings curve keeper turn) :
      TurnMoves settings build curve keeper (.finish task) turn
  | gathered (round : Round τ ρ) (inRound : keeper.round = some round)
      (ended : round.over = true) :
      TurnMoves settings build curve keeper .gathered ({ keeper with phase := .sleeping }, [])

theorem startTask_moves {keeper : Keeper κ τ ρ} {round : Round τ ρ}
    (inRound : keeper.round = some round) {input : TaskInput τ ρ} {turn : Turn κ τ ρ}
    (started : startTask settings curve keeper round input = some turn) :
    TaskMoves settings curve keeper turn := by
  cases input with
  | rewards input =>
      obtain ⟨moved, half, rfl⟩ := Option.map_eq_some_iff.mp started
      exact .rewards round inRound moved (Or.inl ⟨_, rfl, half⟩)
  | exits input =>
      obtain ⟨moved, half, rfl⟩ := Option.map_eq_some_iff.mp started
      exact .exits round inRound moved input half
  | distributor input =>
      obtain ⟨moved, half, rfl⟩ := Option.map_eq_some_iff.mp started
      exact .distributor round inRound moved input half
  | price manager call =>
      obtain ⟨moved, half, rfl⟩ := Option.map_eq_some_iff.mp started
      exact .price round inRound moved (Or.inl ⟨_, trivial, half⟩)
  | forceExits call =>
      obtain ⟨moved, half, rfl⟩ := Option.map_eq_some_iff.mp started
      exact .forceExits round inRound moved (Or.inl ⟨_, trivial, half⟩)
  | ltv call =>
      obtain ⟨moved, half, rfl⟩ := Option.map_eq_some_iff.mp started
      exact .ltv round inRound moved (Or.inl ⟨_, trivial, half⟩)

theorem finishTask_moves {keeper : Keeper κ τ ρ} {round : Round τ ρ}
    (inRound : keeper.round = some round) {task : HalfwayTask} {turn : Turn κ τ ρ}
    (finished : finishTask settings keeper round task = some turn) :
    TaskMoves settings curve keeper turn := by
  cases task with
  | rewards =>
      obtain ⟨moved, half, rfl⟩ := Option.map_eq_some_iff.mp finished
      exact .rewards round inRound moved (Or.inr half)
  | price =>
      obtain ⟨moved, half, rfl⟩ := Option.map_eq_some_iff.mp finished
      exact .price round inRound moved (Or.inr half)
  | forceExits =>
      obtain ⟨moved, half, rfl⟩ := Option.map_eq_some_iff.mp finished
      exact .forceExits round inRound moved (Or.inr half)
  | ltv =>
      obtain ⟨moved, half, rfl⟩ := Option.map_eq_some_iff.mp finished
      exact .ltv round inRound moved (Or.inr half)

theorem mainTurn_moves {keeper : Keeper κ τ ρ} {action : MainAction κ τ ρ} {turn : Turn κ τ ρ}
    (taken : mainTurn settings build curve keeper action = some turn) :
    TurnMoves settings build curve keeper action turn := by
  unfold mainTurn at taken
  split at taken
  case h_1 error call starting =>
    cases taken
    exact .stops error call starting
  case h_2 call starting =>
    cases taken
    exact .startsUp call starting
  case h_3 call sleeping =>
    cases taken
    exact .reads call sleeping
  case h_4 round input gathering =>
    exact .starts input turn (startTask_moves (Keeper.round_eq_some.mpr gathering) taken)
  case h_5 round task gathering =>
    exact .finishes task turn (finishTask_moves (Keeper.round_eq_some.mpr gathering) taken)
  case h_6 round gathering =>
    split at taken
    case isTrue ended =>
      cases taken
      exact .gathered round (Keeper.round_eq_some.mpr gathering) ended
    case isFalse => cases taken
  case h_7 => cases taken

theorem TurnMoves.parts {keeper : Keeper κ τ ρ} {action : MainAction κ τ ρ} {turn : Turn κ τ ρ}
    (moves : TurnMoves settings build curve keeper action turn) :
    Between settings build keeper turn ∨ TaskMoves settings curve keeper turn := by
  cases moves
  case stops starting =>
    have outside : keeper.round = none := Keeper.round_eq_none (by simp [starting])
    exact Or.inl (left_between (Keeper.idle_of_none outside) (by simp))
  case startsUp call starting =>
    have outside : keeper.round = none := Keeper.round_eq_none (by simp [starting])
    exact Or.inl (readConfig_between outside call fun _ _ entered =>
      (afterStartup_stays entered).elim)
  case reads call sleeping =>
    have outside : keeper.round = none := Keeper.round_eq_none (by simp [sleeping])
    exact Or.inl (readConfig_between outside call fun _ _ entered =>
      LoopSettings.next_opens entered)
  case starts moves => exact Or.inr moves
  case finishes moves => exact Or.inr moves
  case gathered round inRound ended =>
    refine Or.inl (left_between (fun other same => ?_) (by simp))
    rw [inRound] at same
    cases same
    exact (Round.over_ended ended).idle

section Tasks

variable {keeper : Keeper κ τ ρ} {action : MainAction κ τ ρ} {turn : Turn κ τ ρ}

theorem TaskMoves.no_configCalls (moves : TaskMoves settings curve keeper turn) :
    turn.2.filterMap Returned.configCall = [] := by
  cases moves <;> exact selected_other fun _ => rfl

theorem TurnMoves.configSlice (moves : TurnMoves settings build curve keeper action turn) :
    Moves (Halves.undivided (getProtocolConfig settings.config build)) keeper.configSlice
      (turn.2.filterMap Returned.configCall) turn.1.configSlice := by
  rcases moves.parts with between | moves
  · exact between.config
  · refine .unmoved moves.no_configCalls ?_
    cases moves <;> rfl

theorem TurnMoves.rewardsSlice (moves : TurnMoves settings build curve keeper action turn) :
    Moves rewardsHalves keeper.rewardsSlice
      (turn.2.filterMap Returned.rewardsCall) turn.1.rewardsSlice := by
  rcases moves.parts with between | moves
  · exact between.slice between.rewardsCache (fun _ idle => idle.rewards) fun _ _ => rfl
  · cases moves
    case rewards round inRound moved turns =>
      exact moves_inRound inRound turns.moves fun _ => rfl
    case exits round inRound moved input started =>
      exact unmoved_inRound inRound rfl rfl fun _ => rfl
    case distributor round inRound moved input started =>
      exact unmoved_inRound inRound rfl rfl fun _ => rfl
    case price round inRound moved turns =>
      exact unmoved_inRound inRound rfl rfl fun _ => rfl
    case forceExits round inRound moved turns =>
      exact unmoved_inRound inRound rfl rfl fun _ => rfl
    case ltv round inRound moved turns =>
      exact unmoved_inRound inRound rfl rfl fun _ => rfl

theorem TurnMoves.exitsSlice (moves : TurnMoves settings build curve keeper action turn) :
    Moves (Halves.undivided (exitsService settings.exits curve)) keeper.exitsSlice
      (turn.2.filterMap Returned.exitsCall) turn.1.exitsSlice := by
  rcases moves.parts with between | moves
  · exact between.slice rfl (fun _ idle => idle.exits) fun _ _ => rfl
  · cases moves
    case rewards round inRound moved turns =>
      exact unmoved_inRound inRound rfl rfl fun _ => rfl
    case exits round inRound moved input started =>
      exact moves_inRound inRound (Halves.start_moves started) fun _ => rfl
    case distributor round inRound moved input started =>
      exact unmoved_inRound inRound rfl rfl fun _ => rfl
    case price round inRound moved turns =>
      exact unmoved_inRound inRound rfl rfl fun _ => rfl
    case forceExits round inRound moved turns =>
      exact unmoved_inRound inRound rfl rfl fun _ => rfl
    case ltv round inRound moved turns =>
      exact unmoved_inRound inRound rfl rfl fun _ => rfl

theorem TurnMoves.distributorSlice (moves : TurnMoves settings build curve keeper action turn) :
    Moves (Halves.undivided distributorService) keeper.distributorSlice
      (turn.2.filterMap Returned.distributorCall) turn.1.distributorSlice := by
  rcases moves.parts with between | moves
  · exact between.slice rfl (fun _ idle => idle.distributor) fun _ _ => rfl
  · cases moves
    case rewards round inRound moved turns =>
      exact unmoved_inRound inRound rfl rfl fun _ => rfl
    case exits round inRound moved input started =>
      exact unmoved_inRound inRound rfl rfl fun _ => rfl
    case distributor round inRound moved input started =>
      exact moves_inRound inRound (Halves.start_moves started) fun _ => rfl
    case price round inRound moved turns =>
      exact unmoved_inRound inRound rfl rfl fun _ => rfl
    case forceExits round inRound moved turns =>
      exact unmoved_inRound inRound rfl rfl fun _ => rfl
    case ltv round inRound moved turns =>
      exact unmoved_inRound inRound rfl rfl fun _ => rfl

theorem TurnMoves.priceSlice (moves : TurnMoves settings build curve keeper action turn) :
    Moves (priceHalves settings.price) keeper.priceSlice
      (turn.2.filterMap Returned.priceCall) turn.1.priceSlice := by
  rcases moves.parts with between | moves
  · have kept := congrArg AppState.priceOnly between.appState
    exact between.slice kept (fun _ idle => idle.price) fun _ _ => rfl
  · cases moves
    case rewards round inRound moved turns =>
      exact unmoved_inRound inRound rfl rfl fun _ => rfl
    case exits round inRound moved input started =>
      exact unmoved_inRound inRound rfl rfl fun _ => rfl
    case distributor round inRound moved input started =>
      exact unmoved_inRound inRound rfl rfl fun _ => rfl
    case price round inRound moved turns =>
      exact moves_inRound inRound (turns.moves.view (priceHalves_respects _)) fun _ => rfl
    case forceExits round inRound moved turns =>
      have left := turns.moves.leaves (forceExitsHalves_leaves _)
      exact unmoved_inRound inRound (congrArg Prod.fst left) rfl fun _ => rfl
    case ltv round inRound moved turns =>
      have left := turns.moves.leaves (ltvHalves_leaves _)
      exact unmoved_inRound inRound (congrArg Prod.fst left) rfl fun _ => rfl

theorem TurnMoves.forceExitsSlice (moves : TurnMoves settings build curve keeper action turn) :
    Moves (forceExitsHalves settings.forceExits) keeper.forceExitsSlice
      (turn.2.filterMap Returned.forceExitsCall) turn.1.forceExitsSlice := by
  rcases moves.parts with between | moves
  · have kept := congrArg AppState.forceExitsOnly between.appState
    exact between.slice kept (fun _ idle => idle.forceExits) fun _ _ => rfl
  · cases moves
    case rewards round inRound moved turns =>
      exact unmoved_inRound inRound rfl rfl fun _ => rfl
    case exits round inRound moved input started =>
      exact unmoved_inRound inRound rfl rfl fun _ => rfl
    case distributor round inRound moved input started =>
      exact unmoved_inRound inRound rfl rfl fun _ => rfl
    case price round inRound moved turns =>
      have left := turns.moves.leaves (priceHalves_leaves _)
      exact unmoved_inRound inRound (congrArg Prod.fst left) rfl fun _ => rfl
    case forceExits round inRound moved turns =>
      exact moves_inRound inRound (turns.moves.view (forceExitsHalves_respects _)) fun _ => rfl
    case ltv round inRound moved turns =>
      have left := turns.moves.leaves (ltvHalves_leaves _)
      exact unmoved_inRound inRound (congrArg Prod.snd left) rfl fun _ => rfl

theorem TurnMoves.ltvSlice (moves : TurnMoves settings build curve keeper action turn) :
    Moves (ltvHalves settings.ltv) keeper.ltvSlice
      (turn.2.filterMap Returned.ltvCall) turn.1.ltvSlice := by
  rcases moves.parts with between | moves
  · have kept := congrArg AppState.ltvOnly between.appState
    exact between.slice kept (fun _ idle => idle.ltv) fun _ _ => rfl
  · cases moves
    case rewards round inRound moved turns =>
      exact unmoved_inRound inRound rfl rfl fun _ => rfl
    case exits round inRound moved input started =>
      exact unmoved_inRound inRound rfl rfl fun _ => rfl
    case distributor round inRound moved input started =>
      exact unmoved_inRound inRound rfl rfl fun _ => rfl
    case price round inRound moved turns =>
      have left := turns.moves.leaves (priceHalves_leaves _)
      exact unmoved_inRound inRound (congrArg Prod.snd left) rfl fun _ => rfl
    case forceExits round inRound moved turns =>
      have left := turns.moves.leaves (forceExitsHalves_leaves _)
      exact unmoved_inRound inRound (congrArg Prod.snd left) rfl fun _ => rfl
    case ltv round inRound moved turns =>
      exact moves_inRound inRound (turns.moves.view (ltvHalves_respects _)) fun _ => rfl

end Tasks

/-- Every service has run on the calls made of it as it does from its state at the start of the
process, each call with its own reads and transactions. -/
structure RunsServices [Inhabited κ] (settings : MainSettings)
    (build : κ → Nat → Except PyError ProtocolConfig) (curve : Curve G)
    (calls : List (Returned κ τ ρ)) (keeper : Keeper κ τ ρ) : Prop where
  config : RunsAlone (Halves.undivided (getProtocolConfig settings.config build))
    OraclesCache.initial (calls.filterMap Returned.configCall) keeper.configSlice
  rewards : RunsAlone rewardsHalves (RewardsCache.new defaultCacheSize)
    (calls.filterMap Returned.rewardsCall) keeper.rewardsSlice
  exits : RunsAlone (Halves.undivided (exitsService settings.exits curve)) ()
    (calls.filterMap Returned.exitsCall) keeper.exitsSlice
  distributor : RunsAlone (Halves.undivided distributorService) ()
    (calls.filterMap Returned.distributorCall) keeper.distributorSlice
  price : RunsAlone (priceHalves settings.price) {}
    (calls.filterMap Returned.priceCall) keeper.priceSlice
  forceExits : RunsAlone (forceExitsHalves settings.forceExits) {}
    (calls.filterMap Returned.forceExitsCall) keeper.forceExitsSlice
  ltv : RunsAlone (ltvHalves settings.ltv) {}
    (calls.filterMap Returned.ltvCall) keeper.ltvSlice

theorem mainStep_moves {keeper next : Keeper κ τ ρ} {action : MainAction κ τ ρ}
    (stepped : mainStep settings build curve keeper action = some next) :
    TurnMoves settings build curve keeper action
      (next, returned settings build curve keeper action) := by
  obtain ⟨turn, taken, rfl⟩ := Option.map_eq_some_iff.mp stepped
  rw [returned, taken]
  exact mainTurn_moves taken

def callsOf [Inhabited κ] (settings : MainSettings)
    (build : κ → Nat → Except PyError ProtocolConfig) (curve : Curve G)
    (actions : List (MainAction κ τ ρ)) : List (Returned κ τ ρ) :=
  observe (mainStep settings build curve) (returned settings build curve) Keeper.initial actions

theorem runsAlone_slice [Inhabited κ] {σ ι μ ο : Type} {service : σ → ι → ο × σ}
    {halves : Halves service μ} (slice : Keeper κ τ ρ → Slice σ ι μ)
    {select : Returned κ τ ρ → Option (ι × ο)}
    (moves : ∀ {keeper : Keeper κ τ ρ} {action : MainAction κ τ ρ} {turn : Turn κ τ ρ},
      TurnMoves settings build curve keeper action turn →
        Moves halves (slice keeper) (turn.2.filterMap select) (slice turn.1))
    (idle : (slice Keeper.initial).underway = none)
    {actions : List (MainAction κ τ ρ)} {keeper : Keeper κ τ ρ}
    (reached : run (mainStep settings build curve) Keeper.initial actions = some keeper) :
    RunsAlone halves (slice Keeper.initial).state
      ((callsOf settings build curve actions).filterMap select) (slice keeper) := by
  have stepMoves : ∀ (keeper : Keeper κ τ ρ) action next,
      mainStep settings build curve keeper action = some next →
        Moves halves (slice keeper) ((returned settings build curve keeper action).filterMap select)
          (slice next) := fun _ _ _ stepped => moves (mainStep_moves stepped)
  rw [callsOf, observe_filterMap]
  exact runsAlone stepMoves idle reached

/-- Under every interleaving of the halves of its calls, the services of a keeper return what they
return on their own calls, and none of them finds its state changed by another one. -/
theorem keeper_runs_services [Inhabited κ] (settings : MainSettings)
    (build : κ → Nat → Except PyError ProtocolConfig) (curve : Curve G)
    (actions : List (MainAction κ τ ρ)) (keeper : Keeper κ τ ρ)
    (reached : run (mainStep settings build curve) Keeper.initial actions = some keeper) :
    RunsServices settings build curve (callsOf settings build curve actions) keeper where
  config := runsAlone_slice Keeper.configSlice TurnMoves.configSlice rfl reached
  rewards := runsAlone_slice Keeper.rewardsSlice TurnMoves.rewardsSlice rfl reached
  exits := runsAlone_slice Keeper.exitsSlice TurnMoves.exitsSlice rfl reached
  distributor := runsAlone_slice Keeper.distributorSlice TurnMoves.distributorSlice rfl reached
  price := runsAlone_slice Keeper.priceSlice TurnMoves.priceSlice rfl reached
  forceExits := runsAlone_slice Keeper.forceExitsSlice TurnMoves.forceExitsSlice rfl reached
  ltv := runsAlone_slice Keeper.ltvSlice TurnMoves.ltvSlice rfl reached

end Turns

def forceExitsSettings : MainSettings where
  loop :=
    { network := "mainnet"
      osethPriceSupportedNetworks := ["mainnet", "sepolia"]
      forceExitsSupportedNetworks := ["mainnet", "hoodi"]
      skipDistributorRewards := true
      skipOsethPriceUpdate := true
      skipForceExits := false
      skipUpdateLtv := true }
  config := ⟨10, 5, ⟨43200, 12, 10⟩⟩
  exits :=
    { exitedStatuses := ["active_exiting"], validatorsFetchChunkSize := 100
      reader := { isFloat := fun _ => false, toBytes := fun _ => .ok [] } }
  price := ⟨43200, 3600, 1, ⟨100 * 10 ^ 9, 5⟩⟩
  forceExits := ⟨21600, "https://graph", fun _ => .ok "0x"⟩
  ltv := ⟨21600, "https://graph"⟩

def oneOracle (_ : String) (rewardsThreshold : Nat) : Except PyError ProtocolConfig :=
  .ok ⟨[⟨⟨"0x01", .ofDigit '8' rfl⟩, ["https://oracle"]⟩], rewardsThreshold, 1⟩

def twoConfigs : List ConfigUpdated := [⟨5, "first"⟩, ⟨12, "second"⟩]

def readsConfigs (toBlock : Int) : ConfigCall String where
  finalizedBlock := .ok toBlock
  getLogs := fun fromBlock toBlock =>
    .ok (EventLog.between ConfigUpdated.blockNumber fromBlock toBlock twoConfigs)
  fetchJson := .ok
  rewardsThreshold := .ok 1

/-- The rewards task waits for its receipt while the force exits start, and the exits task ends
before the force exits do. -/
def interleavedRun : List (MainAction String Int String) :=
  [.startup (.ok ()) (readsConfigs 10), .readConfig (readsConfigs 12),
    .start (.rewards
      { canUpdate := .ok true
        endpoint := fun _ _ _ => .ok ⟨5, [1], ⟨1700000000, "0x01", "QmVote", 1000⟩⟩
        rewardsNonce := .ok 5
        receipt := fun _ => .ok (some ⟨7, 1⟩) }),
    .start (.forceExits
      { currentTime := 1700000000
        finalizedBlock := .error .requestError
        latestGraphBlock := .ok 100
        leveragePositions := fun _ => .ok []
        positionVaults := .ok []
        exitRequests := fun _ => .ok []
        requestVaults := .ok [] }),
    .finish .rewards,
    .start (.exits
      { chainHead := .error .requestError
        endpoint := fun _ _ _ => .error .requestError
        validatorsByIds := fun _ _ => .ok []
        submitVoluntaryExit := fun _ _ => .submitted }),
    .finish .forceExits, .gathered]

theorem interleavedRun_reached :
    ∃ keeper, run (mainStep forceExitsSettings oneOracle infinityCurve) Keeper.initial
      interleavedRun = some keeper :=
  Option.isSome_iff_exists.mp (by decide +kernel)

theorem keeper_runs_services_interleaved :
    ∃ keeper, run (mainStep forceExitsSettings oneOracle infinityCurve) Keeper.initial
        interleavedRun = some keeper ∧
      RunsServices forceExitsSettings oneOracle infinityCurve
        (callsOf forceExitsSettings oneOracle infinityCurve interleavedRun) keeper := by
  obtain ⟨keeper, reached⟩ := interleavedRun_reached
  exact ⟨keeper, reached, keeper_runs_services forceExitsSettings oneOracle infinityCurve
    interleavedRun keeper reached⟩

end V3Keeper
