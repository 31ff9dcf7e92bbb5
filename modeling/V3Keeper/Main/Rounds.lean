import V3Keeper.Main.Services

/-!
What the rounds of the loop come to. Each task that the settings choose returns once in every
round, and the loop goes on when all of them have.
-/

namespace V3Keeper

open Python Lts Component

variable {κ τ ρ G : Type}

def opensRound (call : ConfigCall κ × Except PyError ProtocolConfig) : Bool :=
  match call.2 with
  | .error _ => false
  | .ok config => !config.oracles.isEmpty

/-- The rounds opened so far. The first config is the one that `startup_checks` reads. -/
def rounds (calls : List (Returned κ τ ρ)) : Nat :=
  (calls.filterMap Returned.configCall).tail.countP opensRound

section Counting

variable {ι ο γ : Type} {select : Returned κ τ ρ → Option γ} {calls : List ι}
  {returns : ι → Returned κ τ ρ} {pending before : Nat}

theorem pending_own {calls : List γ} {returns : γ → Returned κ τ ρ}
    (own : ∀ call, select (returns call) = some call) (moved : calls.length + pending = before) :
    ((calls.map returns).filterMap select).length + pending = before := by
  rw [selected_own own]
  exact moved

theorem pending_other (others : ∀ call, select (returns call) = none) :
    ((calls.map returns).filterMap select).length + pending = pending := by
  rw [selected_other others]
  exact Nat.zero_add pending

theorem rounds_unchanged {past calls : List (Returned κ τ ρ)}
    (tasks : calls.filterMap Returned.configCall = []) : rounds (past ++ calls) = rounds past := by
  rw [rounds, List.filterMap_append, tasks, List.append_nil, rounds]

theorem configCall_single (call : ConfigCall κ) (result : Except PyError ProtocolConfig) :
    [(.config call result : Returned κ τ ρ)].filterMap Returned.configCall = [(call, result)] := rfl

theorem rounds_first {past : List (Returned κ τ ρ)}
    (fresh : past.filterMap Returned.configCall = []) (call : ConfigCall κ)
    (result : Except PyError ProtocolConfig) :
    rounds (past ++ [.config call result]) = rounds past := by
  rw [rounds, rounds, List.filterMap_append, configCall_single, fresh]
  rfl

theorem rounds_read {past : List (Returned κ τ ρ)}
    (started : past.filterMap Returned.configCall ≠ []) (call : ConfigCall κ)
    (result : Except PyError ProtocolConfig) :
    rounds (past ++ [.config call result]) =
      rounds past + if opensRound (call, result) then 1 else 0 := by
  rw [rounds, List.filterMap_append, configCall_single, List.tail_append_of_ne_nil started,
    List.countP_append, List.countP_singleton, rounds]

end Counting

structure RoundMoves (round next : Round τ ρ) (calls : List (Returned κ τ ρ)) : Prop where
  rewards : (calls.filterMap Returned.rewardsCall).length + next.rewards.pending =
    round.rewards.pending
  exits : (calls.filterMap Returned.exitsCall).length + next.exits.pending = round.exits.pending
  distributor : (calls.filterMap Returned.distributorCall).length + next.distributor.pending =
    round.distributor.pending
  price : (calls.filterMap Returned.priceCall).length + next.price.pending = round.price.pending
  forceExits : (calls.filterMap Returned.forceExitsCall).length + next.forceExits.pending =
    round.forceExits.pending
  ltv : (calls.filterMap Returned.ltvCall).length + next.ltv.pending = round.ltv.pending

section State

variable [BEq τ] [BEq ρ]

def Keeper.pending {ι μ : Type} (keeper : Keeper κ τ ρ) (status : Round τ ρ → Status ι μ) : Nat :=
  match keeper.round with
  | none => 0
  | some round => (status round).pending

theorem Keeper.pending_inRound {ι μ : Type} {keeper : Keeper κ τ ρ} {round : Round τ ρ}
    (inRound : keeper.round = some round) (status : Round τ ρ → Status ι μ) :
    keeper.pending status = (status round).pending := by
  rw [Keeper.pending, inRound]

theorem Keeper.pending_outside {ι μ : Type} {keeper : Keeper κ τ ρ}
    (outside : keeper.round = none) (status : Round τ ρ → Status ι μ) :
    keeper.pending status = 0 := by
  rw [Keeper.pending, outside]

def CalledOnce (chosen : Bool) (returned pending rounds : Nat) : Prop :=
  returned + pending = if chosen then rounds else 0

structure RoundsComplete (settings : LoopSettings) (calls : List (Returned κ τ ρ))
    (keeper : Keeper κ τ ρ) : Prop where
  rewards : CalledOnce true (calls.filterMap Returned.rewardsCall).length
    (keeper.pending Round.rewards) (rounds calls)
  exits : CalledOnce true (calls.filterMap Returned.exitsCall).length
    (keeper.pending Round.exits) (rounds calls)
  distributor : CalledOnce (!settings.skipDistributorRewards)
    (calls.filterMap Returned.distributorCall).length (keeper.pending Round.distributor)
    (rounds calls)
  price : CalledOnce settings.updatesPrice (calls.filterMap Returned.priceCall).length
    (keeper.pending Round.price) (rounds calls)
  forceExits : CalledOnce settings.forcesExits (calls.filterMap Returned.forceExitsCall).length
    (keeper.pending Round.forceExits) (rounds calls)
  ltv : CalledOnce (!settings.skipUpdateLtv) (calls.filterMap Returned.ltvCall).length
    (keeper.pending Round.ltv) (rounds calls)

end State

section Tasks

variable {ι μ ο : Type} {chosen : Bool} {select : Returned κ τ ρ → Option (ι × ο)}
  {status : Round τ ρ → Status ι μ} {settings : LoopSettings}

structure LoopTask (settings : LoopSettings) (chosen : Bool)
    (select : Returned κ τ ρ → Option (ι × ο)) (status : Round τ ρ → Status ι μ) : Prop where
  configs : ∀ call result, select (.config call result) = none
  opens : ∀ config, (status (settings.round config)).pending = if chosen then 1 else 0
  closes : ∀ round, Round.over round = true → (status round).pending = 0
  moves : ∀ round next calls, RoundMoves round next calls →
    (calls.filterMap select).length + (status next).pending = (status round).pending

theorem LoopTask.config_calls (task : LoopTask settings chosen select status)
    (past : List (Returned κ τ ρ)) (call : ConfigCall κ)
    (result : Except PyError ProtocolConfig) :
    (past ++ [Returned.config call result]).filterMap select = past.filterMap select := by
  rw [List.filterMap_append, List.filterMap_cons_none (task.configs call result),
    List.filterMap_nil, List.append_nil]

@[simp] theorem taskIf_pending (chosen : Bool) :
    (taskIf chosen : Status ι μ).pending = if chosen then 1 else 0 := by cases chosen <;> rfl

@[simp] theorem afterStartup_leaves (result : Except PyError ProtocolConfig) :
    (afterStartup result : MainPhase τ ρ) ≠ .starting := by
  cases result <;> simp [afterStartup]

@[simp] theorem LoopSettings.next_leaves (settings : LoopSettings)
    (result : Except PyError ProtocolConfig) :
    (settings.next result : MainPhase τ ρ) ≠ .starting := by
  unfold LoopSettings.next
  split
  case h_1 => simp
  case h_2 => split <;> simp

variable [BEq τ] [BEq ρ] {keeper : Keeper κ τ ρ}

structure Counted (chosen : Bool) (select : Returned κ τ ρ → Option (ι × ο))
    (status : Round τ ρ → Status ι μ) (calls : List (Returned κ τ ρ)) (keeper : Keeper κ τ ρ) :
    Prop where
  fresh : keeper.phase = .starting → calls.filterMap Returned.configCall = []
  started : keeper.phase = .sleeping ∨ keeper.round ≠ none →
    calls.filterMap Returned.configCall ≠ []
  once : CalledOnce chosen (calls.filterMap select).length (keeper.pending status) (rounds calls)

theorem LoopTask.pending_next (task : LoopTask settings chosen select status)
    (call : ConfigCall κ) {result : Except PyError ProtocolConfig}
    (next : keeper.phase = settings.next result) :
    keeper.pending status = if chosen then (if opensRound (call, result) then 1 else 0) else 0 := by
  unfold LoopSettings.next at next
  split at next
  case h_1 =>
    rw [Keeper.pending_outside (Keeper.round_eq_none (by simp [next]))]
    simp [opensRound]
  case h_2 config =>
    split at next
    case isTrue empty =>
      rw [Keeper.pending_outside (Keeper.round_eq_none (by simp [next]))]
      simp [opensRound, empty]
    case isFalse some =>
      rw [Keeper.pending_inRound (Keeper.round_eq_some.mpr next), task.opens]
      simp [opensRound, some]

end Tasks

section LoopTasks

variable (settings : LoopSettings)

theorem rewardsLoopTask : LoopTask settings true
    (Returned.rewardsCall : Returned κ τ ρ → _) Round.rewards where
  configs _ _ := rfl
  opens _ := rfl
  closes _ ended := Status.pending_of_isEnded (Round.over_ended ended).rewards
  moves _ _ _ moves := moves.rewards

theorem exitsLoopTask : LoopTask settings true
    (Returned.exitsCall : Returned κ τ ρ → _) Round.exits where
  configs _ _ := rfl
  opens _ := rfl
  closes _ ended := Status.pending_of_isEnded (Round.over_ended ended).exits
  moves _ _ _ moves := moves.exits

theorem distributorLoopTask : LoopTask settings (!settings.skipDistributorRewards)
    (Returned.distributorCall : Returned κ τ ρ → _) Round.distributor where
  configs _ _ := rfl
  opens _ := taskIf_pending _
  closes _ ended := Status.pending_of_isEnded (Round.over_ended ended).distributor
  moves _ _ _ moves := moves.distributor

theorem priceLoopTask : LoopTask settings settings.updatesPrice
    (Returned.priceCall : Returned κ τ ρ → _) Round.price where
  configs _ _ := rfl
  opens _ := taskIf_pending _
  closes _ ended := Status.pending_of_isEnded (Round.over_ended ended).price
  moves _ _ _ moves := moves.price

theorem forceExitsLoopTask : LoopTask settings settings.forcesExits
    (Returned.forceExitsCall : Returned κ τ ρ → _) Round.forceExits where
  configs _ _ := rfl
  opens _ := taskIf_pending _
  closes _ ended := Status.pending_of_isEnded (Round.over_ended ended).forceExits
  moves _ _ _ moves := moves.forceExits

theorem ltvLoopTask : LoopTask settings (!settings.skipUpdateLtv)
    (Returned.ltvCall : Returned κ τ ρ → _) Round.ltv where
  configs _ _ := rfl
  opens _ := taskIf_pending _
  closes _ ended := Status.pending_of_isEnded (Round.over_ended ended).ltv
  moves _ _ _ moves := moves.ltv

end LoopTasks

section Turns

variable [BEq τ] [BEq ρ] [PyOrder τ] [PyText ρ] {settings : MainSettings}
  {build : κ → Nat → Except PyError ProtocolConfig} {curve : Curve G} {keeper : Keeper κ τ ρ}
  {turn : Turn κ τ ρ} {ι μ ο : Type} {chosen : Bool} {select : Returned κ τ ρ → Option (ι × ο)}
  {status : Round τ ρ → Status ι μ}

theorem TaskMoves.inRound (moves : TaskMoves settings curve keeper turn) :
    ∃ round next, keeper.round = some round ∧ turn.1.round = some next ∧
      RoundMoves round next turn.2 := by
  cases moves
  case rewards round inRound moved turns =>
    exact ⟨round, _, inRound, rfl, pending_own (fun _ => rfl) turns.pending,
      pending_other fun _ => rfl, pending_other fun _ => rfl, pending_other fun _ => rfl,
      pending_other fun _ => rfl, pending_other fun _ => rfl⟩
  case exits round inRound moved input started =>
    exact ⟨round, _, inRound, rfl, pending_other fun _ => rfl,
      pending_own (fun _ => rfl) (Halves.start_pending started), pending_other fun _ => rfl,
      pending_other fun _ => rfl, pending_other fun _ => rfl, pending_other fun _ => rfl⟩
  case distributor round inRound moved input started =>
    exact ⟨round, _, inRound, rfl, pending_other fun _ => rfl, pending_other fun _ => rfl,
      pending_own (fun _ => rfl) (Halves.start_pending started), pending_other fun _ => rfl,
      pending_other fun _ => rfl, pending_other fun _ => rfl⟩
  case price round inRound moved turns =>
    exact ⟨round, _, inRound, rfl, pending_other fun _ => rfl, pending_other fun _ => rfl,
      pending_other fun _ => rfl, pending_own (fun _ => rfl) turns.pending,
      pending_other fun _ => rfl, pending_other fun _ => rfl⟩
  case forceExits round inRound moved turns =>
    exact ⟨round, _, inRound, rfl, pending_other fun _ => rfl, pending_other fun _ => rfl,
      pending_other fun _ => rfl, pending_other fun _ => rfl,
      pending_own (fun _ => rfl) turns.pending, pending_other fun _ => rfl⟩
  case ltv round inRound moved turns =>
    exact ⟨round, _, inRound, rfl, pending_other fun _ => rfl, pending_other fun _ => rfl,
      pending_other fun _ => rfl, pending_other fun _ => rfl, pending_other fun _ => rfl,
      pending_own (fun _ => rfl) turns.pending⟩

theorem Counted.task (task : LoopTask settings.loop chosen select status)
    {past : List (Returned κ τ ρ)} (counted : Counted chosen select status past keeper)
    (moves : TaskMoves settings curve keeper turn) :
    Counted chosen select status (past ++ turn.2) turn.1 := by
  obtain ⟨round, next, inRound, entered, balanced⟩ := moves.inRound
  have started := counted.started (Or.inr (by simp [inRound]))
  have once := counted.once
  have moved := task.moves round next turn.2 balanced
  constructor
  · intro starting
    rw [Keeper.round_eq_some.mp entered] at starting
    cases starting
  · intro _
    rw [List.filterMap_append, moves.no_configCalls, List.append_nil]
    exact started
  · rw [CalledOnce, Keeper.pending_inRound inRound] at once
    rw [CalledOnce, Keeper.pending_inRound entered, rounds_unchanged moves.no_configCalls,
      List.filterMap_append, List.length_append, Nat.add_assoc, moved]
    exact once

theorem Counted.next (task : LoopTask settings.loop chosen select status)
    {past : List (Returned κ τ ρ)} (counted : Counted chosen select status past keeper)
    {action : MainAction κ τ ρ} (moves : TurnMoves settings build curve keeper action turn) :
    Counted chosen select status (past ++ turn.2) turn.1 := by
  have once := counted.once
  rw [CalledOnce] at once
  cases moves
  case stops error call starting =>
    have outside : keeper.round = none := Keeper.round_eq_none (by simp [starting])
    rw [Keeper.pending_outside outside] at once
    rw [List.append_nil]
    exact ⟨by simp, by simp [Keeper.round], once⟩
  case startsUp call starting =>
    have outside : keeper.round = none := Keeper.round_eq_none (by simp [starting])
    rw [Keeper.pending_outside outside] at once
    constructor
    · exact fun starting => absurd starting (afterStartup_leaves _)
    · simp [readConfig, configCall_single]
    · have left : (readConfig settings build keeper call afterStartup).1.round = none := by
        refine Keeper.round_eq_none fun round entered => ?_
        exact afterStartup_stays entered
      rw [CalledOnce, Keeper.pending_outside left, readConfig, task.config_calls,
        rounds_first (counted.fresh starting)]
      exact once
  case reads call sleeping =>
    have outside : keeper.round = none := Keeper.round_eq_none (by simp [sleeping])
    have started := counted.started (Or.inl sleeping)
    rw [Keeper.pending_outside outside] at once
    constructor
    · exact fun starting => absurd starting (LoopSettings.next_leaves _ _)
    · simp [readConfig, configCall_single]
    · rw [CalledOnce, task.pending_next call rfl, readConfig, task.config_calls,
        rounds_read started]
      cases chosen with
      | true => simpa using once
      | false => simpa using once
  case starts moves => exact counted.task task moves
  case finishes moves => exact counted.task task moves
  case gathered round inRound ended =>
    rw [Keeper.pending_inRound inRound, task.closes round ended] at once
    have started := counted.started (Or.inr (by simp [inRound]))
    rw [List.append_nil]
    exact ⟨by simp, fun _ => started, once⟩

theorem LoopTask.calledOnce [Inhabited κ] (task : LoopTask settings.loop chosen select status)
    {actions : List (MainAction κ τ ρ)}
    (reached : run (mainStep settings build curve) Keeper.initial actions = some keeper) :
    CalledOnce chosen ((callsOf settings build curve actions).filterMap select).length
      (keeper.pending status) (rounds (callsOf settings build curve actions)) := by
  refine (@run_history _ _ (mainStep settings build curve) Keeper.initial (fun actions keeper =>
    Counted chosen select status (callsOf settings build curve actions) keeper) ?_ ?_ actions
    keeper reached).once
  · exact ⟨fun _ => rfl, by simp [Keeper.round, Keeper.initial], by cases chosen <;> rfl⟩
  · intro past state action next before counted stepped
    rw [callsOf, observe_concat _ _ before stepped]
    exact counted.next task (mainStep_moves stepped)

/-- In every run, under every interleaving of the tasks, each task of the settings is called once
in each round: where none is pending, as often as there were rounds. -/
theorem keeper_rounds_complete [Inhabited κ] (settings : MainSettings)
    (build : κ → Nat → Except PyError ProtocolConfig) (curve : Curve G)
    (actions : List (MainAction κ τ ρ)) (keeper : Keeper κ τ ρ)
    (reached : run (mainStep settings build curve) Keeper.initial actions = some keeper) :
    RoundsComplete settings.loop (callsOf settings build curve actions) keeper where
  rewards := (rewardsLoopTask settings.loop).calledOnce reached
  exits := (exitsLoopTask settings.loop).calledOnce reached
  distributor := (distributorLoopTask settings.loop).calledOnce reached
  price := (priceLoopTask settings.loop).calledOnce reached
  forceExits := (forceExitsLoopTask settings.loop).calledOnce reached
  ltv := (ltvLoopTask settings.loop).calledOnce reached

end Turns

theorem keeper_rounds_complete_interleaved :
    ∃ keeper, run (mainStep forceExitsSettings oneOracle infinityCurve) Keeper.initial
        interleavedRun = some keeper ∧
      RoundsComplete forceExitsSettings.loop
        (callsOf forceExitsSettings oneOracle infinityCurve interleavedRun) keeper := by
  obtain ⟨keeper, reached⟩ := interleavedRun_reached
  exact ⟨keeper, reached, keeper_rounds_complete forceExitsSettings oneOracle infinityCurve
    interleavedRun keeper reached⟩

end V3Keeper
