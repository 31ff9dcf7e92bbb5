import V3Keeper.Contracts.Events
import V3Keeper.Library.StepRun

/-!
`get_protocol_config` of `src/protocol_config/service.py` with its cache. The config is
the JSON that an IPFS hash names; `build` stands for `sw_utils.build_protocol_config`.
-/

namespace V3Keeper

open Python EventLog StepRun

structure ConfigUpdated where
  blockNumber : Int
  configIpfsHash : String
  deriving DecidableEq, Repr

structure ConfigNetwork where
  configUpdatedCheckpointBlock : Int
  configUpdatedEventBlock : Int
  events : EventSettings
  deriving DecidableEq, Repr

variable {κ π : Type}

structure OraclesCache (κ : Type) where
  checkpointBlock : Option Int
  config : κ
  rewardsThreshold : Nat
  deriving DecidableEq, Repr

def OraclesCache.initial [Inhabited κ] : OraclesCache κ := ⟨none, default, 0⟩

structure ConfigCall (κ : Type) where
  finalizedBlock : Except PyError Int
  getLogs : GetLogs ConfigUpdated
  fetchJson : String → Except PyError κ
  rewardsThreshold : Except PyError Nat

def getConfigUpdateEventSinceCheckpoint (network : ConfigNetwork)
    (getLogs : GetLogs ConfigUpdated) (toBlock : Int) : Except PyError (Option ConfigUpdated) :=
  match getLastEvent network.events getLogs (network.configUpdatedCheckpointBlock + 1) toBlock with
  | .error error => .error error
  | .ok (some event) => .ok (some event)
  | .ok none => getLastEvent network.events getLogs network.configUpdatedEventBlock
      network.configUpdatedEventBlock

/-- The part of `get_protocol_config` that determines `config`. -/
def currentConfig (network : ConfigNetwork) (cache : OraclesCache κ) (call : ConfigCall κ)
    (toBlock : Int) : Except PyError κ :=
  match cache.checkpointBlock with
  | none =>
      match getConfigUpdateEventSinceCheckpoint network call.getLogs toBlock with
      | .error error => .error error
      | .ok none => .error (.valueError "Failed to fetch IPFS hash of oracles config")
      | .ok (some event) => call.fetchJson event.configIpfsHash
  | some checkpoint =>
      let fromBlock := checkpoint + 1
      match if fromBlock ≤ toBlock then getLastEvent network.events call.getLogs fromBlock toBlock
          else .ok none with
      | .error error => .error error
      | .ok (some event) => call.fetchJson event.configIpfsHash
      | .ok none => .ok cache.config

def getProtocolConfig (network : ConfigNetwork) (build : κ → Nat → Except PyError π)
    (cache : OraclesCache κ) (call : ConfigCall κ) : Except PyError π × OraclesCache κ :=
  match call.finalizedBlock with
  | .error error => (.error error, cache)
  | .ok toBlock =>
      match currentConfig network cache call toBlock with
      | .error error => (.error error, cache)
      | .ok config =>
          match call.rewardsThreshold with
          | .error error => (.error error, cache)
          | .ok threshold => (build config threshold, ⟨some toBlock, config, threshold⟩)

/-- The config in force at a block: the JSON of the last event at or before it. -/
def ConfigAt (chain : List ConfigUpdated) (json : String → κ) (toBlock : Int) (config : κ) : Prop :=
  ∃ event, lastUpTo ConfigUpdated.blockNumber toBlock chain = some event ∧
    config = json event.configIpfsHash

theorem ConfigAt.unique {chain : List ConfigUpdated} {json : String → κ} {toBlock : Int}
    {first second : κ} (firstAt : ConfigAt chain json toBlock first)
    (secondAt : ConfigAt chain json toBlock second) : first = second := by
  obtain ⟨event, last, same⟩ := firstAt
  obtain ⟨other, otherLast, otherSame⟩ := secondAt
  rw [last] at otherLast
  cases otherLast
  rw [same, otherSame]

/-- The logs are those of the chain and an IPFS hash determines its JSON. Any query
may still fail. -/
structure ReadsFrom (chain : List ConfigUpdated) (json : String → κ) (call : ConfigCall κ) :
    Prop where
  logs : AnswersFrom ConfigUpdated.blockNumber chain call.getLogs
  ipfs : ∀ hash config, call.fetchJson hash = .ok config → config = json hash

/-- The network constants: the last event up to the checkpoint block lies in the event block. -/
structure CheckpointCorrect (network : ConfigNetwork) (chain : List ConfigUpdated) : Prop where
  ordered : InChainOrder ConfigUpdated.blockNumber chain
  lastEvent : ∃ event, lastUpTo ConfigUpdated.blockNumber network.configUpdatedCheckpointBlock
    chain = some event ∧ event.blockNumber = network.configUpdatedEventBlock

section

variable {network : ConfigNetwork} {chain : List ConfigUpdated} {json : String → κ}

theorem sinceCheckpoint_ok (correct : CheckpointCorrect network chain)
    {getLogs : GetLogs ConfigUpdated}
    (answers : AnswersFrom ConfigUpdated.blockNumber chain getLogs)
    {toBlock : Int} (above : network.configUpdatedCheckpointBlock ≤ toBlock)
    {event : Option ConfigUpdated}
    (found : getConfigUpdateEventSinceCheckpoint network getLogs toBlock = .ok event) :
    event = lastUpTo ConfigUpdated.blockNumber toBlock chain := by
  obtain ⟨checkpointEvent, last, inBlock⟩ := correct.lastEvent
  rw [lastUpTo_extend correct.ordered above, last]
  unfold getConfigUpdateEventSinceCheckpoint at found
  split at found
  case h_1 => cases found
  case h_2 newer newerEq =>
    cases found
    rw [← getLastEvent_ok answers correct.ordered newerEq, Option.some_or]
  case h_3 nothing =>
    rw [← getLastEvent_ok answers correct.ordered nothing, Option.none_or,
      getLastEvent_ok answers correct.ordered found, ← inBlock]
    exact lastUpTo_in_block correct.ordered last

def CacheCurrent (network : ConfigNetwork) (chain : List ConfigUpdated) (json : String → κ)
    (cache : OraclesCache κ) : Prop :=
  ∀ checkpoint, cache.checkpointBlock = some checkpoint →
    network.configUpdatedCheckpointBlock ≤ checkpoint ∧
      ConfigAt chain json checkpoint cache.config

theorem currentConfig_ok (correct : CheckpointCorrect network chain) {cache : OraclesCache κ}
    (current : CacheCurrent network chain json cache) {call : ConfigCall κ}
    (reads : ReadsFrom chain json call) {toBlock : Int}
    (above : network.configUpdatedCheckpointBlock ≤ toBlock)
    (forward : ∀ checkpoint, cache.checkpointBlock = some checkpoint → checkpoint ≤ toBlock)
    {config : κ} (found : currentConfig network cache call toBlock = .ok config) :
    ConfigAt chain json toBlock config := by
  unfold currentConfig at found
  split at found
  case h_1 cold =>
    split at found
    case h_1 => cases found
    case h_2 => cases found
    case h_3 event eventEq =>
      exact ⟨event, (sinceCheckpoint_ok correct reads.logs above eventEq).symm,
        reads.ipfs _ _ found⟩
  case h_2 checkpoint warm =>
    obtain ⟨checkpointAbove, event, last, cached⟩ := current checkpoint warm
    have extended := lastUpTo_extend correct.ordered (forward checkpoint warm)
    dsimp only at found
    split at found
    case h_1 => cases found
    case h_2 newer newerEq =>
      split at newerEq
      case isFalse => cases newerEq
      case isTrue scanned =>
        rw [← getLastEvent_ok reads.logs correct.ordered newerEq, Option.some_or] at extended
        exact ⟨newer, extended, reads.ipfs _ _ found⟩
    case h_3 nothing =>
      cases found
      refine ⟨event, ?_, cached⟩
      split at nothing
      case isTrue scanned =>
        rw [← getLastEvent_ok reads.logs correct.ordered nothing, Option.none_or] at extended
        rw [extended, last]
      case isFalse skipped =>
        have same : toBlock = checkpoint := by
          have := forward checkpoint warm
          omega
        rw [same, last]

theorem getProtocolConfig_cases (network : ConfigNetwork) (build : κ → Nat → Except PyError π)
    (cache : OraclesCache κ) (call : ConfigCall κ) :
    ((getProtocolConfig network build cache call).2 = cache ∧
      ∃ error, (getProtocolConfig network build cache call).1 = .error error) ∨
    ∃ toBlock config threshold, call.finalizedBlock = .ok toBlock ∧
      currentConfig network cache call toBlock = .ok config ∧
      call.rewardsThreshold = .ok threshold ∧
      getProtocolConfig network build cache call =
        (build config threshold, ⟨some toBlock, config, threshold⟩) := by
  unfold getProtocolConfig
  split
  case h_1 error failed => exact Or.inl ⟨rfl, error, rfl⟩
  case h_2 toBlock finalized =>
    split
    case h_1 error failed => exact Or.inl ⟨rfl, error, rfl⟩
    case h_2 config configEq =>
      split
      case h_1 error failed => exact Or.inl ⟨rfl, error, rfl⟩
      case h_2 threshold thresholdEq =>
        exact Or.inr ⟨toBlock, config, threshold, finalized, configEq, thresholdEq, rfl⟩

def FailsBeforeWrite (network : ConfigNetwork) (cache : OraclesCache κ) (call : ConfigCall κ) :
    Prop :=
  (∃ error, call.finalizedBlock = .error error) ∨
    (∃ toBlock error, call.finalizedBlock = .ok toBlock ∧
      currentConfig network cache call toBlock = .error error) ∨
    ∃ error, call.rewardsThreshold = .error error

theorem getProtocolConfig_unwritten {network : ConfigNetwork} {cache : OraclesCache κ}
    {call : ConfigCall κ} (build : κ → Nat → Except PyError π)
    (fails : FailsBeforeWrite network cache call) :
    (getProtocolConfig network build cache call).2 = cache ∧
      ∃ error, (getProtocolConfig network build cache call).1 = .error error := by
  rcases getProtocolConfig_cases network build cache call with unwritten | written
  · exact unwritten
  · obtain ⟨toBlock, config, threshold, finalizedEq, configEq, thresholdEq, -⟩ := written
    rcases fails with ⟨error, failed⟩ | ⟨other, error, otherEq, failed⟩ | ⟨error, failed⟩
    · rw [finalizedEq] at failed
      cases failed
    · rw [finalizedEq] at otherEq
      cases otherEq
      rw [configEq] at failed
      cases failed
    · rw [thresholdEq] at failed
      cases failed

abbrev ConfigRun (κ π : Type) :=
  List (Transition (OraclesCache κ) (ConfigCall κ) (Except PyError π))

/-- The finalized block numbers never step back and start at the checkpoint block. -/
structure FinalizedForward (network : ConfigNetwork) (calls : ConfigRun κ π) : Prop where
  above : ∀ call ∈ calls, ∀ toBlock, call.input.finalizedBlock = .ok toBlock →
    network.configUpdatedCheckpointBlock ≤ toBlock
  forward : calls.Pairwise fun earlier later => ∀ before after,
    earlier.input.finalizedBlock = .ok before → later.input.finalizedBlock = .ok after →
      before ≤ after

theorem FinalizedForward.inherited {past : ConfigRun κ π} {next : Transition _ _ _}
    (finalized : FinalizedForward network (past ++ [next])) : FinalizedForward network past where
  above call member := finalized.above call (List.mem_append_left _ member)
  forward := (List.pairwise_append.mp finalized.forward).1

def CheckpointSeen (past : ConfigRun κ π) (cache : OraclesCache κ) : Prop :=
  ∀ checkpoint, cache.checkpointBlock = some checkpoint →
    ∃ call ∈ past, call.input.finalizedBlock = .ok checkpoint

def AllReadFrom (chain : List ConfigUpdated) (json : String → κ) (calls : ConfigRun κ π) : Prop :=
  ∀ call ∈ calls, ReadsFrom chain json call.input

theorem getProtocolConfig_keeps (correct : CheckpointCorrect network chain)
    {build : κ → Nat → Except PyError π} {past : ConfigRun κ π} {cache : OraclesCache κ}
    (current : CacheCurrent network chain json cache) (seen : CheckpointSeen past cache)
    (call : ConfigCall κ)
    (finalized : FinalizedForward network
      (past ++ [transition (getProtocolConfig network build) cache call]))
    (reads : ReadsFrom chain json call) :
    CacheCurrent network chain json (getProtocolConfig network build cache call).2 ∧
      CheckpointSeen (past ++ [transition (getProtocolConfig network build) cache call])
        (getProtocolConfig network build cache call).2 ∧
      ∀ toBlock config, call.finalizedBlock = .ok toBlock →
        currentConfig network cache call toBlock = .ok config →
          ConfigAt chain json toBlock config := by
  have found : ∀ toBlock config, call.finalizedBlock = .ok toBlock →
      currentConfig network cache call toBlock = .ok config →
        ConfigAt chain json toBlock config := by
    intro toBlock config finalizedEq configEq
    refine currentConfig_ok correct current reads
      (finalized.above _ (mem_concat_self past _) toBlock finalizedEq) ?_ configEq
    intro checkpoint warm
    obtain ⟨earlier, member, earlierEq⟩ := seen checkpoint warm
    exact (List.pairwise_append.mp finalized.forward).2.2 earlier member _
      (List.mem_singleton.mpr rfl) checkpoint toBlock earlierEq finalizedEq
  refine ⟨?_, ?_, found⟩
  · rcases getProtocolConfig_cases network build cache call with ⟨kept, -⟩ | written
    · rw [kept]
      exact current
    · obtain ⟨toBlock, config, threshold, finalizedEq, configEq, -, result⟩ := written
      intro checkpoint checkpointEq
      rw [result] at checkpointEq ⊢
      cases checkpointEq
      exact ⟨finalized.above _ (mem_concat_self past _) _ finalizedEq,
        found _ config finalizedEq configEq⟩
  · rcases getProtocolConfig_cases network build cache call with ⟨kept, -⟩ | written
    · intro checkpoint checkpointEq
      rw [kept] at checkpointEq
      obtain ⟨earlier, member, earlierEq⟩ := seen checkpoint checkpointEq
      exact ⟨earlier, List.mem_append_left _ member, earlierEq⟩
    · obtain ⟨toBlock, config, threshold, finalizedEq, -, -, result⟩ := written
      intro checkpoint checkpointEq
      rw [result] at checkpointEq
      cases checkpointEq
      exact ⟨_, mem_concat_self past _, finalizedEq⟩

theorem history_current [Inhabited κ] (correct : CheckpointCorrect network chain)
    (build : κ → Nat → Except PyError π) (calls : List (ConfigCall κ))
    (finalized : FinalizedForward network
      (history (getProtocolConfig network build) OraclesCache.initial calls))
    (reads : AllReadFrom chain json
      (history (getProtocolConfig network build) OraclesCache.initial calls)) :
    ∀ call ∈ history (getProtocolConfig network build) OraclesCache.initial calls,
      ∀ toBlock config, call.input.finalizedBlock = .ok toBlock →
        currentConfig network call.before call.input toBlock = .ok config →
          ConfigAt chain json toBlock config := by
  refine (history_invariant (getProtocolConfig network build)
    (fun calls => FinalizedForward network calls ∧ AllReadFrom chain json calls)
    (fun past cache => CacheCurrent network chain json cache ∧
      CheckpointSeen past cache ∧ ∀ call ∈ past, ∀ toBlock config,
        call.input.finalizedBlock = .ok toBlock →
          currentConfig network call.before call.input toBlock = .ok config →
            ConfigAt chain json toBlock config)
    ?_ ?_ ?_ calls ⟨finalized, reads⟩).2.2
  · exact fun past next admitted => ⟨admitted.1.inherited,
      fun call member => admitted.2 call (List.mem_append_left _ member)⟩
  · refine ⟨?_, ?_, by simp⟩
    · intro checkpoint warm
      cases warm
    · intro checkpoint warm
      cases warm
  · rintro past cache call ⟨current, seen, sound⟩ ⟨forward, readAll⟩
    obtain ⟨nextCurrent, nextSeen, own⟩ := getProtocolConfig_keeps correct current seen call
      forward (readAll _ (mem_concat_self past _))
    refine ⟨nextCurrent, nextSeen, ?_⟩
    rw [List.forall_mem_append, List.forall_mem_singleton]
    exact ⟨sound, own⟩

/-- Every successful call builds the protocol config from the config in force at its
finalized block, as any cold start at that block does, and a call that fails before the
cache is written leaves the cache as it was. -/
theorem getProtocolConfig_follows_chain [Inhabited κ] (correct : CheckpointCorrect network chain)
    (build : κ → Nat → Except PyError π) (calls : List (ConfigCall κ))
    (finalized : FinalizedForward network
      (history (getProtocolConfig network build) OraclesCache.initial calls))
    (reads : AllReadFrom chain json
      (history (getProtocolConfig network build) OraclesCache.initial calls)) :
    ∀ call ∈ history (getProtocolConfig network build) OraclesCache.initial calls,
      (∀ protocol, call.output = .ok protocol → ∃ toBlock config threshold,
        call.input.finalizedBlock = .ok toBlock ∧ call.input.rewardsThreshold = .ok threshold ∧
        build config threshold = .ok protocol ∧ ConfigAt chain json toBlock config ∧
        ∀ cold coldConfig, ReadsFrom chain json cold →
          currentConfig network OraclesCache.initial cold toBlock = .ok coldConfig →
            config = coldConfig) ∧
      (FailsBeforeWrite network call.before call.input → call.after = call.before) := by
  intro call member
  have sound := history_current correct build calls finalized reads call member
  have step := mem_history_eq (getProtocolConfig network build) member
  rw [step]
  simp only [transition_output, transition_before, transition_input, transition_after]
  refine ⟨?_, fun fails => (getProtocolConfig_unwritten build fails).1⟩
  intro protocol succeeded
  rcases getProtocolConfig_cases network build call.before call.input with
    ⟨-, error, failed⟩ | written
  · rw [failed] at succeeded
    cases succeeded
  · obtain ⟨toBlock, config, threshold, finalizedEq, configEq, thresholdEq, result⟩ := written
    rw [result] at succeeded
    have inForce := sound toBlock config finalizedEq configEq
    refine ⟨toBlock, config, threshold, finalizedEq, thresholdEq, succeeded, inForce, ?_⟩
    intro cold coldConfig coldReads coldEq
    exact inForce.unique (currentConfig_ok correct (fun checkpoint warm => by cases warm)
      coldReads (finalized.above call member toBlock finalizedEq)
      (fun checkpoint warm => by cases warm) coldEq)

/-- A cold start at the checkpoint block, then a call that finds a newer event. -/
theorem getProtocolConfig_follows_chain_twice :
    let chain : List ConfigUpdated := [⟨5, "first"⟩, ⟨12, "second"⟩]
    let network : ConfigNetwork := ⟨10, 5, ⟨43200, 12, 10⟩⟩
    let call (toBlock : Int) : ConfigCall String :=
      { finalizedBlock := .ok toBlock
        getLogs := fun fromBlock toBlock =>
          .ok (between ConfigUpdated.blockNumber fromBlock toBlock chain)
        fetchJson := .ok, rewardsThreshold := .ok 3 }
    let build : String → Nat → Except PyError String := fun config _ => .ok config
    ∀ run ∈ history (getProtocolConfig network build) OraclesCache.initial [call 10, call 12],
      ∀ protocol, run.output = .ok protocol → ∃ toBlock config,
        run.input.finalizedBlock = .ok toBlock ∧ build config 3 = .ok protocol ∧
        ConfigAt chain id toBlock config := by
  intro chain network call build run member protocol succeeded
  have reads : ∀ toBlock, ReadsFrom chain id (call toBlock) := fun toBlock =>
    ⟨fun _ _ events answer => (Except.ok.inj answer).symm,
      fun _ config fetched => (Except.ok.inj fetched).symm⟩
  have correct : CheckpointCorrect network chain :=
    ⟨by simp [chain, InChainOrder], ⟨5, "first"⟩, by decide, rfl⟩
  have allRead : AllReadFrom chain id (history (getProtocolConfig network build)
      OraclesCache.initial [call 10, call 12]) := by
    simp [AllReadFrom, history, reads]
  obtain ⟨toBlock, config, threshold, finalized, -, built, inForce, -⟩ :=
    (getProtocolConfig_follows_chain correct build [call 10, call 12]
      ⟨by simp [history, call, network], by simp [history, call]⟩ allRead run member).1
      protocol succeeded
  exact ⟨toBlock, config, finalized, built, inForce⟩

end

end V3Keeper
