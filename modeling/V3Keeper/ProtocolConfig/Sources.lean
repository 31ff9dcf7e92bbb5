import V3Keeper.ProtocolConfig.Service

/-!
Which `ConfigUpdated` event the cached config comes from, where the finalized block may step
back. The scan is skipped then but the checkpoint is overwritten, so that a later call scans
blocks again that lie below the cached event.
-/

namespace V3Keeper

open Python EventLog StepRun

variable {κ π : Type}

def currentEvent (network : ConfigNetwork) (cache : OraclesCache κ) (call : ConfigCall κ)
    (toBlock : Int) : Except PyError (Option ConfigUpdated) :=
  match cache.checkpointBlock with
  | none => getConfigUpdateEventSinceCheckpoint network call.getLogs toBlock
  | some checkpoint =>
      if checkpoint + 1 ≤ toBlock then
        getLastEvent network.events call.getLogs (checkpoint + 1) toBlock
      else .ok none

structure SourcedCache (κ : Type) extends OraclesCache κ where
  source : Option ConfigUpdated

def SourcedCache.initial [Inhabited κ] : SourcedCache κ := ⟨OraclesCache.initial, none⟩

def writtenSource (network : ConfigNetwork) (state : SourcedCache κ) (call : ConfigCall κ) :
    Option ConfigUpdated :=
  match call.finalizedBlock with
  | .error _ => state.source
  | .ok toBlock =>
      match currentConfig network state.toOraclesCache call toBlock, call.rewardsThreshold,
          currentEvent network state.toOraclesCache call toBlock with
      | .ok _, .ok _, .ok (some event) => some event
      | _, _, _ => state.source

def getSourcedConfig (network : ConfigNetwork) (build : κ → Nat → Except PyError π)
    (state : SourcedCache κ) (call : ConfigCall κ) : Except PyError π × SourcedCache κ :=
  ((getProtocolConfig network build state.toOraclesCache call).1,
    ⟨(getProtocolConfig network build state.toOraclesCache call).2,
      writtenSource network state call⟩)

abbrev SourcedRun (κ π : Type) :=
  Transition (SourcedCache κ) (ConfigCall κ) (Except PyError π)

def NeverEarlier (runs : List (SourcedRun κ π)) : Prop :=
  ∀ run ∈ runs, ∀ source written, run.before.source = some source →
    run.after.source = some written → source.blockNumber ≤ written.blockNumber

/-- The finalized block lies above the checkpoint and below the cached event, with another
event in between, and no read fails. -/
structure RescansEarlier (network : ConfigNetwork) (chain : List ConfigUpdated)
    (state : SourcedCache κ) (call : ConfigCall κ) : Prop where
  below : ∃ checkpoint toBlock source, state.checkpointBlock = some checkpoint ∧
    call.finalizedBlock = .ok toBlock ∧ state.source = some source ∧
    toBlock < source.blockNumber ∧
    ∃ event ∈ chain, checkpoint < event.blockNumber ∧ event.blockNumber ≤ toBlock
  reads : ¬FailsBeforeWrite network state.toOraclesCache call

section Event

variable {network : ConfigNetwork} {chain : List ConfigUpdated}

theorem mem_between {log : List ConfigUpdated} {fromBlock toBlock : Int} {event : ConfigUpdated} :
    event ∈ between ConfigUpdated.blockNumber fromBlock toBlock log ↔
      event ∈ log ∧ fromBlock ≤ event.blockNumber ∧ event.blockNumber ≤ toBlock := by
  simp [between]

theorem last_between (ordered : InChainOrder ConfigUpdated.blockNumber chain)
    {fromBlock toBlock : Int} {last : ConfigUpdated}
    (found : (between ConfigUpdated.blockNumber fromBlock toBlock chain).getLast? = some last) :
    last ∈ chain ∧ fromBlock ≤ last.blockNumber ∧ last.blockNumber ≤ toBlock ∧
      ∀ event ∈ chain, fromBlock ≤ event.blockNumber → event.blockNumber ≤ toBlock →
        event.blockNumber ≤ last.blockNumber := by
  have member := mem_between.mp (List.mem_of_getLast? found)
  refine ⟨member.1, member.2.1, member.2.2, ?_⟩
  intro event inChain lower upper
  obtain ⟨before, split⟩ := List.getLast?_eq_some_iff.mp found
  have inRange : event ∈ between ConfigUpdated.blockNumber fromBlock toBlock chain :=
    mem_between.mpr ⟨inChain, lower, upper⟩
  have orderedRange : (between ConfigUpdated.blockNumber fromBlock toBlock chain).Pairwise
      fun first second => first.blockNumber ≤ second.blockNumber :=
    List.Pairwise.sublist List.filter_sublist ordered
  rw [split] at inRange orderedRange
  rcases List.mem_append.mp inRange with earlier | same
  · exact (List.pairwise_append.mp orderedRange).2.2 event earlier last (List.mem_singleton.mpr rfl)
  · rw [List.mem_singleton.mp same]

theorem currentConfig_event {cache : OraclesCache κ} {call : ConfigCall κ} {toBlock : Int}
    {config : κ} (found : currentConfig network cache call toBlock = .ok config) :
    (∃ event, currentEvent network cache call toBlock = .ok (some event) ∧
      call.fetchJson event.configIpfsHash = .ok config) ∨
    currentEvent network cache call toBlock = .ok none ∧ config = cache.config ∧
      cache.checkpointBlock ≠ none := by
  unfold currentConfig at found
  unfold currentEvent
  split at found
  case h_1 cold =>
    rw [cold]
    split at found
    case h_1 => cases found
    case h_2 => cases found
    case h_3 event eventEq => exact Or.inl ⟨event, eventEq, found⟩
  case h_2 checkpoint warm =>
    rw [warm]
    dsimp only at found
    split at found
    case h_1 => cases found
    case h_2 event eventEq => exact Or.inl ⟨event, eventEq, found⟩
    case h_3 nothing =>
      cases found
      exact Or.inr ⟨nothing, rfl, by simp⟩

theorem writtenSource_reads {state : SourcedCache κ} {call : ConfigCall κ}
    (reads : ¬FailsBeforeWrite network state.toOraclesCache call) :
    ∃ toBlock config event threshold, call.finalizedBlock = .ok toBlock ∧
      currentConfig network state.toOraclesCache call toBlock = .ok config ∧
      currentEvent network state.toOraclesCache call toBlock = .ok event ∧
      call.rewardsThreshold = .ok threshold ∧
      writtenSource network state call = event.or state.source := by
  cases finalized : call.finalizedBlock with
  | error error => exact absurd (Or.inl ⟨error, finalized⟩) reads
  | ok toBlock =>
      cases configEq : currentConfig network state.toOraclesCache call toBlock with
      | error error => exact absurd (Or.inr (Or.inl ⟨toBlock, error, finalized, configEq⟩)) reads
      | ok config =>
          cases thresholdEq : call.rewardsThreshold with
          | error error => exact absurd (Or.inr (Or.inr ⟨error, thresholdEq⟩)) reads
          | ok threshold =>
              rcases currentConfig_event configEq with ⟨event, eventEq, -⟩ | ⟨nothing, -⟩
              · exact ⟨toBlock, config, some event, threshold, rfl, configEq, eventEq, rfl, by
                  simp [writtenSource, finalized, configEq, thresholdEq, eventEq]⟩
              · exact ⟨toBlock, config, none, threshold, rfl, configEq, nothing, rfl, by
                  simp [writtenSource, finalized, configEq, thresholdEq, nothing]⟩

theorem currentConfig_of_event {cache : OraclesCache κ} {call : ConfigCall κ} {toBlock : Int}
    {event : Option ConfigUpdated}
    (found : currentEvent network cache call toBlock = .ok event)
    (named : cache.checkpointBlock = none → event ≠ none)
    (fetched : ∀ hash, ∃ config, call.fetchJson hash = .ok config) :
    ∃ config, currentConfig network cache call toBlock = .ok config := by
  rw [currentConfig]
  rw [currentEvent] at found
  cases start : cache.checkpointBlock with
  | none =>
      simp only [start] at found ⊢
      rw [found]
      cases event with
      | none => exact absurd rfl (named start)
      | some event => exact fetched event.configIpfsHash
  | some checkpoint =>
      simp only [start] at found ⊢
      rw [found]
      cases event with
      | none => exact ⟨_, rfl⟩
      | some event => exact fetched event.configIpfsHash

theorem writtenSource_fails {state : SourcedCache κ} {call : ConfigCall κ}
    (fails : FailsBeforeWrite network state.toOraclesCache call) :
    writtenSource network state call = state.source := by
  rcases fails with ⟨error, failed⟩ | ⟨toBlock, error, finalized, failed⟩ | ⟨error, failed⟩
  · simp [writtenSource, failed]
  · simp [writtenSource, finalized, failed]
  · unfold writtenSource
    split
    · rfl
    · split
      case h_1 thresholdEq _ =>
        rw [failed] at thresholdEq
        cases thresholdEq
      case h_2 => rfl

theorem currentEvent_warm (ordered : InChainOrder ConfigUpdated.blockNumber chain)
    {cache : OraclesCache κ} {call : ConfigCall κ} {checkpoint toBlock : Int}
    (warm : cache.checkpointBlock = some checkpoint)
    (answers : AnswersFrom ConfigUpdated.blockNumber chain call.getLogs)
    {event : Option ConfigUpdated}
    (found : currentEvent network cache call toBlock = .ok event) :
    event = (between ConfigUpdated.blockNumber (checkpoint + 1) toBlock chain).getLast? := by
  rw [currentEvent, warm] at found
  dsimp only at found
  split at found
  case isTrue => exact getLastEvent_ok answers ordered found
  case isFalse skipped =>
    cases found
    have empty : between ConfigUpdated.blockNumber (checkpoint + 1) toBlock chain = [] := by
      rw [List.eq_nil_iff_forall_not_mem]
      intro event member
      have := mem_between.mp member
      omega
    rw [empty]
    rfl

structure SourceKnown (chain : List ConfigUpdated) (state : SourcedCache κ) : Prop where
  cold : state.checkpointBlock = none → state.source = none
  known : ∀ source, state.source = some source → source ∈ chain

theorem sourced_step (ordered : InChainOrder ConfigUpdated.blockNumber chain)
    {state : SourcedCache κ} (known : SourceKnown chain state) {call : ConfigCall κ}
    (answers : AnswersFrom ConfigUpdated.blockNumber chain call.getLogs) :
    (∀ source written, state.source = some source →
        writtenSource network state call = some written →
          source.blockNumber ≤ written.blockNumber) ↔
      ¬RescansEarlier network chain state call := by
  constructor
  · rintro never ⟨⟨checkpoint, toBlock, source, warm, finalized, sourceEq, below, event, inChain,
      above, upTo⟩, reads⟩
    obtain ⟨other, config, found, threshold, otherEq, -, eventEq, -, written⟩ :=
      writtenSource_reads reads
    rw [finalized] at otherEq
    cases otherEq
    have last := currentEvent_warm ordered warm answers eventEq
    have member := mem_between.mpr ⟨inChain, Int.add_one_le_iff.mpr above, upTo⟩
    cases found with
    | none =>
        rw [List.getLast?_eq_none_iff.mp last.symm] at member
        cases member
    | some newer =>
        have order := never source newer sourceEq written
        have bound := (last_between ordered last.symm).2.2.1
        omega
  · intro clean source written sourceEq writtenEq
    by_contra earlier
    refine clean ⟨?_, fun fails => ?_⟩
    · by_cases fails : FailsBeforeWrite network state.toOraclesCache call
      · rw [writtenSource_fails fails, sourceEq] at writtenEq
        cases writtenEq
        exact absurd le_rfl earlier
      · obtain ⟨toBlock, config, found, threshold, finalized, -, eventEq, -, writtenBy⟩ :=
          writtenSource_reads fails
        rw [writtenEq] at writtenBy
        cases found with
        | none =>
            rw [Option.none_or, sourceEq] at writtenBy
            cases writtenBy
            exact absurd le_rfl earlier
        | some newer =>
            cases writtenBy
            cases warm : state.checkpointBlock with
            | none =>
                rw [known.cold warm] at sourceEq
                cases sourceEq
            | some checkpoint =>
                have last := currentEvent_warm ordered warm answers eventEq
                obtain ⟨inChain, lower, upper, latest⟩ := last_between ordered last.symm
                have missed := latest source (known.known source sourceEq)
                exact ⟨checkpoint, toBlock, source, rfl, finalized, sourceEq, by omega, written,
                  inChain, by omega, upper⟩
    · rw [writtenSource_fails fails, sourceEq] at writtenEq
      cases writtenEq
      exact absurd le_rfl earlier

theorem sinceCheckpoint_mem (ordered : InChainOrder ConfigUpdated.blockNumber chain)
    {getLogs : GetLogs ConfigUpdated}
    (answers : AnswersFrom ConfigUpdated.blockNumber chain getLogs) {toBlock : Int}
    {event : ConfigUpdated}
    (found : getConfigUpdateEventSinceCheckpoint network getLogs toBlock = .ok (some event)) :
    event ∈ chain := by
  unfold getConfigUpdateEventSinceCheckpoint at found
  split at found
  case h_1 => cases found
  case h_2 newer newerEq =>
    cases found
    exact (last_between ordered (getLastEvent_ok answers ordered newerEq).symm).1
  case h_3 => exact (last_between ordered (getLastEvent_ok answers ordered found).symm).1

theorem currentEvent_mem (ordered : InChainOrder ConfigUpdated.blockNumber chain)
    {cache : OraclesCache κ} {call : ConfigCall κ} {toBlock : Int}
    (answers : AnswersFrom ConfigUpdated.blockNumber chain call.getLogs) {event : ConfigUpdated}
    (found : currentEvent network cache call toBlock = .ok (some event)) : event ∈ chain := by
  cases warm : cache.checkpointBlock with
  | none =>
      rw [currentEvent, warm] at found
      exact sinceCheckpoint_mem ordered answers found
  | some checkpoint =>
      exact (last_between ordered (currentEvent_warm ordered warm answers found).symm).1

theorem getSourcedConfig_known (ordered : InChainOrder ConfigUpdated.blockNumber chain)
    (build : κ → Nat → Except PyError π) {state : SourcedCache κ}
    (known : SourceKnown chain state) {call : ConfigCall κ}
    (answers : AnswersFrom ConfigUpdated.blockNumber chain call.getLogs) :
    SourceKnown chain (getSourcedConfig network build state call).2 := by
  by_cases fails : FailsBeforeWrite network state.toOraclesCache call
  · have same : (getSourcedConfig network build state call).2 = state := by
      rw [getSourcedConfig, (getProtocolConfig_unwritten build fails).1,
        writtenSource_fails fails]
    rw [same]
    exact known
  · obtain ⟨toBlock, config, found, threshold, finalized, configEq, eventEq, thresholdEq,
      written⟩ := writtenSource_reads fails
    constructor
    · intro cold
      simp [getSourcedConfig, getProtocolConfig, finalized, configEq, thresholdEq] at cold
    · intro source sourceEq
      have writtenEq : writtenSource network state call = some source := sourceEq
      rw [written] at writtenEq
      cases found with
      | none => exact known.known source writtenEq
      | some event =>
          cases writtenEq
          exact currentEvent_mem ordered answers eventEq

def SourcedCache.Names (json : String → κ) (state : SourcedCache κ) : Prop :=
  ∀ source, state.source = some source → state.config = json source.configIpfsHash

theorem getSourcedConfig_names {json : String → κ} (build : κ → Nat → Except PyError π)
    {state : SourcedCache κ} (named : state.Names json) {call : ConfigCall κ}
    (ipfs : ∀ hash config, call.fetchJson hash = .ok config → config = json hash) :
    (getSourcedConfig network build state call).2.Names json := by
  intro source sourceEq
  have writtenEq : writtenSource network state call = some source := sourceEq
  by_cases fails : FailsBeforeWrite network state.toOraclesCache call
  · rw [writtenSource_fails fails] at writtenEq
    rw [getSourcedConfig, (getProtocolConfig_unwritten build fails).1]
    exact named source writtenEq
  · obtain ⟨toBlock, config, found, threshold, finalized, configEq, eventEq, thresholdEq,
      written⟩ := writtenSource_reads fails
    have configIs : (getSourcedConfig network build state call).2.config = config := by
      simp [getSourcedConfig, getProtocolConfig, finalized, configEq, thresholdEq]
    rw [configIs]
    rw [written] at writtenEq
    rcases currentConfig_event configEq with ⟨event, foundEq, fetched⟩ | ⟨nothing, kept, -⟩
    · rw [eventEq] at foundEq
      cases foundEq
      cases writtenEq
      exact ipfs _ _ fetched
    · rw [eventEq] at nothing
      cases nothing
      rw [kept]
      exact named source writtenEq

theorem history_names [Inhabited κ] {json : String → κ} (build : κ → Nat → Except PyError π)
    (calls : List (ConfigCall κ))
    (ipfs : ∀ call ∈ calls, ∀ hash config, call.fetchJson hash = .ok config → config = json hash) :
    ∀ run ∈ history (getSourcedConfig network build) SourcedCache.initial calls,
      run.before.Names json ∧ run.after.Names json := by
  have fetched : ∀ run ∈ history (getSourcedConfig network build) SourcedCache.initial calls,
      ∀ hash config, run.input.fetchJson hash = .ok config → config = json hash := by
    intro run member
    exact ipfs run.input (input_mem (getSourcedConfig network build) member)
  exact (invariant_of_guarded (getSourcedConfig network build)
    (fun run => ∀ hash config, run.input.fetchJson hash = .ok config → config = json hash)
    (SourcedCache.Names json) (fun source sourceEq => by cases sourceEq)
    (fun state call named ipfs => getSourcedConfig_names build named ipfs) calls fetched).1

/-- Over every sequence of finalized blocks, the cached config is never replaced by the config
of an earlier event exactly where no call scans up to a block below the cached event while
another event lies above its checkpoint. -/
theorem neverEarlier_iff [Inhabited κ] (ordered : InChainOrder ConfigUpdated.blockNumber chain)
    (build : κ → Nat → Except PyError π) (calls : List (ConfigCall κ))
    (answers : ∀ call ∈ calls, AnswersFrom ConfigUpdated.blockNumber chain call.getLogs) :
    NeverEarlier (history (getSourcedConfig network build) SourcedCache.initial calls) ↔
      ∀ run ∈ history (getSourcedConfig network build) SourcedCache.initial calls,
        ¬RescansEarlier network chain run.before run.input := by
  have answered : ∀ run ∈ history (getSourcedConfig network build) SourcedCache.initial calls,
      AnswersFrom ConfigUpdated.blockNumber chain run.input.getLogs := by
    intro run member
    exact answers run.input (input_mem (getSourcedConfig network build) member)
  have known := (invariant_of_guarded (getSourcedConfig network build)
    (fun run => AnswersFrom ConfigUpdated.blockNumber chain run.input.getLogs)
    (SourceKnown chain) ⟨fun _ => rfl, fun source sourceEq => by cases sourceEq⟩
    (fun state call known answered => getSourcedConfig_known ordered build known answered)
    calls answered).1
  have steps : ∀ run ∈ history (getSourcedConfig network build) SourcedCache.initial calls,
      ((∀ source written, run.before.source = some source → run.after.source = some written →
        source.blockNumber ≤ written.blockNumber) ↔
          ¬RescansEarlier network chain run.before run.input) := by
    intro run member
    have after := congrArg Transition.after
      (mem_history_eq (getSourcedConfig network build) member)
    rw [after]
    exact sourced_step ordered (known run member).1 (answered run member)
  exact forall₂_congr steps

end Event

section Lagging

def laggingChain : List ConfigUpdated := [⟨5, "first"⟩, ⟨13, "second"⟩, ⟨15, "third"⟩]

def laggingNetwork : ConfigNetwork := ⟨10, 5, ⟨43200, 12, 10⟩⟩

def configAtBlock (toBlock : Int) : ConfigCall String where
  finalizedBlock := .ok toBlock
  getLogs fromBlock toBlock :=
    .ok (between ConfigUpdated.blockNumber fromBlock toBlock laggingChain)
  fetchJson := .ok
  rewardsThreshold := .ok 3

theorem laggingChain_ordered : InChainOrder ConfigUpdated.blockNumber laggingChain := by
  simp [laggingChain, InChainOrder]

theorem configAtBlock_answers {blocks : List Int} :
    ∀ call ∈ blocks.map configAtBlock,
      AnswersFrom ConfigUpdated.blockNumber laggingChain call.getLogs := by
  intro call member
  obtain ⟨toBlock, -, rfl⟩ := List.mem_map.mp member
  exact fun _ _ _ answer => (Except.ok.inj answer).symm

def laggingStep (state : SourcedCache String) (call : ConfigCall String) :
    Except PyError String × SourcedCache String :=
  getSourcedConfig laggingNetwork (fun config _ => .ok config) state call

theorem neverEarlier_iff_forward :
    NeverEarlier (history laggingStep SourcedCache.initial ([10, 14, 20].map configAtBlock)) ↔
      ∀ run ∈ history laggingStep SourcedCache.initial ([10, 14, 20].map configAtBlock),
        ¬RescansEarlier laggingNetwork laggingChain run.before run.input :=
  neverEarlier_iff laggingChain_ordered (fun config _ => .ok config) _ configAtBlock_answers

theorem laggingEvents (fromBlock toBlock block : Int) :
    getLastEvent laggingNetwork.events (configAtBlock block).getLogs fromBlock toBlock =
      .ok (between ConfigUpdated.blockNumber fromBlock toBlock laggingChain).getLast? :=
  getLastEvent_answered (configAtBlock_answers _ (List.mem_map_of_mem (List.mem_singleton_self _)))
    laggingChain_ordered (fun _ _ => ⟨_, rfl⟩) (by decide) fromBlock toBlock

theorem laggingStep_found {state : SourcedCache String} {toBlock : Int}
    {event : Option ConfigUpdated}
    (found : currentEvent laggingNetwork state.toOraclesCache (configAtBlock toBlock) toBlock =
      .ok event)
    (named : state.checkpointBlock = none → event ≠ none) :
    (laggingStep state (configAtBlock toBlock)).2.checkpointBlock = some toBlock ∧
      (laggingStep state (configAtBlock toBlock)).2.source = event.or state.source := by
  obtain ⟨config, configEq⟩ := currentConfig_of_event found named fun hash => ⟨hash, rfl⟩
  have finalized : (configAtBlock toBlock).finalizedBlock = .ok toBlock := rfl
  have threshold : (configAtBlock toBlock).rewardsThreshold = .ok 3 := rfl
  constructor
  · simp [laggingStep, getSourcedConfig, getProtocolConfig, finalized, configEq, threshold]
  · simp only [laggingStep, getSourcedConfig, writtenSource, finalized, configEq, threshold, found]
    cases event <;> rfl

theorem laggingStep_warm {state : SourcedCache String} {checkpoint : Int}
    (warm : state.checkpointBlock = some checkpoint) (toBlock : Int) :
    (laggingStep state (configAtBlock toBlock)).2.checkpointBlock = some toBlock ∧
      (laggingStep state (configAtBlock toBlock)).2.source =
        (if checkpoint + 1 ≤ toBlock then
          (between ConfigUpdated.blockNumber (checkpoint + 1) toBlock laggingChain).getLast?
        else none).or state.source := by
  refine laggingStep_found ?_ (by simp [warm])
  rw [currentEvent, warm]
  dsimp only
  split
  case isTrue => exact laggingEvents (checkpoint + 1) toBlock toBlock
  case isFalse => rfl

/-- The finalized block goes from 20 back to 12 and on to 14: the config of block 15 is replaced
by that of block 13. -/
theorem earlier_config_restored :
    InChainOrder ConfigUpdated.blockNumber laggingChain ∧
      (∀ call ∈ [10, 20, 12, 14].map configAtBlock,
        AnswersFrom ConfigUpdated.blockNumber laggingChain call.getLogs) ∧
      ¬NeverEarlier
        (history laggingStep SourcedCache.initial ([10, 20, 12, 14].map configAtBlock)) := by
  refine ⟨laggingChain_ordered, configAtBlock_answers, fun never => ?_⟩
  let first := (laggingStep SourcedCache.initial (configAtBlock 10)).2
  let second := (laggingStep first (configAtBlock 20)).2
  let third := (laggingStep second (configAtBlock 12)).2
  have found : currentEvent laggingNetwork
      (SourcedCache.initial : SourcedCache String).toOraclesCache (configAtBlock 10) 10 =
      .ok (some ⟨5, "first"⟩) := by
    change getConfigUpdateEventSinceCheckpoint laggingNetwork (configAtBlock 10).getLogs 10 = _
    rw [getConfigUpdateEventSinceCheckpoint, laggingEvents, laggingEvents]
    rfl
  have firstAt : first.checkpointBlock = some 10 := (laggingStep_found found (by simp)).1
  have secondAt := laggingStep_warm firstAt 20
  have thirdAt := laggingStep_warm secondAt.1 12
  have fourthAt := laggingStep_warm thirdAt.1 14
  have order := never (transition laggingStep third (configAtBlock 14))
    (by simp [history, first, second, third]) ⟨15, "third"⟩ ⟨13, "second"⟩
    (thirdAt.2.trans (congrArg _ secondAt.2)) fourthAt.2
  exact absurd order (by decide)

end Lagging

end V3Keeper
