import V3Keeper.Distributor.Quorum
import V3Keeper.Exits.Signing
import V3Keeper.Main.Services
import V3Keeper.Rewards.Winner

/-!
On whose authority the keeper submits. Every round works with the config that was read last, and
what it submits rests on votes and shares of oracles of the configs that the chain had in force.
-/

namespace V3Keeper

open Python StepRun Lts Component EventLog

variable {κ G : Type}

def configsRead (calls : List (Returned κ Int String)) : List ProtocolConfig :=
  calls.filterMap fun call => call.configCall.bind fun read => read.2.toOption

def MainAction.configCall : MainAction κ Int String → Option (ConfigCall κ)
  | .startup (.ok ()) call => some call
  | .readConfig call => some call
  | _ => none

def ProtocolConfig.Knows (config : ProtocolConfig) (address : ChecksumAddress) : Prop :=
  ∃ oracle ∈ config.oracles, oracle.address = address

def ProtocolConfig.DistinctAddresses (config : ProtocolConfig) : Prop :=
  (config.oracles.map fun oracle => oracle.address.toInt).Nodup

structure RewardsAuthorized (past : List (Returned κ Int String)) (config : ProtocolConfig)
    (submission : RewardsSubmission Int String) : Prop where
  count : submission.signers.length = config.rewardsThreshold
  distinct : submission.signers.Nodup
  body : ∀ vote ∈ submission.signers, vote.body = submission.winner
  known : ∀ vote ∈ submission.signers,
    ∃ earlier ∈ configsRead past, earlier.Knows vote.oracleAddress

structure DistributorAuthorized (config : ProtocolConfig) (input : DistributorInput Int String)
    (submission : DistributorSubmission Int String) : Prop where
  backed : ∃ chain, DistributorReads (input.call config) chain ∧
    BackedByQuorum (input.call config).replies chain submission
  known : ∀ vote ∈ submission.signers, config.Knows vote.oracleAddress

structure ExitAuthorized (settings : ExitSettings) (curve : Curve G) (config : ProtocolConfig)
    (input : ExitsInput) (exit : VoluntaryExit) : Prop where
  shares : config.exitSignatureRecoverThreshold ≤
    (entriesFor settings (input.call config) exit.validatorIndex).length
  signatures : exit.signatures =
    sharesByIndex (entriesFor settings (input.call config) exit.validatorIndex)
  known : ∀ index ∈ exit.signatures.keys, index < config.oracles.length
  reconstructs : reconstructSharedBlsSignature curve exit.signatures = .ok exit.exitSignature

/-- A task returns in a round of the config read last, and submits on the oracles' authority. -/
def Authorized (settings : ExitSettings) (curve : Curve G) (past : List (Returned κ Int String)) :
    Returned κ Int String → Prop
  | .rewards asked outcome => (configsRead past).getLast? = some asked.1 ∧
      ∀ submission, outcome.submission = some submission →
        RewardsAuthorized past asked.1 submission
  | .exits asked outcome => (configsRead past).getLast? = some asked.1 ∧
      ∀ exit ∈ outcome.submitted, ExitAuthorized settings curve asked.1 asked.2 exit
  | .distributor asked outcome => (configsRead past).getLast? = some asked.1 ∧
      ∀ submission, outcome.submission = some submission → asked.1.DistinctAddresses →
        DistributorAuthorized asked.1 asked.2 submission
  | _ => True

section Ask

variable {config : ProtocolConfig} {α β : Type}

theorem ProtocolConfig.mem_ask {answer : (oracle endpoint : Nat) → (url : String) → α}
    {reply : Oracle → List α → β} {value : β} (member : value ∈ config.ask answer reply) :
    ∃ oracle ∈ config.oracles, ∃ answers, value = reply oracle.toOracle answers := by
  obtain ⟨⟨oracle, index⟩, listed, rfl⟩ := List.mem_map.mp member
  exact ⟨oracle, List.fst_mem_of_mem_zipIdx listed, _, rfl⟩

theorem ProtocolConfig.ask_length (answer : (oracle endpoint : Nat) → (url : String) → α)
    (reply : Oracle → List α → β) : (config.ask answer reply).length = config.oracles.length := by
  rw [ProtocolConfig.ask, List.length_map, List.length_zipIdx]

theorem ProtocolConfig.ask_map {γ : Type} (answer : (oracle endpoint : Nat) → (url : String) → α)
    {reply : Oracle → List α → β} {read : β → γ} {own : Oracle → γ}
    (reads : ∀ oracle answers, read (reply oracle answers) = own oracle) :
    (config.ask answer reply).map read = config.oracles.map fun oracle => own oracle.toOracle := by
  have entries : read ∘ (fun entry : ConfigOracle × Nat => reply entry.1.toOracle
      (entry.1.endpoints.zipIdx.map fun endpoint => answer entry.2 endpoint.2 endpoint.1)) =
      (fun oracle : ConfigOracle => own oracle.toOracle) ∘ Prod.fst :=
    funext fun entry => reads _ _
  rw [ProtocolConfig.ask, List.map_map, entries, ← List.map_map, List.zipIdx_map_fst]

end Ask

section Rewards

variable {cache : RewardsCache Int String} {asked : RewardsAsked Int String}

theorem prepareRewards_known {vote : RewardVote Int String}
    (stored : vote ∈ (prepareRewards cache (asked.2.call asked.1).toRewardsReads).2.votes) :
    vote ∈ cache.votes ∨ asked.1.Knows vote.oracleAddress := by
  rcases prepareRewards_cases cache (asked.2.call asked.1).toRewardsReads with
    ⟨-, kept, -⟩ | ⟨nonce, current, counts, updated, -⟩
  · rw [kept] at stored
    exact Or.inl stored
  · rw [updated] at stored
    refine (RewardsCache.mem_update stored).imp_right fun fresh => ?_
    have listed := counts.addresses.subset (List.mem_map_of_mem fresh)
    have oracles : (asked.2.call asked.1).replies.map (fun reply => reply.oracle.address) =
        asked.1.oracles.map fun oracle => oracle.toOracle.address :=
      asked.1.ask_map asked.2.endpoint fun _ _ => rfl
    rw [oracles] at listed
    exact List.mem_map.mp listed

theorem rewardsHalves_first (cache : RewardsCache Int String) (asked : RewardsAsked Int String) :
    (rewardsHalves.first cache asked).2 =
        (prepareRewards cache (asked.2.call asked.1).toRewardsReads).2 ∧
      (∀ outcome, (rewardsHalves.first cache asked).1 = .inl outcome →
        outcome.submission = none) ∧
      ∀ submission, (rewardsHalves.first cache asked).1 = .inr submission →
        chooseSubmission (prepareRewards cache (asked.2.call asked.1).toRewardsReads).2
          asked.1.rewardsThreshold = .ok (some submission) := by
  have submits : ∀ submission,
      (prepareRewards cache (asked.2.call asked.1).toRewardsReads).1 = .ok (some submission) →
        chooseSubmission (prepareRewards cache (asked.2.call asked.1).toRewardsReads).2
          asked.1.rewardsThreshold = .ok (some submission) := by
    intro submission prepared
    rcases prepareRewards_cases cache (asked.2.call asked.1).toRewardsReads with
      ⟨-, -, nothing⟩ | ⟨nonce, current, -, updated, chosen⟩
    · exact absurd prepared (nothing submission)
    · rw [updated]
      exact ((chosen submission).mp prepared).2
  simp only [rewardsHalves]
  rcases prepared : prepareRewards cache (asked.2.call asked.1).toRewardsReads with
    ⟨error | _ | submission, updated⟩
  · exact ⟨rfl, fun outcome ends => by cases ends; rfl, fun submission halfway => by cases halfway⟩
  · exact ⟨rfl, fun outcome ends => by cases ends; rfl, fun submission halfway => by cases halfway⟩
  · refine ⟨rfl, fun outcome ends => (by cases ends), fun other halfway => ?_⟩
    cases halfway
    rw [prepared] at submits
    exact submits submission rfl

theorem finishRewards_votes {submission : RewardsSubmission Int String}
    {receipt : Except PyError (Option TxReceipt)} {vote : RewardVote Int String}
    (left : vote ∈ (finishRewards submission receipt cache).2.votes) : vote ∈ cache.votes := by
  unfold finishRewards at left
  split at left
  case h_1 => exact left
  case h_2 => cases left

theorem finishRewards_submission (submission : RewardsSubmission Int String)
    (receipt : Except PyError (Option TxReceipt)) (cache : RewardsCache Int String) :
    (finishRewards submission receipt cache).1.submission = some submission := by
  unfold finishRewards
  split <;> rfl

end Rewards

structure Backing (past : List (Returned κ Int String)) (keeper : Keeper κ Int String) : Prop where
  round : ∀ round, keeper.round = some round → (configsRead past).getLast? = some round.config
  cached : ∀ vote ∈ keeper.rewardsCache.votes,
    ∃ config ∈ configsRead past, config.Knows vote.oracleAddress
  halfway : ∀ round asked submission, keeper.round = some round →
    round.rewards = .underway asked submission → asked.1 = round.config ∧
      chooseSubmission keeper.rewardsCache round.config.rewardsThreshold = .ok (some submission)

theorem Backing.initial [Inhabited κ] : Backing [] (Keeper.initial : Keeper κ Int String) where
  round round inRound := by cases inRound
  cached vote stored := by cases stored
  halfway round asked submission inRound := by cases inRound

section Steps

variable {settings : MainSettings} {build : κ → Nat → Except PyError ProtocolConfig}
  {curve : Curve G} {past : List (Returned κ Int String)} {keeper : Keeper κ Int String}
  {round : Round Int String}

theorem configsRead_append (past more : List (Returned κ Int String)) :
    configsRead (past ++ more) = configsRead past ++ configsRead more := by
  rw [configsRead, List.filterMap_append]
  rfl

theorem Backing.current (backing : Backing past keeper) (inRound : keeper.round = some round) :
    round.config ∈ configsRead past :=
  List.mem_of_getLast? (backing.round round inRound)

theorem Backing.between (backing : Backing past keeper) {turn : Turn κ Int String}
    (between : Between settings build keeper turn) : Backing (past ++ turn.2) turn.1 := by
  constructor
  · intro next entered
    obtain ⟨-, call, returns⟩ := between.entered next entered
    rw [returns, configsRead_append]
    exact List.getLast?_concat
  · intro vote stored
    rw [between.rewardsCache] at stored
    obtain ⟨config, read, knows⟩ := backing.cached vote stored
    exact ⟨config, by rw [configsRead_append]; exact List.mem_append_left _ read, knows⟩
  · intro next asked submission entered halfway
    have idle := (between.after next entered).rewards
    rw [halfway] at idle
    cases idle

theorem Backing.inRound (backing : Backing past keeper) (inRound : keeper.round = some round)
    {later : Keeper κ Int String} {next : Round Int String} {calls : List (Returned κ Int String)}
    (tasks : configsRead calls = []) (config : next.config = round.config)
    (cached : ∀ vote ∈ later.rewardsCache.votes,
      vote ∈ keeper.rewardsCache.votes ∨ round.config.Knows vote.oracleAddress)
    (halfway : ∀ asked submission, next.rewards = .underway asked submission →
      asked.1 = round.config ∧ chooseSubmission later.rewardsCache round.config.rewardsThreshold =
        .ok (some submission)) :
    Backing (past ++ calls) (later.inRound next) := by
  have same : configsRead (past ++ calls) = configsRead past := by
    rw [configsRead_append, tasks, List.append_nil]
  constructor
  · intro other entered
    cases entered
    rw [same, config]
    exact backing.round round inRound
  · intro vote stored
    rw [same]
    rcases cached vote stored with old | known
    · exact backing.cached vote old
    · exact ⟨round.config, backing.current inRound, known⟩
  · intro other asked submission entered underway
    cases entered
    rw [config]
    exact halfway asked submission underway

theorem Backing.other (backing : Backing past keeper) (inRound : keeper.round = some round)
    {later : Keeper κ Int String} {next : Round Int String} {calls : List (Returned κ Int String)}
    (tasks : configsRead calls = []) (config : next.config = round.config)
    (cache : later.rewardsCache = keeper.rewardsCache) (status : next.rewards = round.rewards) :
    Backing (past ++ calls) (later.inRound next) := by
  refine backing.inRound inRound tasks config (fun vote stored => Or.inl (cache ▸ stored)) ?_
  intro asked submission underway
  rw [cache]
  exact backing.halfway round asked submission inRound (status ▸ underway)

theorem rewardsAuthorized (backing : Backing past keeper)
    {submission : RewardsSubmission Int String}
    (chosen : chooseSubmission keeper.rewardsCache round.config.rewardsThreshold =
      .ok (some submission)) : RewardsAuthorized past round.config submission := by
  obtain ⟨count, -, distinct, signers⟩ := chooseSubmission_spec chosen
  exact ⟨count, distinct, fun vote signs => (signers vote signs).2,
    fun vote signs => backing.cached vote (signers vote signs).1⟩

theorem distributorAuthorized {config : ProtocolConfig} {input : DistributorInput Int String}
    (addresses : config.DistinctAddresses) {submission : DistributorSubmission Int String}
    (submitted : (processDistributorRewards (input.call config)).submission = some submission) :
    DistributorAuthorized config input submission := by
  have distinct : DistinctOracles (input.call config).replies := by
    have replies : (input.call config).replies.map (fun reply => reply.oracle.address.toInt) =
        config.oracles.map fun oracle => oracle.toOracle.address.toInt :=
      @ProtocolConfig.ask_map config _ _ _ input.endpoint DistributorReply.mk _
        (fun oracle => oracle.address.toInt) fun _ _ => rfl
    rw [DistinctOracles, replies]
    exact addresses
  obtain ⟨chain, reads⟩ := reads_of_submission submitted
  have backed := reads.backed distinct (processDistributorRewards_submission.mp submitted)
  refine ⟨⟨chain, reads, backed⟩, fun vote signs => ?_⟩
  obtain ⟨reply, listed, -, address⟩ := backed.selected vote signs
  obtain ⟨oracle, known, answers, rfl⟩ := ProtocolConfig.mem_ask listed
  exact ⟨oracle, known, address.symm⟩

theorem exitAuthorized {exits : ExitSettings} {config : ProtocolConfig} {input : ExitsInput}
    {exit : VoluntaryExit}
    (submitted : exit ∈ (processExits exits curve (input.call config)).submitted) :
    ExitAuthorized exits curve config input exit := by
  obtain ⟨-, shares, signatures, reconstructs⟩ := mem_processExits.mp submitted
  refine ⟨shares, signatures, fun index signed => ?_, reconstructs⟩
  rw [signatures] at signed
  obtain ⟨share, listed, rfl⟩ := List.mem_map.mp (mem_sharesByIndex_keys.mp signed)
  have answered := callShares_index_lt (List.mem_of_mem_filter listed)
  rwa [ExitsInput.call, ProtocolConfig.ask_length] at answered

def AuthorizedSoFar (settings : MainSettings) (curve : Curve G)
    (past : List (Returned κ Int String)) (keeper : Keeper κ Int String) : Prop :=
  AllowedBy (Authorized settings.exits curve) past ∧ Backing past keeper

theorem AuthorizedSoFar.rewards (authorized : AuthorizedSoFar settings curve past keeper)
    (inRound : keeper.round = some round)
    {moved : Moved (RewardsCache Int String) (RewardsAsked Int String)
      (RewardsSubmission Int String) (RewardsOutcome Int String)}
    (turns : rewardsHalves.Turns round.rewards keeper.rewardsCache
      (fun asked => asked.1 = round.config) moved) :
    AuthorizedSoFar settings curve (past ++ (keeper.rewardsMoved round moved).2)
      (keeper.rewardsMoved round moved).1 := by
  obtain ⟨lawful, backing⟩ := authorized
  rcases turns with ⟨asked, config, started⟩ | finished
  · obtain ⟨updated, silent, chosen⟩ := rewardsHalves_first keeper.rewardsCache asked
    have cached : ∀ vote ∈ (rewardsHalves.first keeper.rewardsCache asked).2.votes,
        vote ∈ keeper.rewardsCache.votes ∨ round.config.Knows vote.oracleAddress := by
      intro vote stored
      rw [updated] at stored
      exact config ▸ prepareRewards_known stored
    obtain ⟨-, ⟨outcome, next, only, rfl⟩ | ⟨submission, next, halfway, rfl⟩⟩ :=
      Halves.start_cases started
    · rw [only] at cached silent
      refine ⟨lawful.concat ⟨?_, fun submission submitted => ?_⟩,
        backing.inRound inRound rfl rfl cached fun _ _ underway => by cases underway⟩
      · rw [config]
        exact backing.round round inRound
      · rw [silent outcome rfl] at submitted
        cases submitted
    · rw [halfway] at cached chosen updated
      rw [← updated, config] at chosen
      refine ⟨by simpa [Keeper.rewardsMoved] using lawful,
        backing.inRound inRound rfl rfl cached fun other own underway => ?_⟩
      cases underway
      exact ⟨config, chosen submission rfl⟩
  · obtain ⟨asked, submission, underway, rfl⟩ := Halves.finish_cases finished
    obtain ⟨config, chosen⟩ := backing.halfway round asked submission inRound underway
    refine ⟨lawful.concat ⟨?_, fun other submitted => ?_⟩,
      backing.inRound inRound rfl rfl (fun vote left => Or.inl (finishRewards_votes left))
        fun _ _ underway => by cases underway⟩
    · rw [config]
      exact backing.round round inRound
    · have same := (finishRewards_submission submission (asked.2.receipt submission)
        keeper.rewardsCache).symm.trans submitted
      cases same
      rw [config]
      exact rewardsAuthorized backing chosen

theorem AuthorizedSoFar.timed (authorized : AuthorizedSoFar settings curve past keeper)
    (inRound : keeper.round = some round) {later : Keeper κ Int String} {next : Round Int String}
    {γ : Type} {calls : List γ} {returns : γ → Returned κ Int String}
    (tasks : ∀ call, (returns call).configCall = none)
    (silent : ∀ past call, Authorized settings.exits curve past (returns call))
    (config : next.config = round.config) (cache : later.rewardsCache = keeper.rewardsCache)
    (status : next.rewards = round.rewards) :
    AuthorizedSoFar settings curve (past ++ calls.map returns) (later.inRound next) := by
  obtain ⟨lawful, backing⟩ := authorized
  refine ⟨lawful.append fun call returned before => ?_,
    backing.other inRound ?_ config cache status⟩
  · obtain ⟨own, -, rfl⟩ := List.mem_map.mp returned
    exact silent _ own
  · rw [configsRead, List.filterMap_map]
    exact List.filterMap_eq_nil_iff.mpr fun call _ => by simp [tasks]

theorem AuthorizedSoFar.next (authorized : AuthorizedSoFar settings curve past keeper)
    {action : MainAction κ Int String} {turn : Turn κ Int String}
    (moves : TurnMoves settings build curve keeper action turn) :
    AuthorizedSoFar settings curve (past ++ turn.2) turn.1 := by
  obtain ⟨lawful, backing⟩ := authorized
  rcases moves.parts with between | moves
  · refine ⟨lawful.append fun call returned before => ?_, backing.between between⟩
    obtain ⟨asked, result, rfl⟩ := between.calls call returned
    trivial
  · cases moves
    case rewards round inRound moved turns =>
      exact AuthorizedSoFar.rewards ⟨lawful, backing⟩ inRound turns
    case exits round inRound moved input started =>
      cases start_undivided started
      exact ⟨lawful.concat ⟨backing.round round inRound, fun _ => exitAuthorized⟩,
        backing.other inRound rfl rfl rfl rfl⟩
    case distributor round inRound moved input started =>
      cases start_undivided started
      exact ⟨lawful.concat ⟨backing.round round inRound,
        fun _ submitted addresses => distributorAuthorized addresses submitted⟩,
        backing.other inRound rfl rfl rfl rfl⟩
    case price round inRound moved turns =>
      exact AuthorizedSoFar.timed ⟨lawful, backing⟩ inRound (fun _ => rfl)
        (fun _ _ => trivial) rfl rfl rfl
    case forceExits round inRound moved turns =>
      exact AuthorizedSoFar.timed ⟨lawful, backing⟩ inRound (fun _ => rfl)
        (fun _ _ => trivial) rfl rfl rfl
    case ltv round inRound moved turns =>
      exact AuthorizedSoFar.timed ⟨lawful, backing⟩ inRound (fun _ => rfl)
        (fun _ _ => trivial) rfl rfl rfl

end Steps

section Calls

variable {settings : MainSettings} {build : κ → Nat → Except PyError ProtocolConfig}
  {curve : Curve G} {keeper : Keeper κ Int String} {turn : Turn κ Int String}

end Calls

end V3Keeper
