import V3Keeper.Library.Quorum
import V3Keeper.Rewards.Signers

/-!
What the submissions of several keepers, each with its own cache, have in common under one nonce.
-/

namespace V3Keeper

open Python StepRun Quorum

def RewardVotedIn (calls : List (RewardsCall Int String)) (nonce : Int)
    (address : ChecksumAddress) (body : RewardVoteBody Int String) : Prop :=
  ∃ call ∈ calls, ∃ reply ∈ call.replies, reply.oracle.address = address ∧
    ∃ vote ∈ reply.votes, vote.nonce = nonce ∧ vote.body = body

/-- The runs of some keepers under one nonce of the contract. Oracles that are not faulty keep to
one body for a timestamp, and no oracle signs a body again that a keeper has cached. -/
structure KeeperRuns (runs : List (List (RewardsCall Int String))) where
  oracles : List Oracle
  nonce : Int
  faulty : Finset ChecksumAddress
  distinct : (oracles.map fun oracle => oracle.address.toInt).Nodup
  under : ∀ calls ∈ runs, ∀ call ∈ calls, UnderNonce oracles nonce call.toRewardsReads
  resigns : ∀ calls ∈ runs,
    ∀ run ∈ history processRewards (RewardsCache.new defaultCacheSize) calls,
      ResignsNothing run.before run.input.toRewardsReads
  single : ∀ address ∈ oracles.map Oracle.address, address ∉ faulty → ∀ first second,
    RewardVotedIn runs.flatten nonce address first →
      RewardVotedIn runs.flatten nonce address second →
        first.updateTimestamp = second.updateTimestamp → first = second

def CachedFrom (calls : List (RewardsCall Int String)) (nonce : Int)
    (cache : RewardsCache Int String) : Prop :=
  ∀ vote ∈ cache.votes, RewardVotedIn calls nonce vote.oracleAddress vote.body

theorem CountsVotes.voted {calls : List (RewardsCall Int String)} {call : RewardsCall Int String}
    (member : call ∈ calls) {nonce : Int} {current : List (RewardVote Int String)}
    (counts : CountsVotes call.toRewardsReads nonce current) {vote : RewardVote Int String}
    (counted : vote ∈ current) : RewardVotedIn calls nonce vote.oracleAddress vote.body := by
  have carries : vote.nonce = nonce := eq_of_beq (counts.carry_nonce vote counted)
  rw [← counts.votes] at counted
  obtain ⟨reply, listed, found⟩ := List.mem_filterMap.mp (List.mem_filter.mp counted).1
  split at found
  case h_1 => cases found
  case h_2 fetched =>
    cases found
    have replied := fetchVoteFromOracle_mem fetched
    obtain ⟨answer, -, rfl⟩ := OracleReply.mem_votes.mp replied
    exact ⟨call, member, reply, listed, rfl, _, replied, carries, rfl⟩

theorem CachedFrom.next {calls : List (RewardsCall Int String)} {nonce : Int}
    {cache : RewardsCache Int String} (cached : CachedFrom calls nonce cache)
    {call : RewardsCall Int String} (member : call ∈ calls)
    (carries : ∀ read, call.rewardsNonce = .ok read → read = nonce) :
    CachedFrom calls nonce (prepareRewards cache call.toRewardsReads).2 ∧
      CachedFrom calls nonce (processRewards cache call).2 := by
  have prepared : CachedFrom calls nonce (prepareRewards cache call.toRewardsReads).2 := by
    rcases prepareRewards_cases cache call.toRewardsReads with
      ⟨-, kept, -⟩ | ⟨read, current, counts, updated, -⟩
    · rw [kept]
      exact cached
    · rw [updated]
      intro vote stored
      rcases RewardsCache.mem_update stored with old | new
      · exact cached vote old
      · exact carries read counts.nonceRead ▸ counts.voted member new
  refine ⟨prepared, ?_⟩
  rcases processRewards_cache cache call with same | cleared
  · rw [same]
    exact prepared
  · rw [cleared]
    intro vote stored
    rw [RewardsCache.votes_clear] at stored
    cases stored

namespace KeeperRuns

variable {runs : List (List (RewardsCall Int String))}

def assembly (keepers : KeeperRuns runs) (updateTimestamp : Int) :
    Assembly ChecksumAddress (RewardVoteBody Int String) where
  parties := (keepers.oracles.map Oracle.address).toFinset
  faulty := keepers.faulty
  votesFor address body := RewardVotedIn runs.flatten keepers.nonce address body ∧
    body.updateTimestamp = updateTimestamp
  single := by
    rintro address known correct first second ⟨firstVoted, firstAt⟩ ⟨secondVoted, secondAt⟩
    exact keepers.single address (List.mem_toFinset.mp known) correct first second firstVoted
      secondVoted (firstAt.trans secondAt.symm)

theorem known (keepers : KeeperRuns runs) {address : ChecksumAddress}
    {body : RewardVoteBody Int String}
    (voted : RewardVotedIn runs.flatten keepers.nonce address body) :
    address ∈ keepers.oracles.map Oracle.address := by
  obtain ⟨call, member, reply, listed, rfl, -⟩ := voted
  obtain ⟨calls, keeper, called⟩ := List.mem_flatten.mp member
  rw [← (keepers.under calls keeper call called).oracles, List.map_map]
  exact List.mem_map_of_mem listed

theorem invariants (keepers : KeeperRuns runs) {calls : List (RewardsCall Int String)}
    (keeper : calls ∈ runs) {run : RewardsRun Int String}
    (member : run ∈ history processRewards (RewardsCache.new defaultCacheSize) calls) :
    OneVotePerBody keepers.oracles keepers.nonce run.before ∧
      CachedFrom runs.flatten keepers.nonce run.before := by
  refine ((invariant_of_guarded processRewards
    (fun run => run.input ∈ calls ∧ ResignsNothing run.before run.input.toRewardsReads)
    (fun cache => OneVotePerBody keepers.oracles keepers.nonce cache ∧
      CachedFrom runs.flatten keepers.nonce cache)
    ⟨OneVotePerBody.of_empty rfl, ?_⟩ ?_ calls ?_).1 run member).1
  · intro vote stored
    cases stored
  · rintro cache call ⟨single, cached⟩ ⟨called, resigns⟩
    have under := keepers.under calls keeper call called
    exact ⟨(single.next keepers.distinct under resigns).1,
      (cached.next (List.mem_flatten_of_mem keeper called) under.nonce).2⟩
  · exact fun run member => ⟨input_mem processRewards member,
      keepers.resigns calls keeper run member⟩

theorem backed (keepers : KeeperRuns runs) {calls : List (RewardsCall Int String)}
    (keeper : calls ∈ runs) {run : RewardsRun Int String}
    (member : run ∈ history processRewards (RewardsCache.new defaultCacheSize) calls)
    {submission : RewardsSubmission Int String}
    (submitted : run.output.submission = some submission) :
    (keepers.assembly submission.winner.updateTimestamp).Backed run.input.rewardsThreshold
      submission.winner := by
  have called := input_mem processRewards member
  have under := keepers.under calls keeper run.input called
  obtain ⟨single, cached⟩ := keepers.invariants keeper member
  rw [mem_history_eq processRewards member, transition_output] at submitted
  have quorum := (single.next keepers.distinct under (keepers.resigns calls keeper run member)).2
    submission submitted
  have voted : ∀ vote ∈ submission.signers,
      RewardVotedIn runs.flatten keepers.nonce vote.oracleAddress submission.winner := by
    intro vote signs
    rw [← quorum.bodies vote signs]
    refine (cached.next (List.mem_flatten_of_mem keeper called) under.nonce).1 vote ?_
    rcases prepareRewards_cases run.before run.input.toRewardsReads with
      ⟨-, -, nothing⟩ | ⟨read, current, -, updated, submits⟩
    · exact absurd (processRewards_submission.mp submitted) (nothing submission)
    · rw [updated]
      exact mem_signers ((submits submission).mp (processRewards_submission.mp submitted)).2 signs
  rw [← quorum.count, ← List.length_map RewardVote.oracleAddress]
  refine Assembly.backed_of_signers (ChecksumAddress.nodup_of_ascending quorum.ascending) ?_ ?_
  · rw [List.forall_mem_map]
    exact fun vote signs => List.mem_toFinset.mpr (keepers.known (voted vote signs))
  · rw [List.forall_mem_map]
    exact fun vote signs => ⟨voted vote signs, rfl⟩

theorem parties_card_le (keepers : KeeperRuns runs) (updateTimestamp : Int) :
    (keepers.assembly updateTimestamp).parties.card ≤ keepers.oracles.length :=
  (List.toFinset_card_le _).trans (List.length_map _).le

end KeeperRuns

/-- Outnumbered faulty oracles cannot have a body of their own submitted, and where any two
quorums share an oracle that is not faulty, the keepers submit one body for a timestamp. -/
theorem rewardSubmissions_agree {runs : List (List (RewardsCall Int String))}
    (keepers : KeeperRuns runs) {calls : List (RewardsCall Int String)} (keeper : calls ∈ runs)
    {run : RewardsRun Int String}
    (member : run ∈ history processRewards (RewardsCache.new defaultCacheSize) calls)
    {submission : RewardsSubmission Int String}
    (submitted : run.output.submission = some submission) :
    (keepers.faulty.card < run.input.rewardsThreshold →
      ∃ oracle ∈ keepers.oracles, oracle.address ∉ keepers.faulty ∧
        RewardVotedIn runs.flatten keepers.nonce oracle.address submission.winner) ∧
    ∀ otherCalls ∈ runs,
      ∀ other ∈ history processRewards (RewardsCache.new defaultCacheSize) otherCalls,
        ∀ otherSubmission, other.output.submission = some otherSubmission →
          otherSubmission.winner.updateTimestamp = submission.winner.updateTimestamp →
          keepers.oracles.length + keepers.faulty.card <
            run.input.rewardsThreshold + other.input.rewardsThreshold →
          otherSubmission.winner = submission.winner := by
  have backed := keepers.backed keeper member submitted
  constructor
  · intro outnumbered
    obtain ⟨address, known, correct, voted, -⟩ := backed.correct outnumbered
    obtain ⟨oracle, listed, rfl⟩ := List.mem_map.mp (List.mem_toFinset.mp known)
    exact ⟨oracle, listed, correct, voted⟩
  · intro otherCalls otherKeeper other otherMember otherSubmission otherSubmitted same overlap
    have otherBacked := keepers.backed otherKeeper otherMember otherSubmitted
    rw [same] at otherBacked
    exact (backed.agree otherBacked ((Nat.add_le_add_right
      (keepers.parties_card_le _) _).trans_lt overlap)).symm

/-- Two of the four oracles answer a keeper late, the first one repeats its vote, and the fourth
one votes otherwise to the first of the two keepers. Three of the four are asked for. -/
theorem rewardSubmissions_agree_four :
    let oracle (digit : Char) (hex : isHexDigit digit = true) : Oracle :=
      ⟨"0x01", .ofDigit digit hex⟩
    let silent : Except PyError (VoteReply Int String) := .error .requestError
    let votes (root : String) : Except PyError (VoteReply Int String) :=
      .ok ⟨5, [1], ⟨1700000000, root, "Qm", 1000⟩⟩
    let call (first second third fourth : Except PyError (VoteReply Int String)) :
        RewardsCall Int String :=
      { canUpdate := .ok true
        replies := [⟨oracle '1' rfl, [first]⟩, ⟨oracle '2' rfl, [second]⟩,
          ⟨oracle '3' rfl, [third]⟩, ⟨oracle '4' rfl, [fourth]⟩]
        rewardsNonce := .ok 5
        rewardsThreshold := 3
        receipt := fun _ => .error .requestError }
    let early := [call (votes "0x01") (votes "0x01") silent silent,
      call (votes "0x01") silent (votes "0x01") (votes "0x02")]
    let late := [call (votes "0x01") silent silent (votes "0x01"),
      call (votes "0x01") (votes "0x01") silent silent]
    ∃ run ∈ history processRewards (RewardsCache.new defaultCacheSize) early,
      ∃ submission, run.output.submission = some submission ∧
        (∃ address, RewardVotedIn [early, late].flatten 5 address submission.winner) ∧
        ∃ other ∈ history processRewards (RewardsCache.new defaultCacheSize) late,
          ∃ otherSubmission, other.output.submission = some otherSubmission ∧
            otherSubmission.winner = submission.winner := by
  intro oracle silent votes call early late
  let oracles := [oracle '1' rfl, oracle '2' rfl, oracle '3' rfl, oracle '4' rfl]
  let faulty : Finset ChecksumAddress := {(oracle '4' rfl).address}
  have keep : ∀ asked ∈ [early, late].flatten, ∀ reply ∈ asked.replies,
      reply.oracle.address ≠ (oracle '4' rfl).address →
        ∀ vote ∈ reply.votes, (vote.body == ⟨1700000000, "0x01", "Qm", 1000⟩) = true := by decide
  have called : ∀ calls ∈ [early, late], ∀ asked ∈ calls,
      ∃ first second third fourth, asked = call first second third fourth := by
    simp only [List.forall_mem_cons, early, late]
    refine ⟨⟨⟨_, _, _, _, rfl⟩, ⟨_, _, _, _, rfl⟩, by simp⟩,
      ⟨⟨_, _, _, _, rfl⟩, ⟨_, _, _, _, rfl⟩, by simp⟩, by simp⟩
  have signatures : ∀ calls ∈ [early, late],
      ∀ run ∈ history processRewards (RewardsCache.new defaultCacheSize) calls,
        (∀ vote ∈ currentVotes (fetchRewardVotes run.input.replies) 5, vote.signature = [1]) ∧
          ∀ vote ∈ run.before.votes, vote.signature = [1] := by
    simp only [List.forall_mem_cons, early, late, history]
    decide
  let keepers : KeeperRuns [early, late] :=
    { oracles := oracles
      nonce := 5
      faulty := faulty
      distinct := by decide
      under := by
        intro calls keeper asked member
        obtain ⟨first, second, third, fourth, rfl⟩ := called calls keeper asked member
        exact ⟨rfl, fun read same => (Except.ok.inj same).symm⟩
      resigns := by
        intro calls keeper run member nonce current counts fresh freshMember cached stored _ _
        obtain ⟨signed, cachedSigned⟩ := signatures calls keeper run member
        obtain ⟨first, second, third, fourth, asked⟩ :=
          called calls keeper run.input (input_mem processRewards member)
        have nonceRead : (.ok 5 : Except PyError Int) = .ok nonce := by
          rw [← counts.nonceRead, asked]
        cases nonceRead
        have signs := counts.votes ▸ signed
        rw [signs fresh freshMember, cachedSigned cached stored]
      single := by
        intro address _ correct first second
        rintro ⟨asked, member, reply, listed, rfl, vote, votesFor, -, rfl⟩
        rintro ⟨again, memberToo, other, listedToo, same, otherVote, otherVotesFor, -, rfl⟩ _
        have apart : reply.oracle.address ≠ (oracle '4' rfl).address :=
          fun same => correct (Finset.mem_singleton.mpr same)
        rw [eq_of_beq (keep asked member reply listed apart vote votesFor),
          eq_of_beq (keep again memberToo other listedToo (same ▸ apart) otherVote
            otherVotesFor)] }
  have submits : ∀ calls ∈ [early, late],
      ∃ run ∈ history processRewards (RewardsCache.new defaultCacheSize) calls,
        run.input.rewardsThreshold = 3 ∧
          run.output.submission.map (fun submission => submission.winner.updateTimestamp) =
            some 1700000000 := by decide
  have lateKeeper : late ∈ [early, late] := by simp
  obtain ⟨run, member, threshold, winner⟩ := submits early List.mem_cons_self
  obtain ⟨submission, submitted, timestamp⟩ := Option.map_eq_some_iff.mp winner
  obtain ⟨other, otherMember, otherThreshold, otherWinner⟩ := submits late lateKeeper
  obtain ⟨otherSubmission, otherSubmitted, otherTimestamp⟩ := Option.map_eq_some_iff.mp otherWinner
  obtain ⟨correct, agree⟩ := rewardSubmissions_agree keepers List.mem_cons_self member submitted
  obtain ⟨voter, -, -, voted⟩ := correct (by rw [threshold]; exact (by decide : 1 < 3))
  refine ⟨run, member, submission, submitted, ⟨voter.address, voted⟩, other, otherMember,
    otherSubmission, otherSubmitted, ?_⟩
  exact agree late lateKeeper other otherMember otherSubmission otherSubmitted
    (otherTimestamp.trans timestamp.symm)
    (by rw [threshold, otherThreshold]; exact (by decide : 4 + 1 < 3 + 3))

end V3Keeper
