import V3Keeper.Library.StableSort
import V3Keeper.Library.StepRun
import V3Keeper.Rewards.Service

/-!
What one call of `process_rewards` does, for values of any kind: which votes it counts,
what it caches and whose signatures it submits.
-/

namespace V3Keeper

open Python StepRun StableSort

variable {τ ρ : Type*}

theorem OracleReply.mem_votes {reply : OracleReply τ ρ} {vote : RewardVote τ ρ} :
    vote ∈ reply.votes ↔ ∃ answer, .ok answer ∈ reply.endpoints ∧
      answer.toVote reply.oracle = vote := by
  rw [OracleReply.votes, List.mem_filterMap]
  constructor
  · rintro ⟨endpoint, member, found⟩
    split at found
    case h_1 => cases found
    case h_2 answer => exact ⟨answer, member, Option.some.inj found⟩
  · rintro ⟨answer, member, rfl⟩
    exact ⟨.ok answer, member, rfl⟩

variable [PyOrder τ]

theorem latestVote_mem {votes : List (RewardVote τ ρ)} {vote : RewardVote τ ρ}
    (latest : latestVote votes = .ok vote) : vote ∈ votes := by
  unfold latestVote at latest
  split at latest
  case h_1 only => exact Except.ok.inj latest ▸ List.mem_singleton.mpr rfl
  case h_2 =>
    split at latest
    case h_1 => cases latest
    case h_2 sorted sortedEq =>
      split at latest
      case h_1 => cases latest
      case h_2 last lastEq =>
        rw [← Except.ok.inj latest]
        exact (sortBy_perm sortedEq).mem_iff.mp (List.mem_of_getLast? lastEq)

variable [BEq τ]

theorem fetchVoteFromOracle_mem {reply : OracleReply τ ρ} {vote : RewardVote τ ρ}
    (fetched : fetchVoteFromOracle reply = .ok vote) : vote ∈ reply.votes := by
  unfold fetchVoteFromOracle at fetched
  split at fetched
  case h_1 => cases fetched
  case h_2 first rest votes =>
    split at fetched
    case h_1 => cases fetched
    case h_2 =>
      rw [votes]
      exact (List.mem_filter.mp (latestVote_mem fetched)).1

theorem fetchRewardVotes_cons (reply : OracleReply τ ρ) (rest : List (OracleReply τ ρ)) :
    fetchRewardVotes (reply :: rest) =
      match fetchVoteFromOracle reply with
      | .error _ => fetchRewardVotes rest
      | .ok vote => vote :: fetchRewardVotes rest := by
  rw [fetchRewardVotes, List.filterMap_cons]
  cases fetchVoteFromOracle reply <;> rfl

theorem fetchRewardVotes_addresses (replies : List (OracleReply τ ρ)) :
    ((fetchRewardVotes replies).map RewardVote.oracleAddress).Sublist
      (replies.map fun reply => reply.oracle.address) := by
  induction replies with
  | nil => exact List.Sublist.slnil
  | cons reply rest ih =>
      rw [fetchRewardVotes_cons]
      split
      case h_1 => exact ih.cons _
      case h_2 vote fetched =>
        obtain ⟨answer, -, rfl⟩ := OracleReply.mem_votes.mp (fetchVoteFromOracle_mem fetched)
        exact ih.cons_cons _

structure CountsVotes (reads : RewardsReads τ ρ) (nonce : Int) (current : List (RewardVote τ ρ)) :
    Prop where
  canUpdate : reads.canUpdate = .ok true
  nonceRead : reads.rewardsNonce = .ok nonce
  votes : currentVotes (fetchRewardVotes reads.replies) nonce = current
  nonempty : current ≠ []

theorem CountsVotes.carry_nonce {reads : RewardsReads τ ρ} {nonce : Int}
    {current : List (RewardVote τ ρ)} (counts : CountsVotes reads nonce current) :
    ∀ vote ∈ current, (vote.nonce == PyOrder.ofInt nonce) = true := by
  intro vote member
  rw [← counts.votes] at member
  simpa using (List.mem_filter.mp member).2

theorem CountsVotes.unique {reads : RewardsReads τ ρ} {nonce otherNonce : Int}
    {current other : List (RewardVote τ ρ)} (counts : CountsVotes reads nonce current)
    (otherCounts : CountsVotes reads otherNonce other) : nonce = otherNonce ∧ current = other := by
  have same := counts.nonceRead.symm.trans otherCounts.nonceRead
  cases same
  exact ⟨rfl, counts.votes.symm.trans otherCounts.votes⟩

theorem CountsVotes.addresses {reads : RewardsReads τ ρ} {nonce : Int}
    {current : List (RewardVote τ ρ)} (counts : CountsVotes reads nonce current) :
    (current.map RewardVote.oracleAddress).Sublist
      (reads.replies.map fun reply => reply.oracle.address) := by
  rw [← counts.votes, currentVotes]
  exact (List.filter_sublist.map _).trans (fetchRewardVotes_addresses _)

variable [BEq ρ]

omit [PyOrder τ] [BEq τ] [BEq ρ] in
theorem sortedByAddress_numeric (votes : List (RewardVote τ ρ)) :
    SortedBy (fun vote => vote.oracleAddress.toInt) votes (sortedByAddress votes) :=
  insertionSort_sortedBy (fun vote => vote.oracleAddress.toInt) votes

omit [PyOrder τ] in
theorem collectSigners_eq (winner : RewardVoteBody τ ρ) (threshold signaturesCount : Nat)
    (votes : List (RewardVote τ ρ)) :
    collectSigners winner threshold signaturesCount votes =
      (votes.filter fun vote => vote.body == winner).take (threshold - signaturesCount) := by
  induction votes generalizing signaturesCount with
  | nil => simp [collectSigners]
  | cons vote rest ih =>
      rw [collectSigners, List.filter_cons]
      by_cases reached : threshold ≤ signaturesCount
      · rw [if_pos reached, Nat.sub_eq_zero_of_le reached, List.take_zero]
      · rw [if_neg reached]
        by_cases agrees : (vote.body == winner) = true
        · rw [if_pos agrees, if_pos agrees, ih]
          obtain ⟨room, roomEq⟩ : ∃ room, threshold - signaturesCount = room + 1 :=
            ⟨threshold - signaturesCount - 1, by omega⟩
          rw [roomEq, List.take_succ_cons, show threshold - (signaturesCount + 1) = room by omega]
        · rw [if_neg agrees, if_neg agrees, ih]

variable [PyHash ρ]

theorem earliestWinner_mem {threshold : Nat} {rewards : List (TimestampVotes τ ρ)}
    {timestampVotes : TimestampVotes τ ρ} {winner : RewardVoteBody τ ρ}
    (found : earliestWinner threshold rewards = .ok (some (timestampVotes, winner))) :
    timestampVotes ∈ rewards := by
  induction rewards with
  | nil => simp [earliestWinner] at found
  | cons first rest ih =>
      rw [earliestWinner] at found
      split at found
      case h_1 => cases found
      case h_2 bodies _ =>
        split at found
        case h_1 => cases found
        case h_2 other count _ =>
          split at found
          case isTrue =>
            cases found
            exact List.mem_cons_self
          case isFalse => exact List.mem_cons_of_mem _ (ih found)

theorem chooseSubmission_signers {cache : RewardsCache τ ρ} {threshold : Nat}
    {submission : RewardsSubmission τ ρ}
    (chosen : chooseSubmission cache threshold = .ok (some submission)) :
    ∃ timestampVotes ∈ cache.data.values,
      findEarliestWinner cache threshold = .ok (some (timestampVotes, submission.winner)) ∧
      submission.signers = ((sortedByAddress timestampVotes.votes).filter
        fun vote => vote.body == submission.winner).take threshold := by
  unfold chooseSubmission at chosen
  split at chosen
  case h_1 => cases chosen
  case h_2 => cases chosen
  case h_3 timestampVotes winner found =>
    cases chosen
    refine ⟨timestampVotes, ?_, found, collectSigners_eq _ _ _ _⟩
    unfold findEarliestWinner at found
    split at found
    case h_1 => cases found
    case h_2 rewards sorted => exact (sortBy_perm sorted).mem_iff.mp (earliestWinner_mem found)

theorem mem_signers {cache : RewardsCache τ ρ} {threshold : Nat}
    {submission : RewardsSubmission τ ρ}
    (chosen : chooseSubmission cache threshold = .ok (some submission))
    {vote : RewardVote τ ρ} (signer : vote ∈ submission.signers) : vote ∈ cache.votes := by
  obtain ⟨timestampVotes, member, -, signers⟩ := chooseSubmission_signers chosen
  rw [signers] at signer
  have sorted := (List.mem_filter.mp (List.mem_of_mem_take signer)).1
  exact List.mem_flatMap.mpr ⟨timestampVotes, member,
    (sortedByAddress_numeric _).perm.mem_iff.mp sorted⟩

theorem prepareRewards_counts {reads : RewardsReads τ ρ} {nonce : Int}
    {current : List (RewardVote τ ρ)} (counts : CountsVotes reads nonce current)
    (cache : RewardsCache τ ρ) :
    prepareRewards cache reads =
      match cache.update current with
      | (.error error, updated) => (.error error, updated)
      | (.ok _, updated) => (chooseSubmission updated reads.rewardsThreshold, updated) := by
  obtain ⟨canUpdate, nonceRead, votes, nonempty⟩ := counts
  cases fetched : fetchRewardVotes reads.replies with
  | nil =>
      rw [fetched] at votes
      exact absurd votes.symm nonempty
  | cons vote others =>
      rw [fetched] at votes
      cases current with
      | nil => exact absurd rfl nonempty
      | cons first rest =>
          rcases updateEq : cache.update (first :: rest) with ⟨_ | _, updated⟩ <;>
            simp only [prepareRewards, canUpdate, nonceRead, fetched, votes, updateEq]

theorem prepareRewards_idle (cache : RewardsCache τ ρ) {reads : RewardsReads τ ρ}
    (idle : ∀ nonce current, ¬CountsVotes reads nonce current) :
    (prepareRewards cache reads).2 = cache ∧
      ∀ submission, (prepareRewards cache reads).1 ≠ .ok (some submission) := by
  unfold prepareRewards
  split
  case h_1 => simp
  case h_2 => simp
  case h_3 canUpdate =>
    split
    case h_1 => simp
    case h_2 vote others fetched =>
      split
      case h_1 => simp
      case h_2 nonce nonceRead =>
        split
        case h_1 => simp
        case h_2 first rest votes =>
          exact absurd ⟨canUpdate, nonceRead, by rw [fetched, votes], List.cons_ne_nil _ _⟩
            (idle nonce (first :: rest))

theorem prepareRewards_cases (cache : RewardsCache τ ρ) (reads : RewardsReads τ ρ) :
    ((∀ nonce current, ¬CountsVotes reads nonce current) ∧
        (prepareRewards cache reads).2 = cache ∧
        ∀ submission, (prepareRewards cache reads).1 ≠ .ok (some submission)) ∨
      ∃ nonce current, CountsVotes reads nonce current ∧
        (prepareRewards cache reads).2 = (cache.update current).2 ∧
        ∀ submission, (prepareRewards cache reads).1 = .ok (some submission) ↔
          (cache.update current).1 = .ok () ∧
            chooseSubmission (cache.update current).2 reads.rewardsThreshold =
              .ok (some submission) := by
  by_cases counted : ∃ nonce current, CountsVotes reads nonce current
  · obtain ⟨nonce, current, counts⟩ := counted
    refine Or.inr ⟨nonce, current, counts, ?_⟩
    rw [prepareRewards_counts counts]
    split
    case h_1 error updated updateEq => simp [updateEq]
    case h_2 updated updateEq => simp [updateEq]
  · refine Or.inl ⟨fun nonce current counts => counted ⟨nonce, current, counts⟩, ?_⟩
    exact prepareRewards_idle cache fun nonce current counts => counted ⟨nonce, current, counts⟩

theorem prepareRewards_congr (cache : RewardsCache τ ρ) (first second : RewardsReads τ ρ)
    {nonce : Int} (canUpdate : first.canUpdate = second.canUpdate)
    (firstNonce : first.rewardsNonce = .ok nonce) (secondNonce : second.rewardsNonce = .ok nonce)
    (threshold : first.rewardsThreshold = second.rewardsThreshold)
    (votes : currentVotes (fetchRewardVotes first.replies) nonce =
      currentVotes (fetchRewardVotes second.replies) nonce) :
    prepareRewards cache first = prepareRewards cache second := by
  unfold prepareRewards
  rw [canUpdate, firstNonce, secondNonce, threshold]
  cases second.canUpdate with
  | error error => rfl
  | ok allowed =>
      cases allowed with
      | false => rfl
      | true =>
          cases firstFetched : fetchRewardVotes first.replies with
          | nil =>
              cases secondFetched : fetchRewardVotes second.replies with
              | nil => rfl
              | cons vote others =>
                  rw [firstFetched, secondFetched] at votes
                  have none : currentVotes (vote :: others) nonce = [] := votes.symm
                  simp only [none]
          | cons vote others =>
              cases secondFetched : fetchRewardVotes second.replies with
              | nil =>
                  rw [firstFetched, secondFetched] at votes
                  have none : currentVotes (vote :: others) nonce = [] := votes
                  simp only [none]
              | cons next rest =>
                  rw [firstFetched, secondFetched] at votes
                  simp only [votes]

theorem processRewards_submission {cache : RewardsCache τ ρ} {call : RewardsCall τ ρ}
    {submission : RewardsSubmission τ ρ} :
    (processRewards cache call).1.submission = some submission ↔
      (prepareRewards cache call.toRewardsReads).1 = .ok (some submission) := by
  unfold processRewards
  split
  case h_1 error updated prepared => simp [prepared]
  case h_2 updated prepared => simp [prepared]
  case h_3 other updated prepared =>
    unfold finishRewards
    split <;> simp [prepared]

theorem processRewards_cache (cache : RewardsCache τ ρ) (call : RewardsCall τ ρ) :
    (processRewards cache call).2 = (prepareRewards cache call.toRewardsReads).2 ∨
      (processRewards cache call).2 = (prepareRewards cache call.toRewardsReads).2.clear := by
  unfold processRewards
  split
  case h_1 error updated prepared => simp [prepared]
  case h_2 updated prepared => simp [prepared]
  case h_3 other updated prepared =>
    unfold finishRewards
    split <;> simp [prepared]

end V3Keeper
