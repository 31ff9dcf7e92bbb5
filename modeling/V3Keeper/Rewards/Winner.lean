import V3Keeper.Rewards.CacheLaws
import V3Keeper.Rewards.Laws

/-!
The winner of well-typed votes: `_find_earliest_winner` finds one exactly where some
body has enough cached votes, and the signature loop collects as many as asked for.
-/

namespace V3Keeper

open Python

variable {τ ρ : Type*} [BEq τ] [BEq ρ]

def supporters (votes : List (RewardVote τ ρ)) (body : RewardVoteBody τ ρ) :
    List (RewardVote τ ρ) := votes.filter fun vote => vote.body == body

theorem count_bodies (votes : List (RewardVote τ ρ)) (body : RewardVoteBody τ ρ) :
    (votes.map RewardVote.body).count body = (supporters votes body).length :=
  count_map RewardVote.body votes body

theorem mem_supporters [LawfulBEq τ] [LawfulBEq ρ] {votes : List (RewardVote τ ρ)}
    {body : RewardVoteBody τ ρ} {vote : RewardVote τ ρ} :
    vote ∈ supporters votes body ↔ vote ∈ votes ∧ vote.body = body := by
  rw [supporters, List.mem_filter, beq_iff_eq]

theorem supporters_perm [LawfulBEq τ] [LawfulBEq ρ] {cache : RewardsCache τ ρ}
    {timestampVotes : TimestampVotes τ ρ} (member : timestampVotes ∈ cache.data.values)
    {body : RewardVoteBody τ ρ} (supported : supporters timestampVotes.votes body ≠ []) :
    (supporters timestampVotes.votes body).Perm (supporters cache.votes body) := by
  obtain ⟨entry, entryMember, rfl⟩ := List.mem_map.mp member
  obtain ⟨supporter, supports⟩ := List.exists_mem_of_ne_nil _ supported
  obtain ⟨inside, supporterBody⟩ := mem_supporters.mp supports
  have key : entry.1 = body.updateTimestamp := by
    rw [RewardsCache.entry_keyed entryMember inside, supporterBody]
  refine (List.perm_ext_iff_of_nodup (entry.2.votes_nodup.filter _)
    (cache.votes_nodup.filter _)).mpr fun vote => ?_
  change vote ∈ supporters _ _ ↔ vote ∈ supporters _ _
  rw [mem_supporters, mem_supporters, RewardsCache.mem_votes]
  constructor
  · rintro ⟨voteInside, same⟩
    exact ⟨⟨entry, entryMember, voteInside⟩, same⟩
  · rintro ⟨⟨other, otherMember, voteInside⟩, same⟩
    have otherKey := RewardsCache.entry_keyed otherMember voteInside
    rw [same, ← key] at otherKey
    rw [PyDict.entry_unique otherMember entryMember otherKey] at voteInside
    exact ⟨voteInside, same⟩

section Plain

variable [LinearOrder τ] [PyOrder τ] [PlainOrder τ]

theorem rewards_spec (cache : RewardsCache τ ρ) :
    ∃ rewards, cache.rewards = .ok rewards ∧ rewards.Perm cache.data.values ∧
      rewards.Pairwise fun first second =>
        first.first.body.updateTimestamp ≤ second.first.body.updateTimestamp :=
  ⟨_, sortBy_eq _ _, List.perm_insertionSort _ _, pairwise_sorted_by _ _⟩

variable [PyHash ρ] [PlainHash ρ]

theorem counter_bodies (timestampVotes : TimestampVotes τ ρ) :
    ∃ bodies winner, counter (timestampVotes.votes.map RewardVote.body) = .ok bodies ∧
      mostCommon bodies = some (winner, (supporters timestampVotes.votes winner).length) ∧
      ∀ body, (supporters timestampVotes.votes body).length ≤
        (supporters timestampVotes.votes winner).length := by
  have hashed : (timestampVotes.votes.map RewardVote.body).all PyHash.hashable = true := by
    rw [List.all_eq_true]
    intro body _
    simp [PyHash.hashable, PlainHash.hashable_eq]
  obtain ⟨bodies, winner, counted, first, greatest⟩ :=
    counter_mostCommon hashed (List.cons_ne_nil _ _)
  refine ⟨bodies, winner, counted, ?_, ?_⟩
  · rw [first, count_bodies]
  · intro body
    rw [← count_bodies, ← count_bodies]
    exact greatest body

theorem earliestWinner_spec (threshold : Nat) (rewards : List (TimestampVotes τ ρ)) :
    (earliestWinner threshold rewards = .ok none ∧
      ∀ other ∈ rewards, ∀ body, (supporters other.votes body).length < threshold) ∨
    ∃ before found after winner, rewards = before ++ found :: after ∧
      earliestWinner threshold rewards = .ok (some (found, winner)) ∧
      (∀ other ∈ before, ∀ body, (supporters other.votes body).length < threshold) ∧
      threshold ≤ (supporters found.votes winner).length ∧
      ∀ body, (supporters found.votes body).length ≤ (supporters found.votes winner).length := by
  induction rewards with
  | nil => exact Or.inl ⟨rfl, by simp⟩
  | cons first rest ih =>
      obtain ⟨bodies, winner, counted, common, greatest⟩ := counter_bodies first
      have step : earliestWinner threshold (first :: rest) =
          if canSubmit (supporters first.votes winner).length threshold then
            .ok (some (first, winner)) else earliestWinner threshold rest := by
        simp only [earliestWinner, counted, common]
      by_cases enough : threshold ≤ (supporters first.votes winner).length
      · rw [step, canSubmit, decide_eq_true enough, if_pos rfl]
        exact Or.inr ⟨[], first, rest, winner, rfl, rfl, by simp, enough, greatest⟩
      · rw [step, canSubmit, decide_eq_false enough, if_neg (by simp)]
        have below : ∀ body, (supporters first.votes body).length < threshold :=
          fun body => (greatest body).trans_lt (Nat.not_le.mp enough)
        rcases ih with ⟨nothing, few⟩ | ⟨before, found, after, other, split, result, earlier, rest⟩
        · exact Or.inl ⟨nothing, List.forall_mem_cons.mpr ⟨below, few⟩⟩
        · exact Or.inr ⟨first :: before, found, after, other, by rw [split]; rfl, result,
            List.forall_mem_cons.mpr ⟨below, earlier⟩, rest⟩

theorem chooseSubmission_iff (cache : RewardsCache τ ρ) {threshold : Nat}
    (positive : 0 < threshold) :
    (∃ submission, chooseSubmission cache threshold = .ok (some submission)) ↔
      ∃ body, threshold ≤ (supporters cache.votes body).length := by
  obtain ⟨rewards, sorted, perm, -⟩ := rewards_spec cache
  have enough : ∀ timestampVotes ∈ cache.data.values, ∀ body,
      threshold ≤ (supporters timestampVotes.votes body).length →
        threshold ≤ (supporters cache.votes body).length := by
    intro timestampVotes member body bound
    rwa [← (supporters_perm member (List.length_pos_iff.mp (positive.trans_le bound))).length_eq]
  rcases earliestWinner_spec threshold rewards with
    ⟨nothing, few⟩ | ⟨before, found, after, winner, split, result, -, bound, -⟩
  · have result : chooseSubmission cache threshold = .ok none := by
      simp only [chooseSubmission, findEarliestWinner, sorted, nothing]
    refine iff_of_false (by simp [result]) ?_
    rintro ⟨body, bound⟩
    obtain ⟨vote, supports⟩ :=
      List.exists_mem_of_length_pos (positive.trans_le bound)
    obtain ⟨member, voteBody⟩ := mem_supporters.mp supports
    obtain ⟨timestampVotes, value, inside⟩ := List.mem_flatMap.mp member
    have same := supporters_perm value
      (List.ne_nil_of_mem (mem_supporters.mpr ⟨inside, voteBody⟩))
    have below := few timestampVotes (perm.mem_iff.mpr value) body
    rw [same.length_eq] at below
    exact absurd bound (Nat.not_le.mpr below)
  · have chosen : chooseSubmission cache threshold = .ok (some ⟨winner,
        collectSigners winner threshold 0 (sortedByAddress found.votes)⟩) := by
      simp only [chooseSubmission, findEarliestWinner, sorted, result]
    refine iff_of_true ⟨_, chosen⟩ ?_
    have value : found ∈ cache.data.values := perm.mem_iff.mp (by simp [split])
    exact ⟨winner, enough found value winner bound⟩

theorem collectSigners_spec {timestampVotes : TimestampVotes τ ρ} {winner : RewardVoteBody τ ρ}
    {threshold : Nat} (enough : threshold ≤ (supporters timestampVotes.votes winner).length) :
    (collectSigners winner threshold 0 (sortedByAddress timestampVotes.votes)).length =
        threshold ∧
      ((collectSigners winner threshold 0 (sortedByAddress timestampVotes.votes)).Pairwise
        fun first second => first.oracleAddress.toInt ≤ second.oracleAddress.toInt) ∧
      (collectSigners winner threshold 0 (sortedByAddress timestampVotes.votes)).Nodup ∧
      ∀ vote ∈ collectSigners winner threshold 0 (sortedByAddress timestampVotes.votes),
        vote ∈ timestampVotes.votes ∧ vote.body = winner := by
  obtain ⟨order, ascending, -⟩ := sortedByAddress_numeric timestampVotes.votes
  have taken := List.take_sublist threshold
    ((sortedByAddress timestampVotes.votes).filter fun vote => vote.body == winner)
  rw [collectSigners_eq, Nat.sub_zero]
  refine ⟨?_, ?_, ?_, ?_⟩
  · rw [List.length_take, (order.filter _).length_eq]
    exact Nat.min_eq_left enough
  · exact (ascending.filter _).sublist taken
  · exact ((order.nodup_iff.mpr timestampVotes.votes_nodup).filter _).sublist taken
  · intro vote member
    obtain ⟨inside, same⟩ := List.mem_filter.mp (List.mem_of_mem_take member)
    exact ⟨order.mem_iff.mp inside, eq_of_beq same⟩

theorem chooseSubmission_spec {cache : RewardsCache τ ρ} {threshold : Nat}
    {submission : RewardsSubmission τ ρ}
    (chosen : chooseSubmission cache threshold = .ok (some submission)) :
    submission.signers.length = threshold ∧
      (submission.signers.Pairwise fun first second =>
        first.oracleAddress.toInt ≤ second.oracleAddress.toInt) ∧
      submission.signers.Nodup ∧
      ∀ vote ∈ submission.signers, vote ∈ cache.votes ∧ vote.body = submission.winner := by
  obtain ⟨timestampVotes, value, found, signers⟩ := chooseSubmission_signers chosen
  obtain ⟨rewards, sorted, -, -⟩ := rewards_spec cache
  have bound : threshold ≤ (supporters timestampVotes.votes submission.winner).length := by
    rw [findEarliestWinner, sorted] at found
    dsimp only at found
    rcases earliestWinner_spec threshold rewards with
      ⟨nothing, -⟩ | ⟨before, other, after, winner, -, result, -, bound, -⟩
    · rw [nothing] at found
      cases found
    · rw [result] at found
      cases found
      exact bound
  obtain ⟨length, ascending, distinct, members⟩ := collectSigners_spec bound
  rw [collectSigners_eq, Nat.sub_zero, ← signers] at length ascending distinct members
  exact ⟨length, ascending, distinct, fun vote member =>
    ⟨List.mem_flatMap.mpr ⟨timestampVotes, value, (members vote member).1⟩,
      (members vote member).2⟩⟩

def TimestampVotes.HasQuorum (timestampVotes : TimestampVotes τ ρ) (threshold : Nat) : Prop :=
  ∃ body, threshold ≤ (timestampVotes.votes.map RewardVote.body).count body

structure EarliestWinner (cache : RewardsCache τ ρ) (threshold : Nat)
    (timestampVotes : TimestampVotes τ ρ) (winner : RewardVoteBody τ ρ) : Prop where
  cached : (winner.updateTimestamp, timestampVotes) ∈ cache.data.entries
  earliest : ∀ other ∈ cache.data.entries, other.2.HasQuorum threshold →
    winner.updateTimestamp ≤ other.1
  greatest : ∀ body, (timestampVotes.votes.map RewardVote.body).count body ≤
    (timestampVotes.votes.map RewardVote.body).count winner
  enough : threshold ≤ (timestampVotes.votes.map RewardVote.body).count winner

theorem findEarliestWinner_cases (cache : RewardsCache τ ρ) (threshold : Nat) :
    (findEarliestWinner cache threshold = .ok none ∧
      ¬∃ timestampVotes ∈ cache.data.values, timestampVotes.HasQuorum threshold) ∨
    ∃ timestampVotes winner,
      findEarliestWinner cache threshold = .ok (some (timestampVotes, winner)) ∧
      EarliestWinner cache threshold timestampVotes winner := by
  obtain ⟨rewards, sorted, perm, ascending⟩ := rewards_spec cache
  simp only [findEarliestWinner, sorted]
  rcases earliestWinner_spec threshold rewards with
    ⟨nothing, few⟩ | ⟨before, found, after, winner, split, result, earlier, enough, greatest⟩
  · refine Or.inl ⟨nothing, ?_⟩
    rintro ⟨timestampVotes, member, body, quorum⟩
    rw [count_bodies] at quorum
    exact absurd quorum (Nat.not_le.mpr (few _ (perm.mem_iff.mpr member) body))
  · refine Or.inr ⟨found, winner, result, ?_⟩
    have value : found ∈ cache.data.values := perm.mem_iff.mp (by simp [split])
    obtain ⟨entry, entryMember, rfl⟩ := List.mem_map.mp value
    have supported : 0 < (supporters entry.2.votes winner).length :=
      lt_of_lt_of_le (List.length_pos_of_mem (mem_supporters.mpr
        ⟨List.mem_cons_self, rfl⟩)) (greatest entry.2.first.body)
    obtain ⟨vote, supports⟩ := List.exists_mem_of_length_pos supported
    obtain ⟨inside, body⟩ := mem_supporters.mp supports
    have key : entry.1 = winner.updateTimestamp := by
      rw [RewardsCache.entry_keyed entryMember inside, body]
    refine ⟨key ▸ entryMember, ?_, ?_, ?_⟩
    · intro other otherMember quorum
      obtain ⟨body, many⟩ := quorum
      rw [count_bodies] at many
      have listed : other.2 ∈ rewards := perm.mem_iff.mpr (List.mem_map_of_mem otherMember)
      have otherKey : other.1 = other.2.first.body.updateTimestamp :=
        RewardsCache.entry_keyed otherMember List.mem_cons_self
      have foundKey : entry.1 = entry.2.first.body.updateTimestamp :=
        RewardsCache.entry_keyed entryMember List.mem_cons_self
      rw [split] at listed ascending
      rw [← key, foundKey, otherKey]
      rcases List.mem_append.mp listed with before | rest
      · exact absurd many (Nat.not_le.mpr (earlier _ before body))
      · rcases List.mem_cons.mp rest with same | after
        · rw [same]
        · exact (List.pairwise_cons.mp (List.pairwise_append.mp ascending).2.1).1 _ after
    · intro body
      rw [count_bodies, count_bodies]
      exact greatest body
    · rwa [count_bodies]

end Plain

/-- A winner is found exactly where some body has enough votes in one bucket. It is the
one of the earliest such bucket, and the loop collects as many of its signatures. -/
theorem findEarliestWinner_quorum (cache : RewardsCache Int String) (threshold : Nat) :
    ((∃ timestampVotes winner,
        findEarliestWinner cache threshold = .ok (some (timestampVotes, winner))) ↔
      ∃ timestampVotes ∈ cache.data.values, timestampVotes.HasQuorum threshold) ∧
    (findEarliestWinner cache threshold = .ok none ∨ ∃ timestampVotes winner,
      findEarliestWinner cache threshold = .ok (some (timestampVotes, winner)) ∧
      EarliestWinner cache threshold timestampVotes winner ∧
      (∀ vote ∈ timestampVotes.votes,
        vote.body.updateTimestamp = winner.updateTimestamp) ∧
      ∃ signers, signers =
          collectSigners winner threshold 0 (sortedByAddress timestampVotes.votes) ∧
        chooseSubmission cache threshold = .ok (some ⟨winner, signers⟩) ∧
        signers.length = threshold ∧ signers.Nodup ∧
        ∀ vote ∈ signers, vote ∈ timestampVotes.votes ∧ vote.body = winner) := by
  rcases findEarliestWinner_cases cache threshold with
    ⟨nothing, none⟩ | ⟨timestampVotes, winner, found, earliest⟩
  · refine ⟨iff_of_false ?_ none, Or.inl nothing⟩
    rintro ⟨timestampVotes, winner, found⟩
    rw [nothing] at found
    cases found
  · have value : timestampVotes ∈ cache.data.values := List.mem_map_of_mem earliest.cached
    have enough := earliest.enough
    refine ⟨iff_of_true ⟨timestampVotes, winner, found⟩
      ⟨timestampVotes, value, winner, enough⟩, Or.inr ⟨timestampVotes, winner, found, earliest,
      fun vote member => (RewardsCache.entry_keyed earliest.cached member).symm, _, rfl, ?_, ?_⟩⟩
    · rw [chooseSubmission, found]
    · rw [count_bodies] at enough
      obtain ⟨length, -, distinct, members⟩ := collectSigners_spec enough
      exact ⟨length, distinct, members⟩

end V3Keeper
