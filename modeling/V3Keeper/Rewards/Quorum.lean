import V3Keeper.Rewards.Nonces
import V3Keeper.Rewards.Winner

/-!
Whether a quorum that answers in the present call is submitted. The eviction that
follows its votes drops the oldest timestamps, whoever sent the newer ones.
-/

namespace V3Keeper

open Python StepRun

section Plain

variable {τ ρ : Type*} [BEq τ] [PyOrder τ] [BEq ρ]

structure FreshQuorum (reads : RewardsReads τ ρ) (nonce : Int) (body : RewardVoteBody τ ρ) :
    Prop where
  canUpdate : reads.canUpdate = .ok true
  nonceRead : reads.rewardsNonce = .ok nonce
  enough : reads.rewardsThreshold ≤
    ((supporters (currentVotes (fetchRewardVotes reads.replies) nonce) body).map
      RewardVote.oracleAddress).dedup.length

theorem FreshQuorum.counts {reads : RewardsReads τ ρ} {nonce : Int} {body : RewardVoteBody τ ρ}
    (quorum : FreshQuorum reads nonce body) (positive : 0 < reads.rewardsThreshold) :
    CountsVotes reads nonce (currentVotes (fetchRewardVotes reads.replies) nonce) := by
  refine ⟨quorum.canUpdate, quorum.nonceRead, rfl, fun empty => ?_⟩
  have enough := quorum.enough
  rw [empty] at enough
  exact Nat.not_le.mpr positive enough

variable [LinearOrder τ] [PlainOrder τ] [PyHash ρ] [PlainHash ρ]

theorem supporters_update (cache : RewardsCache τ ρ) (fresh : List (RewardVote τ ρ))
    (body : RewardVoteBody τ ρ) :
    (supporters (cache.update fresh).2.votes body).length =
      if newerTimestamps (pooledVotes cache fresh) body.updateTimestamp < cache.cacheSize then
        (supporters (pooledVotes cache fresh) body).length else 0 := by
  obtain ⟨-, -, members⟩ := update_spec cache fresh
  by_cases room : newerTimestamps (pooledVotes cache fresh) body.updateTimestamp < cache.cacheSize
  · rw [if_pos room]
    refine List.Perm.length_eq ((List.perm_ext_iff_of_nodup
      ((cache.update fresh).2.votes_nodup.filter _)
      ((cache.votes_nodup.union fresh).filter _)).mpr fun vote => ?_)
    change vote ∈ supporters _ _ ↔ vote ∈ supporters (pooledVotes cache fresh) _
    rw [mem_supporters, mem_supporters, members]
    constructor
    · rintro ⟨⟨pooled, -⟩, same⟩
      exact ⟨pooled, same⟩
    · rintro ⟨pooled, same⟩
      exact ⟨⟨pooled, by rw [same]; exact room⟩, same⟩
  · rw [if_neg room, List.length_eq_zero_iff, List.eq_nil_iff_forall_not_mem]
    intro vote supports
    obtain ⟨member, same⟩ := mem_supporters.mp supports
    have newer := ((members vote).mp member).2
    rw [same] at newer
    exact room newer

theorem prepareRewards_reaches {cache : RewardsCache τ ρ} {reads : RewardsReads τ ρ} {nonce : Int}
    {current : List (RewardVote τ ρ)} (counts : CountsVotes reads nonce current)
    (positive : 0 < reads.rewardsThreshold) :
    (∃ submission, (prepareRewards cache reads).1 = .ok (some submission)) ↔
      ∃ body, reads.rewardsThreshold ≤ (supporters (pooledVotes cache current) body).length ∧
        newerTimestamps (pooledVotes cache current) body.updateTimestamp < cache.cacheSize := by
  rcases prepareRewards_cases cache reads with ⟨idle, -⟩ | ⟨other, votes, otherCounts, -, submits⟩
  · exact absurd counts (idle nonce current)
  · obtain ⟨-, rfl⟩ := counts.unique otherCounts
    simp only [submits, (update_spec cache current).1, true_and]
    rw [chooseSubmission_iff _ positive]
    refine exists_congr fun body => ?_
    rw [supporters_update]
    split
    case isTrue room => simp [room]
    case isFalse full => simp [full, Nat.not_le.mpr positive]

theorem FreshQuorum.pooled {reads : RewardsReads τ ρ} {nonce : Int} {body : RewardVoteBody τ ρ}
    (quorum : FreshQuorum reads nonce body) (cache : RewardsCache τ ρ) :
    reads.rewardsThreshold ≤ (supporters (pooledVotes cache
      (currentVotes (fetchRewardVotes reads.replies) nonce)) body).length := by
  refine quorum.enough.trans (le_of_le_of_eq ?_ (List.length_map RewardVote.oracleAddress))
  refine (List.nodup_dedup _).subperm (fun address member => ?_) |>.length_le
  obtain ⟨vote, supports, rfl⟩ := List.mem_map.mp (List.mem_dedup.mp member)
  obtain ⟨fresh, same⟩ := mem_supporters.mp supports
  exact List.mem_map_of_mem
    (mem_supporters.mpr ⟨mem_pooledVotes.mpr (Or.inr fresh), same⟩)

theorem processRewards_cacheSize (cache : RewardsCache τ ρ) (call : RewardsCall τ ρ) :
    (processRewards cache call).2.cacheSize = cache.cacheSize := by
  have prepared : (prepareRewards cache call.toRewardsReads).2.cacheSize = cache.cacheSize := by
    rcases prepareRewards_cases cache call.toRewardsReads with
      ⟨-, kept, -⟩ | ⟨nonce, current, -, updated, -⟩
    · rw [kept]
    · rw [updated]
      exact (update_spec cache current).2.1
  rcases processRewards_cache cache call with same | cleared
  · rw [same, prepared]
  · rw [cleared]
    exact prepared

theorem final_cacheSize (cache : RewardsCache τ ρ) (calls : List (RewardsCall τ ρ)) :
    (final processRewards cache calls).cacheSize = cache.cacheSize := by
  induction calls generalizing cache with
  | nil => rfl
  | cons call rest ih => rw [final, ih, processRewards_cacheSize]

end Plain

/-- After any run, a fresh quorum is submitted exactly where its timestamp, or that of
another body with enough votes, is among the newest ones the cache has room for. -/
theorem freshQuorum_submitted_iff (calls : List (RewardsCall Int String))
    (call : RewardsCall Int String) (nonce : Int) (body : RewardVoteBody Int String)
    (positive : 0 < call.rewardsThreshold)
    (quorum : FreshQuorum call.toRewardsReads nonce body) :
    let cache := final processRewards (RewardsCache.new defaultCacheSize) calls
    let pool := pooledVotes cache (currentVotes (fetchRewardVotes call.replies) nonce)
    (∃ submission, (processRewards cache call).1.submission = some submission) ↔
      newerTimestamps pool body.updateTimestamp < defaultCacheSize ∨
        ∃ other, other ≠ body ∧ call.rewardsThreshold ≤ (supporters pool other).length ∧
          newerTimestamps pool other.updateTimestamp < defaultCacheSize := by
  intro cache pool
  have size : cache.cacheSize = defaultCacheSize := final_cacheSize _ _
  simp only [processRewards_submission]
  rw [prepareRewards_reaches (quorum.counts positive) positive, size]
  constructor
  · rintro ⟨winner, enough, room⟩
    by_cases same : winner = body
    · exact Or.inl (same ▸ room)
    · exact Or.inr ⟨winner, same, enough, room⟩
  · rintro (room | ⟨other, -, enough, room⟩)
    · exact ⟨body, quorum.pooled cache, room⟩
    · exact ⟨other, enough, room⟩

theorem freshQuorum_submitted_iff_first :
    let body : RewardVoteBody Int String := ⟨1700000000, "0x01", "QmVote", 1000⟩
    let call : RewardsCall Int String :=
      { canUpdate := .ok true, rewardsNonce := .ok 5, rewardsThreshold := 1
        replies := [⟨⟨"0x01", .ofDigit '1' rfl⟩, [.ok ⟨5, [1], body⟩]⟩]
        receipt := fun _ => .ok none }
    let pool := pooledVotes (final processRewards (RewardsCache.new defaultCacheSize) [])
      (currentVotes (fetchRewardVotes call.replies) 5)
    (∃ submission, (processRewards (final processRewards (RewardsCache.new defaultCacheSize) [])
        call).1.submission = some submission) ↔
      newerTimestamps pool body.updateTimestamp < defaultCacheSize ∨
        ∃ other, other ≠ body ∧ call.rewardsThreshold ≤ (supporters pool other).length ∧
          newerTimestamps pool other.updateTimestamp < defaultCacheSize :=
  freshQuorum_submitted_iff [] _ 5 _ (by decide) ⟨rfl, rfl, by decide⟩

/-- One oracle out of three votes for a hundred future timestamps, one at a time. When
the other two agree, their timestamp is dropped in the update that stores it. -/
theorem quorum_evicted :
    let call (replies : List (OracleReply Int String)) : RewardsCall Int String :=
      { canUpdate := .ok true, replies := replies, rewardsNonce := .ok 5, rewardsThreshold := 2
        receipt := fun _ => .ok none }
    let minority (round : Nat) : RewardsCall Int String := call
      [⟨⟨"0x03", .ofDigit '3' rfl⟩,
        [.ok ⟨5, [3], ⟨1700000001 + round, "0x03", "QmOther", 1000⟩⟩]⟩]
    let body : RewardVoteBody Int String := ⟨1700000000, "0x01", "QmVote", 1000⟩
    let quorum : RewardsCall Int String := call
      [⟨⟨"0x01", .ofDigit '1' rfl⟩, [.ok ⟨5, [1], body⟩]⟩,
        ⟨⟨"0x02", .ofDigit '2' rfl⟩, [.ok ⟨5, [2], body⟩]⟩]
    FreshQuorum quorum.toRewardsReads 5 body ∧
      (processRewards (final processRewards (RewardsCache.new defaultCacheSize)
        ((List.range 100).map minority)) quorum).1.submission.isNone = true := by
  intro call minority body quorum
  exact ⟨⟨rfl, rfl, by decide⟩, by decide +kernel⟩

end V3Keeper
