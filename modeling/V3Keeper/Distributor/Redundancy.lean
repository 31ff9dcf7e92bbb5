import V3Keeper.Distributor.Quorum

/-!
What the endpoints of one oracle are good for. Of the votes with the greatest nonce the
first one is selected, before and whether or not its timestamp is new enough.
-/

namespace V3Keeper

open Python

structure HasUsableVote (reply : DistributorReply Int String) (chain : DistributorChain) :
    Prop where
  behind : ∀ vote ∈ reply.votes, vote.nonce ≤ chain.nonce
  usable : ∃ vote ∈ reply.votes, vote.nonce = chain.nonce ∧
    chain.nextUpdateTimestamp < vote.updateTimestamp

/-- The first endpoint with a vote for the contract's nonce returns a new enough one. -/
def FirstCurrentUsable (reply : DistributorReply Int String) (chain : DistributorChain) : Prop :=
  ∃ vote, reply.votes.find? (fun vote => vote.nonce == chain.nonce) = some vote ∧
    chain.nextUpdateTimestamp < vote.updateTimestamp

variable {reply : DistributorReply Int String} {chain : DistributorChain}

theorem fetchDistributorVote_greatest {nonce : Int}
    (bound : ∀ vote ∈ reply.votes, vote.nonce ≤ nonce)
    (present : ∃ vote ∈ reply.votes, vote.nonce = nonce) :
    ∃ first, reply.votes.find? (fun vote => vote.nonce == nonce) = some first ∧
      fetchDistributorVote reply = .ok (some first) := by
  have greatest : maxOf (reply.votes.map DistributorRewardVote.nonce) = .ok nonce := by
    refine maxOf_eq ?_ ?_
    · obtain ⟨vote, member, rfl⟩ := present
      exact List.mem_map_of_mem member
    · intro value member
      obtain ⟨vote, inside, rfl⟩ := List.mem_map.mp member
      exact bound vote inside
  have head : (reply.votes.filter fun vote => vote.nonce == nonce).head? =
      reply.votes.find? fun vote => vote.nonce == nonce := List.head?_filter
  obtain ⟨vote, member, same⟩ := present
  unfold fetchDistributorVote
  cases votes : reply.votes with
  | nil => rw [votes] at member; cases member
  | cons other rest =>
      rw [votes] at greatest head member
      rw [← head]
      simp only [greatest]
      cases filtered : (other :: rest).filter fun vote => vote.nonce == nonce with
      | nil => exact absurd (beq_iff_eq.mpr same) (List.filter_eq_nil_iff.mp filtered vote member)
      | cons first others => exact ⟨first, rfl, rfl⟩

theorem mem_eligibleVotes {replies : List (DistributorReply Int String)}
    {vote : DistributorRewardVote Int String} :
    vote ∈ eligibleVotes replies chain ↔
      (∃ reply ∈ replies, fetchDistributorVote reply = .ok (some vote)) ∧
        vote.nonce = chain.nonce ∧ chain.nextUpdateTimestamp < vote.updateTimestamp := by
  rw [eligibleVotes, List.mem_filter, mem_fetchDistributorRewardVotes, Bool.and_eq_true,
    beq_iff_eq, decide_eq_true_eq]

/-- A usable vote of an oracle counts exactly where it is not hidden behind an earlier
endpoint with a stale vote for the same nonce. -/
theorem countsUsableVote_iff {call : DistributorCall Int String}
    (reads : DistributorReads call chain) (member : reply ∈ call.replies)
    (usable : HasUsableVote reply chain) :
    prepareDistributor call = decideDistributor call (.ok (eligibleVotes call.replies chain)) ∧
      ((∃ vote ∈ eligibleVotes call.replies chain,
          vote.oracleAddress = reply.oracle.address ∧
          fetchDistributorVote reply = .ok (some vote)) ↔
        FirstCurrentUsable reply chain) := by
  refine ⟨reads.prepare, ?_⟩
  obtain ⟨vote, inside, current, -⟩ := usable.usable
  obtain ⟨first, found, fetched⟩ :=
    fetchDistributorVote_greatest usable.behind ⟨vote, inside, current⟩
  have nonce : first.nonce = chain.nonce := by simpa using List.find?_some found
  constructor
  · rintro ⟨counted, eligible, -, selected⟩
    rw [fetched] at selected
    cases selected
    exact ⟨first, found, (mem_eligibleVotes.mp eligible).2.2⟩
  · rintro ⟨other, otherFound, recent⟩
    rw [found] at otherFound
    cases otherFound
    exact ⟨first, mem_eligibleVotes.mpr ⟨⟨reply, member, fetched⟩, nonce, recent⟩,
      fetchDistributorVote_address fetched, fetched⟩

def replicatedReply (oracle : Oracle) (timestamps : List Int) : DistributorReply Int String where
  oracle := oracle
  endpoints := [.error .requestError, .ok none] ++ timestamps.map fun updateTimestamp =>
    .ok (some ⟨5, updateTimestamp, "0x51", ⟨"0x01", "QmVote"⟩⟩)

def replicatedCall (reply : DistributorReply Int String) : DistributorCall Int String where
  replies := [reply]
  nonce := .ok 5
  nextUpdateTimestamp := .ok 1700000000
  rewardsMinOracles := .ok 1
  rewardsRoot := .ok "0x00"
  receipt := fun _ => .ok (some ⟨7, 1⟩)

def replicatedChain : DistributorChain := ⟨5, 1700000000, 1, "0x00"⟩

theorem replicatedReply_usable (oracle : Oracle) {timestamps : List Int}
    (recent : ∃ updateTimestamp ∈ timestamps, 1700000000 < updateTimestamp) :
    HasUsableVote (replicatedReply oracle timestamps) replicatedChain where
  behind := by
    intro vote member
    obtain ⟨answer, inside, rfl⟩ := DistributorReply.mem_votes.mp member
    simp only [replicatedReply, List.mem_append, List.mem_cons, List.mem_map, reduceCtorEq,
      Except.ok.injEq, Option.some.injEq, List.not_mem_nil, or_false, false_or] at inside
    obtain ⟨updateTimestamp, -, rfl⟩ := inside
    exact le_refl _
  usable := by
    obtain ⟨updateTimestamp, member, above⟩ := recent
    refine ⟨DistributorVoteReply.toVote ⟨5, updateTimestamp, "0x51", ⟨"0x01", "QmVote"⟩⟩
      oracle, ?_, rfl, above⟩
    exact DistributorReply.mem_votes.mpr ⟨_, List.mem_append_right _
      (List.mem_map_of_mem member), rfl⟩

theorem countsUsableVote_iff_fresh_first :
    let oracle : Oracle := ⟨"https://oracle", ChecksumAddress.ofDigit '1' rfl⟩
    let reply := replicatedReply oracle [1700000001, 1699999999]
    ∃ vote ∈ eligibleVotes (replicatedCall reply).replies replicatedChain,
      vote.oracleAddress = oracle.address ∧ fetchDistributorVote reply = .ok (some vote) := by
  intro oracle reply
  have reads : DistributorReads (replicatedCall reply) replicatedChain := ⟨rfl, rfl, rfl, rfl⟩
  have first : FirstCurrentUsable reply replicatedChain := ⟨_, rfl, by decide⟩
  exact (countsUsableVote_iff reads (List.mem_singleton_self _)
    (replicatedReply_usable oracle ⟨1700000001, by simp, by decide⟩)).2.mpr first

/-- The endpoint listed first still serves the previous vote of the nonce. The vote that
the other endpoint returns would be enough for a submission. -/
theorem usable_vote_hidden :
    let oracle : Oracle := ⟨"https://oracle", ChecksumAddress.ofDigit '1' rfl⟩
    let reply := replicatedReply oracle [1699999999, 1700000001]
    let call := replicatedCall reply
    DistributorReads call replicatedChain ∧ reply ∈ call.replies ∧
      HasUsableVote reply replicatedChain ∧
      (¬∃ vote ∈ eligibleVotes call.replies replicatedChain,
        vote.oracleAddress = oracle.address) ∧
      (processDistributorRewards call).submission.isNone = true := by
  intro oracle reply call
  have none : eligibleVotes call.replies replicatedChain = [] := rfl
  refine ⟨⟨rfl, rfl, rfl, rfl⟩, List.mem_singleton_self _,
    replicatedReply_usable oracle ⟨1700000001, by simp, by decide⟩, ?_, rfl⟩
  rw [none]
  simp

end V3Keeper
