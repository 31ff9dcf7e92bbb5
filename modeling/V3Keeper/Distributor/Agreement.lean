import V3Keeper.Distributor.Quorum
import V3Keeper.Library.Quorum

/-!
What the submissions of several calls, by one keeper or by many, have in common under one nonce.
-/

namespace V3Keeper

open Python Quorum

def VotedIn (calls : List (DistributorCall Int String)) (nonce : Int) (address : ChecksumAddress)
    (body : DistributorRewardVoteBody String) : Prop :=
  ∃ call ∈ calls, ∃ reply ∈ call.replies, reply.oracle.address = address ∧
    ∃ vote ∈ reply.votes, vote.nonce = nonce ∧ vote.body = body

/-- The oracles that the calls ask. Those that are not faulty keep to one body under a nonce,
whoever asks and at whichever endpoint. -/
structure OracleSet (calls : List (DistributorCall Int String)) where
  oracles : Finset ChecksumAddress
  faulty : Finset ChecksumAddress
  known : ∀ call ∈ calls, ∀ reply ∈ call.replies, reply.oracle.address ∈ oracles
  distinct : ∀ call ∈ calls, DistinctOracles call.replies
  single : ∀ nonce, ∀ address ∈ oracles, address ∉ faulty → ∀ first second,
    VotedIn calls nonce address first → VotedIn calls nonce address second → first = second

variable {calls : List (DistributorCall Int String)}

def OracleSet.assembly (oracleSet : OracleSet calls) (nonce : Int) :
    Assembly ChecksumAddress (DistributorRewardVoteBody String) where
  parties := oracleSet.oracles
  faulty := oracleSet.faulty
  votesFor := VotedIn calls nonce
  single := oracleSet.single nonce

theorem OracleSet.backed (oracleSet : OracleSet calls) {call : DistributorCall Int String}
    (member : call ∈ calls) {chain : DistributorChain} (reads : DistributorReads call chain)
    {submission : DistributorSubmission Int String}
    (submitted : (processDistributorRewards call).submission = some submission) :
    (oracleSet.assembly chain.nonce).Backed chain.rewardsMinOracles submission.winner := by
  have quorum := reads.backed (oracleSet.distinct call member)
    (processDistributorRewards_submission.mp submitted)
  have count := quorum.count
  rw [DistributorSubmission.signatures, List.length_map,
    ← List.length_map DistributorRewardVote.oracleAddress] at count
  rw [← count]
  refine Assembly.backed_of_signers (ChecksumAddress.nodup_of_ascending quorum.ascending) ?_ ?_
  · rw [List.forall_mem_map]
    intro vote signs
    obtain ⟨reply, listed, -, same⟩ := quorum.selected vote signs
    exact same ▸ oracleSet.known call member reply listed
  · rw [List.forall_mem_map]
    intro vote signs
    obtain ⟨reply, listed, fetched, same⟩ := quorum.selected vote signs
    exact ⟨call, member, reply, listed, same.symm, vote, fetchDistributorVote_mem fetched,
      quorum.nonce vote signs, quorum.body vote signs⟩

/-- Outnumbered faulty oracles cannot have a body of their own submitted, and where any two
quorums share an oracle that is not faulty, one body is submitted under a nonce. -/
theorem submissions_agree (oracleSet : OracleSet calls) {call : DistributorCall Int String}
    (member : call ∈ calls) {chain : DistributorChain} (reads : DistributorReads call chain)
    {submission : DistributorSubmission Int String}
    (submitted : (processDistributorRewards call).submission = some submission) :
    (oracleSet.faulty.card < chain.rewardsMinOracles →
      ∃ address ∈ oracleSet.oracles, address ∉ oracleSet.faulty ∧
        VotedIn calls chain.nonce address submission.winner) ∧
    ∀ other ∈ calls, ∀ otherChain, DistributorReads other otherChain →
      ∀ otherSubmission, (processDistributorRewards other).submission = some otherSubmission →
        otherChain.nonce = chain.nonce →
        oracleSet.oracles.card + oracleSet.faulty.card <
          chain.rewardsMinOracles + otherChain.rewardsMinOracles →
        otherSubmission.winner = submission.winner := by
  have backed := oracleSet.backed member reads submitted
  refine ⟨backed.correct, ?_⟩
  intro other otherMember otherChain otherReads otherSubmission otherSubmitted sameNonce overlap
  have otherBacked := oracleSet.backed otherMember otherReads otherSubmitted
  rw [sameNonce] at otherBacked
  exact (backed.agree otherBacked overlap).symm

/-- The fourth oracle votes otherwise in the first call, and three of the four are asked for. -/
theorem submissions_agree_four :
    let oracle (digit : Char) (hex : isHexDigit digit = true) : Oracle :=
      ⟨"https://oracle", ChecksumAddress.ofDigit digit hex⟩
    let answer (root : String) : DistributorVoteReply Int String :=
      ⟨5, 1700000001, "0x51", ⟨root, "QmVote"⟩⟩
    let call (last : String) : DistributorCall Int String :=
      { replies := [⟨oracle '1' rfl, [.ok (some (answer "0x01"))]⟩,
          ⟨oracle '2' rfl, [.ok (some (answer "0x01"))]⟩,
          ⟨oracle '3' rfl, [.ok (some (answer "0x01"))]⟩,
          ⟨oracle '4' rfl, [.ok (some (answer last))]⟩]
        nonce := .ok 5
        nextUpdateTimestamp := .ok 1700000000
        rewardsMinOracles := .ok 3
        rewardsRoot := .ok "0x00"
        receipt := fun _ => .error .requestError }
    let calls := [call "0x02", call "0x01"]
    ∀ submission, (processDistributorRewards (call "0x02")).submission = some submission →
      (∃ address, VotedIn calls 5 address submission.winner) ∧
      ∀ other, (processDistributorRewards (call "0x01")).submission = some other →
        other.winner = submission.winner := by
  intro oracle answer call calls submission submitted
  have votes : ∀ asked ∈ calls, ∀ reply ∈ asked.replies,
      reply.oracle.address ≠ (oracle '4' rfl).address →
        ∀ vote ∈ reply.votes, (vote.body == ⟨"0x01", "QmVote"⟩) = true := by decide
  let oracles : Finset ChecksumAddress :=
    {(oracle '1' rfl).address, (oracle '2' rfl).address, (oracle '3' rfl).address,
      (oracle '4' rfl).address}
  let faulty : Finset ChecksumAddress := {(oracle '4' rfl).address}
  have overlap : oracles.card + faulty.card < 3 + 3 := by decide
  let oracleSet : OracleSet calls :=
    { oracles := oracles
      faulty := faulty
      known := by decide
      distinct := by
        unfold DistinctOracles
        decide
      single := by
        intro nonce address _ correct first second
        rintro ⟨asked, member, reply, listed, rfl, vote, votesFor, -, rfl⟩
        rintro ⟨again, memberToo, other, listedToo, same, otherVote, otherVotesFor, -, rfl⟩
        have apart : reply.oracle.address ≠ (oracle '4' rfl).address :=
          fun same => correct (Finset.mem_singleton.mpr same)
        rw [eq_of_beq (votes asked member reply listed apart vote votesFor),
          eq_of_beq (votes again memberToo other listedToo (same ▸ apart) otherVote
            otherVotesFor)] }
  have reads (last : String) : DistributorReads (call last) ⟨5, 1700000000, 3, "0x00"⟩ :=
    ⟨rfl, rfl, rfl, rfl⟩
  obtain ⟨correct, agree⟩ :=
    submissions_agree oracleSet List.mem_cons_self (reads "0x02") submitted
  obtain ⟨address, -, -, voted⟩ := correct (show 1 < 3 by decide)
  refine ⟨⟨address, voted⟩, fun other otherSubmitted => ?_⟩
  exact agree (call "0x01") (by simp [calls]) _ (reads "0x01") other otherSubmitted rfl overlap

end V3Keeper
