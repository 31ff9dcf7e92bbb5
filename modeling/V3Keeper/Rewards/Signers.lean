import V3Keeper.Rewards.Nonces
import V3Keeper.Rewards.Winner

/-!
Which oracles sign a submission. The cache tells votes apart as wholes, so an oracle
that signs one body twice is counted twice.
-/

namespace V3Keeper

open Python StepRun

section Plain

variable {τ ρ : Type*} [BEq τ] [PyOrder τ] [BEq ρ]

structure UnderNonce (oracles : List Oracle) (nonce : Int) (reads : RewardsReads τ ρ) : Prop where
  oracles : reads.replies.map OracleReply.oracle = oracles
  nonce : ∀ read, reads.rewardsNonce = .ok read → read = nonce

/-- No oracle repeats the body of a cached vote of its own under another signature. -/
def ResignsNothing (cache : RewardsCache τ ρ) (reads : RewardsReads τ ρ) : Prop :=
  ∀ nonce current, CountsVotes reads nonce current →
    ∀ fresh ∈ current, ∀ cached ∈ cache.votes,
      fresh.oracleAddress = cached.oracleAddress → fresh.body = cached.body →
        fresh.signature = cached.signature

structure QuorumOfDistinctOracles (threshold : Nat) (submission : RewardsSubmission τ ρ) :
    Prop where
  count : submission.signers.length = threshold
  ascending : submission.signers.Pairwise fun first second =>
    first.oracleAddress.toInt < second.oracleAddress.toInt
  bodies : ∀ vote ∈ submission.signers, vote.body = submission.winner

def SignedByQuorums (run : List (RewardsRun τ ρ)) : Prop :=
  ∀ call ∈ run, ∀ submission, call.output.submission = some submission →
    QuorumOfDistinctOracles call.input.rewardsThreshold submission

structure OneVotePerBody (oracles : List Oracle) (nonce : Int) (cache : RewardsCache τ ρ) :
    Prop where
  known : ∀ vote ∈ cache.votes, vote.oracleAddress ∈ oracles.map Oracle.address
  carries : ∀ vote ∈ cache.votes, vote.nonce = PyOrder.ofInt nonce
  single : ∀ first ∈ cache.votes, ∀ second ∈ cache.votes,
    first.oracleAddress = second.oracleAddress → first.body = second.body → first = second

theorem OneVotePerBody.of_empty {oracles : List Oracle} {nonce : Int}
    {cache : RewardsCache τ ρ} (empty : cache.votes = []) : OneVotePerBody oracles nonce cache := by
  constructor <;> simp [empty]

variable [LinearOrder τ] [PlainOrder τ]

theorem OneVotePerBody.update {oracles : List Oracle} {nonce : Int} {cache : RewardsCache τ ρ}
    (invariant : OneVotePerBody oracles nonce cache) {reads : RewardsReads τ ρ}
    (distinct : (oracles.map fun oracle => oracle.address.toInt).Nodup)
    (under : UnderNonce oracles nonce reads) (resigns : ResignsNothing cache reads)
    {read : Int} {current : List (RewardVote τ ρ)} (counts : CountsVotes reads read current) :
    OneVotePerBody oracles nonce (cache.update current).2 := by
  have readEq := under.nonce read counts.nonceRead
  subst readEq
  have replies : (reads.replies.map fun reply => reply.oracle.address) =
      oracles.map Oracle.address := by
    rw [← under.oracles, List.map_map]
    rfl
  have addresses := counts.addresses
  rw [replies] at addresses
  have nodup : (current.map RewardVote.oracleAddress).Nodup := by
    refine List.Nodup.sublist addresses (List.Nodup.of_map ChecksumAddress.toInt ?_)
    rw [List.map_map]
    exact distinct
  have fresh : ∀ vote ∈ current, vote.nonce = PyOrder.ofInt read :=
    fun vote member => eq_of_beq (counts.carry_nonce vote member)
  constructor
  · intro vote member
    rcases RewardsCache.mem_update member with old | new
    · exact invariant.known vote old
    · exact addresses.subset (List.mem_map_of_mem new)
  · intro vote member
    rcases RewardsCache.mem_update member with old | new
    · exact invariant.carries vote old
    · exact fresh vote new
  · have mixed : ∀ new ∈ current, ∀ old ∈ cache.votes,
        new.oracleAddress = old.oracleAddress → new.body = old.body → new = old := by
      intro new newMember old oldMember sameAddress sameBody
      have sameSignature := resigns read current counts new newMember old oldMember sameAddress
        sameBody
      have sameNonce := (fresh new newMember).trans (invariant.carries old oldMember).symm
      cases new
      cases old
      simp_all
    intro first firstMember second secondMember sameAddress sameBody
    rcases RewardsCache.mem_update firstMember with firstOld | firstNew <;>
      rcases RewardsCache.mem_update secondMember with secondOld | secondNew
    · exact invariant.single first firstOld second secondOld sameAddress sameBody
    · exact (mixed second secondNew first firstOld sameAddress.symm sameBody.symm).symm
    · exact mixed first firstNew second secondOld sameAddress sameBody
    · exact List.inj_on_of_nodup_map nodup firstNew secondNew sameAddress

variable [PyHash ρ] [PlainHash ρ]

theorem OneVotePerBody.next {oracles : List Oracle} {nonce : Int} {cache : RewardsCache τ ρ}
    (invariant : OneVotePerBody oracles nonce cache) {call : RewardsCall τ ρ}
    (distinct : (oracles.map fun oracle => oracle.address.toInt).Nodup)
    (under : UnderNonce oracles nonce call.toRewardsReads)
    (resigns : ResignsNothing cache call.toRewardsReads) :
    OneVotePerBody oracles nonce (processRewards cache call).2 ∧
      ∀ submission, (processRewards cache call).1.submission = some submission →
        QuorumOfDistinctOracles call.rewardsThreshold submission := by
  have prepared : OneVotePerBody oracles nonce (prepareRewards cache call.toRewardsReads).2 ∧
      ∀ submission, (processRewards cache call).1.submission = some submission →
        QuorumOfDistinctOracles call.rewardsThreshold submission := by
    rcases prepareRewards_cases cache call.toRewardsReads with
      ⟨-, kept, nothing⟩ | ⟨read, current, counts, updated, submits⟩
    · rw [kept]
      exact ⟨invariant, fun submission submitted =>
        absurd (processRewards_submission.mp submitted) (nothing submission)⟩
    · have next := invariant.update distinct under resigns counts
      rw [updated]
      refine ⟨next, fun submission submitted => ?_⟩
      rw [processRewards_submission, submits] at submitted
      obtain ⟨count, ordered, nodup, signers⟩ := chooseSubmission_spec submitted.2
      refine ⟨count, ?_, fun vote member => (signers vote member).2⟩
      refine (ordered.and nodup).imp_of_mem ?_
      rintro first second firstMember secondMember ⟨below, different⟩
      refine lt_of_le_of_ne below fun sameNumber => different ?_
      obtain ⟨firstCached, firstBody⟩ := signers first firstMember
      obtain ⟨secondCached, secondBody⟩ := signers second secondMember
      have sameAddress : first.oracleAddress = second.oracleAddress := by
        refine List.inj_on_of_nodup_map (f := ChecksumAddress.toInt) ?_
          (next.known first firstCached) (next.known second secondCached) sameNumber
        rw [List.map_map]
        exact distinct
      exact next.single first firstCached second secondCached sameAddress
        (firstBody.trans secondBody.symm)
  refine ⟨?_, prepared.2⟩
  rcases processRewards_cache cache call with same | cleared
  · rw [same]
    exact prepared.1
  · rw [cleared]
    exact OneVotePerBody.of_empty (RewardsCache.votes_clear _)

end Plain

/-- Under one contract nonce, a run in which no oracle signs a cached body anew submits
quorums of distinct oracles only. -/
theorem signedByQuorums_of_resignsNothing (oracles : List Oracle) (nonce : Int) (cacheSize : Nat)
    (calls : List (RewardsCall Int String))
    (distinct : (oracles.map fun oracle => oracle.address.toInt).Nodup)
    (under : ∀ call ∈ calls, UnderNonce oracles nonce call.toRewardsReads)
    (resigns : ∀ run ∈ history processRewards (RewardsCache.new cacheSize) calls,
      ResignsNothing run.before run.input.toRewardsReads) :
    SignedByQuorums (history processRewards (RewardsCache.new cacheSize) calls) := by
  have guarded : ∀ run ∈ history processRewards (RewardsCache.new cacheSize) calls,
      UnderNonce oracles nonce run.input.toRewardsReads ∧
        ResignsNothing run.before run.input.toRewardsReads := by
    intro run member
    exact ⟨under run.input (input_mem processRewards member), resigns run member⟩
  have invariants := (invariant_of_guarded processRewards
    (fun run => UnderNonce oracles nonce run.input.toRewardsReads ∧
      ResignsNothing run.before run.input.toRewardsReads)
    (OneVotePerBody oracles nonce) (OneVotePerBody.of_empty rfl)
    (fun cache call invariant guard => (invariant.next distinct guard.1 guard.2).1)
    calls guarded).1
  intro run member submission submitted
  obtain ⟨underNonce, signsOnce⟩ := guarded run member
  rw [mem_history_eq processRewards member, transition_output] at submitted
  exact ((invariants run member).1.next distinct underNonce signsOnce).2 submission submitted

/-- The second oracle catches up one call later, while the first one repeats its vote. -/
theorem signedByQuorums_of_resignsNothing_late :
    let first : Oracle := ⟨"0x01", .ofDigit '1' rfl⟩
    let second : Oracle := ⟨"0x02", .ofDigit '2' rfl⟩
    let vote : VoteReply Int String := ⟨5, [1], ⟨1700000000, "0x01", "QmVote", 1000⟩⟩
    let call (late : Except PyError (VoteReply Int String)) : RewardsCall Int String :=
      { canUpdate := .ok true, replies := [⟨first, [.ok vote]⟩, ⟨second, [late]⟩]
        rewardsNonce := .ok 5, rewardsThreshold := 2, receipt := fun _ => .ok (some ⟨7, 1⟩) }
    SignedByQuorums (history processRewards (RewardsCache.new defaultCacheSize)
      [call (.error .requestError), call (.ok vote)]) := by
  intro first second vote call
  refine signedByQuorums_of_resignsNothing [first, second] 5 defaultCacheSize _ (by decide) ?_ ?_
  · rintro run member
    have oracles : run.replies.map OracleReply.oracle = [first, second] ∧
        run.rewardsNonce = .ok 5 := by
      simp only [List.mem_cons, List.not_mem_nil, or_false] at member
      rcases member with rfl | rfl <;> exact ⟨rfl, rfl⟩
    exact ⟨oracles.1, fun read readEq => Except.ok.inj (readEq.symm.trans oracles.2)⟩
  · intro run member nonce current counts fresh freshMember cached cachedMember _ _
    have signatures : (∀ vote ∈ current, vote.signature = [1]) ∧
        ∀ vote ∈ run.before.votes, vote.signature = [1] := by
      rw [← counts.votes]
      have nonceRead := counts.nonceRead
      simp only [history, List.mem_cons, List.not_mem_nil, or_false] at member
      rcases member with rfl | rfl <;>
        · cases nonceRead
          exact ⟨by decide, by decide⟩
    rw [signatures.1 fresh freshMember, signatures.2 cached cachedMember]

/-- A quorum of two is reached by one oracle that signs the same body twice. -/
theorem quorum_of_one_oracle :
    let oracle : Oracle := ⟨"0x01", .ofDigit '1' rfl⟩
    let call (signature : Bytes) : RewardsCall Int String :=
      { canUpdate := .ok true, rewardsNonce := .ok 5, rewardsThreshold := 2
        replies := [⟨oracle, [.ok ⟨5, signature, ⟨1700000000, "0x01", "QmVote", 1000⟩⟩]⟩]
        receipt := fun _ => .ok (some ⟨7, 1⟩) }
    ¬SignedByQuorums (history processRewards (RewardsCache.new defaultCacheSize)
      [call [1], call [2]]) := by
  intro oracle call signed
  have quorum := signed _ (by simp only [history]; exact .tail _ (.head _))
    ⟨⟨1700000000, "0x01", "QmVote", 1000⟩,
      [⟨oracle.address, 5, [1], ⟨1700000000, "0x01", "QmVote", 1000⟩⟩,
        ⟨oracle.address, 5, [2], ⟨1700000000, "0x01", "QmVote", 1000⟩⟩]⟩ rfl
  simpa using quorum.ascending

end V3Keeper
