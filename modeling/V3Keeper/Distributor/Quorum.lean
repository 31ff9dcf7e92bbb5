import V3Keeper.Distributor.Laws
import V3Keeper.Distributor.SignerOrder

/-!
The votes behind a submission, for well-typed answers, and what the order in which the oracles
are listed has to do with it.
-/

namespace V3Keeper

open Python

structure DistributorChain where
  nonce : Int
  nextUpdateTimestamp : Int
  rewardsMinOracles : Nat
  rewardsRoot : String

structure DistributorReads (call : DistributorCall Int String) (chain : DistributorChain) :
    Prop where
  nonce : call.nonce = .ok chain.nonce
  nextUpdateTimestamp : call.nextUpdateTimestamp = .ok chain.nextUpdateTimestamp
  rewardsMinOracles : call.rewardsMinOracles = .ok chain.rewardsMinOracles
  rewardsRoot : call.rewardsRoot = .ok chain.rewardsRoot

def eligibleVotes (replies : List (DistributorReply Int String)) (chain : DistributorChain) :
    List (DistributorRewardVote Int String) :=
  (fetchDistributorRewardVotes replies).filter fun vote =>
    vote.nonce == chain.nonce && decide (chain.nextUpdateTimestamp < vote.updateTimestamp)

def votesFor (votes : List (DistributorRewardVote Int String))
    (body : DistributorRewardVoteBody String) : List (DistributorRewardVote Int String) :=
  votes.filter fun vote => vote.body == body

def DistinctOracles (replies : List (DistributorReply Int String)) : Prop :=
  (replies.map fun reply => reply.oracle.address.toInt).Nodup

structure BackedByQuorum (replies : List (DistributorReply Int String)) (chain : DistributorChain)
    (submission : DistributorSubmission Int String) : Prop where
  count : submission.signatures.length = chain.rewardsMinOracles
  ascending : submission.signers.Pairwise fun first second =>
    first.oracleAddress.toInt < second.oracleAddress.toInt
  selected : ∀ vote ∈ submission.signers, ∃ reply ∈ replies,
    fetchDistributorVote reply = .ok (some vote) ∧ vote.oracleAddress = reply.oracle.address
  nonce : ∀ vote ∈ submission.signers, vote.nonce = chain.nonce
  recent : ∀ vote ∈ submission.signers, chain.nextUpdateTimestamp < vote.updateTimestamp
  body : ∀ vote ∈ submission.signers, vote.body = submission.winner
  root : submission.winner.root ≠ chain.rewardsRoot
  plurality : ∀ body, (votesFor (eligibleVotes replies chain) body).length ≤
    (votesFor (eligibleVotes replies chain) submission.winner).length

section Selection

variable {replies : List (DistributorReply Int String)} {chain : DistributorChain}

theorem mem_fetchDistributorRewardVotes {vote : DistributorRewardVote Int String} :
    vote ∈ fetchDistributorRewardVotes replies ↔
      ∃ reply ∈ replies, fetchDistributorVote reply = .ok (some vote) := by
  rw [fetchDistributorRewardVotes, List.mem_filterMap]
  constructor
  · rintro ⟨reply, member, found⟩
    split at found
    case h_1 fetched => exact ⟨reply, member, fetched.trans (by rw [Option.some.inj found])⟩
    case h_2 => cases found
  · rintro ⟨reply, member, fetched⟩
    exact ⟨reply, member, by rw [fetched]⟩

theorem fetchDistributorVote_address {reply : DistributorReply Int String}
    {vote : DistributorRewardVote Int String}
    (fetched : fetchDistributorVote reply = .ok (some vote)) :
    vote.oracleAddress = reply.oracle.address := by
  obtain ⟨answer, -, rfl⟩ := DistributorReply.mem_votes.mp (fetchDistributorVote_mem fetched)
  rfl

theorem fetchDistributorRewardVotes_addresses (replies : List (DistributorReply Int String)) :
    ((fetchDistributorRewardVotes replies).map fun vote => vote.oracleAddress.toInt).Sublist
      (replies.map fun reply => reply.oracle.address.toInt) := by
  induction replies with
  | nil => exact List.Sublist.refl _
  | cons reply rest ih =>
      rw [← List.singleton_append, fetchDistributorRewardVotes_append, List.map_append,
        List.map_append]
      refine List.Sublist.append ?_ ih
      rcases fetchDistributorRewardVotes_single reply with none | ⟨vote, fetched, only⟩
      · rw [none]
        exact List.nil_sublist _
      · rw [only, List.map_singleton, fetchDistributorVote_address fetched]
        exact List.Sublist.refl _

theorem eligibleVotes_distinct (distinct : DistinctOracles replies) :
    ((eligibleVotes replies chain).map fun vote => vote.oracleAddress.toInt).Nodup := by
  have selected := (fetchDistributorRewardVotes_addresses replies).nodup distinct
  exact (List.filter_sublist.map _).nodup selected

theorem eligibleVotes_perm {others : List (DistributorReply Int String)}
    (perm : others.Perm replies) :
    (eligibleVotes others chain).Perm (eligibleVotes replies chain) :=
  (perm.filterMap _).filter _

theorem eligibleVotes_length_le (replies : List (DistributorReply Int String))
    (chain : DistributorChain) : (eligibleVotes replies chain).length ≤ replies.length :=
  (List.length_filter_le _ _).trans (List.length_filterMap_le _ _)

theorem mem_votesFor {votes : List (DistributorRewardVote Int String)}
    {body : DistributorRewardVoteBody String} {vote : DistributorRewardVote Int String} :
    vote ∈ votesFor votes body ↔ vote ∈ votes ∧ vote.body = body := by
  rw [votesFor, List.mem_filter, beq_iff_eq]

end Selection

section Sorting

variable {votes others : List (DistributorRewardVote Int String)}

theorem sortedByLoweredAddress_ascending
    (distinct : (votes.map fun vote => vote.oracleAddress.toInt).Nodup) :
    (sortedByLoweredAddress votes).Pairwise fun first second =>
      first.oracleAddress.toInt < second.oracleAddress.toInt := by
  have sorted := sortedByLoweredAddress_numeric votes
  have apart : (sortedByLoweredAddress votes).Pairwise fun first second =>
      first.oracleAddress.toInt ≠ second.oracleAddress.toInt :=
    List.pairwise_map.mp ((sorted.perm.map _).nodup_iff.mpr distinct)
  exact sorted.ascending.imp₂
    (fun first second below different => lt_of_le_of_ne below different) apart

theorem sortedByLoweredAddress_eq (perm : others.Perm votes)
    (distinct : (votes.map fun vote => vote.oracleAddress.toInt).Nodup) :
    sortedByLoweredAddress others = sortedByLoweredAddress votes := by
  have othersDistinct : (others.map fun vote => vote.oracleAddress.toInt).Nodup :=
    (perm.map _).nodup_iff.mpr distinct
  refine List.Perm.eq_of_pairwise ?_ (sortedByLoweredAddress_ascending othersDistinct)
    (sortedByLoweredAddress_ascending distinct) ?_
  · intro first second _ _ below above
    exact absurd (below.trans above) (lt_irrefl _)
  · exact (sortedByLoweredAddress_numeric others).perm.trans
      (perm.trans (sortedByLoweredAddress_numeric votes).perm.symm)

theorem collectDistributorSigners_eq (winner : DistributorRewardVoteBody String)
    (minOracles signatures : Nat) (votes : List (DistributorRewardVote Int String)) :
    collectDistributorSigners winner minOracles signatures votes =
      (votesFor votes winner).take (minOracles - signatures) := by
  induction votes generalizing signatures with
  | nil => simp [collectDistributorSigners, votesFor]
  | cons vote rest ih =>
      rw [collectDistributorSigners]
      split
      case isTrue enough => rw [Nat.sub_eq_zero_of_le enough, List.take_zero]
      case isFalse short =>
        rw [votesFor, List.filter_cons]
        split
        case isTrue supports =>
          have next : minOracles - signatures = minOracles - (signatures + 1) + 1 := by omega
          rw [ih, next, List.take_succ_cons]
          rfl
        case isFalse opposes => exact ih signatures

end Sorting

section Call

variable {call : DistributorCall Int String} {chain : DistributorChain}

theorem votesAbove_eq (next : Int) (votes : List (DistributorRewardVote Int String)) :
    votesAbove next votes =
      .ok (votes.filter fun vote => decide (next < vote.updateTimestamp)) := by
  induction votes with
  | nil => rfl
  | cons vote rest ih =>
      rw [votesAbove, ih, List.filter_cons]
      rfl

theorem processDistributorRewards_submission {submission : DistributorSubmission Int String} :
    (processDistributorRewards call).submission = some submission ↔
      prepareDistributor call = .ok (some submission) := by
  unfold processDistributorRewards
  split
  case h_1 raised => simp [raised]
  case h_2 nothing => simp [nothing]
  case h_3 prepared => simp [prepared]

theorem DistributorReads.prepare (reads : DistributorReads call chain) :
    prepareDistributor call = decideDistributor call (.ok (eligibleVotes call.replies chain)) := by
  rw [prepareDistributor_reads call reads.nonce reads.nextUpdateTimestamp, votesAbove_eq,
    currentDistributorVotes, List.filter_filter]
  congr 3
  funext vote
  exact Bool.and_comm _ _

theorem DistributorReads.cases (reads : DistributorReads call chain) :
    (eligibleVotes call.replies chain = [] ∧ prepareDistributor call = .ok none) ∨
    ∃ winner, (∀ body, (votesFor (eligibleVotes call.replies chain) body).length ≤
        (votesFor (eligibleVotes call.replies chain) winner).length) ∧
      prepareDistributor call =
        if (votesFor (eligibleVotes call.replies chain) winner).length < chain.rewardsMinOracles ∨
          winner.root = chain.rewardsRoot then .ok none
        else .ok (some ⟨winner,
          (votesFor (sortedByLoweredAddress (eligibleVotes call.replies chain)) winner).take
            chain.rewardsMinOracles⟩) := by
  rw [reads.prepare]
  cases eligible : eligibleVotes call.replies chain with
  | nil => exact Or.inl ⟨rfl, rfl⟩
  | cons vote rest =>
      have hashed : ((vote :: rest).map DistributorRewardVote.body).all PyHash.hashable = true :=
        List.all_eq_true.mpr fun _ _ => rfl
      obtain ⟨counted, winner, count, first, greatest⟩ :=
        counter_mostCommon hashed (List.cons_ne_nil _ _)
      refine Or.inr ⟨winner, fun body => ?_, ?_⟩
      · have most := greatest body
        rwa [count_map, count_map] at most
      · rw [count_map] at first
        rw [decideDistributor, chooseDistributorSubmission, count]
        have text : PyText.ofString chain.rewardsRoot = chain.rewardsRoot := rfl
        simp only [first, reads.rewardsMinOracles, reads.rewardsRoot, text]
        rw [collectDistributorSigners_eq, Nat.sub_zero, ← votesFor]
        by_cases few : (votesFor (vote :: rest) winner).length < chain.rewardsMinOracles
        · rw [if_pos few, if_pos (Or.inl few)]
        · rw [if_neg few]
          by_cases same : winner.root = chain.rewardsRoot
          · rw [if_pos (beq_iff_eq.mpr same), if_pos (Or.inr same)]
          · rw [if_neg fun equal => same (beq_iff_eq.mp equal), if_neg (by simp [few, same])]

theorem chooseDistributorSubmission_reads {eligible : List (DistributorRewardVote Int String)}
    {minOracles : Except PyError Nat} {root : Except PyError String}
    {submission : DistributorSubmission Int String}
    (chosen : chooseDistributorSubmission eligible minOracles root = .ok (some submission)) :
    (∃ read, minOracles = .ok read) ∧ ∃ read, root = .ok read := by
  unfold chooseDistributorSubmission at chosen
  split at chosen
  case h_1 => cases chosen
  case h_2 =>
    split at chosen
    case h_1 => cases chosen
    case h_2 =>
      split at chosen
      case h_1 => cases chosen
      case h_2 =>
        split at chosen
        case isTrue => cases chosen
        case isFalse =>
          split at chosen
          case h_1 => cases chosen
          case h_2 => exact ⟨⟨_, rfl⟩, _, rfl⟩

theorem reads_of_submission {submission : DistributorSubmission Int String}
    (submitted : (processDistributorRewards call).submission = some submission) :
    ∃ chain, DistributorReads call chain := by
  have prepared := processDistributorRewards_submission.mp submitted
  unfold prepareDistributor at prepared
  split at prepared
  case h_1 => cases prepared
  case h_2 =>
    split at prepared
    case h_1 => cases prepared
    case h_2 nonce nonceRead =>
      split at prepared
      case h_1 => cases prepared
      case h_2 =>
        split at prepared
        case h_1 => cases prepared
        case h_2 next nextRead =>
          rw [votesAbove_eq] at prepared
          unfold decideDistributor at prepared
          split at prepared
          case h_1 => cases prepared
          case h_2 => cases prepared
          case h_3 =>
            obtain ⟨⟨minOracles, minRead⟩, root, rootRead⟩ :=
              chooseDistributorSubmission_reads prepared
            exact ⟨⟨nonce, next, minOracles, root⟩, nonceRead, nextRead, minRead, rootRead⟩

theorem DistributorReads.backed (reads : DistributorReads call chain)
    (distinct : DistinctOracles call.replies) {submission : DistributorSubmission Int String}
    (prepared : prepareDistributor call = .ok (some submission)) :
    BackedByQuorum call.replies chain submission := by
  rcases reads.cases with ⟨-, nothing⟩ | ⟨winner, greatest, decided⟩
  · rw [nothing] at prepared
    cases prepared
  · rw [decided] at prepared
    split at prepared
    case isTrue => cases prepared
    case isFalse passed =>
      obtain ⟨enough, root⟩ := not_or.mp passed
      cases prepared
      have sorted := (sortedByLoweredAddress_numeric (eligibleVotes call.replies chain)).perm
      have signers {vote : DistributorRewardVote Int String}
          (member : vote ∈ (votesFor (sortedByLoweredAddress (eligibleVotes call.replies chain))
            winner).take chain.rewardsMinOracles) :
          vote ∈ eligibleVotes call.replies chain ∧ vote.body = winner := by
        obtain ⟨inside, body⟩ := mem_votesFor.mp (List.mem_of_mem_take member)
        exact ⟨sorted.mem_iff.mp inside, body⟩
      have eligible {vote : DistributorRewardVote Int String}
          (member : vote ∈ eligibleVotes call.replies chain) :
          vote ∈ fetchDistributorRewardVotes call.replies ∧ vote.nonce = chain.nonce ∧
            chain.nextUpdateTimestamp < vote.updateTimestamp := by
        rw [eligibleVotes, List.mem_filter, Bool.and_eq_true, beq_iff_eq,
          decide_eq_true_eq] at member
        exact member
      constructor
      · have supporters := (sorted.filter fun vote => vote.body == winner).length_eq
        rw [DistributorSubmission.signatures, List.length_map, List.length_take, votesFor,
          supporters]
        exact Nat.min_eq_left (Nat.le_of_not_lt enough)
      · exact (sortedByLoweredAddress_ascending (eligibleVotes_distinct distinct)).sublist
          ((List.take_sublist _ _).trans List.filter_sublist)
      · intro vote member
        obtain ⟨reply, listed, fetched⟩ :=
          mem_fetchDistributorRewardVotes.mp (eligible (signers member).1).1
        exact ⟨reply, listed, fetched, fetchDistributorVote_address fetched⟩
      · exact fun vote member => (eligible (signers member).1).2.1
      · exact fun vote member => (eligible (signers member).1).2.2
      · exact fun vote member => (signers member).2
      · exact root
      · exact greatest

theorem DistributorReads.prepare_quorum (reads : DistributorReads call chain)
    (majority : call.replies.length < 2 * chain.rewardsMinOracles)
    {body : DistributorRewardVoteBody String} (enough : chain.rewardsMinOracles ≤
      (votesFor (eligibleVotes call.replies chain) body).length) :
    prepareDistributor call =
      if body.root = chain.rewardsRoot then .ok none
      else .ok (some ⟨body,
        (votesFor (sortedByLoweredAddress (eligibleVotes call.replies chain)) body).take
          chain.rewardsMinOracles⟩) := by
  rcases reads.cases with ⟨empty, -⟩ | ⟨winner, greatest, decided⟩
  · rw [empty] at enough
    have zero : (votesFor [] body).length = 0 := rfl
    omega
  · have winnerEnough := enough.trans (greatest body)
    have same : winner = body := by
      rw [votesFor, ← count_map] at enough winnerEnough
      refine majority_unique ?_ winnerEnough enough
      have listed := eligibleVotes_length_le call.replies chain
      rw [List.length_map]
      omega
    rw [same] at decided winnerEnough
    rw [decided]
    simp only [Nat.not_lt.mpr winnerEnough, false_or]

theorem DistributorReads.prepare_short (reads : DistributorReads call chain)
    (short : ∀ body, (votesFor (eligibleVotes call.replies chain) body).length <
      chain.rewardsMinOracles) : prepareDistributor call = .ok none := by
  rcases reads.cases with ⟨-, nothing⟩ | ⟨winner, -, decided⟩
  · exact nothing
  · rw [decided, if_pos (Or.inl (short winner))]

theorem DistributorReads.prepare_perm (reads : DistributorReads call chain)
    (distinct : DistinctOracles call.replies)
    (majority : call.replies.length < 2 * chain.rewardsMinOracles)
    {replies : List (DistributorReply Int String)} (perm : replies.Perm call.replies) :
    prepareDistributor { call with replies := replies } = prepareDistributor call := by
  have readsToo : DistributorReads { call with replies := replies } chain :=
    ⟨reads.nonce, reads.nextUpdateTimestamp, reads.rewardsMinOracles, reads.rewardsRoot⟩
  have eligible : (eligibleVotes replies chain).Perm (eligibleVotes call.replies chain) :=
    eligibleVotes_perm perm
  have votes (body : DistributorRewardVoteBody String) :
      (votesFor (eligibleVotes replies chain) body).length =
        (votesFor (eligibleVotes call.replies chain) body).length :=
    (eligible.filter _).length_eq
  by_cases quorum : ∃ body, chain.rewardsMinOracles ≤
      (votesFor (eligibleVotes call.replies chain) body).length
  · obtain ⟨body, enough⟩ := quorum
    have enoughToo := enough.trans (votes body).ge
    rw [reads.prepare_quorum majority enough,
      readsToo.prepare_quorum (perm.length_eq.trans_lt majority) enoughToo,
      sortedByLoweredAddress_eq eligible (eligibleVotes_distinct distinct)]
  · have short (body : DistributorRewardVoteBody String) :
        (votesFor (eligibleVotes call.replies chain) body).length < chain.rewardsMinOracles :=
      Nat.lt_of_not_le fun enough => quorum ⟨body, enough⟩
    rw [reads.prepare_short short,
      readsToo.prepare_short fun body => (votes body).trans_lt (short body)]

end Call

theorem submission_backed_by_quorum {call : DistributorCall Int String}
    (distinct : DistinctOracles call.replies) {submission : DistributorSubmission Int String}
    (submitted : (processDistributorRewards call).submission = some submission) :
    ∃ chain, DistributorReads call chain ∧ BackedByQuorum call.replies chain submission := by
  obtain ⟨chain, reads⟩ := reads_of_submission submitted
  exact ⟨chain, reads, reads.backed distinct (processDistributorRewards_submission.mp submitted)⟩

/-- Two of three oracles agree; the address of the second one is the smaller number although its
letter is the larger character. -/
theorem submission_backed_by_quorum_two :
    let oracle (digit : Char) (hex : isHexDigit digit = true) : Oracle :=
      ⟨"https://oracle", List.replicate 40 digit,
        fun _ member => List.eq_of_mem_replicate member ▸ hex, rfl⟩
    let first := oracle 'B' rfl
    let second := oracle 'a' rfl
    let third := oracle '3' rfl
    let answer : DistributorVoteReply Int String := ⟨5, 1700000001, "0x51", ⟨"0x01", "QmVote"⟩⟩
    let call : DistributorCall Int String :=
      { replies := [⟨first, [.ok none, .ok (some answer)]⟩, ⟨second, [.ok (some answer)]⟩,
          ⟨third, [.error .requestError]⟩]
        nonce := .ok 5
        nextUpdateTimestamp := .ok 1700000000
        rewardsMinOracles := .ok 2
        rewardsRoot := .ok "0x00"
        receipt := fun _ => .ok (some ⟨7, 1⟩) }
    let submission : DistributorSubmission Int String :=
      ⟨answer.body, [answer.toVote second, answer.toVote first]⟩
    ∃ chain, DistributorReads call chain ∧ BackedByQuorum call.replies chain submission := by
  intro oracle first second third answer call submission
  have distinct : DistinctOracles call.replies := by
    unfold DistinctOracles
    decide
  exact submission_backed_by_quorum distinct rfl

/-- With more than half of the oracles asked for, a call submits exactly where a new body has
enough votes, and does the same in whatever order the oracles are listed. -/
theorem majority_decides {call : DistributorCall Int String} {chain : DistributorChain}
    (reads : DistributorReads call chain) (distinct : DistinctOracles call.replies)
    (majority : call.replies.length < 2 * chain.rewardsMinOracles) :
    ((∃ submission, (processDistributorRewards call).submission = some submission) ↔
      ∃ body : DistributorRewardVoteBody String, body.root ≠ chain.rewardsRoot ∧
        chain.rewardsMinOracles ≤ (votesFor (eligibleVotes call.replies chain) body).length) ∧
    ∀ replies : List (DistributorReply Int String), replies.Perm call.replies →
      processDistributorRewards { call with replies := replies } =
        processDistributorRewards call := by
  refine ⟨?_, fun replies perm => ?_⟩
  · simp only [processDistributorRewards_submission]
    constructor
    · rintro ⟨submission, prepared⟩
      by_cases quorum : ∃ body, chain.rewardsMinOracles ≤
          (votesFor (eligibleVotes call.replies chain) body).length
      · obtain ⟨body, enough⟩ := quorum
        refine ⟨body, fun same => ?_, enough⟩
        rw [reads.prepare_quorum majority enough, if_pos same] at prepared
        cases prepared
      · rw [reads.prepare_short fun body => Nat.lt_of_not_le fun enough =>
          quorum ⟨body, enough⟩] at prepared
        cases prepared
    · rintro ⟨body, fresh, enough⟩
      exact ⟨_, (reads.prepare_quorum majority enough).trans (if_neg fresh)⟩
  · simp only [processDistributorRewards, reads.prepare_perm distinct majority perm]

/-- Two of three oracles are asked for; the third one votes otherwise. -/
theorem majority_decides_two :
    let oracle (digit : Char) (hex : isHexDigit digit = true) : Oracle :=
      ⟨"https://oracle", ChecksumAddress.ofDigit digit hex⟩
    let answer (root : String) : DistributorVoteReply Int String :=
      ⟨5, 1700000001, "0x51", ⟨root, "QmVote"⟩⟩
    let call : DistributorCall Int String :=
      { replies := [⟨oracle '1' rfl, [.ok (some (answer "0x02"))]⟩,
          ⟨oracle '2' rfl, [.ok (some (answer "0x01"))]⟩,
          ⟨oracle '3' rfl, [.ok (some (answer "0x01"))]⟩]
        nonce := .ok 5
        nextUpdateTimestamp := .ok 1700000000
        rewardsMinOracles := .ok 2
        rewardsRoot := .ok "0x00"
        receipt := fun _ => .ok (some ⟨7, 1⟩) }
    let chain : DistributorChain := ⟨5, 1700000000, 2, "0x00"⟩
    ((∃ submission, (processDistributorRewards call).submission = some submission) ↔
      ∃ body : DistributorRewardVoteBody String, body.root ≠ chain.rewardsRoot ∧
        chain.rewardsMinOracles ≤ (votesFor (eligibleVotes call.replies chain) body).length) ∧
    ∀ replies : List (DistributorReply Int String), replies.Perm call.replies →
      processDistributorRewards { call with replies := replies } =
        processDistributorRewards call := by
  intro oracle answer call chain
  have distinct : DistinctOracles call.replies := by
    unfold DistinctOracles
    decide
  exact majority_decides ⟨rfl, rfl, rfl, rfl⟩ distinct (by decide)

end V3Keeper
