import V3Keeper.Distributor.Service

/-!
What one call of `process_distributor_rewards` does, for values of any kind: which votes
are eligible and what becomes of them.
-/

namespace V3Keeper

open Python

variable {τ ρ : Type*}

theorem DistributorReply.mem_votes {reply : DistributorReply τ ρ}
    {vote : DistributorRewardVote τ ρ} :
    vote ∈ reply.votes ↔ ∃ answer, .ok (some answer) ∈ reply.endpoints ∧
      answer.toVote reply.oracle = vote := by
  rw [DistributorReply.votes, List.mem_filterMap]
  constructor
  · rintro ⟨endpoint, member, found⟩
    split at found
    case h_1 answer => exact ⟨answer, member, Option.some.inj found⟩
    case h_2 => cases found
  · rintro ⟨answer, member, rfl⟩
    exact ⟨.ok (some answer), member, rfl⟩

variable [PyOrder τ]

theorem votesAbove_append (next : Int) (first second : List (DistributorRewardVote τ ρ)) :
    votesAbove next (first ++ second) =
      match votesAbove next first with
      | .error error => .error error
      | .ok votes =>
          match votesAbove next second with
          | .error error => .error error
          | .ok others => .ok (votes ++ others) := by
  induction first with
  | nil =>
      simp only [List.nil_append, votesAbove]
      cases votesAbove next second <;> rfl
  | cons vote rest ih =>
      simp only [List.cons_append, votesAbove, ih]
      cases PyOrder.lt (PyOrder.ofInt next) vote.updateTimestamp with
      | error error => rfl
      | ok above =>
          cases votesAbove next rest with
          | error error => rfl
          | ok votes =>
              cases votesAbove next second with
              | error error => rfl
              | ok others => cases above <;> rfl

theorem votesAbove_single {next : Int} {vote : DistributorRewardVote τ ρ}
    (above : PyOrder.lt (PyOrder.ofInt next) vote.updateTimestamp = .ok true) :
    votesAbove next [vote] = .ok [vote] := by
  simp only [votesAbove, above, if_true]

theorem votesAbove_single_raises {next : Int} {vote : DistributorRewardVote τ ρ} {error : PyError}
    (raises : PyOrder.lt (PyOrder.ofInt next) vote.updateTimestamp = .error error) :
    votesAbove next [vote] = .error error := by
  simp only [votesAbove, raises]

variable [BEq τ]

theorem fetchDistributorVote_mem {reply : DistributorReply τ ρ} {vote : DistributorRewardVote τ ρ}
    (fetched : fetchDistributorVote reply = .ok (some vote)) : vote ∈ reply.votes := by
  unfold fetchDistributorVote at fetched
  split at fetched
  case h_1 => cases fetched
  case h_2 first rest votes =>
    split at fetched
    case h_1 => cases fetched
    case h_2 maxNonce _ =>
      split at fetched
      case h_1 => cases fetched
      case h_2 newest others newestEq =>
        cases fetched
        rw [votes]
        exact (List.mem_filter.mp (newestEq ▸ List.mem_cons_self)).1

theorem fetchDistributorVote_only {reply : DistributorReply τ ρ} {vote : DistributorRewardVote τ ρ}
    (votes : reply.votes = [vote]) (reflexive : (vote.nonce == vote.nonce) = true) :
    fetchDistributorVote reply = .ok (some vote) := by
  have newest : [vote].filter (fun other => other.nonce == vote.nonce) = [vote] := by
    simp [reflexive]
  simp only [fetchDistributorVote, votes, List.map_cons, List.map_nil, maxOf, maxFrom, newest]

theorem fetchDistributorRewardVotes_append (first second : List (DistributorReply τ ρ)) :
    fetchDistributorRewardVotes (first ++ second) =
      fetchDistributorRewardVotes first ++ fetchDistributorRewardVotes second :=
  List.filterMap_append

theorem fetchDistributorRewardVotes_single (reply : DistributorReply τ ρ) :
    fetchDistributorRewardVotes [reply] = [] ∨
      ∃ vote, fetchDistributorVote reply = .ok (some vote) ∧
        fetchDistributorRewardVotes [reply] = [vote] := by
  unfold fetchDistributorRewardVotes
  cases fetched : fetchDistributorVote reply with
  | error error => simp [fetched]
  | ok found => cases found <;> simp [fetched]

theorem votesAbove_without {reply : DistributorReply τ ρ} {nonce next : Int}
    (filtered : ∀ vote ∈ reply.votes, (vote.nonce == PyOrder.ofInt nonce) = false ∨
      PyOrder.lt (PyOrder.ofInt next) vote.updateTimestamp = .ok false)
    (before after : List (DistributorReply τ ρ)) :
    votesAbove next (currentDistributorVotes
        (fetchDistributorRewardVotes (before ++ reply :: after)) nonce) =
      votesAbove next (currentDistributorVotes
        (fetchDistributorRewardVotes (before ++ after)) nonce) := by
  have own : votesAbove next (currentDistributorVotes
      (fetchDistributorRewardVotes [reply]) nonce) = .ok [] := by
    rcases fetchDistributorRewardVotes_single reply with none | ⟨vote, fetched, only⟩
    · rw [none]
      rfl
    · rw [only]
      rcases filtered vote (fetchDistributorVote_mem fetched) with other | old
      · rw [currentDistributorVotes, List.filter_cons, other, if_neg (by simp)]
        rfl
      · rw [currentDistributorVotes, List.filter_cons]
        split
        · simp only [List.filter_nil, votesAbove, old, Bool.false_eq_true, if_false]
        · rfl
  rw [← List.singleton_append (l := after), fetchDistributorRewardVotes_append,
    fetchDistributorRewardVotes_append, fetchDistributorRewardVotes_append,
    currentDistributorVotes, currentDistributorVotes, List.filter_append, List.filter_append,
    List.filter_append, votesAbove_append, votesAbove_append, votesAbove_append]
  rw [currentDistributorVotes] at own
  rw [own]
  cases votesAbove next (List.filter _ (fetchDistributorRewardVotes before)) with
  | error error => rfl
  | ok votes =>
      cases votesAbove next (List.filter _ (fetchDistributorRewardVotes after)) <;> rfl

variable [BEq ρ] [PyText ρ]

theorem prepareDistributor_reads (call : DistributorCall τ ρ) {nonce next : Int}
    (nonceRead : call.nonce = .ok nonce) (nextRead : call.nextUpdateTimestamp = .ok next) :
    prepareDistributor call =
      decideDistributor call (votesAbove next (currentDistributorVotes
        (fetchDistributorRewardVotes call.replies) nonce)) := by
  unfold prepareDistributor
  cases fetchDistributorRewardVotes call.replies with
  | nil => rfl
  | cons vote others =>
      simp only [nonceRead]
      cases currentDistributorVotes (vote :: others) nonce with
      | nil => rfl
      | cons current rest => simp only [nextRead]

omit [BEq τ] [PyOrder τ] in
theorem chooseDistributorSubmission_alone {vote : DistributorRewardVote τ ρ} {root : String}
    (otherRoot : (vote.body.root == PyText.ofString root) = false) :
    chooseDistributorSubmission [vote] (.ok 1) (.ok root) ≠ .ok none := by
  unfold chooseDistributorSubmission
  rw [List.map_singleton]
  cases counted : counter [vote.body] with
  | error error => simp
  | ok bodies => simp [mostCommon_single counted, otherRoot]

theorem prepareDistributor_alone {call : DistributorCall τ ρ} {nonce next : Int}
    {vote : DistributorRewardVote τ ρ} {root : String} (nonceRead : call.nonce = .ok nonce)
    (nextRead : call.nextUpdateTimestamp = .ok next)
    (current : currentDistributorVotes (fetchDistributorRewardVotes call.replies) nonce = [vote])
    (oracles : call.rewardsMinOracles = .ok 1) (rootRead : call.rewardsRoot = .ok root)
    (otherRoot : (vote.body.root == PyText.ofString root) = false)
    (notOld : PyOrder.lt (PyOrder.ofInt next) vote.updateTimestamp ≠ .ok false) :
    prepareDistributor call ≠ .ok none := by
  rw [prepareDistributor_reads call nonceRead nextRead, current]
  cases compared : PyOrder.lt (PyOrder.ofInt next) vote.updateTimestamp with
  | error error =>
      rw [votesAbove_single_raises compared]
      simp [decideDistributor]
  | ok above =>
      cases above with
      | false => exact absurd compared notOld
      | true =>
          rw [votesAbove_single compared, decideDistributor, oracles, rootRead]
          exact chooseDistributorSubmission_alone otherRoot

theorem processDistributorRewards_idle {call : DistributorCall τ ρ}
    (idle : processDistributorRewards call = ⟨none, .ok ()⟩) :
    prepareDistributor call = .ok none := by
  unfold processDistributorRewards at idle
  split at idle
  case h_1 => cases (DistributorOutcome.mk.inj idle).2
  case h_2 nothing => exact nothing
  case h_3 => cases (DistributorOutcome.mk.inj idle).1

end V3Keeper
