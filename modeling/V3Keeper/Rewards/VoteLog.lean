import V3Keeper.Rewards.ClosedForm

/-!
`process_rewards` without its cache: a keeper that remembers every vote it has counted since the
last submission that did not raise, and looks at the closed form of them all.
-/

namespace V3Keeper

open Python StepRun

section Log

variable {τ ρ : Type*} [BEq τ] [LinearOrder τ] [PyOrder τ] [BEq ρ] [PyHash ρ]

def countedVotes (reads : RewardsReads τ ρ) : Except PyError (List (RewardVote τ ρ)) :=
  match reads.canUpdate with
  | .error error => .error error
  | .ok false => .ok []
  | .ok true =>
      if (fetchRewardVotes reads.replies).isEmpty then .ok []
      else reads.rewardsNonce.map (currentVotes (fetchRewardVotes reads.replies))

def groupWinner (threshold : Nat) (group : List (RewardVote τ ρ)) : Option (RewardVoteBody τ ρ) :=
  match counter (group.map RewardVote.body) with
  | .error _ => none
  | .ok bodies =>
      match mostCommon bodies with
      | none => none
      | some (winner, winnerVoteCount) =>
          if threshold ≤ winnerVoteCount then some winner else none

def chooseFrom (threshold : Nat) (groups : List (List (RewardVote τ ρ))) :
    Option (RewardsSubmission τ ρ) :=
  groups.findSome? fun group =>
    (groupWinner threshold group).map fun winner =>
      ⟨winner, ((sortedByAddress group).filter fun vote => vote.body == winner).take threshold⟩

def logStep (cacheSize : Nat) (log : List (RewardVote τ ρ)) (call : RewardsCall τ ρ) :
    RewardsOutcome τ ρ × List (RewardVote τ ρ) :=
  match countedVotes call.toRewardsReads with
  | .error error => (⟨none, .error error⟩, log)
  | .ok [] => (⟨none, .ok ()⟩, log)
  | .ok counted =>
      match chooseFrom call.rewardsThreshold (closedForm cacheSize (log ++ counted)) with
      | none => (⟨none, .ok ()⟩, log ++ counted)
      | some submission =>
          match submitVote (call.receipt submission) with
          | .error error => (⟨some submission, .error error⟩, log ++ counted)
          | .ok _ => (⟨some submission, .ok ()⟩, [])

end Log

section Plain

variable {τ ρ : Type*} [BEq τ] [LinearOrder τ] [PyOrder τ] [PlainOrder τ] [BEq ρ] [PyHash ρ]
  [PlainHash ρ]

theorem groupWinner_bucket (threshold : Nat) (bucket : TimestampVotes τ ρ) :
    ∃ bodies winner, counter (bucket.votes.map RewardVote.body) = .ok bodies ∧
      mostCommon bodies = some winner ∧
      groupWinner threshold bucket.votes =
        if canSubmit winner.2 threshold then some winner.1 else none := by
  obtain ⟨bodies, winner, counted, common, -⟩ := counter_bodies bucket
  refine ⟨bodies, _, counted, common, ?_⟩
  simp only [groupWinner, counted, common, canSubmit, decide_eq_true_eq]

theorem earliestWinner_eq (threshold : Nat) (buckets : List (TimestampVotes τ ρ)) :
    (match earliestWinner threshold buckets with
      | .error error => .error error
      | .ok none => .ok none
      | .ok (some (bucket, winner)) => .ok (some ⟨winner,
          collectSigners winner threshold 0 (sortedByAddress bucket.votes)⟩)) =
      (.ok (chooseFrom threshold (buckets.map TimestampVotes.votes)) :
        Except PyError (Option (RewardsSubmission τ ρ))) := by
  induction buckets with
  | nil => rfl
  | cons bucket rest ih =>
      obtain ⟨bodies, winner, counted, common, chosen⟩ := groupWinner_bucket threshold bucket
      rw [List.map_cons, chooseFrom, List.findSome?_cons, chosen]
      simp only [earliestWinner, counted, common]
      by_cases enough : canSubmit winner.2 threshold = true
      · simp only [enough, if_true, Option.map_some, collectSigners_eq, Nat.sub_zero]
      · rw [if_neg enough, if_neg enough]
        exact ih

theorem RewardsCache.Reflects.chooseSubmission {cache : RewardsCache τ ρ} {cacheSize : Nat}
    {log : List (RewardVote τ ρ)} (reflects : cache.Reflects cacheSize log) (threshold : Nat) :
    V3Keeper.chooseSubmission cache threshold =
      .ok (chooseFrom threshold (closedForm cacheSize log)) := by
  obtain ⟨buckets, sorted, groups⟩ := reflects.rewards
  rw [← groups, ← earliestWinner_eq]
  rcases chosen : earliestWinner threshold buckets with error | _ | ⟨bucket, winner⟩
  all_goals simp only [V3Keeper.chooseSubmission, findEarliestWinner, sorted, chosen]

omit [LinearOrder τ] [PlainOrder τ] [PlainHash ρ] in
theorem prepareRewards_counted (cache : RewardsCache τ ρ) (reads : RewardsReads τ ρ) :
    prepareRewards cache reads =
      match countedVotes reads with
      | .error error => (.error error, cache)
      | .ok [] => (.ok none, cache)
      | .ok counted =>
          match cache.update counted with
          | (.error error, updated) => (.error error, updated)
          | (.ok _, updated) => (chooseSubmission updated reads.rewardsThreshold, updated) := by
  unfold prepareRewards countedVotes
  cases reads.canUpdate with
  | error error => rfl
  | ok canUpdate =>
      cases canUpdate with
      | false => rfl
      | true =>
          cases fetchRewardVotes reads.replies with
          | nil => rfl
          | cons vote others =>
              cases reads.rewardsNonce with
              | error error => rfl
              | ok nonce =>
                  simp only [List.isEmpty_cons, Bool.false_eq_true, if_false, Except.map]
                  cases currentVotes (vote :: others) nonce <;> rfl

theorem processRewards_logStep {cache : RewardsCache τ ρ} {cacheSize : Nat}
    {log : List (RewardVote τ ρ)} (reflects : cache.Reflects cacheSize log)
    (call : RewardsCall τ ρ) :
    (processRewards cache call).1 = (logStep cacheSize log call).1 ∧
      (processRewards cache call).2.Reflects cacheSize (logStep cacheSize log call).2 := by
  unfold processRewards logStep
  rw [prepareRewards_counted]
  cases countedVotes call.toRewardsReads with
  | error error => exact ⟨rfl, reflects⟩
  | ok counted =>
      cases counted with
      | nil => exact ⟨rfl, reflects⟩
      | cons vote others =>
          have updated := reflects.update (vote :: others)
          have chosen := updated.chooseSubmission call.rewardsThreshold
          have succeeds := (update_spec cache (vote :: others)).1
          dsimp only
          generalize cache.update (vote :: others) = next at updated chosen succeeds
          obtain ⟨result, stored⟩ := next
          cases succeeds
          simp only [chosen]
          cases chooseFrom call.rewardsThreshold (closedForm cacheSize (log ++ vote :: others)) with
          | none => exact ⟨rfl, updated⟩
          | some submission =>
              simp only [finishRewards]
              cases submitVote (call.receipt submission) with
              | error error => exact ⟨rfl, updated⟩
              | ok _ =>
                  have cleared : (RewardsCache.new cacheSize : RewardsCache τ ρ).Reflects
                      cacheSize [] := RewardsCache.reflects_new cacheSize
                  rw [← updated.size] at cleared
                  exact ⟨rfl, updated.size ▸ cleared⟩

end Plain

/-- From an empty cache on, the keeper returns in every call what the log returns, and its cache
is the closed form of the log. -/
theorem processRewards_refines_log (cacheSize : Nat) (calls : List (RewardsCall Int String)) :
    (history processRewards (RewardsCache.new cacheSize) calls).map Transition.output =
        (history (logStep cacheSize) [] calls).map Transition.output ∧
      ∃ buckets, (final processRewards (RewardsCache.new cacheSize) calls).rewards = .ok buckets ∧
        buckets.map TimestampVotes.votes =
          closedForm cacheSize (final (logStep cacheSize) [] calls) := by
  have initial : (RewardsCache.new cacheSize : RewardsCache Int String).Reflects cacheSize [] :=
    RewardsCache.reflects_new cacheSize
  have simulates : ∀ (cache : RewardsCache Int String) (log : List (RewardVote Int String)) call,
      cache.Reflects cacheSize log →
        (processRewards cache call).1 = (logStep cacheSize log call).1 ∧
          (processRewards cache call).2.Reflects cacheSize (logStep cacheSize log call).2 :=
    fun _ _ call reflects => processRewards_logStep reflects call
  obtain ⟨outputs, reflects⟩ := outputs_eq_of_simulates simulates initial calls
  exact ⟨outputs, reflects.rewards⟩

end V3Keeper
