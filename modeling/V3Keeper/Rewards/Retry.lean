import V3Keeper.Rewards.Laws
import V3Keeper.Transaction.Confirmation

/-!
`process_rewards` on top of the transaction manager, and what an unconfirmed submission
leaves for the next run.
-/

namespace V3Keeper

open Python

variable {τ ρ : Type*} [BEq τ] [BEq ρ] [PyOrder τ] [PyHash ρ]

structure KeeperState (τ ρ : Type*) [BEq τ] [BEq ρ] where
  cache : RewardsCache τ ρ
  manager : TransactionManager

structure RewardsTask (τ ρ : Type*) extends RewardsReads τ ρ where
  transaction : RewardsSubmission τ ρ → TransactCall

/-- `KeeperContract.update_rewards`, which leaves the parameters of `transact` at their defaults. -/
def updateRewards (settings : Settings) (manager : TransactionManager) (reads : TransactCall) :
    TransactOutcome × TransactionManager :=
  transactStep settings manager { reads with txParams := {}, highPriority := false }

def rewardsTask (settings : Settings) (state : KeeperState τ ρ) (task : RewardsTask τ ρ) :
    RewardsOutcome τ ρ × KeeperState τ ρ :=
  match prepareRewards state.cache task.toRewardsReads with
  | (.error error, updated) => (⟨none, .error error⟩, { state with cache := updated })
  | (.ok none, updated) => (⟨none, .ok ()⟩, { state with cache := updated })
  | (.ok (some submission), updated) =>
      let transacted := updateRewards settings state.manager (task.transaction submission)
      let finished := finishRewards submission transacted.1.result updated
      (finished.1, ⟨finished.2, transacted.2⟩)

theorem rewardsTask_processRewards (settings : Settings) (state : KeeperState τ ρ)
    (task : RewardsTask τ ρ) :
    let processed := processRewards state.cache
      { task.toRewardsReads with
        receipt := fun submission =>
          (updateRewards settings state.manager (task.transaction submission)).1.result }
    (rewardsTask settings state task).1 = processed.1 ∧
      (rewardsTask settings state task).2.cache = processed.2 := by
  simp only [rewardsTask, processRewards]
  split <;> simp [*]

theorem updated_nonempty {cache : RewardsCache τ ρ} {reads : RewardsReads τ ρ}
    {submission : RewardsSubmission τ ρ} {updated : RewardsCache τ ρ}
    (prepared : prepareRewards cache reads = (.ok (some submission), updated)) :
    updated.votes ≠ [] := by
  rcases prepareRewards_cases cache reads with
    ⟨-, -, nothing⟩ | ⟨nonce, current, -, updatedEq, submits⟩
  · exact absurd (congrArg Prod.fst prepared) (nothing submission)
  · have chosen := ((submits submission).mp (congrArg Prod.fst prepared)).2
    rw [← updatedEq, prepared] at chosen
    obtain ⟨timestampVotes, member, -, -⟩ := chooseSubmission_signers chosen
    exact List.ne_nil_of_mem (List.mem_flatMap.mpr ⟨timestampVotes, member, List.mem_cons_self⟩)

/-- The cache outlives a submission that is not confirmed, and only a receipt empties it. -/
structure StaysRetriable (settings : Settings) (state : KeeperState τ ρ) (task : RewardsTask τ ρ)
    (submission : RewardsSubmission τ ρ) (updated : RewardsCache τ ρ) : Prop where
  kept : (∀ receipt, (updateRewards settings state.manager
      (task.transaction submission)).1.result ≠ .ok (some receipt)) →
    (rewardsTask settings state task).2.cache = updated
  emptied : (rewardsTask settings state task).2.cache.votes = [] →
    ∃ receipt, (updateRewards settings state.manager
      (task.transaction submission)).1.result = .ok (some receipt)

/-- The quorum survives exactly where `transact` does not end in `None`. -/
theorem staysRetriable_iff (settings : Settings) (state : KeeperState τ ρ) (task : RewardsTask τ ρ)
    (submission : RewardsSubmission τ ρ) (updated : RewardsCache τ ρ)
    (reached : prepareRewards state.cache task.toRewardsReads = (.ok (some submission), updated)) :
    StaysRetriable settings state task submission updated ↔
      ¬LeavesNoReceipt settings state.manager
        { task.transaction submission with txParams := {}, highPriority := false } := by
  have nonempty := updated_nonempty reached
  rw [← transactStep_none]
  change _ ↔
    ¬(updateRewards settings state.manager (task.transaction submission)).1.result = .ok none
  cases result : (updateRewards settings state.manager (task.transaction submission)).1.result with
  | error error =>
      have after : (rewardsTask settings state task).2.cache = updated := by
        simp [rewardsTask, reached, finishRewards, submitVote, result]
      refine iff_of_true ⟨fun _ => after, fun empty => absurd ?_ nonempty⟩ (by simp)
      rw [← after]
      exact empty
  | ok confirmed =>
      have after : (rewardsTask settings state task).2.cache = updated.clear := by
        cases confirmed <;> simp [rewardsTask, reached, finishRewards, submitVote, result]
      cases confirmed with
      | none =>
          refine iff_of_false (fun retriable => nonempty ?_) (by simp)
          rw [← retriable.kept (by simp [result]), after, RewardsCache.votes_clear]
      | some receipt =>
          refine iff_of_true ⟨fun unconfirmed => ?_, fun _ => ⟨receipt, result⟩⟩ (by simp)
          exact absurd result (unconfirmed receipt)

/-- One oracle makes the quorum, and the node accepts the transaction. -/
theorem staysRetriable_iff_accepted :
    let reads : RewardsReads Int String :=
      { canUpdate := .ok true, rewardsNonce := .ok 5, rewardsThreshold := 1
        replies := [⟨⟨"0x1", .ofDigit '1' rfl⟩,
          [.ok ⟨5, [1], ⟨1700000000, "0x01", "QmVote", 1000⟩⟩]⟩] }
    let task : RewardsTask Int String :=
      { reads with
        transaction := fun _ =>
          { latestNonce := .ok 5, pendingNonce := .ok 5, quote := .error .requestError
            defaultGasAnswer := fun _ _ => .accepted 7, highPriorityAnswer := fun _ => .accepted 7
            receipt := fun txHash => .receipt ⟨txHash, 1⟩ } }
    let state : KeeperState Int String := ⟨RewardsCache.new defaultCacheSize, {}⟩
    ∃ submission updated,
      prepareRewards state.cache task.toRewardsReads = (.ok (some submission), updated) ∧
        (StaysRetriable ⟨100 * 10 ^ 9, 5⟩ state task submission updated ↔
          ¬LeavesNoReceipt ⟨100 * 10 ^ 9, 5⟩ state.manager
            { task.transaction submission with txParams := {}, highPriority := false }) := by
  intro reads task state
  exact ⟨_, _, rfl, staysRetriable_iff _ state task _ _ rfl⟩

/-- The receipt of the accepted transaction does not come in time, and the quorum is gone. -/
theorem quorum_lost_on_timeout :
    let reads : RewardsReads Int String :=
      { canUpdate := .ok true, rewardsNonce := .ok 5, rewardsThreshold := 1
        replies := [⟨⟨"0x1", .ofDigit '1' rfl⟩,
          [.ok ⟨5, [1], ⟨1700000000, "0x01", "QmVote", 1000⟩⟩]⟩] }
    let task : RewardsTask Int String :=
      { reads with
        transaction := fun _ =>
          { latestNonce := .ok 5, pendingNonce := .ok 5, quote := .error .requestError
            defaultGasAnswer := fun _ _ => .accepted 7, highPriorityAnswer := fun _ => .accepted 7
            receipt := fun _ => .timeExhausted } }
    let state : KeeperState Int String := ⟨RewardsCache.new defaultCacheSize, {}⟩
    ∃ submission updated,
      prepareRewards state.cache task.toRewardsReads = (.ok (some submission), updated) ∧
        ¬StaysRetriable ⟨100 * 10 ^ 9, 5⟩ state task submission updated := by
  intro reads task state
  refine ⟨_, _, rfl, fun retriable => ?_⟩
  obtain ⟨receipt, confirmed⟩ := retriable.emptied rfl
  cases confirmed

end V3Keeper
