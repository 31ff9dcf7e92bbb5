import V3Keeper.Distributor.Service
import V3Keeper.Rewards.Laws

/-!
The order of the signers. Distributor votes are sorted by the lowered text of the
address and reward votes by its number, which is one order.
-/

namespace V3Keeper

open Python StableSort

theorem ChecksumAddress.toInt_lt (address : ChecksumAddress) : address.toInt < 2 ^ 160 := by
  have bound := Digits.value_lt (by decide) fun digit member =>
    (hexDigit_codes (address.hex digit member)).1
  rw [address.length] at bound
  exact bound

variable {τ ρ : Type*}

theorem sortedByLoweredAddress_numeric (votes : List (DistributorRewardVote τ ρ)) :
    SortedBy (fun vote => vote.oracleAddress.toInt) votes (sortedByLoweredAddress votes) :=
  (insertionSort_sortedBy (fun vote => vote.oracleAddress.lower) votes).of_key
    fun _ _ => ChecksumAddress.lower_le_iff _ _

theorem map_sortedBy {α β γ : Type*} [LinearOrder γ] (project : α → β) (key : β → γ)
    (items : List α) :
    (items.insertionSort fun first second => key (project first) ≤ key (project second)).map
        project =
      (items.map project).insertionSort fun first second => key first ≤ key second :=
  List.map_insertionSort _ _ _ _ fun _ _ _ _ => Iff.rfl

/-- Either pipeline could use the sort of the other: both are stable and in ascending
numeric order, and the addresses alone determine the order of the signers. -/
theorem sortedByLoweredAddress_alike (votes : List (DistributorRewardVote τ ρ))
    (rewardVotes : List (RewardVote τ ρ)) :
    sortedByLoweredAddress votes = (votes.insertionSort fun first second =>
        first.oracleAddress.toInt ≤ second.oracleAddress.toInt) ∧
      sortedByAddress rewardVotes = (rewardVotes.insertionSort fun first second =>
        first.oracleAddress.lower ≤ second.oracleAddress.lower) ∧
      SortedBy (fun vote => vote.oracleAddress.toInt) votes (sortedByLoweredAddress votes) ∧
      SortedBy (fun vote => vote.oracleAddress.toInt) rewardVotes (sortedByAddress rewardVotes) ∧
      (sortedByLoweredAddress votes).map DistributorRewardVote.oracleAddress =
        ((votes.map DistributorRewardVote.oracleAddress).insertionSort fun first second =>
          first.toInt ≤ second.toInt) ∧
      (sortedByAddress rewardVotes).map RewardVote.oracleAddress =
        ((rewardVotes.map RewardVote.oracleAddress).insertionSort fun first second =>
          first.toInt ≤ second.toInt) ∧
      ∀ address : ChecksumAddress, address.toInt < 2 ^ 160 := by
  have lowered := (sortedByLoweredAddress_numeric votes).unique
    (insertionSort_sortedBy (fun vote => vote.oracleAddress.toInt) votes)
  have numeric := (sortedByAddress_numeric rewardVotes).unique
    ((insertionSort_sortedBy (fun vote => vote.oracleAddress.lower) rewardVotes).of_key
      fun _ _ => ChecksumAddress.lower_le_iff _ _)
  refine ⟨lowered, numeric, sortedByLoweredAddress_numeric votes,
    sortedByAddress_numeric rewardVotes, ?_, ?_, ChecksumAddress.toInt_lt⟩
  · rw [lowered]
    exact map_sortedBy DistributorRewardVote.oracleAddress ChecksumAddress.toInt votes
  · exact map_sortedBy RewardVote.oracleAddress ChecksumAddress.toInt rewardVotes

end V3Keeper
