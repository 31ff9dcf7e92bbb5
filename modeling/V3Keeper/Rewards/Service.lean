import V3Keeper.Rewards.Cache
import V3Keeper.Transaction.Manager

/-!
`process_rewards` of `src/rewards/service.py`. What the oracles, the keeper contract and
`tx_manager.transact` answer is the input of a call.
-/

namespace V3Keeper

open Python

variable {τ ρ : Type*} [BEq τ] [BEq ρ]

structure Oracle where
  publicKey : String
  address : ChecksumAddress
  deriving DecidableEq

structure VoteReply (τ ρ : Type*) where
  nonce : τ
  signature : Bytes
  body : RewardVoteBody τ ρ

structure OracleReply (τ ρ : Type*) where
  oracle : Oracle
  endpoints : List (Except PyError (VoteReply τ ρ))

def VoteReply.toVote (reply : VoteReply τ ρ) (oracle : Oracle) : RewardVote τ ρ where
  oracleAddress := oracle.address
  nonce := reply.nonce
  signature := reply.signature
  body := reply.body

def OracleReply.votes (reply : OracleReply τ ρ) : List (RewardVote τ ρ) :=
  reply.endpoints.filterMap fun endpoint =>
    match endpoint with
    | .error _ => none
    | .ok vote => some (vote.toVote reply.oracle)

def latestVote [PyOrder τ] (votes : List (RewardVote τ ρ)) : Except PyError (RewardVote τ ρ) :=
  match votes with
  | [vote] => .ok vote
  | _ =>
      match sortBy (fun vote => vote.body.updateTimestamp) votes with
      | .error error => .error error
      | .ok sorted =>
          match sorted.getLast? with
          | none => .error .indexError
          | some vote => .ok vote

def fetchVoteFromOracle [PyOrder τ] (reply : OracleReply τ ρ) : Except PyError (RewardVote τ ρ) :=
  match reply.votes with
  | [] => .error (.runtimeError
      ("All endpoints are unavailable for oracle " ++ reply.oracle.publicKey))
  | vote :: rest =>
      match maxOf ((vote :: rest).map RewardVote.nonce) with
      | .error error => .error error
      | .ok maxNonce => latestVote ((vote :: rest).filter fun vote => vote.nonce == maxNonce)

def fetchRewardVotes [PyOrder τ] (replies : List (OracleReply τ ρ)) : List (RewardVote τ ρ) :=
  replies.filterMap fun reply =>
    match fetchVoteFromOracle reply with
    | .error _ => none
    | .ok vote => some vote

def canSubmit (signaturesCount threshold : Nat) : Bool := decide (threshold ≤ signaturesCount)

def earliestWinner [PyHash τ] [PyHash ρ] (threshold : Nat) : List (TimestampVotes τ ρ) →
    Except PyError (Option (TimestampVotes τ ρ × RewardVoteBody τ ρ))
  | [] => .ok none
  | timestampVotes :: rest =>
      match counter (timestampVotes.votes.map RewardVote.body) with
      | .error error => .error error
      | .ok bodies =>
          match mostCommon bodies with
          | none => .error .indexError
          | some (winner, winnerVoteCount) =>
              if canSubmit winnerVoteCount threshold then .ok (some (timestampVotes, winner))
              else earliestWinner threshold rest

def findEarliestWinner [PyOrder τ] [PyHash ρ] (cache : RewardsCache τ ρ) (threshold : Nat) :
    Except PyError (Option (TimestampVotes τ ρ × RewardVoteBody τ ρ)) :=
  match cache.rewards with
  | .error error => .error error
  | .ok rewards => earliestWinner threshold rewards

/-- The votes whose signatures the loop of `process_rewards` concatenates. -/
def collectSigners (winner : RewardVoteBody τ ρ) (threshold : Nat) :
    (signaturesCount : Nat) → List (RewardVote τ ρ) → List (RewardVote τ ρ)
  | _, [] => []
  | signaturesCount, vote :: rest =>
      if threshold ≤ signaturesCount then []
      else if vote.body == winner then
        vote :: collectSigners winner threshold (signaturesCount + 1) rest
      else collectSigners winner threshold signaturesCount rest

def sortedByAddress (votes : List (RewardVote τ ρ)) : List (RewardVote τ ρ) :=
  votes.insertionSort fun first second =>
    first.oracleAddress.toInt ≤ second.oracleAddress.toInt

structure RewardsSubmission (τ ρ : Type*) where
  winner : RewardVoteBody τ ρ
  signers : List (RewardVote τ ρ)

def RewardsSubmission.signatures (submission : RewardsSubmission τ ρ) : Bytes :=
  submission.signers.flatMap RewardVote.signature

structure RewardsReads (τ ρ : Type*) where
  canUpdate : Except PyError Bool
  replies : List (OracleReply τ ρ)
  rewardsNonce : Except PyError Int
  rewardsThreshold : Nat

def currentVotes [PyOrder τ] (votes : List (RewardVote τ ρ)) (nonce : Int) :
    List (RewardVote τ ρ) :=
  votes.filter fun vote => vote.nonce == PyOrder.ofInt nonce

def chooseSubmission [PyOrder τ] [PyHash ρ] (cache : RewardsCache τ ρ) (threshold : Nat) :
    Except PyError (Option (RewardsSubmission τ ρ)) :=
  match findEarliestWinner cache threshold with
  | .error error => .error error
  | .ok none => .ok none
  | .ok (some (timestampVotes, winner)) =>
      .ok (some ⟨winner,
        collectSigners winner threshold 0 (sortedByAddress timestampVotes.votes)⟩)

/-- `process_rewards` up to the call of `_submit_vote`. -/
def prepareRewards [PyOrder τ] [PyHash ρ] (cache : RewardsCache τ ρ) (reads : RewardsReads τ ρ) :
    Except PyError (Option (RewardsSubmission τ ρ)) × RewardsCache τ ρ :=
  match reads.canUpdate with
  | .error error => (.error error, cache)
  | .ok false => (.ok none, cache)
  | .ok true =>
      match fetchRewardVotes reads.replies with
      | [] => (.ok none, cache)
      | vote :: others =>
          match reads.rewardsNonce with
          | .error error => (.error error, cache)
          | .ok currentNonce =>
              match currentVotes (vote :: others) currentNonce with
              | [] => (.ok none, cache)
              | current :: rest =>
                  match cache.update (current :: rest) with
                  | (.error error, updated) => (.error error, updated)
                  | (.ok _, updated) => (chooseSubmission updated reads.rewardsThreshold, updated)

def submitVote (receipt : Except PyError (Option TxReceipt)) : Except PyError Unit :=
  match receipt with
  | .error error => .error error
  | .ok none => .ok ()
  | .ok (some _) => .ok ()

structure RewardsCall (τ ρ : Type*) extends RewardsReads τ ρ where
  receipt : RewardsSubmission τ ρ → Except PyError (Option TxReceipt)

structure RewardsOutcome (τ ρ : Type*) where
  submission : Option (RewardsSubmission τ ρ)
  result : Except PyError Unit

def finishRewards (submission : RewardsSubmission τ ρ)
    (receipt : Except PyError (Option TxReceipt)) (cache : RewardsCache τ ρ) :
    RewardsOutcome τ ρ × RewardsCache τ ρ :=
  match submitVote receipt with
  | .error error => (⟨some submission, .error error⟩, cache)
  | .ok _ => (⟨some submission, .ok ()⟩, cache.clear)

def processRewards [PyOrder τ] [PyHash ρ] (cache : RewardsCache τ ρ) (call : RewardsCall τ ρ) :
    RewardsOutcome τ ρ × RewardsCache τ ρ :=
  match prepareRewards cache call.toRewardsReads with
  | (.error error, updated) => (⟨none, .error error⟩, updated)
  | (.ok none, updated) => (⟨none, .ok ()⟩, updated)
  | (.ok (some submission), updated) =>
      finishRewards submission (call.receipt submission) updated

end V3Keeper
