import Mathlib.Data.List.Lex
import Mathlib.Data.Char
import V3Keeper.Common.Address
import V3Keeper.Library.Counter
import V3Keeper.Library.PyOrder
import V3Keeper.Rewards.Service

/-!
`process_distributor_rewards` of `src/distributor/service.py`, for values of the same two
kinds as those of a reward vote.
-/

namespace V3Keeper

open Python

variable {τ ρ : Type*} [BEq τ] [BEq ρ]

class PyText (ρ : Type*) extends PyHash ρ where
  ofString : String → ρ

instance : PyText String := ⟨fun text => text⟩

structure DistributorRewardVoteBody (ρ : Type*) where
  root : ρ
  ipfsHash : ρ
  deriving BEq, ReflBEq, LawfulBEq

structure DistributorRewardVote (τ ρ : Type*) where
  oracleAddress : ChecksumAddress
  nonce : τ
  updateTimestamp : τ
  signature : ρ
  body : DistributorRewardVoteBody ρ

instance [PyHash ρ] : PyHash (DistributorRewardVoteBody ρ) where
  hashable body := PyHash.hashable body.root && PyHash.hashable body.ipfsHash

structure DistributorVoteReply (τ ρ : Type*) where
  nonce : τ
  updateTimestamp : τ
  signature : ρ
  body : DistributorRewardVoteBody ρ

structure DistributorReply (τ ρ : Type*) where
  oracle : Oracle
  endpoints : List (Except PyError (Option (DistributorVoteReply τ ρ)))

def DistributorVoteReply.toVote (reply : DistributorVoteReply τ ρ) (oracle : Oracle) :
    DistributorRewardVote τ ρ where
  oracleAddress := oracle.address
  nonce := reply.nonce
  updateTimestamp := reply.updateTimestamp
  signature := reply.signature
  body := reply.body

def DistributorReply.votes (reply : DistributorReply τ ρ) : List (DistributorRewardVote τ ρ) :=
  reply.endpoints.filterMap fun endpoint =>
    match endpoint with
    | .ok (some vote) => some (vote.toVote reply.oracle)
    | _ => none

/-- `_fetch_vote_from_oracle`: the first of the votes with the greatest nonce. -/
def fetchDistributorVote [PyOrder τ] (reply : DistributorReply τ ρ) :
    Except PyError (Option (DistributorRewardVote τ ρ)) :=
  match reply.votes with
  | [] => .ok none
  | vote :: rest =>
      match maxOf ((vote :: rest).map DistributorRewardVote.nonce) with
      | .error error => .error error
      | .ok maxNonce =>
          match (vote :: rest).filter fun vote => vote.nonce == maxNonce with
          | [] => .error .indexError
          | first :: _ => .ok (some first)

def fetchDistributorRewardVotes [PyOrder τ] (replies : List (DistributorReply τ ρ)) :
    List (DistributorRewardVote τ ρ) :=
  replies.filterMap fun reply =>
    match fetchDistributorVote reply with
    | .ok (some vote) => some vote
    | _ => none

def currentDistributorVotes [PyOrder τ] (votes : List (DistributorRewardVote τ ρ)) (nonce : Int) :
    List (DistributorRewardVote τ ρ) :=
  votes.filter fun vote => vote.nonce == PyOrder.ofInt nonce

def votesAbove [PyOrder τ] (nextUpdateTimestamp : Int) : List (DistributorRewardVote τ ρ) →
    Except PyError (List (DistributorRewardVote τ ρ))
  | [] => .ok []
  | vote :: rest =>
      match PyOrder.lt (PyOrder.ofInt nextUpdateTimestamp) vote.updateTimestamp with
      | .error error => .error error
      | .ok above =>
          match votesAbove nextUpdateTimestamp rest with
          | .error error => .error error
          | .ok votes => .ok (if above then vote :: votes else votes)

def collectDistributorSigners (winner : DistributorRewardVoteBody ρ) (minOracles : Nat) :
    (signatures : Nat) → List (DistributorRewardVote τ ρ) → List (DistributorRewardVote τ ρ)
  | _, [] => []
  | signatures, vote :: rest =>
      if minOracles ≤ signatures then []
      else if vote.body == winner then
        vote :: collectDistributorSigners winner minOracles (signatures + 1) rest
      else collectDistributorSigners winner minOracles signatures rest

def sortedByLoweredAddress (votes : List (DistributorRewardVote τ ρ)) :
    List (DistributorRewardVote τ ρ) :=
  votes.insertionSort fun first second => first.oracleAddress.lower ≤ second.oracleAddress.lower

structure DistributorSubmission (τ ρ : Type*) where
  winner : DistributorRewardVoteBody ρ
  signers : List (DistributorRewardVote τ ρ)

def DistributorSubmission.signatures (submission : DistributorSubmission τ ρ) : List ρ :=
  submission.signers.map DistributorRewardVote.signature

structure DistributorCall (τ ρ : Type*) where
  replies : List (DistributorReply τ ρ)
  nonce : Except PyError Int
  nextUpdateTimestamp : Except PyError Int
  rewardsMinOracles : Except PyError Nat
  rewardsRoot : Except PyError String
  receipt : DistributorSubmission τ ρ → Except PyError (Option TxReceipt)

def chooseDistributorSubmission [PyText ρ] (eligible : List (DistributorRewardVote τ ρ))
    (rewardsMinOracles : Except PyError Nat) (rewardsRoot : Except PyError String) :
    Except PyError (Option (DistributorSubmission τ ρ)) :=
  match counter (eligible.map DistributorRewardVote.body) with
  | .error error => .error error
  | .ok bodies =>
      match mostCommon bodies with
      | none => .error .indexError
      | some (winner, winnerVoteCount) =>
          match rewardsMinOracles with
          | .error error => .error error
          | .ok minOracles =>
              if winnerVoteCount < minOracles then .ok none
              else
                match rewardsRoot with
                | .error error => .error error
                | .ok root =>
                    if winner.root == PyText.ofString root then .ok none
                    else
                      .ok (some ⟨winner, collectDistributorSigners winner minOracles 0
                        (sortedByLoweredAddress eligible)⟩)

def decideDistributor [PyText ρ] (call : DistributorCall τ ρ)
    (eligible : Except PyError (List (DistributorRewardVote τ ρ))) :
    Except PyError (Option (DistributorSubmission τ ρ)) :=
  match eligible with
  | .error error => .error error
  | .ok [] => .ok none
  | .ok (vote :: others) =>
      chooseDistributorSubmission (vote :: others) call.rewardsMinOracles call.rewardsRoot

/-- `process_distributor_rewards` up to the submission. -/
def prepareDistributor [PyOrder τ] [PyText ρ] (call : DistributorCall τ ρ) :
    Except PyError (Option (DistributorSubmission τ ρ)) :=
  match fetchDistributorRewardVotes call.replies with
  | [] => .ok none
  | vote :: others =>
      match call.nonce with
      | .error error => .error error
      | .ok currentNonce =>
          match currentDistributorVotes (vote :: others) currentNonce with
          | [] => .ok none
          | current :: rest =>
              match call.nextUpdateTimestamp with
              | .error error => .error error
              | .ok nextUpdateTimestamp =>
                  decideDistributor call (votesAbove nextUpdateTimestamp (current :: rest))

structure DistributorOutcome (τ ρ : Type*) where
  submission : Option (DistributorSubmission τ ρ)
  result : Except PyError Unit

def processDistributorRewards [PyOrder τ] [PyText ρ] (call : DistributorCall τ ρ) :
    DistributorOutcome τ ρ :=
  match prepareDistributor call with
  | .error error => ⟨none, .error error⟩
  | .ok none => ⟨none, .ok ()⟩
  | .ok (some submission) => ⟨some submission, submitVote (call.receipt submission)⟩

end V3Keeper
