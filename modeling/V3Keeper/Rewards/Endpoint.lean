import V3Keeper.Library.Json
import V3Keeper.Rewards.Laws

/-!
`_fetch_vote_from_endpoint` of `src/rewards/service.py`, which checks that the keys of a
vote are there but not what they hold, and `process_rewards` on raw answers.
-/

namespace V3Keeper

open Python StepRun

structure Endpoint where
  url : String
  answer : Except PyError Json

def invalidResponse (url : String) : PyError :=
  .runtimeError ("Invalid response from endpoint " ++ url)

structure RewardVoteFields where
  nonce : Json
  updateTimestamp : Json
  signature : Json
  root : Json
  ipfsHash : Json
  avgRewardPerSecond : Json

def rewardVoteFields (fields : List (String × Json)) : Option RewardVoteFields :=
  match fields.lookup "nonce", fields.lookup "update_timestamp", fields.lookup "signature",
    fields.lookup "root", fields.lookup "ipfs_hash", fields.lookup "avg_reward_per_second" with
  | some nonce, some updateTimestamp, some signature, some root, some ipfsHash,
      some avgRewardPerSecond =>
      some ⟨nonce, updateTimestamp, signature, root, ipfsHash, avgRewardPerSecond⟩
  | _, _, _, _, _, _ => none

/-- The gauges convert the average and the timestamp before the vote is built. -/
def RewardVoteFields.read (reader : Json.TextReader) (vote : RewardVoteFields) :
    Except PyError (VoteReply Json Json) :=
  match vote.avgRewardPerSecond.toFloat reader with
  | .error error => .error error
  | .ok _ =>
      match vote.updateTimestamp.toFloat reader with
      | .error error => .error error
      | .ok _ =>
          match vote.signature.toBytes reader with
          | .error error => .error error
          | .ok signature =>
              .ok ⟨vote.nonce, signature,
                ⟨vote.updateTimestamp, vote.root, vote.ipfsHash, vote.avgRewardPerSecond⟩⟩

def readRewardData (reader : Json.TextReader) (url : String) (data : Json) :
    Except PyError (VoteReply Json Json) :=
  if data.truthy then
    match data with
    | .obj fields =>
        match rewardVoteFields fields with
        | some vote => vote.read reader
        | none => .error (invalidResponse url)
    | _ => .error .attributeError
  else .error (invalidResponse url)

def fetchVoteFromEndpoint (reader : Json.TextReader) (endpoint : Endpoint) :
    Except PyError (VoteReply Json Json) :=
  match endpoint.answer with
  | .error error => .error error
  | .ok data => readRewardData reader endpoint.url data

structure OracleAnswer where
  oracle : Oracle
  endpoints : List Endpoint

def OracleAnswer.read (reader : Json.TextReader) (answer : OracleAnswer) :
    OracleReply Json Json where
  oracle := answer.oracle
  endpoints := answer.endpoints.map (fetchVoteFromEndpoint reader)

structure RawRewardsCall where
  canUpdate : Except PyError Bool
  answers : List OracleAnswer
  rewardsNonce : Except PyError Int
  rewardsThreshold : Nat
  receipt : RewardsSubmission Json Json → Except PyError (Option TxReceipt)

def RawRewardsCall.read (reader : Json.TextReader) (call : RawRewardsCall) :
    RewardsCall Json Json where
  canUpdate := call.canUpdate
  replies := call.answers.map (OracleAnswer.read reader)
  rewardsNonce := call.rewardsNonce
  rewardsThreshold := call.rewardsThreshold
  receipt := call.receipt

def processRawRewards (reader : Json.TextReader) (cache : RewardsCache Json Json)
    (call : RawRewardsCall) : RewardsOutcome Json Json × RewardsCache Json Json :=
  processRewards cache (call.read reader)

end V3Keeper
