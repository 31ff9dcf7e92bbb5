import V3Keeper.Distributor.Service
import V3Keeper.Rewards.Endpoint

/-!
`_fetch_vote_from_endpoint` of `src/distributor/service.py`, and
`process_distributor_rewards` on raw answers.
-/

namespace V3Keeper

open Python

instance : PyText Json where
  hashable := Json.hashable
  ofString := .str

structure DistributorVoteFields where
  nonce : Json
  signature : Json
  root : Json
  ipfsHash : Json

def distributorVoteFields (fields : List (String × Json)) : Option DistributorVoteFields :=
  match fields.lookup "nonce", fields.lookup "signature", fields.lookup "root",
    fields.lookup "ipfs_hash" with
  | some nonce, some signature, some root, some ipfsHash =>
      some ⟨nonce, signature, root, ipfsHash⟩
  | _, _, _, _ => none

def DistributorVoteFields.reply (vote : DistributorVoteFields) (updateTimestamp : Json) :
    DistributorVoteReply Json Json :=
  ⟨vote.nonce, updateTimestamp, vote.signature, ⟨vote.root, vote.ipfsHash⟩⟩

/-- The timestamp is read from the answer although it is not among the required keys. -/
def DistributorVoteFields.read (vote : DistributorVoteFields) (updateTimestamp : Option Json) :
    Except PyError (Option (DistributorVoteReply Json Json)) :=
  match updateTimestamp with
  | none => .error .keyError
  | some updateTimestamp => .ok (some (vote.reply updateTimestamp))

def readDistributorData (url : String) (data : Json) :
    Except PyError (Option (DistributorVoteReply Json Json)) :=
  if data.truthy then
    match data with
    | .obj fields =>
        match distributorVoteFields fields with
        | some vote => vote.read (fields.lookup "update_timestamp")
        | none => .error (invalidResponse url)
    | _ => .error .attributeError
  else .ok none

def fetchDistributorVoteFromEndpoint (endpoint : Endpoint) :
    Except PyError (Option (DistributorVoteReply Json Json)) :=
  match endpoint.answer with
  | .error error => .error error
  | .ok data => readDistributorData endpoint.url data

def OracleAnswer.readDistributor (answer : OracleAnswer) : DistributorReply Json Json where
  oracle := answer.oracle
  endpoints := answer.endpoints.map fetchDistributorVoteFromEndpoint

structure RawDistributorCall where
  answers : List OracleAnswer
  nonce : Except PyError Int
  nextUpdateTimestamp : Except PyError Int
  rewardsMinOracles : Except PyError Nat
  rewardsRoot : Except PyError String
  receipt : DistributorSubmission Json Json → Except PyError (Option TxReceipt)

def RawDistributorCall.read (call : RawDistributorCall) : DistributorCall Json Json where
  replies := call.answers.map OracleAnswer.readDistributor
  nonce := call.nonce
  nextUpdateTimestamp := call.nextUpdateTimestamp
  rewardsMinOracles := call.rewardsMinOracles
  rewardsRoot := call.rewardsRoot
  receipt := call.receipt

def processRawDistributorRewards (call : RawDistributorCall) : DistributorOutcome Json Json :=
  processDistributorRewards call.read

end V3Keeper
