import V3Keeper.Exits.Crypto
import V3Keeper.Library.Batched
import V3Keeper.Rewards.Endpoint

/-!
`process_exits` of `src/exits/service.py`. The answers of the oracles are raw, and so
are the indices they name the validators by.
-/

namespace V3Keeper

open Python

structure ValidatorExitShare where
  validatorIndex : Json
  exitSignatureShare : Bytes
  shareIndex : Nat

structure ExitSettings where
  exitedStatuses : List String
  validatorsFetchChunkSize : Int
  reader : Json.TextReader

def readExitShare (reader : Json.TextReader) (url : String) (oracleIndex : Nat) (exitData : Json) :
    Except PyError ValidatorExitShare :=
  match exitData with
  | .obj fields =>
      match fields.lookup "index", fields.lookup "exit_signature_share" with
      | some index, some share =>
          match share.toBytes reader with
          | .error error => .error error
          | .ok signature => .ok ⟨index, signature, oracleIndex⟩
      | _, _ => .error (invalidResponse url)
  | _ => .error .attributeError

def iterated : Json → Except PyError (List Json)
  | .arr items => .ok items
  | .obj fields => .ok (fields.map fun field => .str field.1)
  | .str text => .ok (text.toList.map fun char => .str char.toString)
  | _ => .error .typeError

def fetchExitSharesFromEndpoint (reader : Json.TextReader) (oracleIndex : Nat)
    (endpoint : Endpoint) : Except PyError (List ValidatorExitShare) :=
  match endpoint.answer with
  | .error error => .error error
  | .ok data =>
      if data.truthy then
        match iterated data with
        | .error error => .error error
        | .ok items => items.mapM (readExitShare reader endpoint.url oracleIndex)
      else .ok []

def fetchExitSharesFromOracle (reader : Json.TextReader) (oracleIndex : Nat) :
    List Endpoint → List ValidatorExitShare
  | [] => []
  | endpoint :: rest =>
      match fetchExitSharesFromEndpoint reader oracleIndex endpoint with
      | .ok (share :: shares) => share :: shares
      | _ => fetchExitSharesFromOracle reader oracleIndex rest

def fetchExitShares (reader : Json.TextReader) (answers : List OracleAnswer) :
    List ValidatorExitShare :=
  answers.zipIdx.flatMap fun answer => fetchExitSharesFromOracle reader answer.2 answer.1.endpoints

abbrev ValidatorExits := PyDict Json (List ValidatorExitShare)

def appendShare (exits : ValidatorExits) (share : ValidatorExitShare) : ValidatorExits :=
  exits.set share.validatorIndex ((exits.get? share.validatorIndex).getD [] ++ [share])

def groupShares (exits : ValidatorExits) : List ValidatorExitShare → Except PyError ValidatorExits
  | [] => .ok exits
  | share :: rest =>
      if share.validatorIndex.hashable then groupShares (appendShare exits share) rest
      else .error .typeError

structure ConsensusValidator where
  status : String
  index : Except PyError Int

def removeExited (settings : ExitSettings) (exits : ValidatorExits) :
    List ConsensusValidator → Except PyError ValidatorExits
  | [] => .ok exits
  | validator :: rest =>
      if settings.exitedStatuses.contains validator.status then
        match validator.index with
        | .error error => .error error
        | .ok index =>
            match exits.get? (.int index) with
            | none => .error .keyError
            | some _ => removeExited settings (exits.erase (.int index)) rest
      else removeExited settings exits rest

inductive SubmitOutcome where
  | submitted
  | clientResponseError
  | raised (error : PyError)
  deriving DecidableEq

structure ExitsCall where
  chainHead : Except PyError Nat
  answers : List OracleAnswer
  validatorsByIds : (stateId : Nat) → List String → Except PyError (List ConsensusValidator)
  exitSignatureRecoverThreshold : Nat
  submitVoluntaryExit : Json → Bytes → SubmitOutcome

def removeExitedBatches (settings : ExitSettings) (call : ExitsCall) (slot : Nat)
    (exits : ValidatorExits) : List (List String) → Except PyError ValidatorExits
  | [] => .ok exits
  | batch :: rest =>
      match call.validatorsByIds slot batch with
      | .error error => .error error
      | .ok validators =>
          match removeExited settings exits validators with
          | .error error => .error error
          | .ok remaining => removeExitedBatches settings call slot remaining rest

/-- `process_exits` up to its loop over the validators. -/
def exitsToProcess (settings : ExitSettings) (call : ExitsCall) : Except PyError ValidatorExits :=
  match call.chainHead with
  | .error error => .error error
  | .ok slot =>
      match groupShares PyDict.empty (fetchExitShares settings.reader call.answers) with
      | .error error => .error error
      | .ok exits =>
          if settings.validatorsFetchChunkSize < 1 then
            .error (.valueError "n must be at least one")
          else
            removeExitedBatches settings call slot exits
              (Batched.batched settings.validatorsFetchChunkSize.toNat
                (exits.keys.map (Json.text settings.reader)))

def sharesByIndex (shares : List ValidatorExitShare) : PyDict Nat Bytes :=
  shares.foldl (fun signatures share =>
    signatures.set share.shareIndex share.exitSignatureShare) PyDict.empty

structure VoluntaryExit where
  validatorIndex : Json
  signatures : PyDict Nat Bytes
  exitSignature : Bytes

structure ExitsOutcome where
  submitted : List VoluntaryExit
  result : Except PyError Unit

variable {G : Type*}

def submitExits (curve : Curve G) (call : ExitsCall) :
    List (Json × List ValidatorExitShare) → ExitsOutcome
  | [] => ⟨[], .ok ()⟩
  | (validatorIndex, shares) :: rest =>
      if shares.length < call.exitSignatureRecoverThreshold then submitExits curve call rest
      else
        match reconstructSharedBlsSignature curve (sharesByIndex shares) with
        | .error error => ⟨[], .error error⟩
        | .ok exitSignature =>
            let exit : VoluntaryExit := ⟨validatorIndex, sharesByIndex shares, exitSignature⟩
            match call.submitVoluntaryExit validatorIndex exitSignature with
            | .raised error => ⟨[exit], .error error⟩
            | _ =>
                let others := submitExits curve call rest
                ⟨exit :: others.submitted, others.result⟩

def processExits (settings : ExitSettings) (curve : Curve G) (call : ExitsCall) : ExitsOutcome :=
  match exitsToProcess settings call with
  | .error error => ⟨[], .error error⟩
  | .ok exits => submitExits curve call exits.entries

end V3Keeper
