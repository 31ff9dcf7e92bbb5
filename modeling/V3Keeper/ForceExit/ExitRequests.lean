import V3Keeper.ForceExit.Items

/-!
`fetch_ostoken_exit_requests` of `src/force_exit/service.py` with the two queries of
`src/force_exit/graph.py` behind it, and the claims that follow from their replies. An LTV is a
value of `φ`.
-/

namespace V3Keeper

open Python

/-- An exit request as `graph_get_exit_requests_by_ids` returns it. -/
structure GraphExitRequest extends ExitRequest where
  id : String
  isClaimed : Bool
  deriving DecidableEq

/-- An item of the reply to the query of `graph_ostoken_exit_requests`. -/
structure OsTokenExitItem where
  id : String
  vault : ChecksumAddress
  owner : ChecksumAddress
  ltv : String

structure GraphOsTokenExitRequest extends OsTokenExitRequest where
  id : String
  ltv : String

structure ExitRequestReads (φ : Type) where
  liqThresholdPercent : Except PyError Nat
  /-- The threshold as a float, less `LTV_PERCENT_DELTA` of it. -/
  maxLtvPercent : (liqThresholdPercent : Nat) → φ
  osTokenExitRequests : (ltv : φ) → (blockNumber : Nat) → Except PyError (List OsTokenExitItem)
  exitRequests : (ids : List String) → (blockNumber : Nat) →
    Except PyError (List GraphExitRequest)

def idToExitRequest (exitRequests : List GraphExitRequest) : PyDict String GraphExitRequest :=
  exitRequests.foldl (fun dict request => dict.set request.id request) PyDict.empty

def OsTokenExitItem.withRequest (item : OsTokenExitItem) (exitRequest : GraphExitRequest) :
    GraphOsTokenExitRequest where
  id := item.id
  vault := item.vault
  owner := item.owner
  ltv := item.ltv
  exitRequest := exitRequest.toExitRequest

/-- The loop of `graph_ostoken_exit_requests`, which passes over claimed requests. -/
def unclaimedRequests (byId : PyDict String GraphExitRequest) :
    List OsTokenExitItem → Except PyError (List GraphOsTokenExitRequest)
  | [] => .ok []
  | item :: rest =>
      match byId.get? item.id with
      | none => .error .keyError
      | some exitRequest =>
          if exitRequest.isClaimed then unclaimedRequests byId rest
          else
            match unclaimedRequests byId rest with
            | .error error => .error error
            | .ok others => .ok (item.withRequest exitRequest :: others)

variable {φ : Type}

def graphOstokenExitRequests (reads : ExitRequestReads φ) (ltv : φ) (blockNumber : Nat) :
    Except PyError (List GraphOsTokenExitRequest) := do
  let response ← reads.osTokenExitRequests ltv blockNumber
  if response.isEmpty then return []
  else
    let exitRequests ← reads.exitRequests (response.map OsTokenExitItem.id) blockNumber
    unclaimedRequests (idToExitRequest exitRequests) response

def fetchOstokenExitRequests (reads : ExitRequestReads φ) (blockNumber : Nat) :
    Except PyError (List GraphOsTokenExitRequest) := do
  let liqThresholdPercent ← reads.liqThresholdPercent
  let exitRequests ← graphOstokenExitRequests reads (reads.maxLtvPercent liqThresholdPercent)
    blockNumber
  return exitRequests.filter fun request => request.exitRequest.isFullyClaimable

structure ExitRequestAnswers (reads : ExitRequestReads φ) (blockNumber : Nat)
    (response : List OsTokenExitItem) (exitRequests : List GraphExitRequest) : Prop where
  listed : ∃ liqThresholdPercent, reads.liqThresholdPercent = .ok liqThresholdPercent ∧
    reads.osTokenExitRequests (reads.maxLtvPercent liqThresholdPercent) blockNumber = .ok response
  requested : reads.exitRequests (response.map OsTokenExitItem.id) blockNumber =
    .ok exitRequests

/-- The exit request that the second reply has for an item, the last one of its id. -/
def exitRequestOf (exitRequests : List GraphExitRequest) (item : OsTokenExitItem) :
    Option GraphExitRequest :=
  exitRequests.reverse.find? fun request => request.id == item.id

def claimableRequest (exitRequests : List GraphExitRequest) (item : OsTokenExitItem) :
    Option GraphOsTokenExitRequest :=
  ((exitRequestOf exitRequests item).filter fun request =>
    !request.isClaimed && request.isFullyClaimable).map item.withRequest

section Join

variable {exitRequests : List GraphExitRequest}

theorem idToExitRequest_get? (exitRequests : List GraphExitRequest) (item : OsTokenExitItem) :
    (idToExitRequest exitRequests).get? item.id = exitRequestOf exitRequests item := by
  rw [idToExitRequest, PyDict.get?_foldl_set]
  exact Option.or_none

theorem unclaimedRequests_eq (exitRequests : List GraphExitRequest)
    (response : List OsTokenExitItem) :
    (unclaimedRequests (idToExitRequest exitRequests) response).map
        (List.filter fun request => request.exitRequest.isFullyClaimable) =
      if ∀ item ∈ response, (exitRequestOf exitRequests item).isSome then
        .ok (response.filterMap (claimableRequest exitRequests))
      else .error .keyError := by
  induction response with
  | nil => simp [unclaimedRequests, Except.map]
  | cons item rest ih =>
      rw [unclaimedRequests, idToExitRequest_get?]
      cases found : exitRequestOf exitRequests item with
      | none => simp [found, Except.map]
      | some exitRequest =>
          simp only [List.forall_mem_cons, found, Option.isSome_some, true_and]
          by_cases claimed : exitRequest.isClaimed = true
          · have passed : claimableRequest exitRequests item = none := by
              simp [claimableRequest, found, claimed]
            rw [if_pos claimed, ih, List.filterMap_cons_none passed]
          · rw [if_neg claimed]
            cases others : unclaimedRequests (idToExitRequest exitRequests) rest with
            | error error =>
                rw [others] at ih
                split at ih
                case isTrue => cases ih
                case isFalse missing =>
                  rw [if_neg missing]
                  exact ih
            | ok requests =>
                rw [others] at ih
                split at ih
                case isFalse => cases ih
                case isTrue known =>
                  rw [if_pos known]
                  have kept : (requests.filter fun request =>
                      request.exitRequest.isFullyClaimable) = _ := Except.ok.inj ih
                  rw [← List.singleton_append (l := rest), List.filterMap_append, ← kept]
                  by_cases full : exitRequest.isFullyClaimable = true
                  · simp [Except.map, claimableRequest, found, claimed, full,
                      OsTokenExitItem.withRequest]
                  · simp [Except.map, claimableRequest, found, claimed, full,
                      OsTokenExitItem.withRequest]

theorem fetchOstokenExitRequests_eq {reads : ExitRequestReads φ} {blockNumber : Nat}
    {response : List OsTokenExitItem}
    (answers : ExitRequestAnswers reads blockNumber response exitRequests) :
    fetchOstokenExitRequests reads blockNumber =
      if ∀ item ∈ response, (exitRequestOf exitRequests item).isSome then
        .ok (response.filterMap (claimableRequest exitRequests))
      else .error .keyError := by
  obtain ⟨liqThresholdPercent, percent, listed⟩ := answers.listed
  rw [fetchOstokenExitRequests, percent, ok_bind, graphOstokenExitRequests, listed, ok_bind]
  cases response with
  | nil => simp [bind, Except.bind, pure, Except.pure]
  | cons item rest =>
      rw [if_neg (by simp), answers.requested, ok_bind, ← unclaimedRequests_eq]
      cases unclaimedRequests (idToExitRequest exitRequests) (item :: rest) <;> rfl

end Join

def claimContext (settings : ForceExitSettings) (blockNumber : Nat) (vaults : List Vault) :
    ForceExitContext where
  encodeAbi := settings.encodeAbi
  blockNumber := blockNumber
  positions := []
  positionVaults := PyDict.empty
  requests := []
  requestVaults := graphVaultsMap vaults

def handleClaim (settings : ForceExitSettings) (blockNumber : Nat) (vaults : List Vault)
    (item : ExitRequestItem) : Traced ForceExitLog Unit :=
  (handleItem (claimContext settings blockNumber vaults) (.request item)).label (.request item)

structure RequestAnswers where
  leverageStrategyPositions : (proxy : ChecksumAddress) → Except PyError (List ChecksumAddress)
  strategyContract : (proxy : ChecksumAddress) → Except PyError ChecksumAddress
  claim : SubmitReads

def requestItem (answers : GraphOsTokenExitRequest → RequestAnswers)
    (request : GraphOsTokenExitRequest) : ExitRequestItem where
  request := request.toOsTokenExitRequest
  leverageStrategyPositions := (answers request).leverageStrategyPositions
  strategyContract := (answers request).strategyContract
  claim := (answers request).claim

def ClaimsRequests (call : ForceExitsCall) (reads : ExitRequestReads φ) (blockNumber : Nat)
    (answers : GraphOsTokenExitRequest → RequestAnswers) : Prop :=
  call.exitRequests blockNumber =
    (fetchOstokenExitRequests reads blockNumber).map (List.map (requestItem answers))

def ClaimReady (settings : ForceExitSettings) (call : ForceExitsCall) (blockNumber : Nat)
    (item : ExitRequestItem) (data : MulticallData) : Prop :=
  ∃ vaults, call.requestVaults = .ok vaults ∧
    RequestClaims (claimContext settings blockNumber vaults) item data

/-- The only event of a request is its claim, whatever becomes of the transaction. -/
def ClaimSent (settings : ForceExitSettings) (call : ForceExitsCall) (blockNumber : Nat)
    (answers : GraphOsTokenExitRequest → RequestAnswers) (request : GraphOsTokenExitRequest)
    (log : ForceExitLog) : Prop :=
  ∃ data, ClaimReady settings call blockNumber (requestItem answers request) data ∧
    log = (.request (requestItem answers request),
      .transacted (requestClaimOf (requestItem answers request) data))

section Claims

variable {settings : ForceExitSettings} {call : ForceExitsCall} {reads : ExitRequestReads φ}
  {blockNumber : Nat} {answers : GraphOsTokenExitRequest → RequestAnswers}
  {response : List OsTokenExitItem} {exitRequests : List GraphExitRequest}

theorem handleOstokenExitRequests_nil (claims : ClaimsRequests call reads blockNumber answers)
    (fetched : fetchOstokenExitRequests reads blockNumber = .ok []) :
    handleOstokenExitRequests settings call blockNumber = ⟨[], .ok ()⟩ := by
  rw [handleOstokenExitRequests, claims, fetched]
  rfl

theorem handleOstokenExitRequests_eq (claims : ClaimsRequests call reads blockNumber answers)
    {requests : List GraphOsTokenExitRequest} {vaults : List Vault}
    (fetched : fetchOstokenExitRequests reads blockNumber = .ok requests)
    (replied : call.requestVaults = .ok vaults) :
    handleOstokenExitRequests settings call blockNumber =
      .forEach requests fun request =>
        handleClaim settings blockNumber vaults (requestItem answers request) := by
  rw [handleOstokenExitRequests, claims, fetched, replied]
  cases requests with
  | nil => rfl
  | cons request rest => exact Traced.forEach_map _ _ _

theorem handleOstokenExitRequests_error (claims : ClaimsRequests call reads blockNumber answers)
    {error : PyError} (fetched : fetchOstokenExitRequests reads blockNumber = .error error) :
    handleOstokenExitRequests settings call blockNumber = ⟨[], .error error⟩ := by
  rw [handleOstokenExitRequests, claims, fetched]
  rfl

theorem handleOstokenExitRequests_unread (claims : ClaimsRequests call reads blockNumber answers)
    {requests : List GraphOsTokenExitRequest} {error : PyError}
    (fetched : fetchOstokenExitRequests reads blockNumber = .ok requests) (some : requests ≠ [])
    (failed : call.requestVaults = .error error) :
    handleOstokenExitRequests settings call blockNumber = ⟨[], .error error⟩ := by
  rw [handleOstokenExitRequests, claims, fetched, failed]
  cases requests with
  | nil => exact absurd rfl some
  | cons request rest => rfl

theorem handleClaim_cases {vaults : List Vault} (replied : call.requestVaults = .ok vaults)
    (request : GraphOsTokenExitRequest) :
    (∃ log, ClaimSent settings call blockNumber answers request log ∧
        handleClaim settings blockNumber vaults (requestItem answers request) = ⟨[log], .ok ()⟩) ∨
      (∀ log, ¬ClaimSent settings call blockNumber answers request log) ∧
        ∃ error, handleClaim settings blockNumber vaults (requestItem answers request) =
          ⟨[], .error error⟩ := by
  by_cases ready : ∃ data,
      RequestClaims (claimContext settings blockNumber vaults) (requestItem answers request) data
  · obtain ⟨data, claims⟩ := ready
    refine Or.inl ⟨_, ⟨data, ⟨vaults, replied, claims⟩, rfl⟩, ?_⟩
    rw [handleClaim, handleRequest_claims claims]
    rfl
  · have fails : ∀ data, ¬RequestClaims (claimContext settings blockNumber vaults)
        (requestItem answers request) data := fun data claims => ready ⟨data, claims⟩
    refine Or.inr ⟨?_, ?_⟩
    · rintro log ⟨data, ⟨others, othersReplied, claims⟩, -⟩
      rw [replied] at othersReplied
      cases othersReplied
      exact fails data claims
    · obtain ⟨error, raised⟩ := handleRequest_fails fails
      refine ⟨error, ?_⟩
      rw [handleClaim, raised]
      rfl

/-- The claims of one call follow the replies of the subgraph: of the listed requests, those that
are unclaimed and fully claimable, in the order of the list and each once, up to the first one
that cannot be claimed. -/
theorem ostokenExits_claimed
    (answered : ExitRequestAnswers reads blockNumber response exitRequests)
    (claims : ClaimsRequests call reads blockNumber answers) :
    ((handleOstokenExitRequests settings call blockNumber).succeeds = true ↔
      (∀ item ∈ response, (exitRequestOf exitRequests item).isSome) ∧
        ∀ request ∈ response.filterMap (claimableRequest exitRequests),
          ∃ log, ClaimSent settings call blockNumber answers request log) ∧
    if ∀ item ∈ response, (exitRequestOf exitRequests item).isSome then
      ∃ done rest, response.filterMap (claimableRequest exitRequests) = done ++ rest ∧
        (∀ request ∈ rest.head?, ∀ log,
          ¬ClaimSent settings call blockNumber answers request log) ∧
        List.Forall₂ (ClaimSent settings call blockNumber answers) done
          (handleOstokenExitRequests settings call blockNumber).events
    else (handleOstokenExitRequests settings call blockNumber).events = [] := by
  have fetched := fetchOstokenExitRequests_eq answered
  by_cases known : ∀ item ∈ response, (exitRequestOf exitRequests item).isSome
  · rw [if_pos known] at fetched ⊢
    generalize response.filterMap (claimableRequest exitRequests) = requests at fetched ⊢
    cases replied : call.requestVaults with
    | ok vaults =>
        rw [handleOstokenExitRequests_eq claims fetched replied]
        obtain ⟨returns, sent⟩ := Traced.forEach_singles
          (fun request => handleClaim settings blockNumber vaults (requestItem answers request))
          (handleClaim_cases replied) requests
        exact ⟨returns.trans (and_iff_right known).symm, sent⟩
    | error error =>
        have unread : ∀ request log, ¬ClaimSent settings call blockNumber answers request log := by
          rintro request log ⟨data, ⟨vaults, read, -⟩, -⟩
          rw [replied] at read
          cases read
        cases requests with
        | nil =>
            have run : handleOstokenExitRequests settings call blockNumber = ⟨[], .ok ()⟩ :=
              handleOstokenExitRequests_nil claims fetched
            rw [run]
            exact ⟨iff_of_true rfl ⟨known, by simp⟩, [], [], rfl, by simp, List.Forall₂.nil⟩
        | cons request rest =>
            rw [handleOstokenExitRequests_unread claims fetched (List.cons_ne_nil _ _) replied]
            refine ⟨iff_of_false (by simp [Traced.succeeds]) fun both => ?_, [], request :: rest,
              rfl, fun first _ => unread first, List.Forall₂.nil⟩
            obtain ⟨log, sent⟩ := both.2 request List.mem_cons_self
            exact unread request log sent
  · rw [if_neg known] at fetched ⊢
    rw [handleOstokenExitRequests_error claims fetched]
    exact ⟨iff_of_false (by simp [Traced.succeeds]) fun both => known both.1, rfl⟩

end Claims

/-- Of three requests one is claimed already and one is not filled yet. -/
theorem ostokenExits_claimed_third :
    let vault : ChecksumAddress := .ofDigit '1' rfl
    let owner : ChecksumAddress := .ofDigit '2' rfl
    let settings : ForceExitSettings :=
      { forceExitsUpdateInterval := 43200, graphEndpoint := "https://graph"
        encodeAbi := fun _ => .ok "0x" }
    let item (id : String) : OsTokenExitItem := ⟨id, vault, owner, "0.92"⟩
    let request (id : String) (exitedAssets : Int) (isClaimed : Bool) : GraphExitRequest :=
      ⟨⟨7, 1700000000, some 3, true, exitedAssets, 10⟩, id, isClaimed⟩
    let reads : ExitRequestReads Rat :=
      { liqThresholdPercent := .ok (920000000000000000)
        maxLtvPercent := fun percent => percent
        osTokenExitRequests := fun _ _ => .ok [item "a", item "b", item "c"]
        exitRequests := fun _ _ =>
          .ok [request "a" 10 true, request "b" 4 false, request "c" 10 false] }
    let answers (_ : GraphOsTokenExitRequest) : RequestAnswers :=
      { leverageStrategyPositions := fun _ => .ok [.ofDigit '3' rfl]
        strategyContract := fun _ => .ok (.ofDigit '4' rfl)
        claim := ⟨fun _ _ => .ok false, fun _ => .ok (some ⟨7, 1⟩)⟩ }
    let call : ForceExitsCall :=
      { currentTime := 1700000000
        finalizedBlock := .ok 100
        latestGraphBlock := .ok 100
        leveragePositions := fun _ => .ok []
        positionVaults := .ok []
        exitRequests := fun blockNumber =>
          (fetchOstokenExitRequests reads blockNumber).map (List.map (requestItem answers))
        requestVaults := .ok [⟨vault, [], 0, 0, []⟩] }
    (handleOstokenExitRequests settings call 100).succeeds = true ∧
      List.Forall₂ (ClaimSent settings call 100 answers)
        [(item "c").withRequest (request "c" 10 false)]
        (handleOstokenExitRequests settings call 100).events := by
  intro vault owner settings item request reads answers call
  have answered : ExitRequestAnswers reads 100 [item "a", item "b", item "c"]
      [request "a" 10 true, request "b" 4 false, request "c" 10 false] := ⟨⟨_, rfl, rfl⟩, rfl⟩
  have claims : ClaimsRequests call reads 100 answers := rfl
  have selected : [item "a", item "b", item "c"].filterMap (claimableRequest
      [request "a" 10 true, request "b" 4 false, request "c" 10 false]) =
        [(item "c").withRequest (request "c" 10 false)] := rfl
  have succeeded : (handleOstokenExitRequests settings call 100).succeeds = true := rfl
  have known : ∀ listed ∈ [item "a", item "b", item "c"], (exitRequestOf
      [request "a" 10 true, request "b" 4 false, request "c" 10 false] listed).isSome := by decide
  have claimed : ((handleOstokenExitRequests settings call 100).succeeds = true ↔ _) ∧
      if _ then _ else _ := ostokenExits_claimed answered claims
  rw [if_pos known, selected] at claimed
  obtain ⟨returns, done, rest, split, stops, sent⟩ := claimed
  cases rest with
  | nil =>
      rw [List.append_nil] at split
      exact ⟨succeeded, split ▸ sent⟩
  | cons first rest =>
      have listed : first ∈ [(item "c").withRequest (request "c" 10 false)] := by
        rw [split]
        simp
      obtain ⟨log, own⟩ := (returns.mp succeeded).2 first listed
      exact absurd own (stops first rfl log)

end V3Keeper
