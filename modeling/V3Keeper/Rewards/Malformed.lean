import V3Keeper.Rewards.Endpoint

/-!
What a vote does whose fields are not of the declared types. It is contained exactly
where it is dropped on the way, by a conversion that fails or by its nonce.
-/

namespace V3Keeper

open Python StepRun

def OracleAnswer.Sends (answer : OracleAnswer) (data : Json) : Prop :=
  ∀ endpoint ∈ answer.endpoints,
    endpoint.answer = .ok data ∨ ∃ error, endpoint.answer = .error error

def OracleAnswer.unreachable (answer : OracleAnswer) : OracleAnswer where
  oracle := answer.oracle
  endpoints := answer.endpoints.map fun endpoint => { endpoint with answer := .error .requestError }

def RewardVoteFields.wellTyped (vote : RewardVoteFields) : Bool :=
  vote.nonce.isInt && vote.updateTimestamp.isInt && vote.signature.isStr && vote.root.isStr &&
    vote.ipfsHash.isStr && vote.avgRewardPerSecond.isInt

/-- A conversion fails while the vote is fetched, or the nonce is not that of the contract. -/
def RewardVoteFields.Dropped (reader : Json.TextReader) (nonce : Int) (vote : RewardVoteFields) :
    Prop :=
  (∃ error, vote.avgRewardPerSecond.toFloat reader = .error error) ∨
    (∃ error, vote.updateTimestamp.toFloat reader = .error error) ∨
      (∃ error, vote.signature.toBytes reader = .error error) ∨
        (vote.nonce == Json.int nonce) = false

/-- In any run, the call in which an oracle sends `data` and all later ones end as if
the oracle had been unreachable. -/
def RewardsContained (reader : Json.TextReader) (nonce : Int) (data : Json) : Prop :=
  ∀ (earlier later : List RawRewardsCall) (call : RawRewardsCall) (before after : List OracleAnswer)
    (answer : OracleAnswer), answer.Sends data → call.rewardsNonce = .ok nonce →
      (history (processRawRewards reader) (RewardsCache.new defaultCacheSize)
        (earlier ++ { call with answers := before ++ answer :: after } :: later)).map
          Transition.output =
      (history (processRawRewards reader) (RewardsCache.new defaultCacheSize)
        (earlier ++ { call with answers := before ++ answer.unreachable :: after } :: later)).map
          Transition.output

theorem lookup_truthy {fields : List (String × Json)} {key : String} {value : Json}
    (found : fields.lookup key = some value) : (Json.obj fields).truthy = true := by
  cases fields with
  | nil => cases found
  | cons => rfl

theorem rewardVoteFields_truthy {fields : List (String × Json)} {vote : RewardVoteFields}
    (keys : rewardVoteFields fields = some vote) : (Json.obj fields).truthy = true := by
  unfold rewardVoteFields at keys
  split at keys
  case h_1 nonceFound _ _ _ _ _ => exact lookup_truthy nonceFound
  case h_2 => cases keys

theorem readRewardData_obj (reader : Json.TextReader) (url : String)
    {fields : List (String × Json)} {vote : RewardVoteFields}
    (keys : rewardVoteFields fields = some vote) :
    readRewardData reader url (.obj fields) = vote.read reader := by
  simp only [readRewardData, rewardVoteFields_truthy keys, if_true, keys]

theorem RewardVoteFields.dropped_iff {reader : Json.TextReader} {nonce : Int}
    {vote : RewardVoteFields} :
    vote.Dropped reader nonce ↔
      ∀ reply, vote.read reader = .ok reply → (reply.nonce == Json.int nonce) = false := by
  unfold RewardVoteFields.Dropped RewardVoteFields.read
  cases vote.avgRewardPerSecond.toFloat reader with
  | error error => simp
  | ok _ =>
      cases vote.updateTimestamp.toFloat reader with
      | error error => simp
      | ok _ =>
          cases vote.signature.toBytes reader with
          | error error => simp
          | ok signature => simp

theorem unreachable_votes (reader : Json.TextReader) (answer : OracleAnswer) :
    (answer.unreachable.read reader).votes = [] := by
  rw [List.eq_nil_iff_forall_not_mem]
  intro vote member
  obtain ⟨reply, inside, -⟩ := OracleReply.mem_votes.mp member
  obtain ⟨endpoint, endpointMember, fetched⟩ := List.mem_map.mp inside
  obtain ⟨original, -, rfl⟩ := List.mem_map.mp endpointMember
  cases fetched

theorem fetchRewardVotes_append {τ ρ : Type*} [BEq τ] [PyOrder τ]
    (first second : List (OracleReply τ ρ)) :
    fetchRewardVotes (first ++ second) = fetchRewardVotes first ++ fetchRewardVotes second :=
  List.filterMap_append

theorem currentVotes_append {τ ρ : Type*} [BEq τ] [PyOrder τ] (first second : List (RewardVote τ ρ))
    (nonce : Int) :
    currentVotes (first ++ second) nonce = currentVotes first nonce ++ currentVotes second nonce :=
  List.filter_append _ _

theorem currentVotes_without {τ ρ : Type*} [BEq τ] [PyOrder τ] {reply : OracleReply τ ρ}
    {nonce : Int} (others : ∀ vote ∈ reply.votes, (vote.nonce == PyOrder.ofInt nonce) = false)
    (before after : List (OracleReply τ ρ)) :
    currentVotes (fetchRewardVotes (before ++ reply :: after)) nonce =
      currentVotes (fetchRewardVotes (before ++ after)) nonce := by
  rw [fetchRewardVotes_append, fetchRewardVotes_append, currentVotes_append, currentVotes_append,
    fetchRewardVotes_cons]
  split
  case h_1 => rfl
  case h_2 vote fetched =>
    have other := others vote (fetchVoteFromOracle_mem fetched)
    rw [currentVotes, currentVotes, currentVotes, List.filter_cons, other, if_neg (by simp)]

theorem Sends.other_nonce {reader : Json.TextReader} {nonce : Int} {fields : List (String × Json)}
    {vote : RewardVoteFields} (keys : rewardVoteFields fields = some vote)
    (dropped : vote.Dropped reader nonce) {answer : OracleAnswer}
    (sends : answer.Sends (.obj fields)) :
    ∀ fetched ∈ (answer.read reader).votes,
      (fetched.nonce == (PyOrder.ofInt nonce : Json)) = false := by
  intro fetched member
  obtain ⟨reply, inside, rfl⟩ := OracleReply.mem_votes.mp member
  obtain ⟨endpoint, endpointMember, read⟩ := List.mem_map.mp inside
  rcases sends endpoint endpointMember with sent | ⟨error, failed⟩
  · rw [fetchVoteFromEndpoint, sent] at read
    dsimp only at read
    rw [readRewardData_obj reader endpoint.url keys] at read
    exact RewardVoteFields.dropped_iff.mp dropped reply read
  · rw [fetchVoteFromEndpoint, failed] at read
    cases read

theorem processRawRewards_dropped {reader : Json.TextReader} {nonce : Int}
    {fields : List (String × Json)} {vote : RewardVoteFields}
    (keys : rewardVoteFields fields = some vote) (dropped : vote.Dropped reader nonce)
    (cache : RewardsCache Json Json) (call : RawRewardsCall) (before after : List OracleAnswer)
    {answer : OracleAnswer} (sends : answer.Sends (.obj fields))
    (nonceRead : call.rewardsNonce = .ok nonce) :
    processRawRewards reader cache { call with answers := before ++ answer :: after } =
      processRawRewards reader cache
        { call with answers := before ++ answer.unreachable :: after } := by
  have votes : currentVotes (fetchRewardVotes
        ((before ++ answer :: after).map (OracleAnswer.read reader))) nonce =
      currentVotes (fetchRewardVotes
        ((before ++ answer.unreachable :: after).map (OracleAnswer.read reader))) nonce := by
    rw [List.map_append, List.map_append, List.map_cons, List.map_cons,
      currentVotes_without (Sends.other_nonce keys dropped sends),
      currentVotes_without (by simp [unreachable_votes])]
  have prepared := prepareRewards_congr cache
    (RawRewardsCall.read reader
      { call with answers := before ++ answer :: after }).toRewardsReads
    (RawRewardsCall.read reader
      { call with answers := before ++ answer.unreachable :: after }).toRewardsReads
    rfl nonceRead nonceRead rfl votes
  unfold processRawRewards processRewards
  rw [prepared]
  rfl

theorem fetchVoteFromOracle_single {τ ρ : Type*} [BEq τ] [PyOrder τ] {reply : OracleReply τ ρ}
    {vote : RewardVote τ ρ} (votes : reply.votes = [vote])
    (reflexive : (vote.nonce == vote.nonce) = true) : fetchVoteFromOracle reply = .ok vote := by
  have newest : [vote].filter (fun other => other.nonce == vote.nonce) = [vote] := by
    simp [reflexive]
  simp only [fetchVoteFromOracle, votes, List.map_cons, List.map_nil, maxOf, maxFrom, newest,
    latestVote]

theorem processRewards_alone {τ ρ : Type*} [BEq τ] [BEq ρ] [PyOrder τ] [PyHash ρ]
    {call : RewardsCall τ ρ} {nonce : Int} {vote : RewardVote τ ρ}
    (counts : CountsVotes call.toRewardsReads nonce [vote])
    (threshold : call.rewardsThreshold = 1) :
    (processRewards (RewardsCache.new defaultCacheSize) call).1 ≠ ⟨none, .ok ()⟩ := by
  unfold processRewards
  rw [prepareRewards_counts counts]
  by_cases hashable : PyHash.hashable vote.body.updateTimestamp = true
  · have updated : (RewardsCache.new defaultCacheSize).update [vote] =
        (.ok (), (RewardsCache.new defaultCacheSize).store vote) := by
      simp only [RewardsCache.update, RewardsCache.storeAll, hashable, if_true]
      rfl
    have rewards : ((RewardsCache.new defaultCacheSize).store vote).rewards =
        .ok [TimestampVotes.single vote] := rfl
    rw [updated]
    simp only [chooseSubmission, findEarliestWinner, rewards, earliestWinner, threshold]
    cases bodies : counter ((TimestampVotes.single vote).votes.map RewardVote.body) with
    | error error => simp
    | ok found =>
        have common : mostCommon found = some (vote.body, 1) := mostCommon_single bodies
        simp only [common, canSubmit, Nat.le_refl, decide_true, if_true]
        unfold finishRewards
        split <;> simp
  · have updated : (RewardsCache.new defaultCacheSize).update [vote] =
        (.error .typeError, RewardsCache.new defaultCacheSize) := by
      simp only [RewardsCache.update, RewardsCache.storeAll, hashable]
      rfl
    rw [updated]
    simp

theorem rewardsContained_iff (reader : Json.TextReader) (nonce : Int)
    {fields : List (String × Json)} {vote : RewardVoteFields}
    (keys : rewardVoteFields fields = some vote) :
    RewardsContained reader nonce (.obj fields) ↔ vote.Dropped reader nonce := by
  constructor
  · intro contained
    rw [RewardVoteFields.dropped_iff]
    intro reply read
    by_contra current
    rw [Bool.not_eq_false] at current
    let answer : OracleAnswer := ⟨⟨"", .ofDigit '1' rfl⟩, [⟨"", .ok (.obj fields)⟩]⟩
    let call : RawRewardsCall :=
      { canUpdate := .ok true, answers := [], rewardsNonce := .ok nonce, rewardsThreshold := 1
        receipt := fun _ => .ok none }
    have votes : (answer.read reader).votes = [reply.toVote answer.oracle] := by
      have fetched : fetchVoteFromEndpoint reader ⟨"", .ok (.obj fields)⟩ = .ok reply := by
        simp only [fetchVoteFromEndpoint, readRewardData_obj reader "" keys, read]
      simp only [OracleReply.votes, OracleAnswer.read, answer, List.map_cons, List.map_nil, fetched,
        List.filterMap_cons, List.filterMap_nil]
    have counts : CountsVotes (RawRewardsCall.read reader
        { call with answers := [answer] }).toRewardsReads nonce [reply.toVote answer.oracle] := by
      refine ⟨rfl, rfl, ?_, List.cons_ne_nil _ _⟩
      have fetched := fetchVoteFromOracle_single votes (Json.beq_self_of_beq_int current)
      change currentVotes (fetchRewardVotes [answer.read reader]) nonce = _
      rw [fetchRewardVotes_cons, fetched]
      change List.filter _ [reply.toVote answer.oracle] = _
      rw [List.filter_eq_self]
      intro only member
      rw [List.mem_singleton.mp member]
      exact current
    have same := contained [] [] call [] [] answer (by simp [OracleAnswer.Sends, answer]) rfl
    refine processRewards_alone counts rfl ((List.cons.inj same).1.trans ?_)
    rfl
  · intro dropped earlier later call before after answer sends nonceRead
    rw [history_append, history_append, List.map_append, List.map_append]
    simp only [history, List.map_cons, transition_output]
    rw [processRawRewards_dropped keys dropped _ call before after sends nonceRead]

end V3Keeper
