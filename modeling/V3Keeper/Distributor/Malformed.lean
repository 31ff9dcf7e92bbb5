import V3Keeper.Distributor.Endpoint
import V3Keeper.Distributor.Laws
import V3Keeper.Rewards.Malformed

/-!
What a distributor vote does whose fields are not of the declared types, and the two
pipelines side by side.
-/

namespace V3Keeper

open Python StepRun

def DistributorVoteFields.wellTyped (vote : DistributorVoteFields)
    (updateTimestamp : Option Json) : Bool :=
  vote.nonce.isInt && vote.signature.isStr && vote.root.isStr && vote.ipfsHash.isStr &&
    updateTimestamp.any Json.isInt

/-- The timestamp is missing, the nonce is not that of the contract, or the timestamp is
a number that is not above the next one. -/
def DistributorVoteFields.Dropped (nonce next : Int) (vote : DistributorVoteFields)
    (updateTimestamp : Option Json) : Prop :=
  updateTimestamp = none ∨ (vote.nonce == Json.int nonce) = false ∨
    ∃ timestamp, updateTimestamp = some timestamp ∧ Json.lt (.int next) timestamp = .ok false

/-- The call in which an oracle sends `data` ends as if the oracle had been unreachable. -/
def DistributorContained (nonce next : Int) (data : Json) : Prop :=
  ∀ (call : RawDistributorCall) (before after : List OracleAnswer) (answer : OracleAnswer),
    answer.Sends data → call.nonce = .ok nonce → call.nextUpdateTimestamp = .ok next →
      processRawDistributorRewards { call with answers := before ++ answer :: after } =
        processRawDistributorRewards
          { call with answers := before ++ answer.unreachable :: after }

theorem readDistributorData_obj (url : String) {fields : List (String × Json)}
    {vote : DistributorVoteFields} (keys : distributorVoteFields fields = some vote) :
    readDistributorData url (.obj fields) = vote.read (fields.lookup "update_timestamp") := by
  have truthy : (Json.obj fields).truthy = true := by
    unfold distributorVoteFields at keys
    split at keys
    case h_1 nonceFound _ _ _ => exact lookup_truthy nonceFound
    case h_2 => cases keys
  simp only [readDistributorData, truthy, if_true, keys]

theorem unreachable_distributorVotes (answer : OracleAnswer) :
    answer.unreachable.readDistributor.votes = [] := by
  rw [List.eq_nil_iff_forall_not_mem]
  intro vote member
  obtain ⟨reply, inside, -⟩ := DistributorReply.mem_votes.mp member
  obtain ⟨endpoint, endpointMember, fetched⟩ := List.mem_map.mp inside
  obtain ⟨original, -, rfl⟩ := List.mem_map.mp endpointMember
  cases fetched

theorem dropped_filtered {nonce next : Int} {fields : List (String × Json)}
    {vote : DistributorVoteFields} (keys : distributorVoteFields fields = some vote)
    (dropped : vote.Dropped nonce next (fields.lookup "update_timestamp"))
    {answer : OracleAnswer} (sends : answer.Sends (.obj fields)) :
    ∀ fetched ∈ answer.readDistributor.votes,
      (fetched.nonce == (PyOrder.ofInt nonce : Json)) = false ∨
        PyOrder.lt (PyOrder.ofInt next) fetched.updateTimestamp = .ok false := by
  intro fetched member
  obtain ⟨reply, inside, rfl⟩ := DistributorReply.mem_votes.mp member
  obtain ⟨endpoint, endpointMember, read⟩ := List.mem_map.mp inside
  rcases sends endpoint endpointMember with sent | ⟨error, failed⟩
  · rw [fetchDistributorVoteFromEndpoint, sent] at read
    dsimp only at read
    rw [readDistributorData_obj endpoint.url keys] at read
    cases found : fields.lookup "update_timestamp" with
    | none =>
      rw [found] at read
      cases read
    | some timestamp =>
      rw [found] at read
      cases read
      rcases dropped with missing | other | ⟨old, oldFound, below⟩
      · rw [found] at missing
        cases missing
      · exact Or.inl other
      · rw [found] at oldFound
        cases oldFound
        exact Or.inr below
  · rw [fetchDistributorVoteFromEndpoint, failed] at read
    cases read

theorem exists_other_root (root : Json) : ∃ text, (root == Json.str text) = false := by
  cases root with
  | str known =>
      refine ⟨known ++ "x", ?_⟩
      rw [Json.beq_str, decide_eq_false_iff_not]
      intro same
      have lengths := congrArg String.length same
      simp at lengths
  | null => exact ⟨"", rfl⟩
  | bool flag => exact ⟨"", rfl⟩
  | int value => exact ⟨"", rfl⟩
  | float value => exact ⟨"", rfl⟩
  | arr items => exact ⟨"", rfl⟩
  | obj fields => exact ⟨"", rfl⟩

theorem readDistributor_votes {fields : List (String × Json)} {vote : DistributorVoteFields}
    (keys : distributorVoteFields fields = some vote) {timestamp : Json}
    (found : fields.lookup "update_timestamp" = some timestamp) (oracle : Oracle) (url : String) :
    (OracleAnswer.readDistributor ⟨oracle, [⟨url, .ok (.obj fields)⟩]⟩).votes =
      [(vote.reply timestamp).toVote oracle] := by
  have fetched : fetchDistributorVoteFromEndpoint ⟨url, .ok (.obj fields)⟩ =
      .ok (some (vote.reply timestamp)) := by
    simp only [fetchDistributorVoteFromEndpoint, readDistributorData_obj url keys, found,
      DistributorVoteFields.read]
  simp only [DistributorReply.votes, OracleAnswer.readDistributor, List.map_cons, List.map_nil,
    fetched, List.filterMap_cons, List.filterMap_nil]

theorem processRawDistributorRewards_dropped {nonce next : Int} {fields : List (String × Json)}
    {vote : DistributorVoteFields} (keys : distributorVoteFields fields = some vote)
    (dropped : vote.Dropped nonce next (fields.lookup "update_timestamp"))
    (call : RawDistributorCall) (before after : List OracleAnswer) {answer : OracleAnswer}
    (sends : answer.Sends (.obj fields)) (nonceRead : call.nonce = .ok nonce)
    (nextRead : call.nextUpdateTimestamp = .ok next) :
    processRawDistributorRewards { call with answers := before ++ answer :: after } =
      processRawDistributorRewards
        { call with answers := before ++ answer.unreachable :: after } := by
  have eligible : votesAbove next (currentDistributorVotes (fetchDistributorRewardVotes
        ((before ++ answer :: after).map OracleAnswer.readDistributor)) nonce) =
      votesAbove next (currentDistributorVotes (fetchDistributorRewardVotes
        ((before ++ answer.unreachable :: after).map OracleAnswer.readDistributor)) nonce) := by
    rw [List.map_append, List.map_append, List.map_cons, List.map_cons,
      votesAbove_without (dropped_filtered keys dropped sends),
      votesAbove_without (by simp [unreachable_distributorVotes])]
  let read (answers : List OracleAnswer) : DistributorCall Json Json :=
    RawDistributorCall.read { call with answers := answers }
  have prepared : prepareDistributor (read (before ++ answer :: after)) =
      prepareDistributor (read (before ++ answer.unreachable :: after)) := by
    rw [prepareDistributor_reads (read (before ++ answer :: after)) nonceRead nextRead,
      prepareDistributor_reads (read (before ++ answer.unreachable :: after)) nonceRead nextRead]
    exact congrArg (decideDistributor _) eligible
  simp only [read] at prepared
  unfold processRawDistributorRewards processDistributorRewards
  rw [prepared]
  rfl

theorem distributorContained_iff (nonce next : Int) {fields : List (String × Json)}
    {vote : DistributorVoteFields} (keys : distributorVoteFields fields = some vote) :
    DistributorContained nonce next (.obj fields) ↔
      vote.Dropped nonce next (fields.lookup "update_timestamp") := by
  constructor
  · intro contained
    by_contra current
    rw [DistributorVoteFields.Dropped, not_or, not_or] at current
    obtain ⟨present, sameNonce, above⟩ := current
    rw [Bool.not_eq_false] at sameNonce
    obtain ⟨timestamp, found⟩ := Option.ne_none_iff_exists'.mp present
    obtain ⟨root, otherRoot⟩ := exists_other_root vote.root
    let answer : OracleAnswer := ⟨⟨"", .ofDigit '1' rfl⟩, [⟨"", .ok (.obj fields)⟩]⟩
    let call : RawDistributorCall :=
      { answers := [], nonce := .ok nonce, nextUpdateTimestamp := .ok next
        rewardsMinOracles := .ok 1, rewardsRoot := .ok root, receipt := fun _ => .ok none }
    have fetched : fetchDistributorVote answer.readDistributor =
        .ok (some ((vote.reply timestamp).toVote answer.oracle)) :=
      fetchDistributorVote_only (readDistributor_votes keys found _ _)
        (Json.beq_self_of_beq_int sameNonce)
    have counted : currentDistributorVotes
        (fetchDistributorRewardVotes [answer.readDistributor]) nonce =
          [(vote.reply timestamp).toVote answer.oracle] := by
      simp only [fetchDistributorRewardVotes, List.filterMap_cons, List.filterMap_nil, fetched]
      rw [currentDistributorVotes, List.filter_eq_self]
      intro only member
      rw [List.mem_singleton.mp member]
      exact sameNonce
    have submits : prepareDistributor (RawDistributorCall.read { call with answers := [answer] }) ≠
        .ok none :=
      prepareDistributor_alone rfl rfl counted rfl rfl otherRoot
        fun old => above ⟨timestamp, found, old⟩
    have same := contained call [] [] answer (by simp [OracleAnswer.Sends, answer]) rfl rfl
    have silent : processRawDistributorRewards { call with answers := [answer.unreachable] } =
        ⟨none, .ok ()⟩ := rfl
    exact submits (processDistributorRewards_idle (same.trans silent))
  · intro dropped call before after answer sends nonceRead nextRead
    exact processRawDistributorRewards_dropped keys dropped call before after sends nonceRead
      nextRead

def RewardsKeepOut (reader : Json.TextReader) (nonce : Int) (fields : List (String × Json)) :
    Prop :=
  ∀ vote, rewardVoteFields fields = some vote → vote.wellTyped = false →
    RewardsContained reader nonce (.obj fields)

def DistributorKeepsOut (nonce next : Int) (fields : List (String × Json)) : Prop :=
  ∀ vote, distributorVoteFields fields = some vote →
    vote.wellTyped (fields.lookup "update_timestamp") = false →
      DistributorContained nonce next (.obj fields)

/-- A malformed vote is kept out exactly where something on its way happens to drop it. -/
theorem malformed_kept_out_iff (reader : Json.TextReader) (nonce next : Int)
    (fields : List (String × Json)) :
    (RewardsKeepOut reader nonce fields ↔
      ∀ vote, rewardVoteFields fields = some vote → vote.wellTyped = false →
        vote.Dropped reader nonce) ∧
    (DistributorKeepsOut nonce next fields ↔
      ∀ vote, distributorVoteFields fields = some vote →
        vote.wellTyped (fields.lookup "update_timestamp") = false →
          vote.Dropped nonce next (fields.lookup "update_timestamp")) := by
  refine ⟨forall_congr' fun vote => ?_, forall_congr' fun vote => ?_⟩
  · exact forall_congr' fun keys => imp_congr Iff.rfl (rewardsContained_iff reader nonce keys)
  · exact forall_congr' fun keys => imp_congr Iff.rfl (distributorContained_iff nonce next keys)

/-- A timestamp that is sent as a text. It cannot be sorted among the timestamps of the
other oracles, nor compared with the one of the contract. -/
theorem textual_timestamp_raises :
    let reader : Json.TextReader :=
      { isFloat := fun text => !text.isEmpty && text.toList.all Char.isDigit
        toBytes := fun text => if text = "0x01" then .ok [1] else .error (.valueError "") }
    let fields (updateTimestamp : Json) : List (String × Json) :=
      [("nonce", .int 5), ("update_timestamp", updateTimestamp), ("signature", .str "0x01"),
        ("root", .str "0x02"), ("ipfs_hash", .str "QmVote"), ("avg_reward_per_second", .int 1000)]
    ¬RewardsKeepOut reader 5 (fields (.str "1700000000")) ∧
      ¬DistributorKeepsOut 5 1600000000 (fields (.str "1700000000")) := by
  intro reader fields
  let answer (digit : Char) (hex : isHexDigit digit = true) (updateTimestamp : Json) :
      OracleAnswer :=
    ⟨⟨"0x0" ++ digit.toString, .ofDigit digit hex⟩,
      [⟨"https://oracle", .ok (.obj (fields updateTimestamp))⟩]⟩
  have sends : ∀ digit hex, (answer digit hex (.str "1700000000")).Sends
      (.obj (fields (.str "1700000000"))) := by
    intro digit hex endpoint member
    rw [List.mem_singleton.mp member]
    exact Or.inl rfl
  constructor
  · intro kept
    let call : RawRewardsCall :=
      { canUpdate := .ok true, answers := [], rewardsNonce := .ok 5, rewardsThreshold := 2
        receipt := fun _ => .ok (some ⟨7, 1⟩) }
    have same := kept _ rfl rfl [] [] call
      [answer '1' rfl (.int 1700000000), answer '2' rfl (.int 1700000000)] []
      (answer '3' rfl (.str "1700000000")) (sends _ _) rfl
    have results : [Except.error PyError.typeError] = [Except.ok ()] :=
      congrArg (List.map RewardsOutcome.result) same
    cases results
  · intro kept
    let call : RawDistributorCall :=
      { answers := [], nonce := .ok 5, nextUpdateTimestamp := .ok 1600000000
        rewardsMinOracles := .ok 2, rewardsRoot := .ok "0x03"
        receipt := fun _ => .ok (some ⟨7, 1⟩) }
    have same := kept _ rfl rfl call
      [answer '1' rfl (.int 1700000000), answer '2' rfl (.int 1700000000)] []
      (answer '3' rfl (.str "1700000000")) (sends _ _) rfl rfl
    have results : Except.error PyError.typeError = Except.ok () :=
      congrArg DistributorOutcome.result same
    cases results

end V3Keeper
