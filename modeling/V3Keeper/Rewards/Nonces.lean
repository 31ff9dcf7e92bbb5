import V3Keeper.Rewards.Laws

/-!
Which nonces the submitted signatures belong to. Only the freshly fetched votes are
filtered by the nonce, and the cache outlives a change of the nonce.
-/

namespace V3Keeper

open Python StepRun

variable {τ ρ : Type*} [BEq τ] [PyOrder τ]

def countedNonce (reads : RewardsReads τ ρ) : Option Int :=
  match reads.canUpdate, reads.rewardsNonce with
  | .ok true, .ok nonce =>
      if (currentVotes (fetchRewardVotes reads.replies) nonce).isEmpty then none else some nonce
  | _, _ => none

theorem countedNonce_eq_some {reads : RewardsReads τ ρ} {nonce : Int} :
    countedNonce reads = some nonce ↔ ∃ current, CountsVotes reads nonce current := by
  constructor
  · intro counted
    unfold countedNonce at counted
    split at counted
    case h_1 read canUpdate nonceRead =>
      split at counted
      case isTrue => cases counted
      case isFalse nonempty =>
        cases counted
        exact ⟨_, canUpdate, nonceRead, rfl, fun empty => nonempty (List.isEmpty_iff.mpr empty)⟩
    case h_2 => cases counted
  · rintro ⟨current, canUpdate, nonceRead, rfl, nonempty⟩
    simp [countedNonce, canUpdate, nonceRead, nonempty]

abbrev RewardsRun (τ ρ : Type*) [BEq τ] [BEq ρ] :=
  Transition (RewardsCache τ ρ) (RewardsCall τ ρ) (RewardsOutcome τ ρ)

variable [BEq ρ]

def lastCountedNonce (past : List (RewardsRun τ ρ)) : Option Int :=
  (past.filterMap fun call => countedNonce call.input.toRewardsReads).getLast?

theorem lastCountedNonce_concat (past : List (RewardsRun τ ρ)) (call : RewardsRun τ ρ) :
    lastCountedNonce (past ++ [call]) =
      (countedNonce call.input.toRewardsReads).or (lastCountedNonce past) := by
  unfold lastCountedNonce
  cases counted : countedNonce call.input.toRewardsReads with
  | none => simp [counted]
  | some nonce => simp [counted]

/-- Where the contract nonce differs from the one of the votes stored last, the cache
has been emptied in between. -/
def EmptiedBetweenNonces (run : List (RewardsRun τ ρ)) : Prop :=
  ∀ past call later, run = past ++ call :: later →
    ∀ nonce, countedNonce call.input.toRewardsReads = some nonce →
      call.before.votes = [] ∨ lastCountedNonce past = some nonce

def SignersCarryNonce (run : List (RewardsRun τ ρ)) : Prop :=
  ∀ call ∈ run, ∀ submission, call.output.submission = some submission →
    ∃ nonce, call.input.rewardsNonce = .ok nonce ∧
      ∀ vote ∈ submission.signers, (vote.nonce == PyOrder.ofInt nonce) = true

theorem EmptiedBetweenNonces.inherited (past : List (RewardsRun τ ρ)) (next : RewardsRun τ ρ)
    (emptied : EmptiedBetweenNonces (past ++ [next])) : EmptiedBetweenNonces past := by
  intro earlier call later split
  exact emptied earlier call (later ++ [next]) (by rw [split]; simp)

def CacheCarries (past : List (RewardsRun τ ρ)) (cache : RewardsCache τ ρ) : Prop :=
  ∀ vote ∈ cache.votes, ∃ nonce, lastCountedNonce past = some nonce ∧
    (vote.nonce == PyOrder.ofInt nonce) = true

variable [PyHash ρ]

theorem CacheCarries.stored {past : List (RewardsRun τ ρ)} {cache : RewardsCache τ ρ}
    (carries : CacheCarries past cache) {call : RewardsCall τ ρ}
    (emptied : EmptiedBetweenNonces (past ++ [transition processRewards cache call]))
    {nonce : Int} {current : List (RewardVote τ ρ)}
    (counts : CountsVotes call.toRewardsReads nonce current) :
    ∀ vote ∈ (cache.update current).2.votes, (vote.nonce == PyOrder.ofInt nonce) = true := by
  intro vote member
  rcases RewardsCache.mem_update member with old | new
  · rcases emptied past _ [] rfl nonce (countedNonce_eq_some.mpr ⟨current, counts⟩) with
      empty | same
    · rw [transition_before] at empty
      simp [empty] at old
    · obtain ⟨oldNonce, lastEq, matching⟩ := carries vote old
      rw [same] at lastEq
      rw [Option.some.inj lastEq]
      exact matching
  · exact counts.carry_nonce vote new

theorem CacheCarries.next {past : List (RewardsRun τ ρ)} {cache : RewardsCache τ ρ}
    (carries : CacheCarries past cache) (call : RewardsCall τ ρ)
    (emptied : EmptiedBetweenNonces (past ++ [transition processRewards cache call])) :
    CacheCarries (past ++ [transition processRewards cache call]) (processRewards cache call).2 ∧
      SignersCarryNonce [transition processRewards cache call] := by
  have prepared : CacheCarries (past ++ [transition processRewards cache call])
        (prepareRewards cache call.toRewardsReads).2 ∧
      SignersCarryNonce [transition processRewards cache call] := by
    rcases prepareRewards_cases cache call.toRewardsReads with
      ⟨idle, kept, nothing⟩ | ⟨nonce, current, counts, updated, submits⟩
    · have uncounted : countedNonce call.toRewardsReads = none := by
        rw [Option.eq_none_iff_forall_ne_some]
        intro nonce counted
        obtain ⟨current, counts⟩ := countedNonce_eq_some.mp counted
        exact idle nonce current counts
      refine ⟨?_, ?_⟩
      · rw [kept, CacheCarries, lastCountedNonce_concat, transition_input, uncounted,
          Option.none_or]
        exact carries
      · intro only member submission submitted
        rw [List.mem_singleton.mp member, transition_output, processRewards_submission] at submitted
        exact absurd submitted (nothing submission)
    · have counted : countedNonce call.toRewardsReads = some nonce :=
        countedNonce_eq_some.mpr ⟨current, counts⟩
      have stored := carries.stored emptied counts
      refine ⟨?_, ?_⟩
      · intro vote member
        rw [updated] at member
        exact ⟨nonce, by rw [lastCountedNonce_concat, transition_input, counted]; rfl,
          stored vote member⟩
      · intro only member submission submitted
        rw [List.mem_singleton.mp member] at submitted ⊢
        rw [transition_output, processRewards_submission, submits] at submitted
        exact ⟨nonce, counts.nonceRead, fun vote signer =>
          stored vote (mem_signers submitted.2 signer)⟩
  refine ⟨?_, prepared.2⟩
  intro vote member
  rcases processRewards_cache cache call with same | cleared
  · exact prepared.1 vote (same ▸ member)
  · rw [cleared] at member
    simp at member

/-- A run signs with votes of the nonce it reads as long as the cache is emptied between
two nonces. -/
theorem signersCarryNonce_of_emptied (cacheSize : Nat) (calls : List (RewardsCall τ ρ))
    (emptied : EmptiedBetweenNonces (history processRewards (RewardsCache.new cacheSize) calls)) :
    SignersCarryNonce (history processRewards (RewardsCache.new cacheSize) calls) := by
  refine (history_invariant processRewards EmptiedBetweenNonces
    (fun past cache => CacheCarries past cache ∧ SignersCarryNonce past)
    EmptiedBetweenNonces.inherited ⟨?_, ?_⟩ ?_ calls emptied).2
  · intro vote member
    simp [RewardsCache.new, RewardsCache.votes, PyDict.values] at member
  · simp [SignersCarryNonce]
  · rintro past cache call ⟨carries, signed⟩ admitted
    obtain ⟨next, own⟩ := carries.next call admitted
    exact ⟨next, List.forall_mem_append.mpr ⟨signed, own⟩⟩

/-- Two oracles, a threshold of two: one votes at nonce 5, the other for the same body
once the contract has moved to nonce 6. -/
theorem signers_of_two_nonces :
    let body : RewardVoteBody Int String := ⟨1700000000, "0x01", "QmVote", 1000⟩
    let vote (digit : Char) (hex : isHexDigit digit = true) (nonce : Int) :
        OracleReply Int String :=
      ⟨⟨"0x" ++ digit.toString, .ofDigit digit hex⟩, [.ok ⟨nonce, [1], body⟩]⟩
    let call (nonce : Int) (reply : OracleReply Int String) : RewardsCall Int String :=
      { canUpdate := .ok true, replies := [reply], rewardsNonce := .ok nonce, rewardsThreshold := 2
        receipt := fun _ => .ok none }
    ¬SignersCarryNonce (history processRewards (RewardsCache.new defaultCacheSize)
      [call 5 (vote '1' rfl 5), call 6 (vote '2' rfl 6)]) := by
  intro body vote call signed
  obtain ⟨nonce, nonceRead, carried⟩ := signed _ (by simp only [history]; exact .tail _ (.head _))
    ⟨body, [⟨.ofDigit '1' rfl, 5, [1], body⟩, ⟨.ofDigit '2' rfl, 6, [1], body⟩]⟩ rfl
  have same := carried _ List.mem_cons_self
  cases nonceRead
  cases same

/-- A quorum that was pending at nonce 5 has been submitted before the nonce moves to 6. -/
theorem signersCarryNonce_of_emptied_submitted :
    let vote (nonce timestamp : Int) : OracleReply Int String :=
      ⟨⟨"0x1", .ofDigit '1' rfl⟩, [.ok ⟨nonce, [1], ⟨timestamp, "0x01", "QmVote", 1000⟩⟩]⟩
    let call (nonce timestamp : Int) : RewardsCall Int String :=
      { canUpdate := .ok true, replies := [vote nonce timestamp], rewardsNonce := .ok nonce
        rewardsThreshold := 1, receipt := fun _ => .ok (some ⟨7, 1⟩) }
    SignersCarryNonce (history processRewards (RewardsCache.new defaultCacheSize)
      [call 5 1700000000, call 6 1700043200]) := by
  intro vote call
  refine signersCarryNonce_of_emptied defaultCacheSize _ ?_
  intro past run later split nonce counted
  obtain ⟨earlier, rest, inputs, -, same⟩ := history_split processRewards split
  left
  match earlier, inputs with
  | [], _ => rw [same]; rfl
  | [_], inputs =>
      obtain ⟨first, -⟩ := List.cons.inj inputs
      rw [same, ← first]
      rfl
  | _ :: _ :: _, inputs => simp at inputs

end V3Keeper
