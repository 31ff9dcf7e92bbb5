import V3Keeper.Exits.Quorums

/-!
Whether an exit goes out whatever the other validators' entries are. Nothing in the loop
is caught but a refusal by the consensus client, so every earlier failure stops it.
-/

namespace V3Keeper

open Python

variable {G : Type*}

structure EligibleExit (settings : ExitSettings) (curve : Curve G) (call : ExitsCall)
    (validator : Int) : Prop where
  listed : entriesFor settings call (.int validator) ≠ []
  enough : call.exitSignatureRecoverThreshold ≤
    ((entriesFor settings call (.int validator)).map ValidatorExitShare.shareIndex).dedup.length
  decodes : ∀ share ∈ entriesFor settings call (.int validator),
    ∃ point, curve.signatureToG2 share.exitSignatureShare = .ok point
  notExiting : ∀ slot, call.chainHead = .ok slot → ∀ batch ∈ statusBatches settings call,
    ∀ validators, call.validatorsByIds slot batch = .ok validators →
      ∀ other ∈ validators, other.index = .ok validator →
        settings.exitedStatuses.contains other.status = false

def ExitSubmitted (settings : ExitSettings) (curve : Curve G) (call : ExitsCall)
    (validator : Int) : Prop :=
  ∃ exit ∈ (processExits settings curve call).submitted,
    (exit.validatorIndex == Json.int validator) = true

def NothingStops (settings : ExitSettings) (curve : Curve G) (call : ExitsCall)
    (validator : Int) : Prop :=
  ∃ slot replies exited, StatusesSettled settings call slot replies exited ∧
    ∀ earlier ∈ earlierValidators settings call exited (.int validator),
      ¬Aborts settings curve call earlier

theorem entriesFor_congr {settings : ExitSettings} {call : ExitsCall} {index other : Json}
    (hashable : index.hashable = true) (otherHashable : other.hashable = true)
    (shares : ∀ share ∈ callShares settings call, share.validatorIndex.hashable = true)
    (same : (index == other) = true) :
    entriesFor settings call index = entriesFor settings call other :=
  List.filter_congr fun share member =>
    Json.beq_congr_of_hashable hashable otherHashable (shares share member) same

theorem EligibleExit.remains {settings : ExitSettings} {curve : Curve G} {call : ExitsCall}
    {validator : Int} (eligible : EligibleExit settings curve call validator) {slot : Nat}
    {replies : List (List ConsensusValidator)} {exited : List Int}
    (settled : StatusesSettled settings call slot replies exited) :
    ∃ key ∈ remainingValidators settings call exited, (key == Json.int validator) = true := by
  obtain ⟨grouped, groupedEq⟩ := (callShares_hashable_iff settings call).mp settled.hashable
  obtain ⟨isGrouped, keys⟩ := callShares_grouped groupedEq
  obtain ⟨share, member⟩ := List.exists_mem_of_ne_nil _ eligible.listed
  obtain ⟨inCall, names⟩ := List.mem_filter.mp member
  obtain ⟨key, keyMember, covers⟩ := isGrouped.covered share inCall
  obtain ⟨entry, entryMember, rfl⟩ := List.mem_map.mp keyMember
  have shareHashable := settled.hashable share inCall
  have named : (entry.1 == Json.int validator) = true := by
    rw [Json.beq_congr_of_hashable (isGrouped.hashable entry entryMember) shareHashable rfl covers,
      Json.beq_comm_of_hashable shareHashable rfl]
    exact names
  rw [keys] at keyMember
  refine ⟨entry.1, List.mem_filter.mpr ⟨keyMember, ?_⟩, named⟩
  rw [List.all_eq_true]
  intro index exiting
  rw [Json.beq_congr_of_hashable (isGrouped.hashable entry entryMember) rfl rfl named,
    Json.beq_int_int, Bool.not_eq_true', decide_eq_false_iff_not]
  rintro rfl
  have reported : (Except.ok validator : Except PyError Int) ∈
      exitedIndexes settings replies.flatten := by
    rw [settled.indexed]
    exact List.mem_map_of_mem exiting
  obtain ⟨other, otherMember, otherIndex⟩ := List.mem_map.mp reported
  obtain ⟨inReplies, status⟩ := List.mem_filter.mp otherMember
  obtain ⟨validators, reply, inside⟩ := List.mem_flatten.mp inReplies
  have answer : (Except.ok validators : Except PyError (List ConsensusValidator)) ∈
      (statusBatches settings call).map (call.validatorsByIds slot) := by
    rw [settled.fetched]
    exact List.mem_map_of_mem reply
  obtain ⟨batch, batchMember, answered⟩ := List.mem_map.mp answer
  rw [eligible.notExiting slot settled.chainHead batch batchMember validators answered other inside
    otherIndex] at status
  cases status

theorem earlierValidators_congr {settings : ExitSettings} {call : ExitsCall}
    (chunk : 1 ≤ settings.validatorsFetchChunkSize) {slot : Nat}
    {replies : List (List ConsensusValidator)} {exited : List Int}
    (settled : StatusesSettled settings call slot replies exited) {index other : Json}
    (member : index ∈ remainingValidators settings call exited)
    (otherHashable : other.hashable = true) (same : (index == other) = true) :
    index.hashable = true ∧
      earlierValidators settings call exited index =
        earlierValidators settings call exited other := by
  obtain ⟨exits, found⟩ := (exitsToProcess_iff settings call).mpr
    ⟨chunk, slot, replies, exited, settled⟩
  obtain ⟨keys, spec⟩ := exitsToProcess_spec found settled
  rw [← keys] at member
  obtain ⟨entry, entryMember, rfl⟩ := List.mem_map.mp member
  have hashable := (spec entry entryMember).1
  obtain ⟨before, after, split⟩ := List.append_of_mem entryMember
  refine ⟨hashable, ?_⟩
  rw [earlierValidators_eq found settled split hashable (Json.beq_self_of_hashable hashable),
    earlierValidators_eq found settled split otherHashable same]

/-- An eligible exit is submitted exactly where nothing stops the call before it. -/
theorem exitSubmitted_iff (settings : ExitSettings) (curve : Curve G) (call : ExitsCall)
    (chunk : 1 ≤ settings.validatorsFetchChunkSize) (validator : Int)
    (eligible : EligibleExit settings curve call validator) :
    ExitSubmitted settings curve call validator ↔
      NothingStops settings curve call validator := by
  constructor
  · rintro ⟨exit, submitted, same⟩
    obtain ⟨⟨-, slot, replies, exited, settled, member, clean⟩, -⟩ := mem_processExits.mp submitted
    rw [(earlierValidators_congr chunk settled member rfl same).2] at clean
    exact ⟨slot, replies, exited, settled, clean⟩
  · rintro ⟨slot, replies, exited, settled, clean⟩
    obtain ⟨index, member, same⟩ := eligible.remains settled
    obtain ⟨hashable, earlier⟩ := earlierValidators_congr chunk settled member rfl same
    rw [← earlier] at clean
    have own : entriesFor settings call index = entriesFor settings call (.int validator) :=
      entriesFor_congr hashable rfl settled.hashable same
    have rebuilt : ∃ signature, reconstructSharedBlsSignature curve
        (sharesByIndex (entriesFor settings call index)) = .ok signature := by
      rw [reconstruct_ok_iff]
      intro share shareMember
      obtain ⟨other, otherMember, shareEq⟩ := mem_sharesByIndex shareMember
      rw [← shareEq]
      exact eligible.decodes other (own ▸ otherMember)
    obtain ⟨signature, rebuilt⟩ := rebuilt
    have enough :
        call.exitSignatureRecoverThreshold ≤ (entriesFor settings call index).length := by
      rw [own]
      refine eligible.enough.trans ?_
      calc (((entriesFor settings call (.int validator)).map
              ValidatorExitShare.shareIndex).dedup).length
          ≤ ((entriesFor settings call (.int validator)).map
              ValidatorExitShare.shareIndex).length := (List.dedup_sublist _).length_le
        _ = (entriesFor settings call (.int validator)).length := List.length_map _
    refine ⟨⟨index, sharesByIndex (entriesFor settings call index), signature⟩, ?_, same⟩
    exact mem_processExits.mpr ⟨⟨chunk, slot, replies, exited, settled, member, clean⟩, enough, rfl,
      rebuilt⟩

/-- One oracle lists one validator, by a share that decodes. -/
theorem exitSubmitted_iff_alone :
    let settings : ExitSettings :=
      { exitedStatuses := ["active_exiting"], validatorsFetchChunkSize := 100
        reader := { isFloat := fun _ => false, toBytes := fun _ => .ok infinitySignature } }
    let call : ExitsCall :=
      { chainHead := .ok 1000, exitSignatureRecoverThreshold := 1
        answers := [⟨⟨"0x01", .ofDigit '1' rfl⟩, [⟨"https://oracle", .ok (.arr
          [.obj [("index", .int 8),
            ("exit_signature_share", .str ("0xc0" ++ String.ofList (List.replicate 190 '0')))]])⟩]⟩]
        validatorsByIds := fun _ _ => .ok [⟨"active_ongoing", .ok 8⟩]
        submitVoluntaryExit := fun _ _ => .submitted }
    ExitSubmitted settings infinityCurve call 8 ↔ NothingStops settings infinityCurve call 8 := by
  intro settings call
  have entries : entriesFor settings call (.int 8) = [⟨.int 8, infinitySignature, 0⟩] := rfl
  refine exitSubmitted_iff settings infinityCurve call (by decide) 8 ⟨?_, ?_, ?_, ?_⟩
  · simp [entries]
  · rw [entries]
    decide
  · intro share member
    rw [entries, List.mem_singleton] at member
    exact ⟨(), by rw [member]; rfl⟩
  · intro slot _ batch _ validators answered other member _
    cases answered
    rw [List.mem_singleton.mp member]
    rfl

/-- The entry for validator 7 does not decode, so validator 8 has to wait. -/
theorem exit_blocked_by_other_validator :
    let settings : ExitSettings :=
      { exitedStatuses := ["active_exiting"], validatorsFetchChunkSize := 100
        reader :=
          { isFloat := fun _ => false
            toBytes := fun text => .ok (if text = "0x00" then [0] else infinitySignature) } }
    let call : ExitsCall :=
      { chainHead := .ok 1000, exitSignatureRecoverThreshold := 1
        answers := [⟨⟨"0x01", .ofDigit '1' rfl⟩, [⟨"https://oracle", .ok (.arr
          [.obj [("index", .int 7), ("exit_signature_share", .str "0x00")],
            .obj [("index", .int 8), ("exit_signature_share",
              .str ("0xc0" ++ String.ofList (List.replicate 190 '0')))]])⟩]⟩]
        validatorsByIds := fun _ _ => .ok [⟨"active_ongoing", .ok 7⟩, ⟨"active_ongoing", .ok 8⟩]
        submitVoluntaryExit := fun _ _ => .submitted }
    EligibleExit settings infinityCurve call 8 ∧
      ¬ExitSubmitted settings infinityCurve call 8 := by
  intro settings call
  have entries : entriesFor settings call (.int 8) = [⟨.int 8, infinitySignature, 0⟩] := rfl
  refine ⟨⟨?_, ?_, ?_, ?_⟩, ?_⟩
  · simp [entries]
  · rw [entries]
    decide
  · intro share member
    rw [entries, List.mem_singleton] at member
    exact ⟨(), by rw [member]; rfl⟩
  · intro slot _ batch _ validators answered other member _
    cases answered
    simp only [List.mem_cons, List.not_mem_nil, or_false] at member
    rcases member with rfl | rfl <;> rfl
  · rintro ⟨exit, submitted, -⟩
    have none : (processExits settings infinityCurve call).submitted = [] := rfl
    rw [none] at submitted
    cases submitted

end V3Keeper
