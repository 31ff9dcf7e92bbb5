import V3Keeper.Exits.Laws

/-!
How many oracles stand behind a submitted exit. The threshold is checked on the number
of shares, and the signature is built from one share of each oracle.
-/

namespace V3Keeper

open Python

variable {G : Type*}

def entriesFor (settings : ExitSettings) (call : ExitsCall) (index : Json) :
    List ValidatorExitShare := listedShares (callShares settings call) index

def Aborts (settings : ExitSettings) (curve : Curve G) (call : ExitsCall) (index : Json) : Prop :=
  AbortsAt curve call index (entriesFor settings call index)

/-- Its turn comes: it is left when the exiting validators are removed, and no validator
before it stops the loop. -/
def TurnComes (settings : ExitSettings) (curve : Curve G) (call : ExitsCall) (index : Json) :
    Prop :=
  1 ≤ settings.validatorsFetchChunkSize ∧
    ∃ slot replies exited, StatusesSettled settings call slot replies exited ∧
      index ∈ remainingValidators settings call exited ∧
      ∀ earlier ∈ earlierValidators settings call exited index,
        ¬Aborts settings curve call earlier

def SubmitsQuorums (settings : ExitSettings) (curve : Curve G) (call : ExitsCall) : Prop :=
  ∀ exit ∈ (processExits settings curve call).submitted,
    reconstructSharedBlsSignature curve exit.signatures = .ok exit.exitSignature ∧
      call.exitSignatureRecoverThreshold ≤ exit.signatures.size

theorem turnComes_iff {settings : ExitSettings} {curve : Curve G} {call : ExitsCall}
    {exits : ValidatorExits} (found : exitsToProcess settings call = .ok exits) (index : Json) :
    TurnComes settings curve call index ↔
      ∃ before shares after, exits.entries = before ++ (index, shares) :: after ∧
        ∀ entry ∈ before, ¬Aborts settings curve call entry.1 := by
  have self : ∀ {slot replies exited}, StatusesSettled settings call slot replies exited →
      ∀ entry ∈ exits.entries, entry.1.hashable = true ∧ (entry.1 == entry.1) = true := by
    intro slot replies exited settled entry member
    have hashable := ((exitsToProcess_spec found settled).2 entry member).1
    exact ⟨hashable, Json.beq_self_of_hashable hashable⟩
  constructor
  · rintro ⟨-, slot, replies, exited, settled, member, clean⟩
    rw [← (exitsToProcess_spec found settled).1] at member
    obtain ⟨⟨index, shares⟩, entryMember, rfl⟩ := List.mem_map.mp member
    obtain ⟨hashable, same⟩ := self settled (index, shares) entryMember
    obtain ⟨before, after, split⟩ := List.append_of_mem entryMember
    refine ⟨before, shares, after, split, ?_⟩
    rw [earlierValidators_eq found settled split hashable same, List.forall_mem_map] at clean
    exact clean
  · rintro ⟨before, shares, after, split, clean⟩
    obtain ⟨chunk, slot, replies, exited, settled⟩ :=
      (exitsToProcess_iff settings call).mp ⟨exits, found⟩
    have entryMember : (index, shares) ∈ exits.entries := by simp [split]
    obtain ⟨hashable, same⟩ := self settled (index, shares) entryMember
    refine ⟨chunk, slot, replies, exited, settled, ?_, ?_⟩
    · rw [← (exitsToProcess_spec found settled).1]
      exact List.mem_map_of_mem entryMember
    · rw [earlierValidators_eq found settled split hashable same, List.forall_mem_map]
      exact clean

theorem mem_processExits {settings : ExitSettings} {curve : Curve G} {call : ExitsCall}
    {exit : VoluntaryExit} :
    exit ∈ (processExits settings curve call).submitted ↔
      TurnComes settings curve call exit.validatorIndex ∧
        call.exitSignatureRecoverThreshold ≤
          (entriesFor settings call exit.validatorIndex).length ∧
        exit.signatures = sharesByIndex (entriesFor settings call exit.validatorIndex) ∧
        reconstructSharedBlsSignature curve exit.signatures = .ok exit.exitSignature := by
  cases found : exitsToProcess settings call with
  | error error =>
      have never : ¬TurnComes settings curve call exit.validatorIndex := by
        rintro ⟨chunk, slot, replies, exited, settled, -⟩
        obtain ⟨exits, reached⟩ := (exitsToProcess_iff settings call).mpr
          ⟨chunk, slot, replies, exited, settled⟩
        rw [found] at reached
        cases reached
      simp [processExits, found, never]
  | ok exits =>
      obtain ⟨-, slot, replies, exited, settled⟩ :=
        (exitsToProcess_iff settings call).mp ⟨exits, found⟩
      have shares := (exitsToProcess_spec found settled).2
      simp only [processExits, found, mem_submitted, turnComes_iff found]
      constructor
      · rintro ⟨before, index, own, after, split, clean, enough, signature, rebuilt, rfl⟩
        have ownEq : own = entriesFor settings call index :=
          (shares (index, own) (by simp [split])).2
        subst ownEq
        refine ⟨⟨before, _, after, split, ?_⟩, enough, rfl, rebuilt⟩
        intro entry member
        have clean := clean entry member
        rw [(shares entry (by simp [split, member])).2] at clean
        exact clean
      · rintro ⟨⟨before, own, after, split, clean⟩, enough, same, rebuilt⟩
        have ownEq : own = entriesFor settings call exit.validatorIndex :=
          (shares (exit.validatorIndex, own) (by simp [split])).2
        subst ownEq
        refine ⟨before, exit.validatorIndex, _, after, split, ?_, enough, exit.exitSignature,
          same ▸ rebuilt, ?_⟩
        · intro entry member
          rw [(shares entry (by simp [split, member])).2]
          exact clean entry member
        · rw [← same]

/-- The exits are those of quorums exactly where no validator gets past the threshold
on entries that one oracle repeats. -/
theorem submitsQuorums_iff (settings : ExitSettings) (curve : Curve G) (call : ExitsCall) :
    SubmitsQuorums settings curve call ↔
      ∀ index, TurnComes settings curve call index →
        (∀ share ∈ (sharesByIndex (entriesFor settings call index)).entries,
          ∃ point, curve.signatureToG2 share.2 = .ok point) →
        call.exitSignatureRecoverThreshold ≤ (entriesFor settings call index).length →
        call.exitSignatureRecoverThreshold ≤
          ((entriesFor settings call index).map ValidatorExitShare.shareIndex).dedup.length := by
  constructor
  · intro quorums index turn decodes enough
    obtain ⟨signature, rebuilt⟩ := (reconstruct_ok_iff curve _).mpr decodes
    have submitted : ⟨index, sharesByIndex (entriesFor settings call index), signature⟩ ∈
        (processExits settings curve call).submitted :=
      mem_processExits.mpr ⟨turn, enough, rfl, rebuilt⟩
    have size := (quorums _ submitted).2
    rwa [sharesByIndex_size] at size
  · intro distinct exit submitted
    obtain ⟨turn, enough, same, rebuilt⟩ := mem_processExits.mp submitted
    refine ⟨rebuilt, ?_⟩
    rw [same, sharesByIndex_size]
    refine distinct exit.validatorIndex turn ?_ enough
    rw [← same]
    exact (reconstruct_ok_iff curve _).mp ⟨_, rebuilt⟩

def infinitySignature : Bytes := 0xc0 :: List.replicate 95 0

def infinityCurve : Curve Unit where
  order := 52435875175126190479447740508185965837690552500527637822603658699938581184513
  zero := ()
  add _ _ := ()
  multiply _ _ := ()
  primeFieldInv _ _ := 1
  signatureToG2 signature :=
    if signature = infinitySignature then .ok () else .error (.valueError "")
  g2ToSignature _ := infinitySignature

/-- One oracle that lists a validator twice gets past a threshold of two. -/
theorem exit_of_one_oracle :
    let settings : ExitSettings :=
      { exitedStatuses := ["active_exiting"], validatorsFetchChunkSize := 100
        reader := { isFloat := fun _ => false, toBytes := fun _ => .ok infinitySignature } }
    let entry : Json := .obj [("index", .int 7),
      ("exit_signature_share", .str ("0xc0" ++ String.ofList (List.replicate 190 '0')))]
    let call : ExitsCall :=
      { chainHead := .ok 1000, exitSignatureRecoverThreshold := 2
        answers := [⟨⟨"0x01", .ofDigit '1' rfl⟩, [⟨"https://oracle", .ok (.arr [entry, entry])⟩]⟩]
        validatorsByIds := fun _ _ => .ok [⟨"active_ongoing", .ok 7⟩]
        submitVoluntaryExit := fun _ _ => .submitted }
    ¬SubmitsQuorums settings infinityCurve call := by
  intro settings entry call quorums
  have quorum := (quorums ⟨.int 7, sharesByIndex [⟨.int 7, infinitySignature, 0⟩],
    infinitySignature⟩ (List.mem_singleton.mpr rfl)).2
  exact absurd quorum (by decide)

end V3Keeper
