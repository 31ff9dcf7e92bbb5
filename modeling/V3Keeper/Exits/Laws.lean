import V3Keeper.Exits.Grouping

/-!
Which exits `process_exits` submits: what its loop over the validators goes through, and
how far it gets.
-/

namespace V3Keeper

open Python

variable {G : Type*}

/-- The loop does not get past a validator: it has enough shares, and they do not
decode or submitting its exit raises. -/
def AbortsAt (curve : Curve G) (call : ExitsCall) (index : Json)
    (shares : List ValidatorExitShare) : Prop :=
  call.exitSignatureRecoverThreshold ≤ shares.length ∧
    ∀ signature, reconstructSharedBlsSignature curve (sharesByIndex shares) = .ok signature →
      ∃ error, call.submitVoluntaryExit index signature = .raised error

theorem mem_submitted (curve : Curve G) (call : ExitsCall)
    (entries : List (Json × List ValidatorExitShare)) (exit : VoluntaryExit) :
    exit ∈ (submitExits curve call entries).submitted ↔
      ∃ before index shares after, entries = before ++ (index, shares) :: after ∧
        (∀ entry ∈ before, ¬AbortsAt curve call entry.1 entry.2) ∧
        call.exitSignatureRecoverThreshold ≤ shares.length ∧
        ∃ signature, reconstructSharedBlsSignature curve (sharesByIndex shares) = .ok signature ∧
          exit = ⟨index, sharesByIndex shares, signature⟩ := by
  induction entries with
  | nil => simp [submitExits]
  | cons entry rest ih =>
      obtain ⟨index, shares⟩ := entry
      -- either the exit is that of the first validator, or the loop goes on behind it
      have split : (∃ before other otherShares after,
            (index, shares) :: rest = before ++ (other, otherShares) :: after ∧
            (∀ entry ∈ before, ¬AbortsAt curve call entry.1 entry.2) ∧
            call.exitSignatureRecoverThreshold ≤ otherShares.length ∧
            ∃ signature,
              reconstructSharedBlsSignature curve (sharesByIndex otherShares) = .ok signature ∧
                exit = ⟨other, sharesByIndex otherShares, signature⟩) ↔
          (call.exitSignatureRecoverThreshold ≤ shares.length ∧
            ∃ signature,
              reconstructSharedBlsSignature curve (sharesByIndex shares) = .ok signature ∧
              exit = ⟨index, sharesByIndex shares, signature⟩) ∨
          (¬AbortsAt curve call index shares ∧
            exit ∈ (submitExits curve call rest).submitted) := by
        rw [ih]
        constructor
        · rintro ⟨before, other, otherShares, after, same, clean, enough, rebuilt⟩
          cases before with
          | nil =>
              cases same
              exact Or.inl ⟨enough, rebuilt⟩
          | cons first others =>
              cases same
              rw [List.forall_mem_cons] at clean
              exact Or.inr ⟨clean.1, others, other, otherShares, after, rfl, clean.2, enough,
                rebuilt⟩
        · rintro (⟨enough, rebuilt⟩ | ⟨first, before, other, otherShares, after, rfl, clean, rest⟩)
          · exact ⟨[], index, shares, rest, rfl, by simp, enough, rebuilt⟩
          · exact ⟨(index, shares) :: before, other, otherShares, after, rfl,
              List.forall_mem_cons.mpr ⟨first, clean⟩, rest⟩
      rw [split, submitExits]
      by_cases few : shares.length < call.exitSignatureRecoverThreshold
      · simp [few, AbortsAt, Nat.not_le.mpr few]
      · rw [if_neg few]
        have enough := Nat.not_lt.mp few
        cases rebuilt : reconstructSharedBlsSignature curve (sharesByIndex shares) with
        | error error => simp [AbortsAt, enough, rebuilt]
        | ok signature =>
            cases outcome : call.submitVoluntaryExit index signature with
            | raised error => simp [AbortsAt, enough, rebuilt, outcome]
            | submitted => simp [AbortsAt, enough, rebuilt, outcome]
            | clientResponseError => simp [AbortsAt, enough, rebuilt, outcome]

theorem sharesByIndex_concat (shares : List ValidatorExitShare) (share : ValidatorExitShare) :
    sharesByIndex (shares ++ [share]) =
      (sharesByIndex shares).set share.shareIndex share.exitSignatureShare := by
  simp [sharesByIndex]

theorem mem_sharesByIndex_keys {shares : List ValidatorExitShare} {index : Nat} :
    index ∈ (sharesByIndex shares).keys ↔ index ∈ shares.map ValidatorExitShare.shareIndex := by
  induction shares using List.reverseRecOn with
  | nil => simp [sharesByIndex, PyDict.keys]
  | append_singleton shares share ih =>
      rw [sharesByIndex_concat, List.map_append, List.mem_append, ← ih, List.map_singleton,
        List.mem_singleton, PyDict.keys, List.mem_map, PyDict.keys, List.mem_map]
      simp only [PyDict.mem_set]
      constructor
      · rintro ⟨entry, ⟨old, -⟩ | rfl, rfl⟩
        · exact Or.inl ⟨entry, old, rfl⟩
        · exact Or.inr rfl
      · rintro (⟨entry, old, rfl⟩ | rfl)
        · by_cases same : entry.1 = share.shareIndex
          · exact ⟨_, Or.inr rfl, same.symm⟩
          · exact ⟨entry, Or.inl ⟨old, same⟩, rfl⟩
        · exact ⟨_, Or.inr rfl, rfl⟩

theorem sharesByIndex_size (shares : List ValidatorExitShare) :
    (sharesByIndex shares).size = (shares.map ValidatorExitShare.shareIndex).dedup.length := by
  have same : (sharesByIndex shares).keys.Perm
      (shares.map ValidatorExitShare.shareIndex).dedup := by
    rw [List.perm_ext_iff_of_nodup (PyDict.nodup_keys _) (List.nodup_dedup _)]
    intro index
    rw [mem_sharesByIndex_keys, List.mem_dedup]
  rw [← same.length_eq, PyDict.keys, List.length_map, PyDict.size]

theorem mem_sharesByIndex {shares : List ValidatorExitShare} {entry : Nat × Bytes}
    (member : entry ∈ (sharesByIndex shares).entries) :
    ∃ share ∈ shares, share.exitSignatureShare = entry.2 := by
  induction shares using List.reverseRecOn with
  | nil => simp [sharesByIndex] at member
  | append_singleton shares share ih =>
      rw [sharesByIndex_concat, PyDict.mem_set] at member
      rcases member with ⟨old, -⟩ | rfl
      · obtain ⟨other, otherMember, same⟩ := ih old
        exact ⟨other, List.mem_append_left _ otherMember, same⟩
      · exact ⟨share, by simp, rfl⟩

def callShares (settings : ExitSettings) (call : ExitsCall) : List ValidatorExitShare :=
  fetchExitShares settings.reader call.answers

def listedValidators (settings : ExitSettings) (call : ExitsCall) : List Json :=
  (callShares settings call).foldl nameIndex []

def statusBatches (settings : ExitSettings) (call : ExitsCall) : List (List String) :=
  Batched.batched settings.validatorsFetchChunkSize.toNat
    ((listedValidators settings call).map (Json.text settings.reader))

/-- The statuses come in, and every exiting validator among them is listed by an integer
and reported once. -/
structure StatusesSettled (settings : ExitSettings) (call : ExitsCall) (slot : Nat)
    (replies : List (List ConsensusValidator)) (exited : List Int) : Prop where
  chainHead : call.chainHead = .ok slot
  hashable : ∀ share ∈ callShares settings call, share.validatorIndex.hashable = true
  fetched : (statusBatches settings call).map (call.validatorsByIds slot) = replies.map .ok
  indexed : exitedIndexes settings replies.flatten = exited.map .ok
  once : exited.Nodup
  known : ∀ index ∈ exited, ∃ listed ∈ listedValidators settings call,
    (listed == Json.int index) = true

def remainingValidators (settings : ExitSettings) (call : ExitsCall) (exited : List Int) :
    List Json :=
  (listedValidators settings call).filter fun index =>
    exited.all fun other => !(index == Json.int other)

def earlierValidators (settings : ExitSettings) (call : ExitsCall) (exited : List Int)
    (index : Json) : List Json :=
  (remainingValidators settings call exited).takeWhile fun other => !(other == index)

theorem callShares_grouped {settings : ExitSettings} {call : ExitsCall} {grouped : ValidatorExits}
    (found : groupShares PyDict.empty (callShares settings call) = .ok grouped) :
    Grouped grouped (callShares settings call) ∧
      grouped.keys = listedValidators settings call :=
  ⟨(groupShares_iff Grouped.initial (callShares settings call)).2 grouped found,
    groupShares_keys found⟩

theorem callShares_hashable_iff (settings : ExitSettings) (call : ExitsCall) :
    (∀ share ∈ callShares settings call, share.validatorIndex.hashable = true) ↔
      ∃ grouped, groupShares PyDict.empty (callShares settings call) = .ok grouped :=
  (groupShares_iff Grouped.initial (callShares settings call)).1

theorem exitsToProcess_ok {settings : ExitSettings} {call : ExitsCall} {exits : ValidatorExits} :
    exitsToProcess settings call = .ok exits ↔
      ∃ (slot : Nat) (grouped : ValidatorExits) (replies : List (List ConsensusValidator)),
        call.chainHead = .ok slot ∧
        groupShares PyDict.empty (callShares settings call) = .ok grouped ∧
        1 ≤ settings.validatorsFetchChunkSize ∧
        (statusBatches settings call).map (call.validatorsByIds slot) = replies.map .ok ∧
        removeExited settings grouped replies.flatten = .ok exits := by
  constructor
  · intro found
    unfold exitsToProcess at found
    split at found
    case h_1 => cases found
    case h_2 slot chainHead =>
      split at found
      case h_1 => cases found
      case h_2 grouped groupedEq =>
        split at found
        case isTrue => cases found
        case isFalse chunk =>
          obtain ⟨replies, fetched, removed⟩ := removeExitedBatches_ok.mp found
          refine ⟨slot, grouped, replies, chainHead, groupedEq, not_lt.mp chunk, ?_, removed⟩
          rw [statusBatches, ← (callShares_grouped groupedEq).2]
          exact fetched
  · rintro ⟨slot, grouped, replies, chainHead, groupedEq, chunk, fetched, removed⟩
    rw [statusBatches, ← (callShares_grouped groupedEq).2] at fetched
    rw [callShares] at groupedEq
    simp only [exitsToProcess, chainHead, groupedEq, not_lt.mpr chunk, if_false]
    exact removeExitedBatches_ok.mpr ⟨replies, fetched, removed⟩

theorem exitsToProcess_iff (settings : ExitSettings) (call : ExitsCall) :
    (∃ exits, exitsToProcess settings call = .ok exits) ↔
      1 ≤ settings.validatorsFetchChunkSize ∧
        ∃ slot replies exited, StatusesSettled settings call slot replies exited := by
  constructor
  · rintro ⟨exits, found⟩
    obtain ⟨slot, grouped, replies, chainHead, groupedEq, chunk, fetched, removed⟩ :=
      exitsToProcess_ok.mp found
    obtain ⟨isGrouped, keys⟩ := callShares_grouped groupedEq
    obtain ⟨exited, indexed, once, known⟩ :=
      (removeExited_iff settings isGrouped.hashable replies.flatten).mp ⟨exits, removed⟩
    exact ⟨chunk, slot, replies, exited, chainHead, isGrouped.seenHashable, fetched, indexed, once,
      keys ▸ known⟩
  · rintro ⟨chunk, slot, replies, exited, settled⟩
    obtain ⟨grouped, groupedEq⟩ := (callShares_hashable_iff settings call).mp settled.hashable
    obtain ⟨isGrouped, keys⟩ := callShares_grouped groupedEq
    have removable : Removable grouped exited := ⟨settled.once, keys ▸ settled.known⟩
    obtain ⟨exits, removed⟩ := (removeExited_iff settings isGrouped.hashable replies.flatten).mpr
      ⟨exited, settled.indexed, removable⟩
    exact ⟨exits, exitsToProcess_ok.mpr ⟨slot, grouped, replies, settled.chainHead, groupedEq,
      chunk, settled.fetched, removed⟩⟩

theorem exitsToProcess_spec {settings : ExitSettings} {call : ExitsCall} {exits : ValidatorExits}
    (found : exitsToProcess settings call = .ok exits) {slot : Nat}
    {replies : List (List ConsensusValidator)} {exited : List Int}
    (settled : StatusesSettled settings call slot replies exited) :
    exits.keys = remainingValidators settings call exited ∧
      ∀ entry ∈ exits.entries, entry.1.hashable = true ∧
        entry.2 = listedShares (callShares settings call) entry.1 := by
  obtain ⟨ownSlot, grouped, ownReplies, chainHead, groupedEq, -, fetched, removed⟩ :=
    exitsToProcess_ok.mp found
  rw [settled.chainHead, Except.ok.injEq] at chainHead
  subst chainHead
  have injective : Function.Injective
      (Except.ok : List ConsensusValidator → Except PyError (List ConsensusValidator)) :=
    fun _ _ same => Except.ok.inj same
  have sameReplies : replies = ownReplies :=
    injective.list_map (settled.fetched.symm.trans fetched)
  subst sameReplies
  obtain ⟨isGrouped, keys⟩ := callShares_grouped groupedEq
  have entries := removeExited_entries isGrouped.hashable settled.indexed removed
  constructor
  · rw [PyDict.keys, entries, withoutExited_keys, keys, remainingValidators]
  · intro entry member
    rw [entries, withoutExited] at member
    have old := (List.mem_filter.mp member).1
    exact ⟨isGrouped.hashable entry old, isGrouped.shares entry old⟩

theorem earlierValidators_eq {settings : ExitSettings} {call : ExitsCall} {exits : ValidatorExits}
    (found : exitsToProcess settings call = .ok exits) {slot : Nat}
    {replies : List (List ConsensusValidator)} {exited : List Int}
    (settled : StatusesSettled settings call slot replies exited)
    {before after : List (Json × List ValidatorExitShare)} {entry : Json × List ValidatorExitShare}
    (split : exits.entries = before ++ entry :: after) {index : Json}
    (hashable : index.hashable = true) (same : (entry.1 == index) = true) :
    earlierValidators settings call exited index = before.map Prod.fst := by
  obtain ⟨keys, spec⟩ := exitsToProcess_spec found settled
  rw [earlierValidators, ← keys]
  exact takeWhile_keys (fun entry member => (spec entry member).1) split hashable same

end V3Keeper
