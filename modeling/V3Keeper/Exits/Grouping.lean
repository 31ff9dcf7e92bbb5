import V3Keeper.Exits.Service

/-!
How `process_exits` groups the shares of the oracles by validator, and which validators
are left when the exiting ones are removed.
-/

namespace V3Keeper

open Python

def listedShares (shares : List ValidatorExitShare) (index : Json) : List ValidatorExitShare :=
  shares.filter fun share => index == share.validatorIndex

def nameIndex (named : List Json) (share : ValidatorExitShare) : List Json :=
  if named.any (· == share.validatorIndex) then named else named ++ [share.validatorIndex]

theorem groupShares_keys {exits result : ValidatorExits} {shares : List ValidatorExitShare}
    (grouped : groupShares exits shares = .ok result) :
    result.keys = shares.foldl nameIndex exits.keys := by
  induction shares generalizing exits with
  | nil => rw [← Except.ok.inj grouped, List.foldl_nil]
  | cons share rest ih =>
      rw [groupShares] at grouped
      split at grouped
      case isTrue =>
        rw [ih grouped, List.foldl_cons, appendShare, PyDict.keys_set, nameIndex]
      case isFalse => cases grouped

structure Grouped (exits : ValidatorExits) (seen : List ValidatorExitShare) : Prop where
  hashable : ∀ entry ∈ exits.entries, entry.1.hashable = true
  seenHashable : ∀ share ∈ seen, share.validatorIndex.hashable = true
  shares : ∀ entry ∈ exits.entries, entry.2 = listedShares seen entry.1
  covered : ∀ share ∈ seen, ∃ index ∈ exits.keys, (index == share.validatorIndex) = true

theorem Grouped.initial : Grouped PyDict.empty [] where
  hashable := by simp
  seenHashable := by simp
  shares := by simp
  covered := by simp

theorem Grouped.listed_nil {exits : ValidatorExits} {seen : List ValidatorExitShare}
    (grouped : Grouped exits seen) {index : Json} (hashable : index.hashable = true)
    (absent : exits.get? index = none) : listedShares seen index = [] := by
  rw [listedShares, List.filter_eq_nil_iff]
  intro share member same
  obtain ⟨key, keyMember, keySame⟩ := grouped.covered share member
  obtain ⟨entry, entryMember, rfl⟩ := List.mem_map.mp keyMember
  have keyHashable := grouped.hashable entry entryMember
  have shareHashable := grouped.seenHashable share member
  rw [Json.beq_comm_of_hashable hashable shareHashable] at same
  rw [Json.beq_comm_of_hashable keyHashable shareHashable,
    Json.beq_congr_of_hashable shareHashable hashable keyHashable same,
    Json.beq_comm_of_hashable hashable keyHashable] at keySame
  rw [PyDict.get?, Option.map_eq_none_iff, List.find?_eq_none] at absent
  exact absent entry entryMember keySame

theorem Grouped.append {exits : ValidatorExits} {seen : List ValidatorExitShare}
    (grouped : Grouped exits seen) {share : ValidatorExitShare}
    (hashable : share.validatorIndex.hashable = true) :
    Grouped (appendShare exits share) (seen ++ [share]) := by
  have listed : ∀ index, listedShares (seen ++ [share]) index =
      listedShares seen index ++ if index == share.validatorIndex then [share] else [] := by
    intro index
    simp only [listedShares, List.filter_append, List.filter_singleton, cond_eq_ite]
  constructor
  · intro entry member
    rcases PyDict.mem_set_cases member with ⟨old, -⟩ | ⟨-, rfl⟩ | ⟨old, oldMember, -, -, rfl⟩
    · exact grouped.hashable entry old
    · exact hashable
    · exact grouped.hashable old oldMember
  · intro other member
    rcases List.mem_append.mp member with old | new
    · exact grouped.seenHashable other old
    · rw [List.mem_singleton.mp new]
      exact hashable
  · intro entry member
    rw [listed]
    rcases PyDict.mem_set_cases member with
      ⟨old, other⟩ | ⟨absent, rfl⟩ | ⟨old, oldMember, same, found, rfl⟩
    · have different : (entry.1 == share.validatorIndex) = false := by
        rcases other with different | ⟨found, foundMember, foundSame, apart⟩
        · exact different
        · rw [Json.beq_congr_of_hashable (grouped.hashable found foundMember) hashable
            (grouped.hashable entry old) foundSame] at apart
          rw [Json.beq_comm_of_hashable (grouped.hashable entry old) hashable, apart]
      rw [different, if_neg (by simp), List.append_nil]
      exact grouped.shares entry old
    · rw [absent, grouped.listed_nil hashable absent, if_pos (Json.beq_self_of_hashable hashable)]
      rfl
    · rw [found, if_pos same, ← grouped.shares old oldMember]
      rfl
  · intro other member
    rcases List.mem_append.mp member with old | new
    · obtain ⟨index, indexMember, same⟩ := grouped.covered other old
      exact ⟨index, PyDict.mem_keys_set indexMember _ _, same⟩
    · rw [List.mem_singleton.mp new]
      obtain ⟨entry, entryMember, key, -⟩ := PyDict.exists_mem_set exits share.validatorIndex
        ((exits.get? share.validatorIndex).getD [] ++ [share])
      refine ⟨entry.1, List.mem_map_of_mem entryMember, ?_⟩
      rcases key with same | same
      · rw [same]
        exact Json.beq_self_of_hashable hashable
      · exact same

theorem groupShares_iff {exits : ValidatorExits} {seen : List ValidatorExitShare}
    (grouped : Grouped exits seen) (shares : List ValidatorExitShare) :
    ((∀ share ∈ shares, share.validatorIndex.hashable = true) ↔
        ∃ result, groupShares exits shares = .ok result) ∧
      ∀ result, groupShares exits shares = .ok result → Grouped result (seen ++ shares) := by
  induction shares generalizing exits seen with
  | nil =>
      refine ⟨by simp [groupShares], fun result found => ?_⟩
      rw [List.append_nil, ← Except.ok.inj found]
      exact grouped
  | cons share rest ih =>
      rw [List.forall_mem_cons, groupShares]
      by_cases hashable : share.validatorIndex.hashable = true
      · obtain ⟨exists_iff, spec⟩ := ih (grouped.append hashable)
        rw [if_pos hashable]
        refine ⟨by simpa [hashable] using exists_iff, fun result found => ?_⟩
        rw [← List.singleton_append, ← List.append_assoc]
        exact spec result found
      · simp [hashable]

def exitedIndexes (settings : ExitSettings) (validators : List ConsensusValidator) :
    List (Except PyError Int) :=
  (validators.filter fun validator => settings.exitedStatuses.contains validator.status).map
    ConsensusValidator.index

theorem erase_int_entries {exits : ValidatorExits}
    (hashable : ∀ entry ∈ exits.entries, entry.1.hashable = true) (index : Int) :
    (exits.erase (.int index)).entries =
      exits.entries.filter fun entry => !(entry.1 == Json.int index) := by
  apply PyDict.erase_entries_of
  intro first firstMember second secondMember firstSame secondSame
  rw [Json.beq_congr_of_hashable (hashable first firstMember) rfl (hashable second secondMember)
    firstSame, Json.beq_comm_of_hashable rfl (hashable second secondMember), secondSame]

theorem get?_isSome {exits : ValidatorExits} {index : Json} :
    exits.get? index ≠ none ↔ ∃ key ∈ exits.keys, (key == index) = true := by
  simp [PyDict.get?, PyDict.keys]

theorem takeWhile_keys {exits : ValidatorExits}
    (hashable : ∀ entry ∈ exits.entries, entry.1.hashable = true)
    {before after : List (Json × List ValidatorExitShare)} {entry : Json × List ValidatorExitShare}
    (split : exits.entries = before ++ entry :: after) {index : Json}
    (indexHashable : index.hashable = true) (same : (entry.1 == index) = true) :
    exits.keys.takeWhile (fun other => !(other == index)) = before.map Prod.fst := by
  have entryHashable := hashable entry (by simp [split])
  have distinct := exits.distinct
  rw [split, List.pairwise_append] at distinct
  have others : ∀ key ∈ before.map Prod.fst, (!(key == index)) = true := by
    intro key member
    obtain ⟨earlier, earlierMember, rfl⟩ := List.mem_map.mp member
    have earlierHashable := hashable earlier (by simp [split, earlierMember])
    have apart := distinct.2.2 earlier earlierMember entry List.mem_cons_self
    rw [Json.beq_comm_of_hashable earlierHashable entryHashable,
      Json.beq_congr_of_hashable entryHashable indexHashable earlierHashable same,
      Json.beq_comm_of_hashable indexHashable earlierHashable] at apart
    rw [apart, Bool.not_false]
  rw [PyDict.keys, split, List.map_append, List.takeWhile_append_of_pos others, List.map_cons,
    List.takeWhile_cons_of_neg (by simp [same]), List.append_nil]

structure Removable (exits : ValidatorExits) (exited : List Int) : Prop where
  once : exited.Nodup
  known : ∀ index ∈ exited, ∃ key ∈ exits.keys, (key == Json.int index) = true

def withoutExited (exits : ValidatorExits) (exited : List Int) :
    List (Json × List ValidatorExitShare) :=
  exits.entries.filter fun entry => exited.all fun index => !(entry.1 == Json.int index)

theorem withoutExited_keys (exits : ValidatorExits) (exited : List Int) :
    (withoutExited exits exited).map Prod.fst =
      exits.keys.filter fun index => exited.all fun other => !(index == Json.int other) := by
  rw [withoutExited, PyDict.keys, List.filter_map]
  rfl

theorem removable_cons {exits : ValidatorExits}
    (hashable : ∀ entry ∈ exits.entries, entry.1.hashable = true) (index : Int) (rest : List Int) :
    Removable exits (index :: rest) ↔
      exits.get? (.int index) ≠ none ∧ Removable (exits.erase (.int index)) rest := by
  have keys : ∀ other : Int,
      (∃ key ∈ (exits.erase (.int index)).keys, (key == Json.int other) = true) ↔
        other ≠ index ∧ ∃ key ∈ exits.keys, (key == Json.int other) = true := by
    intro other
    constructor
    · rintro ⟨key, member, same⟩
      rw [PyDict.keys, erase_int_entries hashable] at member
      obtain ⟨entry, kept, rfl⟩ := List.mem_map.mp member
      obtain ⟨old, apart⟩ := List.mem_filter.mp kept
      refine ⟨fun equal => ?_, entry.1, List.mem_map_of_mem old, same⟩
      rw [← equal, same] at apart
      simp at apart
    · rintro ⟨different, key, member, same⟩
      obtain ⟨entry, entryMember, rfl⟩ := List.mem_map.mp member
      refine ⟨entry.1, ?_, same⟩
      rw [PyDict.keys, erase_int_entries hashable]
      refine List.mem_map_of_mem (List.mem_filter.mpr ⟨entryMember, ?_⟩)
      rw [Json.beq_congr_of_hashable (hashable entry entryMember) rfl rfl same, Json.beq_int_int]
      simpa using different
  constructor
  · rintro ⟨once, known⟩
    obtain ⟨fresh, restOnce⟩ := List.nodup_cons.mp once
    refine ⟨get?_isSome.mpr (known index List.mem_cons_self), restOnce, fun other member => ?_⟩
    exact (keys other).mpr ⟨fun same => fresh (same ▸ member),
      known other (List.mem_cons_of_mem _ member)⟩
  · rintro ⟨present, once, known⟩
    refine ⟨List.nodup_cons.mpr ⟨fun member => ((keys index).mp (known index member)).1 rfl, once⟩,
      fun other member => ?_⟩
    rcases List.mem_cons.mp member with rfl | later
    · exact get?_isSome.mp present
    · exact ((keys other).mp (known other later)).2

theorem exitedIndexes_exiting {settings : ExitSettings} {validator : ConsensusValidator}
    (exiting : settings.exitedStatuses.contains validator.status = true)
    (rest : List ConsensusValidator) :
    exitedIndexes settings (validator :: rest) =
      validator.index :: exitedIndexes settings rest := by
  simp only [exitedIndexes, List.filter_cons, exiting, if_true, List.map_cons]

theorem exitedIndexes_other {settings : ExitSettings} {validator : ConsensusValidator}
    (other : ¬settings.exitedStatuses.contains validator.status = true)
    (rest : List ConsensusValidator) :
    exitedIndexes settings (validator :: rest) = exitedIndexes settings rest := by
  simp only [exitedIndexes, List.filter_cons, other, Bool.false_eq_true, if_false]

theorem removeExited_iff (settings : ExitSettings) {exits : ValidatorExits}
    (hashable : ∀ entry ∈ exits.entries, entry.1.hashable = true)
    (validators : List ConsensusValidator) :
    (∃ result, removeExited settings exits validators = .ok result) ↔
      ∃ exited, exitedIndexes settings validators = exited.map .ok ∧ Removable exits exited := by
  induction validators generalizing exits with
  | nil => exact iff_of_true ⟨exits, rfl⟩ ⟨[], rfl, List.nodup_nil, by simp⟩
  | cons validator rest ih =>
      by_cases exiting : settings.exitedStatuses.contains validator.status = true
      · rw [exitedIndexes_exiting exiting, removeExited, if_pos exiting]
        cases indexed : validator.index with
        | error error =>
            refine iff_of_false (by simp) ?_
            rintro ⟨exited, same, -⟩
            cases exited <;> simp at same
        | ok index =>
            simp only [ok_cons_eq_map]
            cases present : exits.get? (.int index) with
            | none =>
                refine iff_of_false (by simp) ?_
                rintro ⟨_, ⟨others, rfl, -⟩, removable⟩
                exact ((removable_cons hashable index others).mp removable).1 present
            | some shares =>
                have erasedHashable :
                    ∀ entry ∈ (exits.erase (.int index)).entries, entry.1.hashable = true :=
                  fun entry member => hashable entry (PyDict.mem_erase member)
                dsimp only
                rw [ih erasedHashable]
                constructor
                · rintro ⟨others, same, removable⟩
                  exact ⟨index :: others, ⟨others, rfl, same⟩, (removable_cons hashable index
                    others).mpr ⟨by simp [present], removable⟩⟩
                · rintro ⟨_, ⟨others, rfl, same⟩, removable⟩
                  exact ⟨others, same, ((removable_cons hashable index others).mp removable).2⟩
      · rw [exitedIndexes_other exiting, removeExited, if_neg exiting]
        exact ih hashable

theorem removeExited_entries {settings : ExitSettings} {exits remaining : ValidatorExits}
    (hashable : ∀ entry ∈ exits.entries, entry.1.hashable = true)
    {validators : List ConsensusValidator} {exited : List Int}
    (indexed : exitedIndexes settings validators = exited.map .ok)
    (removed : removeExited settings exits validators = .ok remaining) :
    remaining.entries = withoutExited exits exited := by
  induction validators generalizing exits exited with
  | nil =>
      have empty : exited = [] := by simpa [exitedIndexes] using indexed.symm
      rw [← Except.ok.inj removed, empty]
      simp [withoutExited]
  | cons validator rest ih =>
      by_cases exiting : settings.exitedStatuses.contains validator.status = true
      · rw [exitedIndexes_exiting exiting] at indexed
        rw [removeExited, if_pos exiting] at removed
        cases index : validator.index with
        | error error => simp [index] at removed
        | ok index =>
            rw [index, ok_cons_eq_map] at indexed
            obtain ⟨others, rfl, same⟩ := indexed
            simp only [index] at removed
            split at removed
            case h_1 => cases removed
            case h_2 =>
              rw [ih (fun entry member => hashable entry (PyDict.mem_erase member)) same removed,
                withoutExited, withoutExited, erase_int_entries hashable, List.filter_filter]
              refine List.filter_congr fun entry _ => ?_
              rw [List.all_cons, Bool.and_comm]
      · rw [exitedIndexes_other exiting] at indexed
        rw [removeExited, if_neg exiting] at removed
        exact ih hashable indexed removed

theorem removeExited_append (settings : ExitSettings) (exits : ValidatorExits)
    (first second : List ConsensusValidator) :
    removeExited settings exits (first ++ second) =
      match removeExited settings exits first with
      | .error error => .error error
      | .ok remaining => removeExited settings remaining second := by
  induction first generalizing exits with
  | nil => rfl
  | cons validator rest ih =>
      rw [List.cons_append, removeExited, removeExited]
      split
      · split
        · rfl
        · split
          · rfl
          · exact ih _
      · exact ih _

theorem removeExitedBatches_ok {settings : ExitSettings} {call : ExitsCall} {slot : Nat}
    {exits remaining : ValidatorExits} {batches : List (List String)} :
    removeExitedBatches settings call slot exits batches = .ok remaining ↔
      ∃ replies : List (List ConsensusValidator),
        batches.map (call.validatorsByIds slot) = replies.map .ok ∧
          removeExited settings exits replies.flatten = .ok remaining := by
  induction batches generalizing exits with
  | nil =>
      constructor
      · intro same
        exact ⟨[], rfl, same⟩
      · rintro ⟨replies, none, same⟩
        cases replies with
        | nil => exact same
        | cons => cases none
  | cons batch rest ih =>
      rw [removeExitedBatches, List.map_cons]
      cases fetched : call.validatorsByIds slot batch with
      | error error =>
          refine iff_of_false (by simp) ?_
          rintro ⟨replies, same, -⟩
          cases replies <;> simp at same
      | ok validators =>
          have shape : (∃ replies : List (List ConsensusValidator),
                .ok validators :: rest.map (call.validatorsByIds slot) = replies.map .ok ∧
                  removeExited settings exits replies.flatten = .ok remaining) ↔
              ∃ replies : List (List ConsensusValidator),
                rest.map (call.validatorsByIds slot) = replies.map .ok ∧
                  removeExited settings exits (validators ++ replies.flatten) = .ok remaining := by
            simp only [ok_cons_eq_map]
            constructor
            · rintro ⟨_, ⟨others, rfl, same⟩, removed⟩
              exact ⟨others, same, removed⟩
            · rintro ⟨others, same, removed⟩
              exact ⟨_, ⟨others, rfl, same⟩, removed⟩
          rw [shape]
          simp only [removeExited_append]
          cases removeExited settings exits validators with
          | error error => simp
          | ok kept => exact ih

end V3Keeper
