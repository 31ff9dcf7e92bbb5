import V3Keeper.Library.FirstSeen
import V3Keeper.Rewards.Winner

/-!
What `rewards()` returns after any batches of votes: the groups of the newest timestamps
among all of them. How the votes were cut into batches does not matter.
-/

namespace V3Keeper

open Python Newest FirstSeen

section Definitions

variable {τ ρ : Type*} [BEq τ] [BEq ρ]

namespace RewardsCache

def votesAt (cache : RewardsCache τ ρ) (timestamp : τ) : List (RewardVote τ ρ) :=
  ((cache.data.get? timestamp).map TimestampVotes.votes).getD []

def updateAll [PyOrder τ] (cache : RewardsCache τ ρ) :
    List (List (RewardVote τ ρ)) → Except PyError (RewardsCache τ ρ)
  | [] => .ok cache
  | batch :: rest =>
      match cache.update batch with
      | (.error error, _) => .error error
      | (.ok _, updated) => updated.updateAll rest

/-- `rewards()` after the batches, the first of which comes to an empty cache. -/
def rewardsAfter [PyOrder τ] (cacheSize : Nat) (batches : List (List (RewardVote τ ρ))) :
    Except PyError (List (TimestampVotes τ ρ)) :=
  match (new cacheSize).updateAll batches with
  | .error error => .error error
  | .ok cache => cache.rewards

end RewardsCache

variable [LinearOrder τ]

def votesWith (votes : List (RewardVote τ ρ)) (timestamp : τ) : List (RewardVote τ ρ) :=
  votes.filter fun vote => decide (vote.body.updateTimestamp = timestamp)

def timestamps (votes : List (RewardVote τ ρ)) : Finset τ :=
  (votes.map fun vote => vote.body.updateTimestamp).toFinset

/-- The votes without repetitions, grouped by timestamp, for the greatest timestamps. -/
def closedForm (cacheSize : Nat) (votes : List (RewardVote τ ρ)) :
    List (List (RewardVote τ ρ)) :=
  ((timestamps votes.eraseDups).sort.rtake cacheSize).map (votesWith votes.eraseDups)

end Definitions

section Storing

variable {τ ρ : Type*} [BEq τ] [LawfulBEq τ] [BEq ρ] [LawfulBEq ρ]

omit [LawfulBEq τ] [LawfulBEq ρ] in
theorem TimestampVotes.votes_injective :
    Function.Injective (votes : TimestampVotes τ ρ → List (RewardVote τ ρ)) := by
  rintro ⟨first, others, distinct⟩ ⟨_, _, _⟩ same
  obtain ⟨rfl, rfl⟩ := List.cons.inj same
  rfl

theorem TimestampVotes.votes_add (bucket : TimestampVotes τ ρ) (vote : RewardVote τ ρ) :
    (bucket.add vote).votes = (bucket.votes ++ [vote]).eraseDups := by
  rw [List.eraseDups_append, eraseDups_of_nodup bucket.votes_nodup, add]
  split
  case isTrue known => simp [List.removeAll, List.contains_iff_mem.mp known]
  case isFalse fresh =>
    have absent : vote ∉ bucket.votes := fun member => fresh (List.contains_iff_mem.mpr member)
    have new : [vote].removeAll bucket.votes = [vote] := by simp [List.removeAll, absent]
    rw [new]
    rfl

namespace RewardsCache

omit [LawfulBEq ρ] in
theorem votesAt_of_mem {cache : RewardsCache τ ρ} {entry : τ × TimestampVotes τ ρ}
    (member : entry ∈ cache.data.entries) : cache.votesAt entry.1 = entry.2.votes := by
  have found : cache.data.get? entry.1 = some entry.2 := PyDict.get?_eq_some.mpr member
  rw [votesAt, found]
  rfl

omit [LawfulBEq ρ] in
theorem votesAt_eq_nil {cache : RewardsCache τ ρ} {timestamp : τ} :
    cache.votesAt timestamp = [] ↔ timestamp ∉ cache.data.keys := by
  rw [← PyDict.get?_eq_none, votesAt]
  cases cache.data.get? timestamp with
  | none => simp
  | some bucket => simp [TimestampVotes.votes]

theorem votesAt_nodup (cache : RewardsCache τ ρ) (timestamp : τ) :
    (cache.votesAt timestamp).Nodup := by
  rw [votesAt]
  cases cache.data.get? timestamp with
  | none => exact List.nodup_nil
  | some bucket => exact bucket.votes_nodup

theorem votes_bucketWith (cache : RewardsCache τ ρ) (vote : RewardVote τ ρ) :
    (cache.bucketWith vote).votes =
      (cache.votesAt vote.body.updateTimestamp ++ [vote]).eraseDups := by
  rw [bucketWith, votesAt]
  cases cache.data.get? vote.body.updateTimestamp with
  | none => rfl
  | some bucket => exact bucket.votes_add vote

theorem votesAt_store [DecidableEq τ] (cache : RewardsCache τ ρ) (vote : RewardVote τ ρ)
    (timestamp : τ) :
    (cache.store vote).votesAt timestamp =
      if vote.body.updateTimestamp = timestamp then
        (cache.votesAt timestamp ++ [vote]).eraseDups
      else cache.votesAt timestamp := by
  have lookup : (cache.store vote).data.get? timestamp =
      if timestamp = vote.body.updateTimestamp then some (cache.bucketWith vote)
      else cache.data.get? timestamp := PyDict.get?_set _ _ _ _
  by_cases same : vote.body.updateTimestamp = timestamp
  · subst same
    rw [if_pos rfl, votesAt, lookup, if_pos rfl]
    exact votes_bucketWith cache vote
  · rw [if_neg same, votesAt, lookup, if_neg fun equal => same equal.symm]
    rfl

end RewardsCache

end Storing

section Groups

variable {τ ρ : Type*} [LinearOrder τ]

theorem mem_votesWith {votes : List (RewardVote τ ρ)} {timestamp : τ} {vote : RewardVote τ ρ} :
    vote ∈ votesWith votes timestamp ↔ vote ∈ votes ∧ vote.body.updateTimestamp = timestamp := by
  rw [votesWith, List.mem_filter, decide_eq_true_eq]

theorem mem_timestamps {votes : List (RewardVote τ ρ)} {timestamp : τ} :
    timestamp ∈ timestamps votes ↔ ∃ vote ∈ votes, vote.body.updateTimestamp = timestamp := by
  rw [timestamps, List.mem_toFinset, List.mem_map]

theorem timestamps_append (votes fresh : List (RewardVote τ ρ)) :
    timestamps (votes ++ fresh) = timestamps votes ∪ timestamps fresh := by
  rw [timestamps, List.map_append, List.toFinset_append]
  rfl

theorem votesWith_eq_nil {votes : List (RewardVote τ ρ)} {timestamp : τ} :
    votesWith votes timestamp = [] ↔ timestamp ∉ timestamps votes := by
  rw [List.eq_nil_iff_forall_not_mem, mem_timestamps]
  simp only [mem_votesWith, not_and, not_exists]

variable [BEq τ] [LawfulBEq τ] [BEq ρ] [LawfulBEq ρ]

theorem timestamps_eraseDups (votes : List (RewardVote τ ρ)) :
    timestamps votes.eraseDups = timestamps votes := by
  ext timestamp
  simp only [mem_timestamps, List.mem_eraseDups]

theorem votesWith_eraseDups (votes : List (RewardVote τ ρ)) (timestamp : τ) :
    (votesWith votes timestamp).eraseDups = votesWith votes.eraseDups timestamp :=
  eraseDups_filter _ votes

end Groups

section Plain

variable {τ ρ : Type*} [BEq τ] [LinearOrder τ] [PyOrder τ] [PlainOrder τ] [BEq ρ] [LawfulBEq ρ]

namespace RewardsCache

theorem votesAt_storeAll (cache : RewardsCache τ ρ) (fresh : List (RewardVote τ ρ))
    (timestamp : τ) :
    (cache.storeAll fresh).2.votesAt timestamp =
      (cache.votesAt timestamp ++ votesWith fresh timestamp).eraseDups := by
  induction fresh generalizing cache with
  | nil =>
      rw [votesWith, List.filter_nil, List.append_nil,
        eraseDups_of_nodup (cache.votesAt_nodup timestamp)]
      rfl
  | cons vote rest ih =>
      rw [storeAll, if_pos (PlainHash.hashable_eq _), ih, votesAt_store, votesWith, votesWith,
        List.filter_cons]
      by_cases same : vote.body.updateTimestamp = timestamp
      · rw [if_pos same, if_pos (decide_eq_true same), eraseDups_eraseDups_append,
          List.append_assoc]
        rfl
      · rw [if_neg same, if_neg (by simpa using same)]

omit [LawfulBEq ρ] in
theorem votesAt_evict (cache : RewardsCache τ ρ) {rounds : Nat}
    (enough : cache.data.size ≤ rounds + cache.cacheSize) (timestamp : τ) :
    (evict rounds cache).2.votesAt timestamp =
      if newer cache.data.keys.toFinset timestamp < cache.cacheSize then cache.votesAt timestamp
      else [] := by
  obtain ⟨-, -, entries⟩ := evict_spec cache enough
  rw [← above_eq_newer cache.data.nodup_keys]
  by_cases cached : timestamp ∈ cache.data.keys ∧
      above cache.data.keys timestamp < cache.cacheSize
  · obtain ⟨entry, member, rfl⟩ := List.mem_map.mp cached.1
    have kept : entry ∈ (evict rounds cache).2.data.entries := by
      rw [entries]
      exact List.mem_filter.mpr ⟨member, decide_eq_true cached.2⟩
    rw [if_pos cached.2, votesAt_of_mem kept, votesAt_of_mem member]
  · have dropped : (evict rounds cache).2.votesAt timestamp = [] := by
      rw [votesAt_eq_nil, PyDict.keys, entries]
      intro member
      obtain ⟨entry, kept, rfl⟩ := List.mem_map.mp member
      obtain ⟨inside, few⟩ := List.mem_filter.mp kept
      exact cached ⟨List.mem_map_of_mem inside, of_decide_eq_true few⟩
    rw [dropped]
    split
    case isTrue few => exact (votesAt_eq_nil.mpr fun member => cached ⟨member, few⟩).symm
    case isFalse => rfl

structure Reflects (cache : RewardsCache τ ρ) (cacheSize : Nat)
    (votes : List (RewardVote τ ρ)) : Prop where
  size : cache.cacheSize = cacheSize
  groups : ∀ timestamp, cache.votesAt timestamp =
    if newer (timestamps votes) timestamp < cacheSize then
      (votesWith votes timestamp).eraseDups else []

omit [PyOrder τ] [PlainOrder τ] [LawfulBEq ρ] in
theorem reflects_new (cacheSize : Nat) :
    (new cacheSize : RewardsCache τ ρ).Reflects cacheSize [] where
  size := rfl
  groups := fun _ => by split <;> rfl

theorem Reflects.keys {cache : RewardsCache τ ρ} {cacheSize : Nat}
    {votes : List (RewardVote τ ρ)} (reflects : cache.Reflects cacheSize votes) :
    cache.data.keys.toFinset = newest cacheSize (timestamps votes) := by
  ext timestamp
  rw [List.mem_toFinset, newest, Finset.mem_filter]
  rw [← not_iff_not, ← votesAt_eq_nil, reflects.groups timestamp]
  have grouped : (votesWith votes timestamp).eraseDups = [] ↔ timestamp ∉ timestamps votes := by
    rw [← votesWith_eq_nil, List.eq_nil_iff_forall_not_mem, List.eq_nil_iff_forall_not_mem]
    simp only [List.mem_eraseDups]
  split
  case isTrue few => rw [grouped]; tauto
  case isFalse many => tauto

theorem Reflects.update {cache : RewardsCache τ ρ} {cacheSize : Nat}
    {votes : List (RewardVote τ ρ)} (reflects : cache.Reflects cacheSize votes)
    (fresh : List (RewardVote τ ρ)) :
    (cache.update fresh).2.Reflects cacheSize (votes ++ fresh) := by
  have size := (storeAll_spec cache fresh).2.1
  have keys : (cache.storeAll fresh).2.data.keys.toFinset =
      newest cacheSize (timestamps votes) ∪ timestamps fresh := by
    rw [← reflects.keys]
    ext timestamp
    rw [Finset.mem_union, List.mem_toFinset, List.mem_toFinset, ← not_iff_not, not_or,
      ← votesAt_eq_nil, ← votesAt_eq_nil, ← votesWith_eq_nil, votesAt_storeAll,
      ← List.append_eq_nil_iff]
    rw [List.eq_nil_iff_forall_not_mem, List.eq_nil_iff_forall_not_mem]
    simp only [List.mem_eraseDups]
  refine ⟨?_, fun timestamp => ?_⟩
  · rw [(update_spec cache fresh).2.1, reflects.size]
  · rw [update_eq, votesAt_evict _ (Nat.le_add_right _ _), keys, size, reflects.size,
      timestamps_append, votesAt_storeAll]
    by_cases few : newer (timestamps votes ∪ timestamps fresh) timestamp < cacheSize
    · have before : newer (timestamps votes) timestamp < cacheSize :=
        (newer_mono Finset.subset_union_left timestamp).trans_lt few
      rw [if_pos few, if_pos ((newer_newest_union _ _ _ _).mpr few), reflects.groups,
        if_pos before, eraseDups_eraseDups_append, votesWith, votesWith, votesWith,
        List.filter_append]
    · rw [if_neg few, if_neg (fun fewer => few ((newer_newest_union _ _ _ _).mp fewer))]

theorem Reflects.updateAll {cache : RewardsCache τ ρ} {cacheSize : Nat}
    {votes : List (RewardVote τ ρ)} (reflects : cache.Reflects cacheSize votes)
    (batches : List (List (RewardVote τ ρ))) :
    ∃ final, cache.updateAll batches = .ok final ∧
      final.Reflects cacheSize (votes ++ batches.flatten) := by
  induction batches generalizing cache votes with
  | nil => exact ⟨cache, rfl, by simpa using reflects⟩
  | cons batch rest ih =>
      have succeeds := (update_spec cache batch).1
      have updated := reflects.update batch
      rw [RewardsCache.updateAll]
      rcases updateEq : cache.update batch with ⟨result, next⟩
      rw [updateEq] at succeeds updated
      obtain ⟨final, run, whole⟩ := ih updated
      rw [List.append_assoc] at whole
      dsimp only at succeeds
      rw [succeeds]
      exact ⟨final, run, whole⟩

omit [LawfulBEq ρ] in
theorem map_values_timestamps (cache : RewardsCache τ ρ) :
    cache.data.values.map (fun bucket => bucket.first.body.updateTimestamp) =
      cache.data.keys := by
  rw [PyDict.values, PyDict.keys, List.map_map]
  refine List.map_congr_left fun entry member => ?_
  exact (entry_keyed member List.mem_cons_self).symm

theorem Reflects.rewards {cache : RewardsCache τ ρ} {cacheSize : Nat}
    {votes : List (RewardVote τ ρ)} (reflects : cache.Reflects cacheSize votes) :
    ∃ buckets, cache.rewards = .ok buckets ∧
      buckets.map TimestampVotes.votes = closedForm cacheSize votes := by
  obtain ⟨buckets, sorted, perm, ascending⟩ := rewards_spec cache
  refine ⟨buckets, sorted, ?_⟩
  have keys : (buckets.map fun bucket => bucket.first.body.updateTimestamp).Perm
      cache.data.keys := by
    rw [← map_values_timestamps]
    exact perm.map _
  have nodup := keys.nodup_iff.mpr cache.data.nodup_keys
  have order : (timestamps votes.eraseDups).sort.rtake cacheSize =
      buckets.map fun bucket => bucket.first.body.updateTimestamp := by
    rw [sort_rtake, timestamps_eraseDups, ← reflects.keys, ← List.toFinset_eq_of_perm _ _ keys]
    exact (List.toFinset_sort (· ≤ ·) nodup).mpr (List.pairwise_map.mpr ascending)
  rw [closedForm, order, List.map_map]
  refine List.map_congr_left fun bucket member => ?_
  obtain ⟨entry, entryMember, rfl⟩ := List.mem_map.mp (perm.mem_iff.mp member)
  have key : entry.1 = entry.2.first.body.updateTimestamp :=
    entry_keyed entryMember List.mem_cons_self
  have cached : entry.2.votes = cache.votesAt entry.1 := (votesAt_of_mem entryMember).symm
  rw [reflects.groups] at cached
  split at cached
  case isTrue =>
    rw [cached, votesWith_eraseDups, key]
    rfl
  case isFalse => cases cached

theorem Reflects.evicted {cache : RewardsCache τ ρ} {cacheSize : Nat}
    {votes : List (RewardVote τ ρ)} (reflects : cache.Reflects cacheSize votes) {timestamp : τ}
    (received : timestamp ∈ timestamps votes) :
    timestamp ∉ cache.data.keys ↔ cacheSize ≤ newer (timestamps votes) timestamp := by
  rw [← List.mem_toFinset, reflects.keys, newest, Finset.mem_filter]
  simp [received]

theorem rewardsAfter_eq (cacheSize : Nat) (batches : List (List (RewardVote τ ρ))) :
    ∃ buckets, rewardsAfter cacheSize batches = .ok buckets ∧
      buckets.map TimestampVotes.votes = closedForm cacheSize batches.flatten := by
  obtain ⟨cache, run, reflects⟩ := (reflects_new cacheSize).updateAll batches
  rw [rewardsAfter, run]
  exact reflects.rewards

theorem Reflects.stays_evicted {cache : RewardsCache τ ρ} {cacheSize : Nat}
    {votes : List (RewardVote τ ρ)} (reflects : cache.Reflects cacheSize votes) {timestamp : τ}
    (received : timestamp ∈ timestamps votes) (evicted : timestamp ∉ cache.data.keys)
    (later : List (List (RewardVote τ ρ))) :
    ∃ grown, cache.updateAll later = .ok grown ∧ timestamp ∉ grown.data.keys := by
  obtain ⟨grown, run, whole⟩ := reflects.updateAll later
  have more : timestamps votes ⊆ timestamps (votes ++ later.flatten) := by
    rw [timestamps_append]
    exact Finset.subset_union_left
  refine ⟨grown, run, (whole.evicted (more received)).mpr ?_⟩
  exact ((reflects.evicted received).mp evicted).trans (newer_mono more timestamp)

end RewardsCache

end Plain

/-- After any batches that follow an empty cache, `rewards()` is the closed form of their
concatenation. -/
theorem rewardsAfter_closedForm (cacheSize : Nat)
    (batches : List (List (RewardVote Int String))) :
    (∃ buckets, RewardsCache.rewardsAfter cacheSize batches = .ok buckets ∧
        buckets.map TimestampVotes.votes = closedForm cacheSize batches.flatten) ∧
      (∀ group ∈ closedForm cacheSize batches.flatten, group ≠ []) ∧
      (∀ others : List (List (RewardVote Int String)), others.flatten = batches.flatten →
        RewardsCache.rewardsAfter cacheSize others =
          RewardsCache.rewardsAfter cacheSize batches) ∧
      ∃ cache, (RewardsCache.new cacheSize).updateAll batches = .ok cache ∧
        ∀ timestamp ∈ timestamps batches.flatten, timestamp ∉ cache.data.keys →
          ∀ later, ∃ grown, cache.updateAll later = .ok grown ∧
            timestamp ∉ grown.data.keys := by
  obtain ⟨buckets, after, closed⟩ := RewardsCache.rewardsAfter_eq cacheSize batches
  have empty : (RewardsCache.new cacheSize : RewardsCache Int String).Reflects cacheSize [] :=
    RewardsCache.reflects_new cacheSize
  obtain ⟨cache, run, reflects⟩ := empty.updateAll batches
  rw [List.nil_append] at reflects
  refine ⟨⟨buckets, after, closed⟩, ?_, ?_, cache, run, ?_⟩
  · rw [← closed]
    intro group member
    obtain ⟨bucket, -, rfl⟩ := List.mem_map.mp member
    exact List.cons_ne_nil _ _
  · intro others same
    obtain ⟨otherBuckets, otherAfter, otherClosed⟩ :=
      RewardsCache.rewardsAfter_eq cacheSize others
    rw [same, ← closed] at otherClosed
    rw [after, otherAfter, TimestampVotes.votes_injective.list_map otherClosed]
  · intro timestamp received evicted later
    exact reflects.stays_evicted received evicted later


end V3Keeper
