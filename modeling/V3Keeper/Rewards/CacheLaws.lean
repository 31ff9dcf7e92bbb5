import V3Keeper.Library.Newest
import V3Keeper.Rewards.Service

/-!
The cache on well-typed votes. It holds the votes it was given, each once, for the
newest timestamps, and the winner is found where some body has enough of them.
-/

namespace V3Keeper

open Python Newest

section Lawful

variable {τ ρ : Type*} [BEq τ] [LawfulBEq τ] [BEq ρ]

namespace RewardsCache

theorem entry_keyed {cache : RewardsCache τ ρ} {entry : τ × TimestampVotes τ ρ}
    (member : entry ∈ cache.data.entries) {vote : RewardVote τ ρ} (inside : vote ∈ entry.2.votes) :
    entry.1 = vote.body.updateTimestamp := by
  rcases cache.keyed entry member vote inside with same | same
  · exact same
  · exact eq_of_beq same

theorem mem_keys {cache : RewardsCache τ ρ} {timestamp : τ} :
    timestamp ∈ cache.data.keys ↔
      timestamp ∈ cache.votes.map fun vote => vote.body.updateTimestamp := by
  rw [PyDict.keys, List.mem_map, List.mem_map]
  constructor
  · rintro ⟨entry, member, rfl⟩
    exact ⟨entry.2.first, mem_votes.mpr ⟨entry, member, List.mem_cons_self⟩,
      (entry_keyed member List.mem_cons_self).symm⟩
  · rintro ⟨vote, member, rfl⟩
    obtain ⟨entry, entryMember, inside⟩ := mem_votes.mp member
    exact ⟨entry, entryMember, entry_keyed entryMember inside⟩

theorem drop_size {cache : RewardsCache τ ρ} {timestamp : τ}
    (member : timestamp ∈ cache.data.keys) :
    (cache.drop timestamp).data.size + 1 = cache.data.size := by
  obtain ⟨entry, entryMember, rfl⟩ := List.mem_map.mp member
  have shorter := List.length_eraseP_of_mem (p := fun other => other.1 == entry.1) entryMember
    (beq_self_eq_true entry.1)
  have positive : 0 < cache.data.entries.length := List.length_pos_of_mem entryMember
  change (cache.data.entries.eraseP fun other => other.1 == entry.1).length + 1 = _
  rw [shorter, PyDict.size]
  omega

end RewardsCache

variable [LawfulBEq ρ]

namespace TimestampVotes

theorem votes_nodup (bucket : TimestampVotes τ ρ) : bucket.votes.Nodup := by
  rw [List.nodup_iff_pairwise_ne]
  exact bucket.distinct.imp fun apart same => by simp [same] at apart

theorem mem_add_iff {bucket : TimestampVotes τ ρ} {vote other : RewardVote τ ρ} :
    other ∈ (bucket.add vote).votes ↔ other ∈ bucket.votes ∨ other = vote := by
  refine ⟨mem_add, ?_⟩
  unfold add
  split
  case isTrue known =>
    rintro (old | rfl)
    · exact old
    · exact List.contains_iff_mem.mp known
  case isFalse =>
    rintro (old | rfl)
    · exact List.mem_append_left [vote] old
    · exact List.mem_append_right bucket.votes (List.mem_singleton.mpr rfl)

end TimestampVotes

namespace RewardsCache

theorem votes_nodup (cache : RewardsCache τ ρ) : cache.votes.Nodup := by
  rw [votes, List.nodup_flatMap, PyDict.values, List.pairwise_map]
  refine ⟨fun bucket _ => bucket.votes_nodup, ?_⟩
  refine cache.data.distinct.imp_of_mem ?_
  intro first second firstMember secondMember apart vote inFirst inSecond
  rw [entry_keyed firstMember inFirst, entry_keyed secondMember inSecond] at apart
  simp at apart

theorem mem_store_iff {cache : RewardsCache τ ρ} {vote other : RewardVote τ ρ} :
    other ∈ (cache.store vote).votes ↔ other ∈ cache.votes ∨ other = vote := by
  refine ⟨mem_store, ?_⟩
  have filled :
      (vote.body.updateTimestamp, cache.bucketWith vote) ∈ (cache.store vote).data.entries :=
    PyDict.mem_set.mpr (Or.inr rfl)
  rintro (old | rfl)
  · obtain ⟨entry, member, inside⟩ := mem_votes.mp old
    by_cases same : entry.1 = vote.body.updateTimestamp
    · have found : cache.data.get? vote.body.updateTimestamp = some entry.2 :=
        PyDict.get?_eq_some.mpr (same ▸ member)
      refine mem_votes.mpr ⟨_, filled, ?_⟩
      rw [bucketWith, found]
      exact TimestampVotes.mem_add_iff.mpr (Or.inl inside)
    · exact mem_votes.mpr ⟨entry, PyDict.mem_set.mpr (Or.inl ⟨member, same⟩), inside⟩
  · refine mem_votes.mpr ⟨_, filled, ?_⟩
    unfold bucketWith
    split
    case h_1 => exact List.mem_singleton.mpr rfl
    case h_2 bucket _ => exact TimestampVotes.mem_add_iff.mpr (Or.inr rfl)

end RewardsCache

end Lawful

section Plain

variable {τ ρ : Type*} [BEq τ] [LinearOrder τ] [PyOrder τ] [PlainOrder τ] [BEq ρ]

namespace RewardsCache

theorem drop_entries (cache : RewardsCache τ ρ) (timestamp : τ) :
    (cache.drop timestamp).data.entries =
      cache.data.entries.filter fun entry => !decide (entry.1 = timestamp) := by
  rw [drop, PyDict.erase_entries]
  refine List.filter_congr fun entry _ => ?_
  rw [Bool.eq_iff_iff]
  simp

theorem drop_keys (cache : RewardsCache τ ρ) (timestamp : τ) :
    (cache.drop timestamp).data.keys =
      cache.data.keys.filter fun key => !decide (key = timestamp) := by
  rw [PyDict.keys, drop_entries, PyDict.keys, List.filter_map]
  rfl

theorem evict_spec {rounds : Nat} (cache : RewardsCache τ ρ)
    (enough : cache.data.size ≤ rounds + cache.cacheSize) :
    (evict rounds cache).1 = .ok () ∧ (evict rounds cache).2.cacheSize = cache.cacheSize ∧
      (evict rounds cache).2.data.entries = cache.data.entries.filter fun entry =>
        decide (above cache.data.keys entry.1 < cache.cacheSize) := by
  have all : ∀ cache : RewardsCache τ ρ, cache.data.size ≤ cache.cacheSize →
      cache.data.entries = cache.data.entries.filter fun entry =>
        decide (above cache.data.keys entry.1 < cache.cacheSize) := by
    intro cache bound
    refine (List.filter_eq_self.mpr fun entry member => ?_).symm
    have below : above cache.data.keys entry.1 < cache.data.keys.length :=
      above_lt_length (List.mem_map_of_mem member)
    rw [PyDict.keys, List.length_map] at below
    exact decide_eq_true (Nat.lt_of_lt_of_le below bound)
  induction rounds generalizing cache with
  | zero => exact ⟨rfl, rfl, all cache (by omega)⟩
  | succ rounds ih =>
      rw [evict]
      by_cases large : cache.cacheSize < cache.data.size
      · have nonempty : cache.data.keys ≠ [] := by
          intro empty
          rw [PyDict.keys, List.map_eq_nil_iff] at empty
          rw [PyDict.size, empty] at large
          exact Nat.not_lt_zero _ large
        obtain ⟨oldest, found, member, minimal⟩ := minOf_spec nonempty
        have dropped := drop_size member
        have smaller : (cache.drop oldest).data.size ≤ rounds + (cache.drop oldest).cacheSize := by
          change _ ≤ rounds + cache.cacheSize
          omega
        obtain ⟨result, size, entries⟩ := ih (cache.drop oldest) smaller
        simp only [large, if_true, found]
        refine ⟨result, size, ?_⟩
        rw [entries, drop_entries, drop_keys, List.filter_filter]
        refine List.filter_congr fun entry entryMember => ?_
        have key : entry.1 ∈ cache.data.keys := List.mem_map_of_mem entryMember
        change (decide (above _ _ < cache.cacheSize) && _) = _
        rw [above_without_least minimal key]
        by_cases isOldest : entry.1 = oldest
        · have least := above_least cache.data.nodup_keys member minimal
          have full : ¬above cache.data.keys oldest < cache.cacheSize := by
            rw [PyDict.keys, List.length_map] at least
            rw [PyDict.size] at large
            rw [PyDict.keys]
            omega
          simp [isOldest, full]
        · simp [isOldest]
      · rw [if_neg large]
        exact ⟨rfl, rfl, all cache (by omega)⟩

variable [LawfulBEq ρ]

theorem storeAll_spec (cache : RewardsCache τ ρ) (fresh : List (RewardVote τ ρ)) :
    (cache.storeAll fresh).1 = .ok () ∧
      (cache.storeAll fresh).2.cacheSize = cache.cacheSize ∧
      ∀ vote, vote ∈ (cache.storeAll fresh).2.votes ↔ vote ∈ cache.votes ∨ vote ∈ fresh := by
  induction fresh generalizing cache with
  | nil => exact ⟨rfl, rfl, by simp [storeAll]⟩
  | cons next rest ih =>
      obtain ⟨result, size, members⟩ := ih (cache.store next)
      simp only [storeAll, PlainHash.hashable_eq, if_true]
      refine ⟨result, size, fun vote => ?_⟩
      rw [members, mem_store_iff, List.mem_cons, or_assoc]

theorem update_eq (cache : RewardsCache τ ρ) (fresh : List (RewardVote τ ρ)) :
    cache.update fresh =
      evict (cache.storeAll fresh).2.data.size (cache.storeAll fresh).2 := by
  have stored := (storeAll_spec cache fresh).1
  unfold update
  split
  case h_1 error other storedEq =>
    rw [storedEq] at stored
    cases stored
  case h_2 other storedEq => rw [storedEq]

end RewardsCache

def newerTimestamps (votes : List (RewardVote τ ρ)) (timestamp : τ) : Nat :=
  above (votes.map fun vote => vote.body.updateTimestamp).dedup timestamp

variable [LawfulBEq ρ]

def pooledVotes (cache : RewardsCache τ ρ) (fresh : List (RewardVote τ ρ)) :
    List (RewardVote τ ρ) := fresh ∪ cache.votes

theorem mem_pooledVotes {cache : RewardsCache τ ρ} {fresh : List (RewardVote τ ρ)}
    {vote : RewardVote τ ρ} :
    vote ∈ pooledVotes cache fresh ↔ vote ∈ cache.votes ∨ vote ∈ fresh := by
  rw [pooledVotes, List.mem_union_iff, or_comm]

/-- An update never raises. It pools the votes and keeps those whose timestamps are
among the `cacheSize` newest ones. -/
theorem update_spec (cache : RewardsCache τ ρ) (fresh : List (RewardVote τ ρ)) :
    (cache.update fresh).1 = .ok () ∧ (cache.update fresh).2.cacheSize = cache.cacheSize ∧
      ∀ vote, vote ∈ (cache.update fresh).2.votes ↔
        vote ∈ pooledVotes cache fresh ∧
          newerTimestamps (pooledVotes cache fresh) vote.body.updateTimestamp <
            cache.cacheSize := by
  obtain ⟨-, size, members⟩ := RewardsCache.storeAll_spec cache fresh
  obtain ⟨result, evictedSize, entries⟩ :=
    RewardsCache.evict_spec (cache.storeAll fresh).2 (Nat.le_add_right _ _)
  rw [RewardsCache.update_eq]
  refine ⟨result, evictedSize.trans size, fun vote => ?_⟩
  have keys : (cache.storeAll fresh).2.data.keys.Perm
      ((pooledVotes cache fresh).map fun vote => vote.body.updateTimestamp).dedup := by
    rw [List.perm_ext_iff_of_nodup (PyDict.nodup_keys _) (List.nodup_dedup _)]
    intro timestamp
    rw [RewardsCache.mem_keys, List.mem_dedup, List.mem_map, List.mem_map]
    simp only [members, mem_pooledVotes]
  rw [RewardsCache.mem_votes, entries, mem_pooledVotes, ← members, RewardsCache.mem_votes,
    newerTimestamps, ← above_perm keys, ← size]
  simp only [List.mem_filter, decide_eq_true_eq]
  constructor
  · rintro ⟨entry, ⟨member, newer⟩, inside⟩
    rw [RewardsCache.entry_keyed member inside] at newer
    exact ⟨⟨entry, member, inside⟩, newer⟩
  · rintro ⟨⟨entry, member, inside⟩, newer⟩
    rw [← RewardsCache.entry_keyed member inside] at newer
    exact ⟨entry, ⟨member, newer⟩, inside⟩

end Plain

end V3Keeper
