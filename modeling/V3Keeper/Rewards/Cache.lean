import V3Keeper.Common.Address
import V3Keeper.Library.Counter
import V3Keeper.Library.PyOrder

/-!
`RewardsCache` of `src/rewards/service.py` and the votes of `src/rewards/typings.py`.
The type of a timestamp, a nonce or an average is `τ`, that of a root or an IPFS hash
is `ρ`: the oracles are expected to send integers and strings.
-/

namespace V3Keeper

open Python

abbrev Bytes := List UInt8

structure RewardVoteBody (τ ρ : Type*) where
  updateTimestamp : τ
  root : ρ
  ipfsHash : ρ
  avgRewardPerSecond : τ
  deriving BEq, ReflBEq, LawfulBEq, Repr

structure RewardVote (τ ρ : Type*) where
  oracleAddress : ChecksumAddress
  nonce : τ
  signature : Bytes
  body : RewardVoteBody τ ρ
  deriving BEq, ReflBEq, LawfulBEq

def defaultCacheSize : Nat := 100

variable {τ ρ : Type*} [BEq τ] [BEq ρ]

instance [PyHash τ] [PyHash ρ] : PyHash (RewardVoteBody τ ρ) where
  hashable body := PyHash.hashable body.updateTimestamp && PyHash.hashable body.root &&
    PyHash.hashable body.ipfsHash && PyHash.hashable body.avgRewardPerSecond

/-- The votes cached for one timestamp. A vote is stored as soon as its list is made,
so the list is never empty, and it is stored only once. -/
structure TimestampVotes (τ ρ : Type*) [BEq τ] [BEq ρ] where
  first : RewardVote τ ρ
  others : List (RewardVote τ ρ)
  distinct : (first :: others).Pairwise fun earlier later => (later == earlier) = false

namespace TimestampVotes

def votes (bucket : TimestampVotes τ ρ) : List (RewardVote τ ρ) := bucket.first :: bucket.others

def single (vote : RewardVote τ ρ) : TimestampVotes τ ρ := ⟨vote, [], List.pairwise_singleton _ _⟩

def add (bucket : TimestampVotes τ ρ) (vote : RewardVote τ ρ) : TimestampVotes τ ρ :=
  if known : bucket.votes.contains vote then bucket
  else
    ⟨bucket.first, bucket.others ++ [vote], by
      rw [← List.cons_append, List.pairwise_append]
      refine ⟨bucket.distinct, List.pairwise_singleton _ _, ?_⟩
      intro earlier member later isNew
      rw [List.mem_singleton.mp isNew]
      rw [List.contains_eq_any_beq, List.any_eq_true] at known
      exact Bool.eq_false_iff.mpr fun same => known ⟨earlier, member, same⟩⟩

theorem mem_add {bucket : TimestampVotes τ ρ} {vote other : RewardVote τ ρ}
    (member : other ∈ (bucket.add vote).votes) : other ∈ bucket.votes ∨ other = vote := by
  unfold add at member
  split at member
  · exact Or.inl member
  · simpa [votes, or_assoc] using member

end TimestampVotes

structure RewardsCache (τ ρ : Type*) [BEq τ] [BEq ρ] where
  data : PyDict τ (TimestampVotes τ ρ)
  cacheSize : Nat
  keyed : ∀ entry ∈ data.entries, ∀ vote ∈ entry.2.votes,
    entry.1 = vote.body.updateTimestamp ∨ (entry.1 == vote.body.updateTimestamp) = true

namespace RewardsCache

def new (cacheSize : Nat) : RewardsCache τ ρ := ⟨PyDict.empty, cacheSize, by simp⟩

def votes (cache : RewardsCache τ ρ) : List (RewardVote τ ρ) :=
  cache.data.values.flatMap TimestampVotes.votes

def clear (cache : RewardsCache τ ρ) : RewardsCache τ ρ := new cache.cacheSize

def bucketWith (cache : RewardsCache τ ρ) (vote : RewardVote τ ρ) : TimestampVotes τ ρ :=
  match cache.data.get? vote.body.updateTimestamp with
  | none => .single vote
  | some bucket => bucket.add vote

theorem mem_bucketWith {cache : RewardsCache τ ρ} {vote other : RewardVote τ ρ}
    (member : other ∈ (cache.bucketWith vote).votes) :
    other = vote ∨ ∃ bucket, cache.data.get? vote.body.updateTimestamp = some bucket ∧
      other ∈ bucket.votes := by
  unfold bucketWith at member
  split at member
  case h_1 => exact Or.inl (List.mem_singleton.mp member)
  case h_2 bucket found =>
    rcases TimestampVotes.mem_add member with old | new
    · exact Or.inr ⟨bucket, found, old⟩
    · exact Or.inl new

def store (cache : RewardsCache τ ρ) (vote : RewardVote τ ρ) : RewardsCache τ ρ where
  data := cache.data.set vote.body.updateTimestamp (cache.bucketWith vote)
  cacheSize := cache.cacheSize
  keyed := by
    intro entry member other otherMember
    rcases PyDict.mem_set_cases member with
      ⟨old, -⟩ | ⟨absent, rfl⟩ | ⟨old, oldMember, same, found, rfl⟩
    · exact cache.keyed entry old other otherMember
    · rcases mem_bucketWith otherMember with rfl | ⟨bucket, present, -⟩
      · exact Or.inl rfl
      · rw [absent] at present
        cases present
    · rcases mem_bucketWith otherMember with rfl | ⟨bucket, present, stored⟩
      · exact Or.inr same
      · rw [found] at present
        rw [← Option.some.inj present] at stored
        exact cache.keyed old oldMember other stored

def drop (cache : RewardsCache τ ρ) (timestamp : τ) : RewardsCache τ ρ where
  data := cache.data.erase timestamp
  cacheSize := cache.cacheSize
  keyed entry member := cache.keyed entry (PyDict.mem_erase member)

def storeAll [PyHash τ] (cache : RewardsCache τ ρ) :
    List (RewardVote τ ρ) → Except PyError Unit × RewardsCache τ ρ
  | [] => (.ok (), cache)
  | vote :: rest =>
      if PyHash.hashable vote.body.updateTimestamp then (cache.store vote).storeAll rest
      else (.error .typeError, cache)

/-- The eviction loop. One timestamp goes in each round, so the number of timestamps
bounds the rounds. -/
def evict [PyOrder τ] : (rounds : Nat) → RewardsCache τ ρ → Except PyError Unit × RewardsCache τ ρ
  | 0, cache => (.ok (), cache)
  | rounds + 1, cache =>
      if cache.cacheSize < cache.data.size then
        match minOf cache.data.keys with
        | .error error => (.error error, cache)
        | .ok oldest => evict rounds (cache.drop oldest)
      else (.ok (), cache)

def update [PyOrder τ] (cache : RewardsCache τ ρ) (votes : List (RewardVote τ ρ)) :
    Except PyError Unit × RewardsCache τ ρ :=
  match cache.storeAll votes with
  | (.error error, stored) => (.error error, stored)
  | (.ok _, stored) => evict stored.data.size stored

def rewards [PyOrder τ] (cache : RewardsCache τ ρ) : Except PyError (List (TimestampVotes τ ρ)) :=
  sortBy (fun bucket => bucket.first.body.updateTimestamp) cache.data.values

theorem mem_votes {cache : RewardsCache τ ρ} {vote : RewardVote τ ρ} :
    vote ∈ cache.votes ↔ ∃ entry ∈ cache.data.entries, vote ∈ entry.2.votes := by
  simp only [votes, PyDict.values, List.mem_flatMap, List.mem_map, exists_exists_and_eq_and]

@[simp] theorem votes_clear (cache : RewardsCache τ ρ) : cache.clear.votes = [] := rfl

theorem mem_store {cache : RewardsCache τ ρ} {vote other : RewardVote τ ρ}
    (member : other ∈ (cache.store vote).votes) : other ∈ cache.votes ∨ other = vote := by
  obtain ⟨entry, entryMember, inside⟩ := mem_votes.mp member
  have known : ∀ stored : TimestampVotes τ ρ, stored = cache.bucketWith vote →
      other ∈ stored.votes → other ∈ cache.votes ∨ other = vote := by
    intro stored storedEq present
    rw [storedEq] at present
    rcases mem_bucketWith present with new | ⟨bucket, found, old⟩
    · exact Or.inr new
    · obtain ⟨oldEntry, oldMember, -, same⟩ := PyDict.mem_of_get? found
      exact Or.inl (mem_votes.mpr ⟨oldEntry, oldMember, same ▸ old⟩)
  rcases PyDict.mem_set_cases entryMember with ⟨old, -⟩ | ⟨-, rfl⟩ | ⟨old, -, -, -, rfl⟩
  · exact Or.inl (mem_votes.mpr ⟨entry, old, inside⟩)
  · exact known _ rfl inside
  · exact known _ rfl inside

theorem mem_storeAll [PyHash τ] (cache : RewardsCache τ ρ) (fresh : List (RewardVote τ ρ))
    (vote : RewardVote τ ρ) (member : vote ∈ (cache.storeAll fresh).2.votes) :
    vote ∈ cache.votes ∨ vote ∈ fresh := by
  induction fresh generalizing cache with
  | nil => exact Or.inl member
  | cons next rest ih =>
      rw [storeAll] at member
      split at member
      case isTrue =>
        rcases ih _ member with stored | later
        · rcases mem_store stored with old | new
          · exact Or.inl old
          · exact Or.inr (new ▸ List.mem_cons_self)
        · exact Or.inr (List.mem_cons_of_mem _ later)
      case isFalse => exact Or.inl member

theorem mem_evict [PyOrder τ] {rounds : Nat} {cache : RewardsCache τ ρ} {vote : RewardVote τ ρ}
    (member : vote ∈ (evict rounds cache).2.votes) : vote ∈ cache.votes := by
  induction rounds generalizing cache with
  | zero => exact member
  | succ rounds ih =>
      rw [evict] at member
      split at member
      case isTrue =>
        split at member
        case h_1 => exact member
        case h_2 oldest _ =>
          obtain ⟨entry, entryMember, inside⟩ := mem_votes.mp (ih member)
          exact mem_votes.mpr ⟨entry, PyDict.mem_erase entryMember, inside⟩
      case isFalse => exact member

theorem mem_update [PyOrder τ] {cache : RewardsCache τ ρ} {fresh : List (RewardVote τ ρ)}
    {vote : RewardVote τ ρ} (member : vote ∈ (cache.update fresh).2.votes) :
    vote ∈ cache.votes ∨ vote ∈ fresh := by
  have stored := mem_storeAll cache fresh vote
  unfold update at member
  split at member
  case h_1 error cache' storedEq =>
    rw [storedEq] at stored
    exact stored member
  case h_2 cache' storedEq =>
    rw [storedEq] at stored
    exact stored (mem_evict member)

end RewardsCache

end V3Keeper
