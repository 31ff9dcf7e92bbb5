import V3Keeper.ForceExit.Service

/-!
`fetch_leverage_positions` of `src/force_exit/service.py` and `graph_get_allocators` of
`src/force_exit/graph.py`: the positions above the borrow threshold and those that the
subgraph lists as allocators, joined by a set of position ids. An LTV is a value of `φ`.
-/

namespace V3Keeper

open Python

def disabledLiqThreshold : Int := 2 ^ 64 - 1

structure Allocator where
  address : ChecksumAddress
  liqThresholdPercent : Int

def Allocator.enabled (allocator : Allocator) : Bool :=
  allocator.liqThresholdPercent != disabledLiqThreshold

/-- A leverage position as `graph_get_leverage_positions` returns it. -/
structure GraphPosition (φ : Type) extends LeveragePosition where
  borrowLtv : φ

def ChecksumAddress.text (address : ChecksumAddress) : List Char := '0' :: 'x' :: address.digits

def LeveragePosition.id (position : LeveragePosition) : List Char :=
  position.vault.text ++ '-' :: position.user.text

structure LeverageReads (φ : Type) where
  borrowLtv : Except PyError φ
  vaultLtv : Except PyError φ
  leveragePositions : (blockNumber : Nat) → Except PyError (List (GraphPosition φ))
  allocators : (ltv : φ) → (addresses : List ChecksumAddress) → (blockNumber : Nat) →
    Except PyError (List Allocator)

def graphGetAllocators (response : Except PyError (List Allocator)) :
    Except PyError (List ChecksumAddress) :=
  match response with
  | .error error => .error error
  | .ok allocators => .ok ((allocators.filter Allocator.enabled).map Allocator.address)

section

variable {φ : Type}

def proxyToPosition (positions : List (GraphPosition φ)) :
    PyDict ChecksumAddress (GraphPosition φ) :=
  positions.foldl (fun dict position => dict.set position.proxy position) PyDict.empty

def vaultPositions (positions : PyDict ChecksumAddress (GraphPosition φ)) :
    List ChecksumAddress → Except PyError (List (GraphPosition φ))
  | [] => .ok []
  | allocator :: rest =>
      match positions.get? allocator with
      | none => .error .keyError
      | some position =>
          match vaultPositions positions rest with
          | .error error => .error error
          | .ok others => .ok (position :: others)

def joinPositions (borrowPositions vaultPositions : List (GraphPosition φ)) :
    List (GraphPosition φ) :=
  borrowPositions ++ vaultPositions.filter fun position =>
    !(borrowPositions.map fun other => other.id).contains position.id

variable [LT φ] [DecidableLT φ]

def borrowPositions (borrowLtv : φ) (positions : List (GraphPosition φ)) :
    List (GraphPosition φ) :=
  positions.filter fun position => decide (borrowLtv < position.borrowLtv)

def fetchLeveragePositions (reads : LeverageReads φ) (blockNumber : Nat) :
    Except PyError (List (GraphPosition φ)) := do
  let borrowLtv ← reads.borrowLtv
  let vaultLtv ← reads.vaultLtv
  let positions ← reads.leveragePositions blockNumber
  let allocators ← graphGetAllocators
    (reads.allocators vaultLtv (proxyToPosition positions).keys blockNumber)
  let vaultPositions ← vaultPositions (proxyToPosition positions) allocators
  return joinPositions (borrowPositions borrowLtv positions) vaultPositions

end

theorem ChecksumAddress.digits_injective {first second : ChecksumAddress}
    (same : first.digits = second.digits) : first = second := by
  cases first
  cases second
  cases same
  rfl

theorem LeveragePosition.id_eq_iff {first second : LeveragePosition} :
    first.id = second.id ↔ first.vault = second.vault ∧ first.user = second.user := by
  constructor
  · intro same
    have length : first.vault.text.length = second.vault.text.length := by
      simp only [ChecksumAddress.text, List.length_cons, ChecksumAddress.length]
    obtain ⟨vault, user⟩ := List.append_inj same length
    exact ⟨ChecksumAddress.digits_injective (List.cons.inj (List.cons.inj vault).2).2,
      ChecksumAddress.digits_injective
        (List.cons.inj (List.cons.inj (List.cons.inj user).2).2).2⟩
  · rintro ⟨vault, user⟩
    rw [id, id, vault, user]

section

variable {φ : Type} {positions : List (GraphPosition φ)}

structure DistinctPositions (positions : List (GraphPosition φ)) : Prop where
  proxies : (positions.map fun position => position.proxy).Nodup
  pairs : (positions.map fun position => (position.vault, position.user)).Nodup

structure LeverageAnswers (reads : LeverageReads φ) (blockNumber : Nat) (threshold : φ)
    (positions : List (GraphPosition φ)) (allocators : List Allocator) : Prop where
  borrowLtv : reads.borrowLtv = .ok threshold
  leveragePositions : reads.leveragePositions blockNumber = .ok positions
  reply : ∃ vaultLtv, reads.vaultLtv = .ok vaultLtv ∧
    reads.allocators vaultLtv (positions.map fun position => position.proxy) blockNumber =
      .ok allocators
  queried : ∀ allocator ∈ allocators,
    allocator.address ∈ positions.map fun position => position.proxy

theorem proxyToPosition_entries
    (proxies : (positions.map fun position => position.proxy).Nodup) :
    (proxyToPosition positions).entries =
      positions.map fun position => (position.proxy, position) :=
  PyDict.foldl_set_entries (fun position : GraphPosition φ => position.proxy) proxies

theorem proxyToPosition_keys
    (proxies : (positions.map fun position => position.proxy).Nodup) :
    (proxyToPosition positions).keys = positions.map fun position => position.proxy := by
  rw [PyDict.keys, proxyToPosition_entries proxies, List.map_map]
  rfl

structure Lists (listed positions : List (GraphPosition φ)) (addresses : List ChecksumAddress) :
    Prop where
  proxies : listed.map (fun position => position.proxy) = addresses
  members : ∀ position ∈ listed, position ∈ positions

theorem vaultPositions_ok (proxies : (positions.map fun position => position.proxy).Nodup)
    {allocators : List ChecksumAddress}
    (known : ∀ allocator ∈ allocators, allocator ∈ positions.map fun position => position.proxy) :
    ∃ listed, vaultPositions (proxyToPosition positions) allocators = .ok listed ∧
      Lists listed positions allocators := by
  induction allocators with
  | nil => exact ⟨[], rfl, rfl, by simp⟩
  | cons allocator rest ih =>
      obtain ⟨listed, found, addresses, members⟩ :=
        ih fun other member => known other (List.mem_cons_of_mem _ member)
      obtain ⟨position, member, proxy⟩ := List.mem_map.mp (known allocator List.mem_cons_self)
      have lookup : (proxyToPosition positions).get? allocator = some position := by
        rw [PyDict.get?_eq_some, proxyToPosition_entries proxies, ← proxy]
        exact List.mem_map_of_mem member
      refine ⟨position :: listed, ?_, ?_, ?_⟩
      · simp only [vaultPositions, lookup, found]
      · rw [List.map_cons, proxy, addresses]
      · exact List.forall_mem_cons.mpr ⟨member, members⟩

variable [LT φ] [DecidableLT φ] {threshold : φ} {allocators : List Allocator}

def AllocatorOf (allocators : List Allocator) (position : GraphPosition φ) : Prop :=
  ∃ allocator ∈ allocators, allocator.enabled = true ∧ allocator.address = position.proxy

structure SelectsOnce (selected : List (GraphPosition φ)) (threshold : φ)
    (positions : List (GraphPosition φ)) (allocators : List Allocator) : Prop where
  members : ∀ position, position ∈ selected ↔ position ∈ positions ∧
    (threshold < position.borrowLtv ∨ AllocatorOf allocators position)
  once : selected.Nodup

/-- No proxy that only the allocators select has two entries of enabled vaults. -/
def SingleAllocators (threshold : φ) (positions : List (GraphPosition φ))
    (allocators : List Allocator) : Prop :=
  ∀ position ∈ positions, ¬threshold < position.borrowLtv →
    (allocators.filter fun allocator =>
      allocator.enabled && decide (allocator.address = position.proxy)).length ≤ 1

theorem mem_borrowPositions {position : GraphPosition φ} :
    position ∈ borrowPositions threshold positions ↔
      position ∈ positions ∧ threshold < position.borrowLtv := by
  rw [borrowPositions, List.mem_filter, decide_eq_true_eq]

theorem id_mem_borrowPositions (distinct : DistinctPositions positions)
    {position : GraphPosition φ} (member : position ∈ positions) :
    ((borrowPositions threshold positions).map fun other => other.id).contains position.id =
      decide (threshold < position.borrowLtv) := by
  rw [Bool.eq_iff_iff, List.contains_iff_mem, decide_eq_true_eq, List.mem_map]
  constructor
  · rintro ⟨other, selected, same⟩
    obtain ⟨inside, above⟩ := mem_borrowPositions.mp selected
    obtain ⟨vault, user⟩ := LeveragePosition.id_eq_iff.mp same
    have equal : other = position := List.inj_on_of_nodup_map distinct.pairs inside member
      (Prod.ext vault user)
    exact equal ▸ above
  · intro above
    exact ⟨position, mem_borrowPositions.mpr ⟨member, above⟩, rfl⟩

def enabledAddresses (allocators : List Allocator) : List ChecksumAddress :=
  (allocators.filter Allocator.enabled).map Allocator.address

def joined (threshold : φ) (positions listed : List (GraphPosition φ)) :
    List (GraphPosition φ) :=
  borrowPositions threshold positions ++
    listed.filter fun position => !decide (threshold < position.borrowLtv)

theorem fetchLeveragePositions_ok {reads : LeverageReads φ} {blockNumber : Nat}
    (answers : LeverageAnswers reads blockNumber threshold positions allocators)
    (distinct : DistinctPositions positions) :
    ∃ listed, fetchLeveragePositions reads blockNumber = .ok (joined threshold positions listed) ∧
      Lists listed positions (enabledAddresses allocators) := by
  obtain ⟨vaultLtv, vaultRead, reply⟩ := answers.reply
  have known : ∀ address ∈ enabledAddresses allocators,
      address ∈ positions.map fun position => position.proxy := by
    intro address member
    obtain ⟨allocator, inside, rfl⟩ := List.mem_map.mp member
    exact answers.queried allocator (List.mem_filter.mp inside).1
  obtain ⟨listed, found, lists⟩ := vaultPositions_ok distinct.proxies known
  rw [enabledAddresses] at found
  have join : joinPositions (borrowPositions threshold positions) listed =
      joined threshold positions listed := by
    rw [joinPositions]
    refine congrArg _ (List.filter_congr fun position member => ?_)
    rw [id_mem_borrowPositions distinct (lists.members position member)]
  refine ⟨listed, ?_, lists⟩
  rw [← join]
  unfold fetchLeveragePositions
  rw [answers.borrowLtv, vaultRead, answers.leveragePositions]
  simp only [bind, Except.bind, pure, Except.pure, proxyToPosition_keys distinct.proxies, reply,
    graphGetAllocators, found]

omit [LT φ] [DecidableLT φ] in
theorem Lists.mem_iff {listed : List (GraphPosition φ)}
    (lists : Lists listed positions (enabledAddresses allocators))
    (distinct : DistinctPositions positions) {position : GraphPosition φ}
    (member : position ∈ positions) :
    position ∈ listed ↔ AllocatorOf allocators position := by
  constructor
  · intro isListed
    have proxy : position.proxy ∈ enabledAddresses allocators := by
      rw [← lists.proxies]
      exact List.mem_map_of_mem isListed
    obtain ⟨allocator, inside, same⟩ := List.mem_map.mp proxy
    obtain ⟨entry, enabled⟩ := List.mem_filter.mp inside
    exact ⟨allocator, entry, enabled, same⟩
  · rintro ⟨allocator, inside, enabled, proxy⟩
    have listedProxy : position.proxy ∈ listed.map fun position => position.proxy := by
      rw [lists.proxies, ← proxy]
      exact List.mem_map_of_mem (List.mem_filter.mpr ⟨inside, enabled⟩)
    obtain ⟨other, otherListed, same⟩ := List.mem_map.mp listedProxy
    rw [← List.inj_on_of_nodup_map distinct.proxies (lists.members other otherListed) member same]
    exact otherListed

omit [LT φ] [DecidableLT φ] in
theorem Lists.count {listed : List (GraphPosition φ)}
    (lists : Lists listed positions (enabledAddresses allocators)) (proxy : ChecksumAddress) :
    (listed.filter fun position => decide (position.proxy = proxy)).length =
      (allocators.filter fun allocator =>
        allocator.enabled && decide (allocator.address = proxy)).length := by
  have counts := congrArg (fun proxies => (proxies.filter fun other =>
    decide (other = proxy)).length) lists.proxies
  simp only [enabledAddresses, List.filter_map, List.length_map] at counts
  rw [List.filter_filter] at counts
  refine counts.trans (congrArg List.length (List.filter_congr fun allocator _ => ?_))
  exact Bool.and_comm _ _

theorem Lists.mem_joined {listed : List (GraphPosition φ)}
    (lists : Lists listed positions (enabledAddresses allocators))
    (distinct : DistinctPositions positions) (position : GraphPosition φ) :
    position ∈ joined threshold positions listed ↔ position ∈ positions ∧
      (threshold < position.borrowLtv ∨ AllocatorOf allocators position) := by
  rw [joined, List.mem_append, mem_borrowPositions, List.mem_filter, Bool.not_eq_true',
    decide_eq_false_iff_not]
  constructor
  · rintro (⟨member, above⟩ | ⟨isListed, -⟩)
    · exact ⟨member, Or.inl above⟩
    · have member := lists.members position isListed
      exact ⟨member, Or.inr ((lists.mem_iff distinct member).mp isListed)⟩
  · rintro ⟨member, above | allocator⟩
    · exact Or.inl ⟨member, above⟩
    · by_cases above : threshold < position.borrowLtv
      · exact Or.inl ⟨member, above⟩
      · exact Or.inr ⟨(lists.mem_iff distinct member).mpr allocator, above⟩

theorem filter_nodup_iff {α β : Type} [DecidableEq β] (key : α → β) (keep : α → Bool)
    {items : List α} (apart : Set.InjOn key {item | item ∈ items}) :
    (items.filter keep).Nodup ↔ ∀ item ∈ items, keep item = true →
      (items.filter fun other => decide (key other = key item)).length ≤ 1 := by
  have repeated : ∀ item ∈ items, [item, item].Sublist items ↔
      2 ≤ (items.filter fun other => decide (key other = key item)).length := by
    intro item member
    have copies := List.eq_replicate_of_mem (l := items.filter fun other =>
      decide (key other = key item)) (a := item) fun other inside => by
        obtain ⟨otherMember, same⟩ := List.mem_filter.mp inside
        exact apart otherMember member (of_decide_eq_true same)
    constructor
    · intro twice
      have kept := twice.filter fun other => decide (key other = key item)
      simpa using kept.length_le
    · intro twice
      have pair := (List.replicate_sublist_replicate item).mpr twice
      rw [← copies] at pair
      exact pair.trans List.filter_sublist
  rw [List.nodup_iff_sublist]
  constructor
  · intro once item member kept
    refine Nat.le_of_not_lt fun twice => once item ?_
    have pair := ((repeated item member).mpr twice).filter keep
    simpa [kept] using pair
  · intro single item twice
    obtain ⟨member, kept⟩ := List.mem_filter.mp (twice.subset List.mem_cons_self)
    have many := (repeated item member).mp (twice.trans List.filter_sublist)
    exact absurd (single item member kept) (Nat.not_le.mpr many)

theorem Lists.joined_nodup_iff {listed : List (GraphPosition φ)}
    (lists : Lists listed positions (enabledAddresses allocators))
    (distinct : DistinctPositions positions) :
    (joined threshold positions listed).Nodup ↔
      SingleAllocators threshold positions allocators := by
  have apart : Set.InjOn (fun position : GraphPosition φ => position.proxy)
      {position | position ∈ listed} := fun first firstListed second secondListed same =>
    List.inj_on_of_nodup_map distinct.proxies (lists.members first firstListed)
      (lists.members second secondListed) same
  rw [joined, List.nodup_append, filter_nodup_iff (fun position => position.proxy) _ apart]
  simp only [Bool.not_eq_true', decide_eq_false_iff_not, lists.count]
  constructor
  · rintro ⟨-, single, -⟩ position member below
    by_cases isListed : position ∈ listed
    · exact single position isListed below
    · have none := mt (lists.mem_iff distinct member).mpr isListed
      refine le_of_eq_of_le (List.length_eq_zero_iff.mpr ?_) (Nat.zero_le 1)
      rw [List.filter_eq_nil_iff]
      intro allocator inside entry
      rw [Bool.and_eq_true, decide_eq_true_eq] at entry
      exact none ⟨allocator, inside, entry⟩
  · intro single
    refine ⟨distinct.proxies.of_map.filter _, ?_, ?_⟩
    · intro position isListed below
      exact single position (lists.members position isListed) below
    · rintro position above other below rfl
      have excluded := (List.mem_filter.mp below).2
      rw [Bool.not_eq_true', decide_eq_false_iff_not] at excluded
      exact excluded (mem_borrowPositions.mp above).2

/-- The list always has the right positions. It has one of them twice exactly where a
position below the threshold has two entries of enabled vaults. -/
theorem fetchLeveragePositions_once_iff {reads : LeverageReads φ} {blockNumber : Nat}
    (answers : LeverageAnswers reads blockNumber threshold positions allocators)
    (distinct : DistinctPositions positions) :
    (∃ selected, fetchLeveragePositions reads blockNumber = .ok selected ∧
        ∀ position, position ∈ selected ↔ position ∈ positions ∧
          (threshold < position.borrowLtv ∨ AllocatorOf allocators position)) ∧
      ((∃ selected, fetchLeveragePositions reads blockNumber = .ok selected ∧
          SelectsOnce selected threshold positions allocators) ↔
        SingleAllocators threshold positions allocators) := by
  obtain ⟨listed, fetched, lists⟩ := fetchLeveragePositions_ok answers distinct
  rw [← lists.joined_nodup_iff distinct, fetched]
  refine ⟨⟨_, rfl, lists.mem_joined distinct⟩, ?_⟩
  constructor
  · rintro ⟨selected, same, selects⟩
    cases same
    exact selects.once
  · intro once
    exact ⟨_, rfl, lists.mem_joined distinct, once⟩

end

def leveragePosition (vault user proxy : ChecksumAddress) (borrowLtv : Nat) :
    GraphPosition Nat where
  user := user
  vault := vault
  proxy := proxy
  exitRequest := none
  borrowLtv := borrowLtv

def leverageReads (positions : List (GraphPosition Nat)) (allocators : List Allocator) :
    LeverageReads Nat where
  borrowLtv := .ok 90
  vaultLtv := .ok 91
  leveragePositions := fun _ => .ok positions
  allocators := fun _ _ _ => .ok allocators

/-- The proxy holds a second position in another enabled vault: below the borrow
threshold it is selected once for each of the two entries. -/
theorem position_selected_twice :
    let vault := ChecksumAddress.ofDigit '1' rfl
    let proxy := ChecksumAddress.ofDigit '4' rfl
    let position := leveragePosition vault (ChecksumAddress.ofDigit '2' rfl) proxy 80
    let allocators : List Allocator := [⟨proxy, 92⟩, ⟨proxy, 93⟩]
    LeverageAnswers (leverageReads [position] allocators) 7 90 [position] allocators ∧
      DistinctPositions [position] ∧
      fetchLeveragePositions (leverageReads [position] allocators) 7 =
        .ok [position, position] ∧
      ¬∃ selected, fetchLeveragePositions (leverageReads [position] allocators) 7 =
        .ok selected ∧ SelectsOnce selected 90 [position] allocators := by
  intro vault proxy position allocators
  have fetched : fetchLeveragePositions (leverageReads [position] allocators) 7 =
      .ok [position, position] := rfl
  refine ⟨⟨rfl, rfl, ⟨91, rfl, rfl⟩, by simp [allocators, position, leveragePosition]⟩,
    ⟨List.nodup_singleton _, List.nodup_singleton _⟩, fetched, ?_⟩
  rintro ⟨selected, same, selects⟩
  rw [fetched] at same
  cases same
  simpa using selects.once

/-- The first position is above the borrow threshold and has two entries, the second one
has an entry of an enabled vault and one of a disabled vault. -/
theorem fetchLeveragePositions_once_iff_two :
    let vault := ChecksumAddress.ofDigit '1' rfl
    let firstProxy := ChecksumAddress.ofDigit '4' rfl
    let secondProxy := ChecksumAddress.ofDigit '5' rfl
    let first := leveragePosition vault (ChecksumAddress.ofDigit '2' rfl) firstProxy 95
    let second := leveragePosition vault (ChecksumAddress.ofDigit '3' rfl) secondProxy 80
    let allocators : List Allocator := [⟨firstProxy, 92⟩, ⟨secondProxy, 92⟩, ⟨firstProxy, 93⟩,
      ⟨secondProxy, disabledLiqThreshold⟩]
    ∃ selected, fetchLeveragePositions (leverageReads [first, second] allocators) 7 =
      .ok selected ∧ SelectsOnce selected 90 [first, second] allocators := by
  intro vault firstProxy secondProxy first second allocators
  have proxies : firstProxy ≠ secondProxy := by decide
  have users : first.user ≠ second.user := by decide
  have answers : LeverageAnswers (leverageReads [first, second] allocators) 7 90
      [first, second] allocators :=
    ⟨rfl, rfl, ⟨91, rfl, rfl⟩, by simp [allocators, first, second, leveragePosition]⟩
  have distinct : DistinctPositions [first, second] := by
    constructor
    · simpa [first, second, leveragePosition] using proxies
    · simpa using fun _ => users
  refine (fetchLeveragePositions_once_iff answers distinct).2.mpr ?_
  unfold SingleAllocators
  decide

end V3Keeper
