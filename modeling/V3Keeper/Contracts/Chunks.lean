import Mathlib.Logic.Function.Iterate
import V3Keeper.Contracts.Events

/-!
The chunks of `_get_last_event`: the loop that builds them ends, they partition the
queried range, and looking them up is one query of the whole range.
-/

namespace V3Keeper

open Python Batched EventLog

/-- One round of the loop that collects `ranges` and moves `chunk_to` down. -/
def buildChunk (blocksRange : Nat) (fromBlock : Int) (loop : List (Int × Int) × Int) :
    List (Int × Int) × Int :=
  (loop.1 ++ [(max (loop.2 - blocksRange) fromBlock, loop.2)], loop.2 - blocksRange - 1)

def coversBlock (height : Int) (range : Int × Int) : Bool :=
  decide (range.1 ≤ height) && decide (height ≤ range.2)

structure Partition (fromBlock toBlock : Int) (ranges : List (Int × Int)) : Prop where
  disjoint : ranges.Pairwise fun upper lower => lower.2 < upper.1
  within : ∀ range ∈ ranges, fromBlock ≤ range.1 ∧ range.1 ≤ range.2 ∧ range.2 ≤ toBlock
  cover : ∀ height, fromBlock ≤ height → height ≤ toBlock →
    ranges.countP (coversBlock height) = 1

variable {blocksRange : Nat} {fromBlock chunkTo : Int}

theorem eventRanges_within {range : Int × Int}
    (member : range ∈ eventRanges blocksRange fromBlock chunkTo) :
    fromBlock ≤ range.1 ∧ range.1 ≤ range.2 ∧ range.2 ≤ chunkTo := by
  induction chunkTo using eventRanges.induct blocksRange fromBlock with
  | case1 chunkTo inside ih =>
      rw [eventRanges, if_pos inside] at member
      rcases List.mem_cons.mp member with rfl | lower
      · dsimp only
        omega
      · have within := ih lower
        omega
  | case2 chunkTo outside =>
      rw [eventRanges, if_neg outside] at member
      cases member

theorem eventRanges_disjoint (blocksRange : Nat) (fromBlock chunkTo : Int) :
    (eventRanges blocksRange fromBlock chunkTo).Pairwise fun upper lower =>
      lower.2 < upper.1 := by
  induction chunkTo using eventRanges.induct blocksRange fromBlock with
  | case1 chunkTo inside ih =>
      rw [eventRanges, if_pos inside]
      refine List.pairwise_cons.mpr ⟨?_, ih⟩
      intro lower member
      have within := eventRanges_within member
      dsimp only
      omega
  | case2 chunkTo outside =>
      rw [eventRanges, if_neg outside]
      exact List.Pairwise.nil

theorem eventRanges_cover {height : Int} (lower : fromBlock ≤ height)
    (upper : height ≤ chunkTo) :
    (eventRanges blocksRange fromBlock chunkTo).countP (coversBlock height) = 1 := by
  induction chunkTo using eventRanges.induct blocksRange fromBlock with
  | case1 chunkTo inside ih =>
      rw [eventRanges, if_pos inside, List.countP_cons]
      by_cases below : height ≤ chunkTo - blocksRange - 1
      · have outside :
            coversBlock height (max (chunkTo - blocksRange) fromBlock, chunkTo) = false := by
          simp only [coversBlock, Bool.and_eq_false_iff, decide_eq_false_iff_not]
          omega
        rw [ih below, outside]
        rfl
      · have covered :
            coversBlock height (max (chunkTo - blocksRange) fromBlock, chunkTo) = true := by
          simp only [coversBlock, Bool.and_eq_true, decide_eq_true_eq]
          omega
        have rest : (eventRanges blocksRange fromBlock (chunkTo - blocksRange - 1)).countP
            (coversBlock height) = 0 := by
          rw [List.countP_eq_zero]
          intro range member
          have within := eventRanges_within member
          simp only [coversBlock, Bool.and_eq_true, decide_eq_true_eq]
          omega
        rw [rest, covered]
        rfl
  | case2 chunkTo outside => omega

theorem eventRanges_partition (blocksRange : Nat) (fromBlock toBlock : Int) :
    Partition fromBlock toBlock (eventRanges blocksRange fromBlock toBlock) where
  disjoint := eventRanges_disjoint blocksRange fromBlock toBlock
  within := fun _ member => eventRanges_within member
  cover := fun _ lower upper => eventRanges_cover lower upper

theorem buildChunk_rounds (blocksRange : Nat) (fromBlock chunkTo : Int)
    (ranges : List (Int × Int)) :
    ∃ rounds last,
      (∀ round < rounds,
        fromBlock ≤ ((buildChunk blocksRange fromBlock)^[round] (ranges, chunkTo)).2) ∧
      (buildChunk blocksRange fromBlock)^[rounds] (ranges, chunkTo) =
        (ranges ++ eventRanges blocksRange fromBlock chunkTo, last) ∧
      last < fromBlock := by
  induction chunkTo using eventRanges.induct blocksRange fromBlock generalizing ranges with
  | case1 chunkTo inside ih =>
      obtain ⟨rounds, last, running, built, stopped⟩ :=
        ih (ranges ++ [(max (chunkTo - blocksRange) fromBlock, chunkTo)])
      refine ⟨rounds + 1, last, ?_, ?_, stopped⟩
      · intro round bound
        cases round with
        | zero => exact inside
        | succ round =>
            rw [Function.iterate_succ_apply]
            exact running round (by omega)
      · rw [Function.iterate_succ_apply, eventRanges, if_pos inside]
        refine built.trans ?_
        rw [List.append_assoc]
        rfl
  | case2 chunkTo outside =>
      refine ⟨0, chunkTo, by simp, ?_, not_le.mp outside⟩
      rw [eventRanges, if_neg outside, List.append_nil]
      rfl

section

variable {ε : Type} {block : ε → Int} {chain : List ε} {getLogs : GetLogs ε}

/-- The chunks partition the queried range, and looking them up from the end finds what
one query of the whole range ends with. -/
theorem getLastEvent_eq_single_query (ordered : InChainOrder block chain)
    (answers : ∀ fromBlock toBlock,
      getLogs fromBlock toBlock = .ok (between block fromBlock toBlock chain))
    {settings : EventSettings} (positive : 1 ≤ settings.eventsConcurrency)
    (fromBlock toBlock : Int) :
    Partition fromBlock toBlock (eventRanges settings.blocksRange fromBlock toBlock) ∧
      (∃ rounds chunkTo,
        (∀ round < rounds,
          fromBlock ≤ ((buildChunk settings.blocksRange fromBlock)^[round] ([], toBlock)).2) ∧
        (buildChunk settings.blocksRange fromBlock)^[rounds] ([], toBlock) =
          (eventRanges settings.blocksRange fromBlock toBlock, chunkTo) ∧
        chunkTo < fromBlock) ∧
      ∃ events, getLogs fromBlock toBlock = .ok events ∧
        getLastEvent settings getLogs fromBlock toBlock = .ok events.getLast? ∧
        (getLastEvent settings getLogs fromBlock toBlock = .ok none ↔ events = []) := by
  have truthful : AnswersFrom block chain getLogs := by
    intro first last events answer
    exact (Except.ok.inj ((answers first last).symm.trans answer)).symm
  have found := getLastEvent_answered truthful ordered
    (fun first last => ⟨_, answers first last⟩) positive fromBlock toBlock
  refine ⟨eventRanges_partition _ _ _, buildChunk_rounds _ fromBlock toBlock [],
    _, answers fromBlock toBlock, found, ?_⟩
  rw [found, Except.ok.injEq, List.getLast?_eq_none_iff]

end

def smallChain : List Int := [2, 7, 8, 11]

theorem getLastEvent_smallChain :
    Partition 0 10 (eventRanges 3 0 10) ∧
      getLastEvent ⟨36, 12, 2⟩ (fun first last => .ok (between id first last smallChain)) 0 10 =
        .ok (some 8) := by
  have ordered : InChainOrder id smallChain := by simp [InChainOrder, smallChain]
  have positive : 1 ≤ (⟨36, 12, 2⟩ : EventSettings).eventsConcurrency := by decide
  obtain ⟨partition, -, events, answer, found, -⟩ := getLastEvent_eq_single_query ordered
    (fun _ _ => rfl) positive 0 10
  refine ⟨partition, ?_⟩
  rw [found, ← Except.ok.inj answer]
  rfl

end V3Keeper
