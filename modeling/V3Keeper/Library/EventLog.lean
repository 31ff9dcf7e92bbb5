import Mathlib.Data.List.Basic
import Mathlib.Algebra.Order.Group.Int

/-!
A log in chain order, queried by inclusive block ranges. Cutting a range at a block
cuts the answer in two, so the last event of a range can be looked up from its end.
-/

namespace EventLog

variable {ε : Type*} (block : ε → Int)

def InChainOrder (log : List ε) : Prop :=
  log.Pairwise fun first second => block first ≤ block second

def between (fromBlock toBlock : Int) (log : List ε) : List ε :=
  log.filter fun event => decide (fromBlock ≤ block event) && decide (block event ≤ toBlock)

def lastUpTo (toBlock : Int) (log : List ε) : Option ε :=
  (log.filter fun event => decide (block event ≤ toBlock)).getLast?

variable {block}

theorem filter_split_at {log : List ε} (ordered : InChainOrder block log) (cut : Int) :
    log = log.filter (fun event => decide (block event ≤ cut)) ++
      log.filter (fun event => decide (cut < block event)) := by
  induction log with
  | nil => rfl
  | cons event rest ih =>
      obtain ⟨first, tail⟩ := List.pairwise_cons.mp ordered
      by_cases early : block event ≤ cut
      · simp only [List.filter_cons, early, decide_true, if_true, not_lt.mpr early, decide_false,
          Bool.false_eq_true, if_false, List.cons_append]
        rw [← ih tail]
      · have late : ∀ other ∈ event :: rest, ¬block other ≤ cut := by
          intro other member
          rcases List.mem_cons.mp member with rfl | later
          · exact early
          · exact fun small => early ((first other later).trans small)
        have none : (event :: rest).filter (fun event => decide (block event ≤ cut)) = [] := by
          simpa using late
        have all : (event :: rest).filter (fun event => decide (cut < block event)) =
            event :: rest := by
          rw [List.filter_eq_self]
          intro other member
          simpa using late other member
        rw [none, all, List.nil_append]

theorem filter_append_at {log : List ε} (ordered : InChainOrder block log) (cut : Int)
    (whole lower upper : Int → Bool)
    (lowerPart : ∀ height, lower height = (whole height && decide (height ≤ cut)))
    (upperPart : ∀ height, upper height = (whole height && decide (cut < height))) :
    log.filter (fun event => whole (block event)) =
      log.filter (fun event => lower (block event)) ++
        log.filter (fun event => upper (block event)) := by
  conv_lhs => rw [filter_split_at ordered cut, List.filter_append]
  simp only [List.filter_filter, lowerPart, upperPart]

theorem between_append {log : List ε} (ordered : InChainOrder block log)
    {fromBlock cut toBlock : Int} (lower : fromBlock ≤ cut + 1) (upper : cut ≤ toBlock) :
    between block fromBlock toBlock log =
      between block fromBlock cut log ++ between block (cut + 1) toBlock log := by
  refine filter_append_at ordered cut
    (fun height => decide (fromBlock ≤ height) && decide (height ≤ toBlock))
    (fun height => decide (fromBlock ≤ height) && decide (height ≤ cut))
    (fun height => decide (cut + 1 ≤ height) && decide (height ≤ toBlock)) ?_ ?_
  all_goals
    intro height
    rw [Bool.eq_iff_iff]
    simp only [Bool.and_eq_true, decide_eq_true_eq]
    omega

theorem lastUpTo_extend {log : List ε} (ordered : InChainOrder block log) {cut toBlock : Int}
    (upper : cut ≤ toBlock) :
    lastUpTo block toBlock log =
      ((between block (cut + 1) toBlock log).getLast?).or (lastUpTo block cut log) := by
  have split : log.filter (fun event => decide (block event ≤ toBlock)) =
      log.filter (fun event => decide (block event ≤ cut)) ++
        between block (cut + 1) toBlock log := by
    refine filter_append_at ordered cut (fun height => decide (height ≤ toBlock))
      (fun height => decide (height ≤ cut))
      (fun height => decide (cut + 1 ≤ height) && decide (height ≤ toBlock)) ?_ ?_
    all_goals
      intro height
      rw [Bool.eq_iff_iff]
      simp only [Bool.and_eq_true, decide_eq_true_eq]
      omega
  rw [lastUpTo, split, List.getLast?_append]
  rfl

theorem lastUpTo_in_block {log : List ε} (ordered : InChainOrder block log) {toBlock : Int}
    {event : ε} (last : lastUpTo block toBlock log = some event) :
    (between block (block event) (block event) log).getLast? = some event := by
  have member : event ∈ log.filter (fun other => decide (block other ≤ toBlock)) :=
    List.mem_of_getLast? last
  have bound : block event ≤ toBlock := by simpa using (List.mem_filter.mp member).2
  have upTo := lastUpTo_extend ordered bound
  have before : block event - 1 ≤ block event := Int.sub_le_self _ (by decide)
  have upToBlock := lastUpTo_extend ordered before
  rw [Int.sub_add_cancel] at upToBlock
  have inBlock : event ∈ between block (block event) (block event) log := by
    simpa [between] using (List.mem_filter.mp member).1
  cases later : (between block (block event + 1) toBlock log).getLast? with
  | some other =>
      rw [later, Option.some_or, last] at upTo
      have found := List.mem_of_getLast? later
      rw [← Option.some.inj upTo] at found
      have := (List.mem_filter.mp found).2
      simp only [Bool.and_eq_true, decide_eq_true_eq] at this
      omega
  | none =>
      rw [later, Option.none_or, last] at upTo
      rw [← upTo] at upToBlock
      cases found : (between block (block event) (block event) log).getLast? with
      | none => simp [List.getLast?_eq_none_iff.mp found] at inBlock
      | some other =>
          rw [found, Option.some_or] at upToBlock
          exact upToBlock.symm

end EventLog
