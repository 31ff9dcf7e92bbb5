import Mathlib.Data.Finset.Sort
import Mathlib.Data.List.DropRight
import Mathlib.Data.List.Nodup
import Mathlib.Order.MinMax

/-!
Keeping the greatest keys of a list by dropping the least one again and again. A key
stays if and only if few enough keys are greater.
-/

namespace Newest

variable {κ : Type*} [LinearOrder κ]

def above (keys : List κ) (key : κ) : Nat := (keys.filter fun other => decide (key < other)).length

theorem above_perm {first second : List κ} (same : first.Perm second) (key : κ) :
    above first key = above second key := (same.filter _).length_eq

theorem above_lt_length {keys : List κ} {key : κ} (member : key ∈ keys) :
    above keys key < keys.length := by
  rw [above, List.length_filter_lt_length_iff_exists]
  exact ⟨key, member, by simp⟩

theorem above_least {keys : List κ} (nodup : keys.Nodup) {least : κ} (member : least ∈ keys)
    (minimal : ∀ key ∈ keys, least ≤ key) : above keys least + 1 = keys.length := by
  have others : keys.filter (fun other => decide (least < other)) = keys.erase least := by
    rw [nodup.erase_eq_filter]
    refine List.filter_congr fun key keyMember => ?_
    rw [Bool.eq_iff_iff, decide_eq_true_eq, bne_iff_ne]
    exact ⟨fun larger => larger.ne',
      fun different => lt_of_le_of_ne (minimal key keyMember) different.symm⟩
  rw [above, others, List.length_erase_of_mem member]
  exact Nat.sub_add_cancel (List.length_pos_of_mem member)

theorem above_without_least {keys : List κ} {least key : κ}
    (minimal : ∀ other ∈ keys, least ≤ other) (member : key ∈ keys) :
    above (keys.filter fun other => !decide (other = least)) key = above keys key := by
  rw [above, above, List.filter_filter]
  refine congrArg List.length (List.filter_congr fun other _ => ?_)
  by_cases larger : key < other
  · have different : other ≠ least := ((minimal key member).trans_lt larger).ne'
    simp [larger, different]
  · simp [larger]

def newer (keys : Finset κ) (key : κ) : Nat := (keys.filter fun other => key < other).card

def newest (size : Nat) (keys : Finset κ) : Finset κ :=
  keys.filter fun key => newer keys key < size

theorem above_eq_newer {keys : List κ} (nodup : keys.Nodup) (key : κ) :
    above keys key = newer keys.toFinset key := by
  rw [above, ← List.toFinset_card_of_nodup (nodup.filter _), List.toFinset_filter, newer]
  simp only [decide_eq_true_eq]

theorem newer_mono {keys others : Finset κ} (subset : keys ⊆ others) (key : κ) :
    newer keys key ≤ newer others key :=
  Finset.card_le_card (Finset.filter_subset_filter _ subset)

theorem newer_anti (keys : Finset κ) {older key : κ} (below : older ≤ key) :
    newer keys key ≤ newer keys older := by
  refine Finset.card_le_card fun other member => ?_
  rw [Finset.mem_filter] at member ⊢
  exact ⟨member.1, below.trans_lt member.2⟩

theorem newer_insert_least {keys : Finset κ} {least key : κ}
    (minimal : ∀ other ∈ keys, least < other) (member : key ∈ insert least keys) :
    newer (insert least keys) key = newer keys key := by
  have skipped : ¬key < least := by
    rcases Finset.mem_insert.mp member with rfl | inside
    · exact lt_irrefl key
    · exact (minimal key inside).le.not_gt
  rw [newer, Finset.filter_insert, if_neg skipped, newer]

theorem newer_least {keys : Finset κ} {least : κ} (minimal : ∀ other ∈ keys, least < other) :
    newer keys least = keys.card := by
  rw [newer, Finset.filter_true_of_mem minimal]

theorem newest_insert_least (size : Nat) {keys : Finset κ} {least : κ}
    (minimal : ∀ other ∈ keys, least < other) :
    newest size (insert least keys) =
      if keys.card < size then insert least (newest size keys) else newest size keys := by
  have same : (insert least keys).filter (fun key => newer (insert least keys) key < size) =
      (insert least keys).filter fun key => newer keys key < size :=
    Finset.filter_congr fun key member => by rw [newer_insert_least minimal member]
  rw [newest, same, Finset.filter_insert, newer_least minimal]
  rfl

theorem least_notMem_newest {size : Nat} {keys : Finset κ} {least : κ}
    (minimal : ∀ other ∈ keys, least < other) : least ∉ newest size keys :=
  fun member => lt_irrefl least (minimal least (Finset.mem_filter.mp member).1)

theorem card_newest (size : Nat) (keys : Finset κ) :
    (newest size keys).card = min size keys.card := by
  induction keys using Finset.induction_on_min with
  | empty => simp [newest]
  | insert least keys minimal ih =>
      have fresh : least ∉ keys := fun member => lt_irrefl least (minimal least member)
      rw [newest_insert_least size minimal, Finset.card_insert_of_notMem fresh]
      split
      · rw [Finset.card_insert_of_notMem (least_notMem_newest minimal), ih]
        omega
      · omega

theorem newer_newest_union (size : Nat) (keys fresh : Finset κ) (key : κ) :
    newer (newest size keys ∪ fresh) key < size ↔ newer (keys ∪ fresh) key < size := by
  constructor
  · intro few
    by_cases dropped : ∃ other ∈ keys, key < other ∧ ¬newer keys other < size
    · obtain ⟨other, member, above, old⟩ := dropped
      have kept : newest size keys ⊆
          (newest size keys ∪ fresh).filter fun other => key < other := by
        intro survivor inside
        refine Finset.mem_filter.mpr ⟨Finset.mem_union_left _ inside, ?_⟩
        refine not_le.mp fun below => old ?_
        exact (newer_anti keys (below.trans above.le)).trans_lt (Finset.mem_filter.mp inside).2
      have full : size ≤ keys.card := (not_lt.mp old).trans (Finset.card_filter_le _ _)
      have bound := Finset.card_le_card kept
      rw [card_newest, min_eq_left full] at bound
      exact absurd few (not_lt.mpr bound)
    · refine lt_of_eq_of_lt ?_ few
      refine congrArg Finset.card (Finset.ext fun other => ?_)
      simp only [newest, Finset.mem_filter, Finset.mem_union]
      grind
  · exact (newer_mono (Finset.union_subset_union_left (Finset.filter_subset _ _)) key).trans_lt

theorem sort_rtake (size : Nat) (keys : Finset κ) :
    keys.sort.rtake size = (newest size keys).sort := by
  induction keys using Finset.induction_on_min with
  | empty => simp [newest]
  | insert least keys minimal ih =>
      have fresh : least ∉ keys := fun member => lt_irrefl least (minimal least member)
      have below : ∀ key ∈ keys, least ≤ key := fun key member => (minimal key member).le
      have length : keys.sort.length = keys.card := Finset.length_sort _
      rw [newest_insert_least size minimal, Finset.sort_insert _ below fresh]
      split
      case isTrue room =>
        have belowNewest : ∀ key ∈ newest size keys, least ≤ key :=
          fun key member => below key (Finset.mem_filter.mp member).1
        rw [Finset.sort_insert _ belowNewest (least_notMem_newest minimal), ← ih]
        rw [List.rtake, List.rtake, List.length_cons, length]
        rw [Nat.sub_eq_zero_of_le (by omega), Nat.sub_eq_zero_of_le (by omega)]
        rfl
      case isFalse full =>
        rw [← ih, List.rtake, List.rtake, List.length_cons, length]
        rw [show keys.card + 1 - size = keys.card - size + 1 by omega]
        rfl

end Newest
