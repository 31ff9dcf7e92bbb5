import V3Keeper.Library.PyOrder

/-!
Stable sorting by a key. The result is determined by the order of the keys alone, so two
keys that compare alike sort alike.
-/

namespace StableSort

variable {α β γ : Type*} [LinearOrder β] [LinearOrder γ]

/-- The items in ascending order of their keys, those of one key as they came. -/
structure SortedBy (key : α → β) (items sorted : List α) : Prop where
  perm : sorted.Perm items
  ascending : sorted.Pairwise fun first second => key first ≤ key second
  stable : ∀ value, sorted.filter (fun item => decide (key item = value)) =
    items.filter fun item => decide (key item = value)

variable {key : α → β} {other : α → γ} {items first second : List α}

theorem insertionSort_sortedBy (key : α → β) (items : List α) :
    SortedBy key items (items.insertionSort fun first second => key first ≤ key second) where
  perm := List.perm_insertionSort _ items
  ascending := Python.pairwise_sorted_by key items
  stable := by
    intro value
    have total : Std.Total fun first second : α => key first ≤ key second :=
      ⟨fun _ _ => le_total _ _⟩
    have transitive : IsTrans α fun first second => key first ≤ key second :=
      ⟨fun _ _ _ => le_trans⟩
    have equalKeys : (items.filter fun item => decide (key item = value)).Pairwise
        fun first second => key first ≤ key second := by
      refine List.pairwise_of_forall_mem_list ?_
      intro first firstMember second secondMember
      have firstKey := of_decide_eq_true (List.mem_filter.mp firstMember).2
      have secondKey := of_decide_eq_true (List.mem_filter.mp secondMember).2
      rw [firstKey, secondKey]
    have kept := (List.sublist_insertionSort equalKeys List.filter_sublist).filter
      fun item => decide (key item = value)
    rw [List.filter_filter] at kept
    simp only [Bool.and_self] at kept
    refine (kept.eq_of_length ?_).symm
    exact (((List.perm_insertionSort _ items).filter _).length_eq).symm

theorem SortedBy.unique (one : SortedBy key items first) (two : SortedBy key items second) :
    first = second := by
  have same : ∀ value, first.filter (fun item => decide (key item = value)) =
      second.filter fun item => decide (key item = value) :=
    fun value => (one.stable value).trans (two.stable value).symm
  have perm : first.Perm second := one.perm.trans two.perm.symm
  have ascending := one.ascending
  have otherAscending := two.ascending
  clear one two
  induction first generalizing second with
  | nil => exact (List.nil_perm.mp perm).symm
  | cons item rest ih =>
      cases second with
      | nil => exact absurd (List.perm_nil.mp perm) (List.cons_ne_nil _ _)
      | cons least others =>
          obtain ⟨below, tail⟩ := List.pairwise_cons.mp ascending
          obtain ⟨otherBelow, otherTail⟩ := List.pairwise_cons.mp otherAscending
          have up : key item ≤ key least := by
            rcases List.mem_cons.mp (perm.mem_iff.mpr List.mem_cons_self) with rfl | later
            · exact le_refl _
            · exact below least later
          have down : key least ≤ key item := by
            rcases List.mem_cons.mp (perm.mem_iff.mp List.mem_cons_self) with rfl | later
            · exact le_refl _
            · exact otherBelow item later
          have heads := same (key item)
          rw [List.filter_cons_of_pos (by simp),
            List.filter_cons_of_pos (by simpa using le_antisymm down up)] at heads
          obtain ⟨rfl, -⟩ := List.cons.inj heads
          refine congrArg (item :: ·) (ih ?_ perm.cons_inv tail otherTail)
          intro value
          have whole := same value
          rw [List.filter_cons, List.filter_cons] at whole
          split at whole
          · exact (List.cons.inj whole).2
          · exact whole

theorem SortedBy.of_key (sorted : SortedBy key items first)
    (alike : ∀ left right, key left ≤ key right ↔ other left ≤ other right) :
    SortedBy other items first where
  perm := sorted.perm
  ascending := sorted.ascending.imp fun below => (alike _ _).mp below
  stable := by
    intro value
    have equal : ∀ left right, key left = key right ↔ other left = other right := by
      intro left right
      rw [le_antisymm_iff, le_antisymm_iff, alike, alike]
    by_cases taken : ∃ item ∈ items, other item = value
    · obtain ⟨item, -, rfl⟩ := taken
      have stable := sorted.stable (key item)
      simpa only [equal] using stable
    · have none : ∀ item ∈ items, ¬other item = value :=
        fun item member same => taken ⟨item, member, same⟩
      rw [List.filter_eq_nil_iff.mpr (by simpa [sorted.perm.mem_iff] using none),
        List.filter_eq_nil_iff.mpr (by simpa using none)]

end StableSort
