import Mathlib.Data.List.Count
import Mathlib.Data.List.Induction
import V3Keeper.Library.PyDict
import V3Keeper.Library.Python

/-! `collections.Counter` and the first entry of its `most_common`. -/

namespace Python

variable {α : Type*} [BEq α]

def countOne (counter : PyDict α Nat) (item : α) : PyDict α Nat :=
  counter.set item ((counter.get? item).getD 0 + 1)

def counterOf (items : List α) : PyDict α Nat := items.foldl countOne PyDict.empty

def counter [PyHash α] (items : List α) : Except PyError (PyDict α Nat) :=
  if items.all PyHash.hashable then .ok (counterOf items) else .error .typeError

def greater (best next : α × Nat) : α × Nat := if best.2 < next.2 then next else best

/-- Of the entries with the greatest count, the one that came in first. -/
def mostCommon (counter : PyDict α Nat) : Option (α × Nat) :=
  match counter.entries with
  | [] => none
  | entry :: rest => some (rest.foldl greater entry)

omit [BEq α] in
theorem greater_spec (best next : α × Nat) :
    (greater best next = best ∨ greater best next = next) ∧
      best.2 ≤ (greater best next).2 ∧ next.2 ≤ (greater best next).2 := by
  unfold greater
  split <;> simp <;> omega

omit [BEq α] in
theorem foldl_greater (entry : α × Nat) (entries : List (α × Nat)) :
    entries.foldl greater entry ∈ entry :: entries ∧
      ∀ other ∈ entry :: entries, other.2 ≤ (entries.foldl greater entry).2 := by
  induction entries generalizing entry with
  | nil => simp
  | cons first rest ih =>
      obtain ⟨choice, entryBound, firstBound⟩ := greater_spec entry first
      obtain ⟨member, greatest⟩ := ih (greater entry first)
      have bound := greatest _ List.mem_cons_self
      rw [List.foldl_cons]
      refine ⟨?_, ?_⟩
      · rcases List.mem_cons.mp member with same | later
        · rw [same]
          rcases choice with old | new
          · simp [old]
          · simp [new]
        · exact List.mem_cons_of_mem _ (List.mem_cons_of_mem _ later)
      · intro other otherMember
        rcases List.mem_cons.mp otherMember with rfl | otherMember
        · exact Nat.le_trans entryBound bound
        · rcases List.mem_cons.mp otherMember with rfl | later
          · exact Nat.le_trans firstBound bound
          · exact greatest other (List.mem_cons_of_mem _ later)

theorem counterOf_concat (items : List α) (item : α) :
    counterOf (items ++ [item]) = countOne (counterOf items) item := by
  simp [counterOf]

theorem mostCommon_single [PyHash α] {item : α} {bodies : PyDict α Nat}
    (counted : counter [item] = .ok bodies) : mostCommon bodies = some (item, 1) := by
  unfold counter at counted
  split at counted
  case isTrue =>
    rw [← Except.ok.inj counted]
    rfl
  case isFalse => cases counted

section Lawful

variable [LawfulBEq α]

theorem mem_counterOf {items : List α} {entry : α × Nat} :
    entry ∈ (counterOf items).entries ↔ entry.1 ∈ items ∧ entry.2 = items.count entry.1 := by
  induction items using List.reverseRecOn generalizing entry with
  | nil => simp [counterOf]
  | append_singleton items item ih =>
      have lookup : ((counterOf items).get? item).getD 0 = items.count item := by
        cases found : (counterOf items).get? item with
        | some value => exact (ih.mp (PyDict.get?_eq_some.mp found)).2
        | none =>
            have absent := PyDict.get?_eq_none.mp found
            refine (List.count_eq_zero.mpr fun member => absent ?_).symm
            exact List.mem_map.mpr ⟨(item, items.count item), ih.mpr ⟨member, rfl⟩, rfl⟩
      rw [counterOf_concat, countOne, PyDict.mem_set, lookup, ih, List.count_append,
        List.mem_append, List.mem_singleton]
      by_cases same : entry.1 = item
      · simp only [same, ne_eq, not_true_eq_false, and_false, false_or, or_true, true_and,
          List.count_singleton_self]
        rw [Prod.ext_iff]
        simp [same]
      · have different : ¬item = entry.1 := fun equal => same equal.symm
        have other : entry ≠ (item, items.count item + 1) := fun equal => same (by rw [equal])
        simp [same, different, other]

theorem mostCommon_spec (items : List α) (nonempty : items ≠ []) :
    ∃ winner, mostCommon (counterOf items) = some (winner, items.count winner) ∧
      winner ∈ items ∧ ∀ other, items.count other ≤ items.count winner := by
  obtain ⟨item, member⟩ := List.exists_mem_of_ne_nil _ nonempty
  cases entriesEq : (counterOf items).entries with
  | nil =>
      have present : (item, items.count item) ∈ (counterOf items).entries :=
        mem_counterOf.mpr ⟨member, rfl⟩
      rw [entriesEq] at present
      cases present
  | cons first rest =>
      obtain ⟨best, greatest⟩ := foldl_greater first rest
      rw [← entriesEq] at best greatest
      obtain ⟨winnerMember, count⟩ := mem_counterOf.mp best
      refine ⟨(rest.foldl greater first).1, ?_, winnerMember, ?_⟩
      · simp only [mostCommon, entriesEq]
        rw [← count]
      · intro other
        by_cases present : other ∈ items
        · rw [← count]
          exact greatest (other, items.count other) (mem_counterOf.mpr ⟨present, rfl⟩)
        · rw [List.count_eq_zero.mpr present]
          exact Nat.zero_le _

theorem counter_mostCommon [PyHash α] {items : List α}
    (hashed : items.all PyHash.hashable = true) (nonempty : items ≠ []) :
    ∃ counted winner, counter items = .ok counted ∧
      mostCommon counted = some (winner, items.count winner) ∧
      ∀ other, items.count other ≤ items.count winner := by
  obtain ⟨winner, first, -, greatest⟩ := mostCommon_spec items nonempty
  exact ⟨counterOf items, winner, if_pos hashed, first, greatest⟩

theorem count_add_count_le {items : List α} {first second : α} (different : first ≠ second) :
    items.count first + items.count second ≤ items.length := by
  induction items with
  | nil => simp
  | cons item rest ih =>
      rw [List.count_cons, List.count_cons, List.length_cons]
      by_cases one : item = first
      · rw [one, if_pos (beq_self_eq_true first), if_neg (by simpa using different)]
        omega
      · rw [if_neg (by simpa using one)]
        split <;> omega

theorem majority_unique {items : List α} {first second : α} {threshold : Nat}
    (majority : items.length < 2 * threshold) (firstEnough : threshold ≤ items.count first)
    (secondEnough : threshold ≤ items.count second) : first = second := by
  by_contra different
  have both : items.count first + items.count second ≤ items.length :=
    count_add_count_le different
  omega

end Lawful

theorem count_map {β : Type*} (key : β → α) (items : List β) (value : α) :
    (items.map key).count value = (items.filter fun item => key item == value).length := by
  rw [List.count, List.countP_map, List.countP_eq_length_filter]
  rfl

end Python
