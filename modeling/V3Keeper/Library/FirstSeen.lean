import Mathlib.Data.List.Nodup

/-! Dropping the repeated items of a list, each kept where it came first. -/

namespace FirstSeen

variable {α : Type*} [BEq α] [LawfulBEq α]

theorem eraseDups_filter (keep : α → Bool) (items : List α) :
    (items.filter keep).eraseDups = items.eraseDups.filter keep := by
  induction length : items.length using Nat.strongRecOn generalizing items with
  | ind size ih =>
      cases items with
      | nil => rfl
      | cons first rest =>
          have shorter : (rest.filter fun other => !other == first).length < size := by
            rw [← length]
            exact Nat.lt_succ_of_le (List.length_filter_le _ _)
          have tail := ih _ shorter _ rfl
          rw [List.filter_comm] at tail
          rw [List.eraseDups_cons, List.filter_cons, List.filter_cons]
          by_cases kept : keep first = true
          · rw [if_pos kept, if_pos kept, List.eraseDups_cons, tail]
          · have others : (rest.filter keep).filter (fun other => !other == first) =
                rest.filter keep := by
              rw [List.filter_eq_self]
              intro other member
              have different : other ≠ first := fun same =>
                kept (same ▸ (List.mem_filter.mp member).2)
              simpa using different
            rw [if_neg kept, if_neg kept, ← tail, others]

theorem eraseDups_of_nodup {items : List α} (nodup : items.Nodup) : items.eraseDups = items := by
  induction items with
  | nil => rfl
  | cons first rest ih =>
      obtain ⟨absent, tail⟩ := List.nodup_cons.mp nodup
      have others : rest.filter (fun other => !other == first) = rest := by
        rw [List.filter_eq_self]
        intro other member
        have different : other ≠ first := fun same => absent (same ▸ member)
        simpa using different
      rw [List.eraseDups_cons, others, ih tail]

theorem nodup_eraseDups (items : List α) : items.eraseDups.Nodup := by
  induction length : items.length using Nat.strongRecOn generalizing items with
  | ind size ih =>
      cases items with
      | nil => exact List.nodup_nil
      | cons first rest =>
          have shorter : (rest.filter fun other => !other == first).length < size := by
            rw [← length]
            exact Nat.lt_succ_of_le (List.length_filter_le _ _)
          rw [List.eraseDups_cons]
          refine List.nodup_cons.mpr ⟨?_, ih _ shorter _ rfl⟩
          rw [List.mem_eraseDups, List.mem_filter]
          simp

theorem eraseDups_eraseDups_append (items later : List α) :
    (items.eraseDups ++ later).eraseDups = (items ++ later).eraseDups := by
  have known : ∀ item, items.eraseDups.elem item = items.elem item := by
    intro item
    rw [Bool.eq_iff_iff, List.elem_eq_mem, List.elem_eq_mem, decide_eq_true_eq, decide_eq_true_eq,
      List.mem_eraseDups]
  rw [List.eraseDups_append, List.eraseDups_append, eraseDups_of_nodup (nodup_eraseDups items)]
  simp only [List.removeAll, known]

end FirstSeen
