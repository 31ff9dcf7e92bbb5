import Mathlib.Data.List.Nodup

/-!
Dictionaries that keep the order in which their keys came in. The keys of a dictionary
are pairwise different under `==`, which need not be a lawful equality.
-/

namespace Python

variable {κ ν : Type*} [BEq κ]

structure PyDict (κ ν : Type*) [BEq κ] where
  entries : List (κ × ν)
  distinct : entries.Pairwise fun first second => (first.1 == second.1) = false

namespace PyDict

def empty : PyDict κ ν := ⟨[], List.Pairwise.nil⟩

def keys (dict : PyDict κ ν) : List κ := dict.entries.map Prod.fst

def values (dict : PyDict κ ν) : List ν := dict.entries.map Prod.snd

def size (dict : PyDict κ ν) : Nat := dict.entries.length

def get? (dict : PyDict κ ν) (key : κ) : Option ν :=
  (dict.entries.find? fun entry => entry.1 == key).map Prod.snd

def setEntry (key : κ) (value : ν) : List (κ × ν) → List (κ × ν)
  | [] => [(key, value)]
  | entry :: rest =>
      if entry.1 == key then (entry.1, value) :: rest else entry :: setEntry key value rest

theorem mem_setEntry {key : κ} {value : ν} {entry : κ × ν} {entries : List (κ × ν)}
    (distinct : entries.Pairwise fun first second => (first.1 == second.1) = false)
    (member : entry ∈ setEntry key value entries) :
    (entry ∈ entries ∧ ((entry.1 == key) = false ∨
        ∃ old ∈ entries, (old.1 == key) = true ∧ (old.1 == entry.1) = false)) ∨
      (entries.find? (fun old => old.1 == key) = none ∧ entry = (key, value)) ∨
      ∃ old, entries.find? (fun old => old.1 == key) = some old ∧ entry = (old.1, value) := by
  induction entries with
  | nil => exact Or.inr (Or.inl ⟨rfl, List.mem_singleton.mp member⟩)
  | cons first rest ih =>
      obtain ⟨apart, tail⟩ := List.pairwise_cons.mp distinct
      rw [setEntry] at member
      by_cases same : (first.1 == key) = true
      · rw [if_pos same] at member
        rcases List.mem_cons.mp member with new | old
        · exact Or.inr (Or.inr ⟨first, by simp [same], new⟩)
        · exact Or.inl ⟨List.mem_cons_of_mem _ old,
            Or.inr ⟨first, List.mem_cons_self, same, apart entry old⟩⟩
      · rw [if_neg same] at member
        have search : (first :: rest).find? (fun old => old.1 == key) =
            rest.find? fun old => old.1 == key := by simp [same]
        rw [search]
        rcases List.mem_cons.mp member with rfl | later
        · exact Or.inl ⟨List.mem_cons_self, Or.inl (Bool.eq_false_iff.mpr same)⟩
        · rcases ih tail later with ⟨old, other | ⟨found, foundMember, apart⟩⟩ | new
          · exact Or.inl ⟨List.mem_cons_of_mem _ old, Or.inl other⟩
          · exact Or.inl ⟨List.mem_cons_of_mem _ old,
              Or.inr ⟨found, List.mem_cons_of_mem _ foundMember, apart⟩⟩
          · exact Or.inr new

theorem setEntry_distinct (key : κ) (value : ν) {entries : List (κ × ν)}
    (distinct : entries.Pairwise fun first second => (first.1 == second.1) = false) :
    (setEntry key value entries).Pairwise fun first second => (first.1 == second.1) = false := by
  induction entries with
  | nil => exact List.pairwise_singleton _ _
  | cons first rest ih =>
      obtain ⟨apart, tail⟩ := List.pairwise_cons.mp distinct
      rw [setEntry]
      split
      case isTrue => exact List.pairwise_cons.mpr ⟨apart, tail⟩
      case isFalse other =>
        refine List.pairwise_cons.mpr ⟨?_, ih tail⟩
        intro entry member
        rcases mem_setEntry tail member with ⟨old, -⟩ | ⟨-, new⟩ | ⟨old, found, new⟩
        · exact apart entry old
        · rw [new]
          exact Bool.eq_false_iff.mpr other
        · rw [new]
          exact apart old (List.mem_of_find?_eq_some found)

def set (dict : PyDict κ ν) (key : κ) (value : ν) : PyDict κ ν :=
  ⟨setEntry key value dict.entries, setEntry_distinct key value dict.distinct⟩

def erase (dict : PyDict κ ν) (key : κ) : PyDict κ ν :=
  ⟨dict.entries.eraseP fun entry => entry.1 == key, dict.distinct.sublist List.eraseP_sublist⟩

@[simp] theorem entries_empty : (empty : PyDict κ ν).entries = [] := rfl

theorem mem_of_get? {dict : PyDict κ ν} {key : κ} {value : ν}
    (found : dict.get? key = some value) :
    ∃ entry ∈ dict.entries, (entry.1 == key) = true ∧ entry.2 = value := by
  obtain ⟨entry, lookup, rfl⟩ := Option.map_eq_some_iff.mp found
  have same := List.find?_some lookup
  exact ⟨entry, List.mem_of_find?_eq_some lookup, same, rfl⟩

theorem mem_set_cases {dict : PyDict κ ν} {key : κ} {value : ν} {entry : κ × ν}
    (member : entry ∈ (dict.set key value).entries) :
    (entry ∈ dict.entries ∧ ((entry.1 == key) = false ∨
        ∃ old ∈ dict.entries, (old.1 == key) = true ∧ (old.1 == entry.1) = false)) ∨
      (dict.get? key = none ∧ entry = (key, value)) ∨
      ∃ old ∈ dict.entries, (old.1 == key) = true ∧ dict.get? key = some old.2 ∧
        entry = (old.1, value) := by
  rcases mem_setEntry dict.distinct member with old | ⟨absent, new⟩ | ⟨old, found, new⟩
  · exact Or.inl old
  · exact Or.inr (Or.inl ⟨by rw [get?, absent]; rfl, new⟩)
  · have same := List.find?_some found
    exact Or.inr (Or.inr ⟨old, List.mem_of_find?_eq_some found, same,
      by rw [get?, found]; rfl, new⟩)

theorem exists_mem_set (dict : PyDict κ ν) (key : κ) (value : ν) :
    ∃ entry ∈ (dict.set key value).entries,
      (entry.1 = key ∨ (entry.1 == key) = true) ∧ entry.2 = value := by
  change ∃ entry ∈ setEntry key value dict.entries, _
  induction dict.entries with
  | nil => exact ⟨(key, value), List.mem_cons_self, Or.inl rfl, rfl⟩
  | cons first rest ih =>
      rw [setEntry]
      split
      case isTrue same => exact ⟨(first.1, value), List.mem_cons_self, Or.inr same, rfl⟩
      case isFalse =>
        obtain ⟨entry, member, found⟩ := ih
        exact ⟨entry, List.mem_cons_of_mem _ member, found⟩

theorem keys_set (dict : PyDict κ ν) (key : κ) (value : ν) :
    (dict.set key value).keys =
      if dict.keys.any (· == key) then dict.keys else dict.keys ++ [key] := by
  obtain ⟨entries, distinct⟩ := dict
  change (setEntry key value entries).map Prod.fst =
    if (entries.map Prod.fst).any (· == key) then entries.map Prod.fst
    else entries.map Prod.fst ++ [key]
  clear distinct
  induction entries with
  | nil => rfl
  | cons first rest ih =>
      rw [setEntry]
      by_cases same : (first.1 == key) = true
      · simp [same]
      · rw [if_neg same, List.map_cons, ih, List.map_cons, List.any_cons,
          Bool.eq_false_iff.mpr same, Bool.false_or]
        split <;> rfl

theorem mem_keys_set {dict : PyDict κ ν} {other : κ} (member : other ∈ dict.keys) (key : κ)
    (value : ν) : other ∈ (dict.set key value).keys := by
  rw [keys_set]
  split
  · exact member
  · exact List.mem_append_left _ member

theorem mem_erase {dict : PyDict κ ν} {key : κ} {entry : κ × ν}
    (member : entry ∈ (dict.erase key).entries) : entry ∈ dict.entries :=
  List.mem_of_mem_eraseP member

theorem erase_entries_of {dict : PyDict κ ν} {key : κ}
    (single : ∀ first ∈ dict.entries, ∀ second ∈ dict.entries,
      (first.1 == key) = true → (second.1 == key) = true → (first.1 == second.1) = true) :
    (dict.erase key).entries = dict.entries.filter fun entry => !(entry.1 == key) := by
  obtain ⟨entries, distinct⟩ := dict
  change entries.eraseP (fun entry => entry.1 == key) = _
  change ∀ first ∈ entries, ∀ second ∈ entries, _ at single
  induction entries with
  | nil => rfl
  | cons first rest ih =>
      obtain ⟨apart, tail⟩ := List.pairwise_cons.mp distinct
      by_cases same : (first.1 == key) = true
      · have others : ∀ other ∈ rest, (!(other.1 == key)) = true := by
          intro other member
          rw [Bool.not_eq_true', Bool.eq_false_iff]
          intro otherKey
          have equal := single first List.mem_cons_self other (List.mem_cons_of_mem _ member) same
            otherKey
          rw [apart other member] at equal
          cases equal
        simp [same, List.filter_eq_self.mpr others]
      · rw [Bool.not_eq_true] at same
        simp only [List.eraseP_cons, List.filter_cons, same, cond_false, Bool.not_false, if_true]
        rw [ih tail fun first firstMember second secondMember =>
          single first (List.mem_cons_of_mem _ firstMember) second
            (List.mem_cons_of_mem _ secondMember)]

section Lawful

variable [LawfulBEq κ]

theorem nodup_keys (dict : PyDict κ ν) : dict.keys.Nodup := by
  rw [keys, List.nodup_iff_pairwise_ne, List.pairwise_map]
  exact dict.distinct.imp fun apart => by simpa using apart

theorem entry_unique {dict : PyDict κ ν} {first second : κ × ν} (firstMember : first ∈ dict.entries)
    (secondMember : second ∈ dict.entries) (same : first.1 = second.1) : first = second :=
  List.inj_on_of_nodup_map dict.nodup_keys firstMember secondMember same

theorem get?_eq_some {dict : PyDict κ ν} {key : κ} {value : ν} :
    dict.get? key = some value ↔ (key, value) ∈ dict.entries := by
  constructor
  · intro found
    obtain ⟨entry, member, same, rfl⟩ := mem_of_get? found
    rw [← eq_of_beq same]
    exact member
  · intro member
    cases lookup : dict.entries.find? fun entry => entry.1 == key with
    | none => simpa using List.find?_eq_none.mp lookup _ member
    | some entry =>
        have same : entry.1 = key := by simpa using List.find?_some lookup
        have unique := entry_unique (List.mem_of_find?_eq_some lookup) member same
        rw [get?, lookup, unique]
        rfl

theorem get?_eq_none {dict : PyDict κ ν} {key : κ} : dict.get? key = none ↔ key ∉ dict.keys := by
  simp only [get?, keys, Option.map_eq_none_iff, List.find?_eq_none, beq_iff_eq, List.mem_map,
    not_exists, not_and]

theorem mem_set {dict : PyDict κ ν} {key : κ} {value : ν} {entry : κ × ν} :
    entry ∈ (dict.set key value).entries ↔
      (entry ∈ dict.entries ∧ entry.1 ≠ key) ∨ entry = (key, value) := by
  obtain ⟨entries, distinct⟩ := dict
  change entry ∈ setEntry key value entries ↔ (entry ∈ entries ∧ entry.1 ≠ key) ∨ _
  induction entries with
  | nil => simp [setEntry]
  | cons first rest ih =>
      obtain ⟨apart, tail⟩ := List.pairwise_cons.mp distinct
      rw [setEntry]
      split
      case isTrue same =>
        have firstKey : first.1 = key := eq_of_beq same
        have others : ∀ other ∈ rest, other.1 ≠ key := by
          intro other member
          rw [← firstKey]
          exact fun equal => by simpa [equal] using apart other member
        rw [List.mem_cons, List.mem_cons, firstKey]
        constructor
        · rintro (new | old)
          · exact Or.inr new
          · exact Or.inl ⟨Or.inr old, others entry old⟩
        · rintro (⟨rfl | old, different⟩ | new)
          · exact absurd firstKey different
          · exact Or.inr old
          · exact Or.inl new
      case isFalse other =>
        have firstKey : first.1 ≠ key := fun equal => other (by simp [equal])
        rw [List.mem_cons, List.mem_cons, ih tail]
        constructor
        · rintro (rfl | ⟨old, different⟩ | new)
          · exact Or.inl ⟨Or.inl rfl, firstKey⟩
          · exact Or.inl ⟨Or.inr old, different⟩
          · exact Or.inr new
        · rintro (⟨rfl | old, different⟩ | new)
          · exact Or.inl rfl
          · exact Or.inr (Or.inl ⟨old, different⟩)
          · exact Or.inr (Or.inr new)

theorem get?_set [DecidableEq κ] (dict : PyDict κ ν) (key other : κ) (value : ν) :
    (dict.set key value).get? other = if other = key then some value else dict.get? other := by
  refine Option.ext fun found => ?_
  rw [get?_eq_some, mem_set]
  by_cases same : other = key
  · simp [same, eq_comm]
  · simp [same, get?_eq_some]

theorem set_entries_of_fresh {dict : PyDict κ ν} {key : κ} (fresh : key ∉ dict.keys)
    (value : ν) : (dict.set key value).entries = dict.entries ++ [(key, value)] := by
  obtain ⟨entries, distinct⟩ := dict
  change setEntry key value entries = entries ++ [(key, value)]
  change key ∉ entries.map Prod.fst at fresh
  clear distinct
  induction entries with
  | nil => rfl
  | cons first rest ih =>
      rw [List.map_cons, List.mem_cons, not_or] at fresh
      have other : (first.1 == key) = false := by simpa using fun same => fresh.1 same.symm
      rw [setEntry, if_neg (by simp [other]), ih fresh.2, List.cons_append]

theorem foldl_set_entries {α : Type*} (key : α → κ) {items : List α} {dict : PyDict κ α}
    (distinct : (dict.keys ++ items.map key).Nodup) :
    (items.foldl (fun dict item => dict.set (key item) item) dict).entries =
      dict.entries ++ items.map fun item => (key item, item) := by
  induction items generalizing dict with
  | nil => simp
  | cons item rest ih =>
      rw [List.map_cons, ← List.singleton_append, ← List.append_assoc] at distinct
      have fresh : key item ∉ dict.keys := by
        intro member
        have apart := (List.nodup_append.mp (List.nodup_append.mp distinct).1).2.2
        exact apart _ member _ (List.mem_singleton_self _) rfl
      have entries := set_entries_of_fresh fresh item
      have keys : (dict.set (key item) item).keys = dict.keys ++ [key item] := by
        rw [PyDict.keys, entries, List.map_append]
        rfl
      rw [List.foldl_cons, ih (keys ▸ distinct), entries, List.append_assoc]
      rfl

theorem get?_foldl_set [DecidableEq κ] {α : Type*} (key : α → κ) (items : List α)
    (dict : PyDict κ α) (other : κ) :
    (items.foldl (fun dict item => dict.set (key item) item) dict).get? other =
      (items.reverse.find? fun item => key item == other).or (dict.get? other) := by
  induction items generalizing dict with
  | nil => rfl
  | cons item rest ih =>
      rw [List.foldl_cons, ih, get?_set, List.reverse_cons, List.find?_append, Option.or_assoc]
      congr 1
      by_cases same : other = key item
      · simp [same]
      · simp [same, Ne.symm same]

theorem erase_entries (dict : PyDict κ ν) (key : κ) :
    (dict.erase key).entries = dict.entries.filter fun entry => !(entry.1 == key) := by
  refine erase_entries_of fun first _ second _ firstKey secondKey => ?_
  rw [eq_of_beq firstKey, eq_of_beq secondKey, beq_self_eq_true]

end Lawful

end PyDict

end Python
