import Mathlib.Data.List.Sort
import Mathlib.Order.MinMax
import V3Keeper.Library.Python

/-!
Values that the source hashes and orders without knowing their type. On the values of
one plain type nothing raises, and `min`, `max` and `sort` are those of its order.
-/

namespace Python

class PyOrder (τ : Type*) extends PyHash τ where
  ofInt : Int → τ
  lt : τ → τ → Except PyError Bool

class PlainHash (ρ : Type*) [BEq ρ] [PyHash ρ] : Prop extends LawfulBEq ρ where
  hashable_eq : ∀ value : ρ, PyHash.hashable value = true

class PlainOrder (τ : Type*) [BEq τ] [LinearOrder τ] [PyOrder τ] : Prop extends PlainHash τ where
  lt_eq : ∀ first second : τ, PyOrder.lt first second = .ok (decide (first < second))

instance : PyHash String := ⟨fun _ => true⟩

instance : PlainHash String := ⟨fun _ => rfl⟩

instance : PyOrder Int where
  hashable _ := true
  ofInt value := value
  lt first second := .ok (decide (first < second))

instance : PlainOrder Int where
  hashable_eq _ := rfl
  lt_eq _ _ := rfl

section Definitions

variable {α τ : Type*} [PyOrder τ]

def minFrom (best : τ) : List τ → Except PyError τ
  | [] => .ok best
  | value :: rest =>
      match PyOrder.lt value best with
      | .error error => .error error
      | .ok smaller => minFrom (if smaller then value else best) rest

def minOf : List τ → Except PyError τ
  | [] => .error (.valueError "min() arg is an empty sequence")
  | value :: rest => minFrom value rest

def maxFrom (best : τ) : List τ → Except PyError τ
  | [] => .ok best
  | value :: rest =>
      match PyOrder.lt best value with
      | .error error => .error error
      | .ok larger => maxFrom (if larger then value else best) rest

def maxOf : List τ → Except PyError τ
  | [] => .error (.valueError "max() arg is an empty sequence")
  | value :: rest => maxFrom value rest

def insertBy (key : α → τ) (item : α) : List α → Except PyError (List α)
  | [] => .ok [item]
  | first :: rest =>
      match PyOrder.lt (key first) (key item) with
      | .error error => .error error
      | .ok false => .ok (item :: first :: rest)
      | .ok true =>
          match insertBy key item rest with
          | .error error => .error error
          | .ok sorted => .ok (first :: sorted)

/-- `list.sort(key=...)`, stable. It raises where two items cannot be compared. -/
def sortBy (key : α → τ) : List α → Except PyError (List α)
  | [] => .ok []
  | item :: rest =>
      match sortBy key rest with
      | .error error => .error error
      | .ok sorted => insertBy key item sorted

theorem insertBy_perm {key : α → τ} {item : α} {items sorted : List α}
    (inserted : insertBy key item items = .ok sorted) : sorted.Perm (item :: items) := by
  induction items generalizing sorted with
  | nil => exact (Except.ok.inj inserted) ▸ List.Perm.refl _
  | cons first rest ih =>
      rw [insertBy] at inserted
      split at inserted
      case h_1 => cases inserted
      case h_2 => exact (Except.ok.inj inserted) ▸ List.Perm.refl _
      case h_3 =>
        split at inserted
        case h_1 => cases inserted
        case h_2 tail tailEq =>
          rw [← Except.ok.inj inserted]
          exact ((ih tailEq).cons first).trans (List.Perm.swap item first rest)

theorem sortBy_perm {key : α → τ} {items sorted : List α} (sort : sortBy key items = .ok sorted) :
    sorted.Perm items := by
  induction items generalizing sorted with
  | nil => exact (Except.ok.inj sort) ▸ List.Perm.refl _
  | cons item rest ih =>
      rw [sortBy] at sort
      split at sort
      case h_1 => cases sort
      case h_2 tail tailEq => exact (insertBy_perm sort).trans ((ih tailEq).cons item)

end Definitions

theorem foldl_min_spec {τ : Type*} [LinearOrder τ] (best : τ) (values : List τ) :
    values.foldl min best ∈ best :: values ∧
      ∀ value ∈ best :: values, values.foldl min best ≤ value := by
  induction values generalizing best with
  | nil => simp
  | cons first rest ih =>
      obtain ⟨member, least⟩ := ih (min best first)
      rw [List.foldl_cons]
      refine ⟨?_, ?_⟩
      · rcases List.mem_cons.mp member with same | later
        · rw [same]
          rcases min_choice best first with old | new
          · simp [old]
          · simp [new]
        · exact List.mem_cons_of_mem _ (List.mem_cons_of_mem _ later)
      · intro value valueMember
        have below := least (min best first) List.mem_cons_self
        rcases List.mem_cons.mp valueMember with rfl | valueMember
        · exact below.trans (min_le_left _ _)
        · rcases List.mem_cons.mp valueMember with rfl | later
          · exact below.trans (min_le_right _ _)
          · exact least value (List.mem_cons_of_mem _ later)

theorem foldl_max_spec {τ : Type*} [LinearOrder τ] (best : τ) (values : List τ) :
    values.foldl max best ∈ best :: values ∧
      ∀ value ∈ best :: values, value ≤ values.foldl max best :=
  @foldl_min_spec τᵒᵈ _ best values

theorem pairwise_sorted_by {α β : Type*} [LinearOrder β] (key : α → β) (items : List α) :
    (items.insertionSort fun first second => key first ≤ key second).Pairwise
      fun first second => key first ≤ key second := by
  have : Std.Total fun first second : α => key first ≤ key second := ⟨fun _ _ => le_total _ _⟩
  have : IsTrans α fun first second => key first ≤ key second := ⟨fun _ _ _ => le_trans⟩
  exact List.pairwise_insertionSort _ _

section Plain

variable {α τ : Type*} [BEq τ] [LinearOrder τ] [PyOrder τ] [PlainOrder τ]

theorem minFrom_eq (best : τ) (values : List τ) :
    minFrom best values = .ok (values.foldl min best) := by
  induction values generalizing best with
  | nil => rfl
  | cons value rest ih =>
      simp only [minFrom, PlainOrder.lt_eq, List.foldl_cons]
      rw [ih]
      congr 2
      by_cases smaller : value < best
      · simp [smaller, min_eq_right smaller.le]
      · simp [smaller, min_eq_left (not_lt.mp smaller)]

theorem minOf_spec {values : List τ} (nonempty : values ≠ []) :
    ∃ least, minOf values = .ok least ∧ least ∈ values ∧ ∀ value ∈ values, least ≤ value := by
  cases values with
  | nil => exact absurd rfl nonempty
  | cons first rest =>
      obtain ⟨member, least⟩ := foldl_min_spec first rest
      exact ⟨_, minFrom_eq first rest, member, least⟩

theorem maxFrom_eq (best : τ) (values : List τ) :
    maxFrom best values = .ok (values.foldl max best) := by
  induction values generalizing best with
  | nil => rfl
  | cons value rest ih =>
      simp only [maxFrom, PlainOrder.lt_eq, List.foldl_cons]
      rw [ih]
      congr 2
      by_cases larger : best < value
      · simp [larger, max_eq_right larger.le]
      · simp [larger, max_eq_left (not_lt.mp larger)]

theorem maxOf_eq {values : List τ} {greatest : τ} (member : greatest ∈ values)
    (bound : ∀ value ∈ values, value ≤ greatest) : maxOf values = .ok greatest := by
  cases values with
  | nil => cases member
  | cons first rest =>
      obtain ⟨inside, above⟩ := foldl_max_spec first rest
      rw [maxOf, maxFrom_eq, le_antisymm (bound _ inside) (above greatest member)]

theorem insertBy_eq (key : α → τ) (item : α) (items : List α) :
    insertBy key item items =
      .ok (items.orderedInsert (fun first second => key first ≤ key second) item) := by
  induction items with
  | nil => rfl
  | cons first rest ih =>
      simp only [insertBy, PlainOrder.lt_eq, List.orderedInsert]
      by_cases smaller : key first < key item
      · simp [smaller, ih, not_le.mpr smaller]
      · simp [smaller, not_lt.mp smaller]

theorem sortBy_eq (key : α → τ) (items : List α) :
    sortBy key items =
      .ok (items.insertionSort fun first second => key first ≤ key second) := by
  induction items with
  | nil => rfl
  | cons item rest ih =>
      simp only [sortBy, ih, List.insertionSort_cons]
      exact insertBy_eq key item _

end Plain

end Python
