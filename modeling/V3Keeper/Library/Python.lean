import Mathlib.Data.List.Forall2
import Mathlib.Data.List.Induction

/-! Exceptions of the source language, with the text where the program sets one, and
`asyncio.gather` over calls that have finished. -/

namespace Python

inductive PyError where
  | typeError
  | attributeError
  | overflowError
  | keyError
  | indexError
  | valueError (message : String)
  | runtimeError (message : String)
  | rpcError (message : String)
  | connectionError (message : String)
  | requestError
  deriving DecidableEq, Repr

class PyHash (ρ : Type*) where
  hashable : ρ → Bool

variable {α : Type*}

theorem ok_bind {α β ε : Type} (value : α) (next : α → Except ε β) :
    Except.ok value >>= next = next value := rfl

theorem bind_eq_ok {α β ε : Type} {first : Except ε α} {next : α → Except ε β} {value : β} :
    first >>= next = .ok value ↔ ∃ middle, first = .ok middle ∧ next middle = .ok value := by
  cases first with
  | error error =>
      constructor
      · intro impossible
        cases impossible
      · rintro ⟨middle, impossible, -⟩
        cases impossible
  | ok middle =>
      constructor
      · intro result
        exact ⟨middle, rfl, result⟩
      · rintro ⟨same, equal, result⟩
        cases equal
        exact result

theorem mapM_eq_ok {α β ε : Type} {body : α → Except ε β} {items : List α} {values : List β} :
    items.mapM body = .ok values ↔
      List.Forall₂ (fun item value => body item = .ok value) items values := by
  induction items generalizing values with
  | nil =>
      rw [List.mapM_nil, List.forall₂_nil_left_iff]
      exact ⟨fun same => (Except.ok.inj same).symm, fun same => same ▸ rfl⟩
  | cons item rest ih =>
      rw [List.mapM_cons, bind_eq_ok, List.forall₂_cons_left_iff]
      constructor
      · rintro ⟨value, found, mapped⟩
        obtain ⟨others, otherValues, same⟩ := bind_eq_ok.mp mapped
        exact ⟨value, others, found, ih.mp otherValues, (Except.ok.inj same).symm⟩
      · rintro ⟨value, others, found, otherValues, rfl⟩
        exact ⟨value, found, bind_eq_ok.mpr ⟨others, ih.mpr otherValues, rfl⟩⟩

theorem mem_of_mapM_ok {α β ε : Type} {body : α → Except ε β} {items : List α} {values : List β}
    (mapped : items.mapM body = .ok values) : ∀ value ∈ values, ∃ item ∈ items,
      body item = .ok value := by
  have related := mapM_eq_ok.mp mapped
  clear mapped
  intro value member
  induction related with
  | nil => cases member
  | cons found _ ih =>
      rcases List.mem_cons.mp member with rfl | later
      · exact ⟨_, List.mem_cons_self, found⟩
      · obtain ⟨item, inside, same⟩ := ih later
        exact ⟨item, List.mem_cons_of_mem _ inside, same⟩

/-- `asyncio.gather` without `return_exceptions`. -/
def gather : List (Except PyError α) → Except PyError (List α)
  | [] => .ok []
  | .error error :: _ => .error error
  | .ok value :: rest =>
      match gather rest with
      | .error error => .error error
      | .ok values => .ok (value :: values)

theorem gather_map_ok {β : Type*} {call : β → Except PyError α} (expected : β → α)
    (sound : ∀ item value, call item = .ok value → value = expected item) {items : List β}
    {values : List α} (gathered : gather (items.map call) = .ok values) :
    values = items.map expected := by
  induction items generalizing values with
  | nil => cases gathered; rfl
  | cons item rest ih =>
      cases result : call item with
      | error error => simp [gather, result] at gathered
      | ok value =>
          simp only [List.map_cons, result, gather] at gathered
          split at gathered
          case h_1 => cases gathered
          case h_2 tail tailEq =>
            cases gathered
            rw [List.map_cons, ← ih tailEq, sound item value result]

theorem gather_ok {calls : List (Except PyError α)}
    (succeed : ∀ call ∈ calls, ∃ value, call = .ok value) :
    ∃ values, gather calls = .ok values := by
  induction calls with
  | nil => exact ⟨[], rfl⟩
  | cons call rest ih =>
      rw [List.forall_mem_cons] at succeed
      obtain ⟨value, rfl⟩ := succeed.1
      obtain ⟨values, gathered⟩ := ih succeed.2
      exact ⟨value :: values, by simp [gather, gathered]⟩

theorem ok_cons_eq_map {value : α} {rest : List (Except PyError α)} {values : List α} :
    Except.ok value :: rest = values.map .ok ↔
      ∃ others, values = value :: others ∧ rest = others.map .ok := by
  cases values with
  | nil => simp
  | cons first others =>
      simp only [List.map_cons, List.cons.injEq, Except.ok.injEq]
      constructor
      · rintro ⟨rfl, same⟩
        exact ⟨others, ⟨rfl, rfl⟩, same⟩
      · rintro ⟨others, ⟨rfl, rfl⟩, same⟩
        exact ⟨rfl, same⟩

end Python
