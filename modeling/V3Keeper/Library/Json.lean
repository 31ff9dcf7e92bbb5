import Mathlib.Data.Rat.Defs
import V3Keeper.Library.PyOrder

/-!
JSON values as the source language decodes them, and what it does to a value whose type
it does not check: `==`, `<`, hashing, truth and `float`.
-/

namespace Python

inductive PyFloat where
  | finite (value : Rat)
  | infinity (negative : Bool)
  deriving DecidableEq

def PyFloat.lt : PyFloat → PyFloat → Bool
  | .finite first, .finite second => decide (first < second)
  | .finite _, .infinity negative => !negative
  | .infinity negative, .finite _ => negative
  | .infinity first, .infinity second => first && !second

inductive Json where
  | null
  | bool (value : Bool)
  | int (value : Int)
  | float (value : PyFloat)
  | str (text : String)
  | arr (items : List Json)
  | obj (fields : List (String × Json))

namespace Json

def number? : Json → Option PyFloat
  | .bool value => some (.finite (if value then 1 else 0))
  | .int value => some (.finite value)
  | .float value => some value
  | _ => none

mutual

def beq : Json → Json → Bool
  | .null, .null => true
  | .str first, .str second => decide (first = second)
  | .arr first, .arr second => beqItems first second
  | .obj first, .obj second => decide (first.length = second.length) && beqFields first second
  | first, second =>
      match first.number?, second.number? with
      | some value, some other => decide (value = other)
      | _, _ => false

def beqItems : List Json → List Json → Bool
  | [], [] => true
  | first :: rest, second :: others => beq first second && beqItems rest others
  | _, _ => false

def beqFields : List (String × Json) → List (String × Json) → Bool
  | [], _ => true
  | (key, value) :: rest, others =>
      (match others.lookup key with
        | some other => beq value other
        | none => false) && beqFields rest others

end

instance : BEq Json := ⟨beq⟩

mutual

def lt : Json → Json → Except PyError Bool
  | .str first, .str second => .ok (decide (first < second))
  | .arr first, .arr second => ltItems first second
  | first, second =>
      match first.number?, second.number? with
      | some value, some other => .ok (value.lt other)
      | _, _ => .error .typeError

def ltItems : List Json → List Json → Except PyError Bool
  | [], others => .ok (!others.isEmpty)
  | _ :: _, [] => .ok false
  | first :: rest, second :: others =>
      if first == second then ltItems rest others else lt first second

end

def hashable : Json → Bool
  | .arr _ => false
  | .obj _ => false
  | _ => true

instance : PyOrder Json where
  hashable := hashable
  ofInt := .int
  lt := lt

/-- What two hashable values have in common exactly where they are equal. -/
inductive HashKey where
  | null
  | number (value : PyFloat)
  | text (text : String)
  deriving DecidableEq

def hashKey : Json → Option HashKey
  | .null => some .null
  | .str text => some (.text text)
  | value => value.number?.map .number

theorem hashKey_isSome (value : Json) : value.hashKey.isSome = value.hashable := by
  cases value <;> rfl

theorem beq_eq_decide {first second : Json} {key other : HashKey}
    (firstKey : first.hashKey = some key) (secondKey : second.hashKey = some other) :
    (first == second) = decide (key = other) := by
  cases first <;> cases firstKey <;> cases second <;> cases secondKey <;>
    first
    | rfl
    | (rw [Bool.eq_iff_iff]; simp [BEq.beq, beq, number?])

theorem exists_hashKey {value : Json} (hashed : value.hashable = true) :
    ∃ key, value.hashKey = some key := by
  rw [← hashKey_isSome] at hashed
  exact Option.isSome_iff_exists.mp hashed

theorem beq_comm_of_hashable {first second : Json} (firstHashed : first.hashable = true)
    (secondHashed : second.hashable = true) : (first == second) = (second == first) := by
  obtain ⟨key, firstKey⟩ := exists_hashKey firstHashed
  obtain ⟨other, secondKey⟩ := exists_hashKey secondHashed
  rw [beq_eq_decide firstKey secondKey, beq_eq_decide secondKey firstKey, decide_eq_decide]
  exact eq_comm

theorem beq_self_of_hashable {value : Json} (hashed : value.hashable = true) :
    (value == value) = true := by
  obtain ⟨key, valueKey⟩ := exists_hashKey hashed
  rw [beq_eq_decide valueKey valueKey, decide_eq_true rfl]

theorem beq_congr_of_hashable {first second third : Json} (firstHashed : first.hashable = true)
    (secondHashed : second.hashable = true) (thirdHashed : third.hashable = true)
    (same : (first == second) = true) : (first == third) = (second == third) := by
  obtain ⟨key, firstKey⟩ := exists_hashKey firstHashed
  obtain ⟨other, secondKey⟩ := exists_hashKey secondHashed
  obtain ⟨last, thirdKey⟩ := exists_hashKey thirdHashed
  rw [beq_eq_decide firstKey secondKey, decide_eq_true_eq] at same
  rw [beq_eq_decide firstKey thirdKey, beq_eq_decide secondKey thirdKey, same]

theorem beq_int_int (first second : Int) :
    (Json.int first == Json.int second) = decide (first = second) := by
  have firstKey : (Json.int first).hashKey = some _ := rfl
  have secondKey : (Json.int second).hashKey = some _ := rfl
  rw [beq_eq_decide firstKey secondKey, decide_eq_decide]
  simp

def item (value : Json) (key : String) : Except PyError Json :=
  match value with
  | .obj fields =>
      match fields.lookup key with
      | some field => .ok field
      | none => .error .keyError
  | _ => .error .typeError

def truthy : Json → Bool
  | .null => false
  | .bool value => value
  | .int value => decide (value ≠ 0)
  | .float value => decide (value ≠ .finite 0)
  | .str text => decide (text ≠ "")
  | .arr items => !items.isEmpty
  | .obj fields => !fields.isEmpty

def isInt : Json → Bool
  | .int _ => true
  | _ => false

def isStr : Json → Bool
  | .str _ => true
  | _ => false

structure TextReader where
  isFloat : String → Bool
  toBytes : String → Except PyError (List UInt8)
  floatText : PyFloat → String := fun _ => ""

/-- `float`, of which the source only needs that it does not raise. An integer of size
`2 ^ 1024 - 2 ^ 970` or more is rounded to `2 ^ 1024`, which is too large. -/
def toFloat (reader : TextReader) : Json → Except PyError Unit
  | .bool _ => .ok ()
  | .float _ => .ok ()
  | .int value => if value.natAbs >>> 970 < (1 <<< 54) - 1 then .ok () else .error .overflowError
  | .str text =>
      if reader.isFloat text then .ok ()
      else .error (.valueError "could not convert string to float")
  | _ => .error .typeError

def toBytes (reader : TextReader) : Json → Except PyError (List UInt8)
  | .str text => reader.toBytes text
  | _ => .error .typeError

def text (reader : TextReader) : Json → String
  | .null => "None"
  | .bool value => if value then "True" else "False"
  | .int value => toString value
  | .float value => reader.floatText value
  | .str text => text
  | _ => ""

theorem beq_self_of_beq_int {value : Json} {number : Int}
    (equal : (value == Json.int number) = true) : (value == value) = true := by
  cases value with
  | bool flag => cases flag <;> rfl
  | int other =>
      change decide (PyFloat.finite other = .finite other) = true
      exact decide_eq_true rfl
  | float other =>
      change decide (other = other) = true
      exact decide_eq_true rfl
  | null => cases equal
  | str text => cases equal
  | arr items => cases equal
  | obj fields => cases equal

theorem beq_str (first second : String) :
    (Json.str first == Json.str second) = decide (first = second) := by
  change beq _ _ = _
  rw [beq]

end Json

end Python
