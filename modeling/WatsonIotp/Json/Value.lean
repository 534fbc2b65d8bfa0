import WatsonIotp.Text.StdString
import Mathlib.Data.Nat.Digits.Defs

/-!
# JSON values and their accessors

`Value` has one constructor for each value type of jsoncpp. The accessors the
client uses are translated with the exceptions they throw: `get` on a value that
is neither an object nor null, `get` by index on one that is neither an array
nor null, and the conversions on values that have none.

Doubles are a parameter: the client only passes them on, prints them or tests
whether they fit an `int`, so any type with these operations will do.
-/

/-- The operations on `double` that jsoncpp and the client rely on. -/
class CxxDouble (D : Type) where
  /-- `std::istringstream >> value`, which may fail. -/
  ofToken : StdString → Option D
  /-- `static_cast<double>` of an integer. -/
  ofInt : Int → D
  /-- `valueToString(double)`. -/
  toText : D → StdString
  /-- Truncation to `int`, of a value within its range. -/
  toInt : D → Option Int

/-- Doubles that happen to be integers are enough to evaluate the model on inputs
without fractions. -/
instance : CxxDouble Int where
  ofToken _ := none
  ofInt i := i
  toText i := if i < 0 then '-' :: Nat.toDigits 10 i.natAbs else Nat.toDigits 10 i.natAbs
  toInt i := some i

namespace Json

/-- Exceptions of jsoncpp, with their texts. -/
inductive Error where
  | logicError (what : String)
  | runtimeError (what : String)
  deriving DecidableEq

/-- A JSON value. The members of an object are in the order of their names. -/
inductive Value (D : Type) where
  | nullValue
  | intValue (i : Int)
  | uintValue (n : Nat)
  | realValue (d : D)
  | stringValue (s : StdString)
  | booleanValue (b : Bool)
  | arrayValue (elements : List (Value D))
  | objectValue (members : List (StdString × Value D))

/-- `Value::minInt` and `Value::maxInt`. -/
def minInt : Int := -2147483648

def maxInt : Int := 2147483647

variable {D : Type}

/-- Store a member under its name, replacing the one that is there. -/
def setMember (name : StdString) (value : Value D) :
    List (StdString × Value D) → List (StdString × Value D)
  | [] => [(name, value)]
  | (name', value') :: members =>
      if name < name' then (name, value) :: (name', value') :: members
      else if name = name' then (name, value) :: members
      else (name', value') :: setMember name value members

namespace Value

/-- The value under a name, or the default where there is none. -/
def memberOr (v : Value D) (key : StdString) (defaultValue : Value D) : Value D :=
  match v with
  | .objectValue members => (members.lookup key).getD defaultValue
  | _ => defaultValue

/-- The element at an index, or the default where there is none. -/
def elementOr (v : Value D) (index : Nat) (defaultValue : Value D) : Value D :=
  match v with
  | .arrayValue elements => elements[index]?.getD defaultValue
  | _ => defaultValue

/-- `v[key] = value` on an object, or on a null value, which becomes one. Any
other value is left alone: no caller assigns a member of one. -/
def assign (v : Value D) (key : StdString) (value : Value D) : Value D :=
  match v with
  | .nullValue => .objectValue [(key, value)]
  | .objectValue members => .objectValue (setMember key value members)
  | v => v

/-- `Value::get(key, defaultValue)`. -/
def get (v : Value D) (key : StdString) (defaultValue : Value D) : Except Error (Value D) :=
  match v with
  | .objectValue _ | .nullValue => .ok (v.memberOr key defaultValue)
  | _ => .error (.logicError
      "in Json::Value::find(key, end, found): requires objectValue or nullValue")

/-- `Value::get(index, defaultValue)`. -/
def getIndex (v : Value D) (index : Nat) (defaultValue : Value D) : Except Error (Value D) :=
  match v with
  | .arrayValue _ | .nullValue => .ok (v.elementOr index defaultValue)
  | _ => .error (.logicError
      "in Json::Value::operator[](ArrayIndex)const: requires arrayValue")

/-- `Value::isNull()`. -/
def isNull : Value D → Bool
  | .nullValue => true
  | _ => false

@[simp] theorem isNull_iff {v : Value D} : v.isNull = true ↔ v = .nullValue := by
  cases v <;> simp [isNull]

@[simp] theorem isNull_eq_false_iff {v : Value D} : v.isNull = false ↔ v ≠ .nullValue := by
  cases v <;> simp [isNull]

/-- `valueToString` of an integer. -/
def intText (i : Int) : StdString :=
  if i < 0 then '-' :: Nat.toDigits 10 i.natAbs else Nat.toDigits 10 i.natAbs

section Conversions

variable [CxxDouble D]

/-- `Value::asString()`. -/
def asString : Value D → Except Error StdString
  | .nullValue => .ok []
  | .stringValue s => .ok s
  | .booleanValue b => .ok (if b then "true".toList else "false".toList)
  | .intValue i => .ok (intText i)
  | .uintValue n => .ok (Nat.toDigits 10 n)
  | .realValue d => .ok (CxxDouble.toText d)
  | _ => .error (.logicError "Type is not convertible to string")

/-- `Value::asInt()`. -/
def asInt : Value D → Except Error Int
  | .intValue i =>
      if minInt ≤ i ∧ i ≤ maxInt then .ok i
      else .error (.logicError "LargestInt out of Int range")
  | .uintValue n =>
      if (n : Int) ≤ maxInt then .ok n
      else .error (.logicError "LargestUInt out of Int range")
  | .realValue d =>
      match CxxDouble.toInt d with
      | some i => .ok i
      | none => .error (.logicError "double out of Int range")
  | .nullValue => .ok 0
  | .booleanValue b => .ok (if b then 1 else 0)
  | _ => .error (.logicError "Value is not convertible to Int.")

/-- `Value::asDouble()`. -/
def asDouble : Value D → Except Error D
  | .intValue i => .ok (CxxDouble.ofInt i)
  | .uintValue n => .ok (CxxDouble.ofInt n)
  | .realValue d => .ok d
  | .nullValue => .ok (CxxDouble.ofInt 0)
  | .booleanValue b => .ok (CxxDouble.ofInt (if b then 1 else 0))
  | _ => .error (.logicError "Value is not convertible to double.")

end Conversions

/-- The value has members to look up: it is an object, or null. -/
def ObjectLike : Value D → Prop
  | .objectValue _ | .nullValue => True
  | _ => False

/-- The value has elements to look up: it is an array, or null. -/
def ArrayLike : Value D → Prop
  | .arrayValue _ | .nullValue => True
  | _ => False

/-- The value has a text: it is neither an array nor an object. -/
def Textual : Value D → Prop
  | .arrayValue _ | .objectValue _ => False
  | _ => True

/-- The value converts to a number: it is no text, array or object. -/
def Numeric : Value D → Prop
  | .arrayValue _ | .objectValue _ | .stringValue _ => False
  | _ => True

theorem getIndex_eq_ok_iff {v : Value D} {index : Nat} {defaultValue x : Value D} :
    v.getIndex index defaultValue = .ok x ↔ v.ArrayLike ∧ x = v.elementOr index defaultValue := by
  cases v <;> simp [getIndex, ArrayLike, eq_comm]

theorem asString_isOk_iff [CxxDouble D] {v : Value D} :
    (∃ s, v.asString = .ok s) ↔ v.Textual := by
  cases v <;> simp [asString, Textual]

theorem asDouble_isOk_iff [CxxDouble D] {v : Value D} :
    (∃ d, v.asDouble = .ok d) ↔ v.Numeric := by
  cases v <;> simp [asDouble, Numeric]

end Value

end Json
