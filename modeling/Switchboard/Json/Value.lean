import Switchboard.Decimal.Binary64

/-!
# JSON values

Objects keep the order of their members and may hold a name twice; a look-up takes the first. Whole
numbers of up to 64 bits are exact and every other number is a float.

## Main definitions

* `Json`: the values.
* `Json.get?`: the first member of a name.
* `Json.asText?`, `Json.asBool?`, `Json.asNat?`, `Json.asFloat?`: a value of one kind.
-/
namespace Switchboard

/-- A number: a whole one of up to 64 bits, or a float. -/
inductive Json.Number where
  | integer (value : Int)
  | float (value : Float)
deriving Repr

/-- A JSON value. -/
inductive Json where
  | null
  | bool (value : Bool)
  | number (value : Json.Number)
  | text (value : String)
  | array (items : List Json)
  | object (members : List (String × Json))
deriving Repr, Inhabited

namespace Json

/-- The value of the first pair with the given name. -/
def lookup? (name : String) : List (String × Json) → Option Json
  | [] => none
  | (key, value) :: rest => if key = name then some value else lookup? name rest

/-- The first member of that name; values other than objects have none. -/
def get? (name : String) : Json → Option Json
  | object members => lookup? name members
  | _ => none

/-- The text of a string value. -/
def asText? : Json → Option String
  | text s => some s
  | _ => none

/-- The truth value of a boolean. -/
def asBool? : Json → Option Bool
  | bool b => some b
  | _ => none

/-- A whole number that is not negative and stays below `bound`. -/
def asNat? (bound : Nat) : Json → Option Nat
  | number (.integer (.ofNat n)) => if n < bound then some n else none
  | _ => none

/-- A number as a float. -/
def asFloat? : Json → Option Float
  | number (.float x) => some x
  | number (.integer (.ofNat n)) => some (Decimal.ofNat n)
  | number (.integer (.negSucc n)) => some (Decimal.ofRatio true (n + 1) 1)
  | _ => none

/-- The whole number as a value. -/
def ofNat (n : Nat) : Json := number (.integer n)

@[simp] theorem get?_object (name : String) (members : List (String × Json)) :
    get? name (object members) = lookup? name members := rfl

@[simp] theorem lookup?_cons_self (name : String) (value : Json) (rest : List (String × Json)) :
    lookup? name ((name, value) :: rest) = some value := by simp [lookup?]

@[simp] theorem asText?_text (s : String) : asText? (text s) = some s := rfl

@[simp] theorem asBool?_bool (b : Bool) : asBool? (bool b) = some b := rfl

theorem asNat?_ofNat {bound n : Nat} (h : n < bound) : asNat? bound (ofNat n) = some n := by
  simp [asNat?, ofNat, h]

end Json

end Switchboard
