import Switchboard.Json.Parser

/-!
# Documents with known fields

A document whose fields are declared in order. Written as an object, unknown members are passed over
and a known member may occur once; written as an array, the items are the fields in their order,
with the last ones left out or not, but none beyond. A field that is absent is for the reader to
judge.

## Main definitions

* `Json.readFields?`: the fields that a document gives, by name.
* `Json.required?`, `Json.nullable?`: a field that has to be there, and one that may be null.
-/
namespace Switchboard.Json

/-- The fields read from the members of an object, up to and with its brace. -/
def readKnown (names : List String) :
    Nat → List (String × Json) → List Char → Option (List (String × Json) × List Char)
  | 0, _, _ => none
  | fuel + 1, found, cs => do
    let rest ← afterChar '"' cs
    let (key, rest) ← readString rest
    let key := String.ofList key
    let rest ← afterChar ':' rest
    let (found, rest) ←
      if names.contains key then
        if (lookup? key found).isSome then none
        else
          (readValue (fuelFor rest) rest).map fun (value, more) => (found ++ [(key, value)], more)
      else (scanValue (fuelFor rest) rest).map fun more => (found, more)
    match skipSpace rest with
    | '\x7d' :: more => return (found, more)
    | ',' :: more => readKnown names fuel found more
    | _ => none

/-- The fields that a document gives; `none` when it is no document of this kind. -/
def readFieldsChars? (names : List String) (cs : List Char) : Option (List (String × Json)) :=
  match skipSpace cs with
  | '\x7b' :: rest =>
    let body :=
      match afterChar '\x7d' rest with
      | some more => some ([], more)
      | none => readKnown names (rest.length + 1) [] rest
    match body with
    | some (found, more) => if atEnd more then some found else none
    | none => none
  | '[' :: _ =>
    match parseChars? cs with
    | some (.array items) => if items.length ≤ names.length then some (names.zip items) else none
    | _ => none
  | _ => none

/-- The fields that a document gives; `none` when it is no document of this kind. -/
def readFields? (names : List String) (s : String) : Option (List (String × Json)) :=
  readFieldsChars? names s.toList

/-- A field that has to be there, read by `read`. -/
def required? {α : Type} (fields : List (String × Json)) (name : String) (read : Json → Option α) :
    Option α :=
  (lookup? name fields).bind read

/-- A field that may be absent, with a value of its own for that case. -/
def optional? {α : Type} (fields : List (String × Json)) (name : String) (fallback : α)
    (read : Json → Option α) : Option α :=
  match lookup? name fields with
  | none => some fallback
  | some value => read value

/-- Reads null as nothing, and any other value by `read`. -/
def nullable {α : Type} (read : Json → Option α) : Json → Option (Option α)
  | null => some none
  | value => (read value).map some

end Switchboard.Json
