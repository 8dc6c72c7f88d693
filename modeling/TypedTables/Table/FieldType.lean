import TypedTables.Text.Blank
import TypedTables.Text.Quoted
/-!
# Field types

A field holds values of a scalar type or arrays of one. `FieldType.parse` reads the
written form, `FieldType.text` writes it.

Results:
* `parse_text`: the written form of every type reads back as that type.
-/
namespace TypedTables

open TypedTables.Text (trim trimmed quoted)

/-- The type of a scalar. mirrors `BaseType` -/
inductive BaseType where
  | bool
  | int
  | float
  /-- text with escapes -/
  | string
  /-- text as it is written -/
  | stringName
  deriving DecidableEq, Repr

namespace BaseType

def all : List BaseType := [.bool, .int, .float, .string, .stringName]

def keyword : BaseType → String
  | .bool => "BOOL"
  | .int => "INT"
  | .float => "FLOAT"
  | .string => "STRING"
  | .stringName => "STRING_NAME"

def ofKeyword? (s : String) : Option BaseType := all.find? (·.keyword == s)

/-- Whether cells of this type are kept as numbers of pooled texts.
mirrors `BaseType.is_interned` -/
def isPooled : BaseType → Bool
  | .int => true
  | .string => true
  | .stringName => true
  | .bool => false
  | .float => false

end BaseType

/-- The declared type of a field. mirrors `FieldType` -/
structure FieldType where
  base : BaseType
  isArray : Bool := false
  deriving DecidableEq, Repr

/-- Why a text is no field type. -/
inductive TypeFault where
  | nestedArray (text : String)
  | notABase (inner : String)
  | unknown (text : String)
  deriving DecidableEq, Repr

def TypeFault.message : TypeFault → String
  | .nestedArray text => "Nested array types are not allowed: " ++ text
  | .notABase inner => quoted inner ++ " is not a valid BaseType"
  | .unknown text => "Unknown field type: " ++ quoted text

namespace FieldType

/-- mirrors `FieldType.__str__` -/
def text (t : FieldType) : String :=
  if t.isArray then "ARRAY[" ++ t.base.keyword ++ "]" else t.base.keyword

/-- What stands between `ARRAY[` and a final `]` on one line. -/
def arrayInner? (s : List Char) : Option (List Char) :=
  match s with
  | 'A' :: 'R' :: 'R' :: 'A' :: 'Y' :: '[' :: r =>
    if r.getLast? = some ']' ∧ ¬ r.contains '\n' then some r.dropLast else none
  | _ => none

/-- Read a type; blanks around it and around the element type are ignored.
mirrors `FieldType.parse` -/
def parse (s : String) : Except TypeFault FieldType :=
  let s := trim s.toList
  match arrayInner? s with
  | some inner =>
    let inner := trim inner
    if (arrayInner? inner).isSome then .error (.nestedArray (String.ofList s))
    else match BaseType.ofKeyword? (String.ofList inner) with
    | some base => .ok ⟨base, true⟩
    | none => .error (.notABase (String.ofList inner))
  | none =>
    match BaseType.ofKeyword? (String.ofList s) with
    | some base => .ok ⟨base, false⟩
    | none => .error (.unknown (String.ofList s))

theorem parse_text (t : FieldType) : parse t.text = .ok t := by
  obtain ⟨base, isArray⟩ := t
  cases base <;> cases isArray <;> rfl

end FieldType

end TypedTables
