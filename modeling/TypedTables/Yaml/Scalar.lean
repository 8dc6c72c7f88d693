import TypedTables.Decimal.Numeral
import TypedTables.Decimal.Whole
import TypedTables.Text.Escape
import TypedTables.Text.Quoted
import TypedTables.Text.Split
import TypedTables.Yaml.Moment
/-!
# YAML scalars

What a scalar of a YAML file stands for. A quoted scalar is a text. A plain one is a truth
value, an integer, a number, a date, a moment or nothing if it has one of their forms, and a
text otherwise. Integers may be decimal, octal after a zero, hexadecimal after `0x` and binary
after `0b`; a number needs a point, and its exponent a sign, so `1e3` is a text. Underscores
may separate digits. Both may be written in base sixty, as hours, minutes and seconds are:
`1:30` is ninety.
-/
namespace TypedTables.Yaml

open TypedTables.Decimal (Numeral floatText)
open TypedTables.Text (quoted hexValue?)

inductive Scalar where
  | null
  | bool (b : Bool)
  | int (i : Int)
  | float (x : Float)
  | date (d : Date)
  | moment (m : Moment)
  | text (s : String)
  /-- a form that promises a value that there is not, and what is wrong -/
  | noValue (why : String)
  deriving DecidableEq, Repr

namespace Scalar

/-! ## Plain scalars -/

def nullWords : List String := ["", "~", "null", "Null", "NULL"]

def trueWords : List String :=
  ["yes", "Yes", "YES", "true", "True", "TRUE", "on", "On", "ON"]

def falseWords : List String :=
  ["no", "No", "NO", "false", "False", "FALSE", "off", "Off", "OFF"]

def infinityWords : List String := [".inf", ".Inf", ".INF"]

def nanWords : List String := [".nan", ".NaN", ".NAN"]

/-- Whether a character is a digit of a base or an underscore. -/
def isDigitIn (base : Nat) (c : Char) : Bool := c == '_' || (hexValue? c).any (· < base)

/-- The number that digits of a base write, among which underscores may stand. -/
def digitsIn? (base : Nat) (s : List Char) : Option Nat :=
  if s ≠ [] ∧ s.all (isDigitIn base) then
    some ((s.filterMap hexValue?).foldl (fun n d => base * n + d) 0)
  else none

/-- Whether a text is a place of base sixty: one or two digits below sixty. -/
def isSixtieth : List Char → Bool
  | [d] => d.isDigit
  | [t, d] => t.isDigit && t < '6' && d.isDigit
  | _ => false

/-- Cut a text of base sixty into its places, of which there is more than one. -/
def places? (s : List Char) : Option (List (List Char)) :=
  match Text.splitOn ':' s with
  | first :: place :: places =>
    if first.head?.any Char.isDigit && first.all (isDigitIn 10) && (place :: places).all isSixtieth
    then some (first :: place :: places) else none
  | _ => none

/-- An integer of base sixty without its sign. -/
def sixtieths? (s : List Char) : Option Nat := do
  let places ← places? s
  let ns ← places.mapM (digitsIn? 10)
  some (ns.foldl (fun n d => 60 * n + d) 0)

/-- An integer without its sign. -/
def magnitude? : List Char → Option Nat
  | ['0'] => some 0
  | '0' :: 'b' :: r => if r.all (· == '_') then none else digitsIn? 2 r
  | '0' :: 'x' :: r => if r.all (· == '_') then none else digitsIn? 16 r
  | '0' :: r => digitsIn? 8 r
  | '_' :: _ => none
  | s => (digitsIn? 10 s).or (sixtieths? s)

def int? (s : List Char) : Option Int :=
  let (negative, body) := Numeral.takeSign s
  (magnitude? body).map fun n => if negative then -(n : Int) else n

/-- Whether a text is an exponent with a sign, or empty. -/
def isSignedExponent : List Char → Bool
  | [] => true
  | e :: sign :: digits =>
    (e == 'e' || e == 'E') && (sign == '+' || sign == '-') && digits ≠ [] &&
      digits.all Char.isDigit
  | _ => false

/-- Whether a text is digits, a point, digits and an exponent. Without digits before the
point there is no sign, and a digit follows the point. -/
def isPointed (s : List Char) : Bool :=
  let (_, body) := Numeral.takeSign s
  let whole := body.takeWhile (isDigitIn 10)
  match body.dropWhile (isDigitIn 10) with
  | '.' :: r =>
    let fraction := r.takeWhile (isDigitIn 10)
    let lead := if whole = [] then if body = s then fraction else [] else whole
    lead.head?.any Char.isDigit && isSignedExponent (r.dropWhile (isDigitIn 10))
  | _ => false

/-- A number of base sixty without its sign: a point stands in its last place. Small places
are added before great ones. -/
def pointedSixtieths? (s : List Char) : Option Float :=
  match Text.cutAt '.' s with
  | (whole, some fraction) =>
    if (places? whole).isSome && fraction.all (isDigitIn 10) then do
      let places := Text.splitOn ':' (s.filter (· ≠ '_'))
      let xs ← places.mapM fun place => (Numeral.parse? place).map Numeral.toFloat
      let sum := xs.reverse.foldl (fun (p : Float × Nat) x =>
        (p.1 + x * Float.ofNat p.2, 60 * p.2)) (0.0, 1)
      some sum.1
    else none
  | _ => none

def float? (s : List Char) : Option Float :=
  let (negative, body) := Numeral.takeSign s
  let body := String.ofList body
  if infinityWords.contains body then some (if negative then -(1.0 / 0.0) else 1.0 / 0.0)
  else if nanWords.contains (String.ofList s) then some (0.0 / 0.0)
  else if isPointed s then (Numeral.parse? (s.filter (· ≠ '_'))).map Numeral.toFloat
  else (pointedSixtieths? body.toList).map fun x => if negative then -x else x

/-- The base of an integer that is written without any digits: underscores alone follow its
mark. -/
def baseWithoutDigits? (s : List Char) : Option Nat :=
  match (Numeral.takeSign s).2 with
  | '0' :: mark :: '_' :: r =>
    if r.all (· == '_') then [('b', 2), ('x', 16)].lookup mark else none
  | _ => none

/-- A scalar for a date. -/
def ofDate (d : Date) : Scalar :=
  match d.fault? with
  | some why => .noValue why
  | none => .date d

/-- A scalar for a moment. -/
def ofMoment (m : Moment) : Scalar :=
  match m.fault? with
  | some why => .noValue why
  | none => .moment m

/-- A scalar for a day, with or without a time. -/
def ofDay? (s : List Char) : Option Scalar :=
  ((Date.ofText? s).map ofDate).or ((Moment.ofText? s).map ofMoment)

/-- A scalar of none of the forms of numbers. -/
def ofOther (s : String) : Scalar :=
  match baseWithoutDigits? s.toList with
  | some base => .noValue ("invalid literal for int() with base " ++ toString base ++ ": ''")
  | none => (ofDay? s.toList).getD (.text s)

/-- What a plain scalar stands for. -/
def ofPlain (s : String) : Scalar :=
  if nullWords.contains s then .null
  else if trueWords.contains s then .bool true
  else if falseWords.contains s then .bool false
  else match int? s.toList with
  | some i => .int i
  | none =>
    match float? s.toList with
    | some x => .float x
    | none => ofOther s

/-! ## Keys -/

/-- What a scalar is as a key: truth values, integers and numbers are one key if they are the
same number, and moments if they are the same instant. -/
def key : Scalar → Scalar
  | .bool b => .int (if b then 1 else 0)
  | .float x => ((Decimal.wholeNumber? x).map .int).getD (.float x)
  | .moment m => .moment m.universal
  | s => s

/-! ## Texts of scalars -/

/-- A scalar as a name. -/
def name : Scalar → String
  | .null => "None"
  | .bool true => "True"
  | .bool false => "False"
  | .int i => toString i
  | .float x => floatText x
  | .date d => d.text
  | .moment m => m.text
  | .text s => s
  | .noValue _ => ""

/-- A scalar as a message shows it. -/
def shown : Scalar → String
  | .text s => quoted s
  | .date d => d.shown
  | .moment m => m.shown
  | s => s.name

/-- Whether a scalar says something: nothing, falsehood, zero and the empty text do not. -/
def isTruthy : Scalar → Bool
  | .null => false
  | .bool b => b
  | .int i => i ≠ 0
  | .float x => !(x == 0.0)
  | .date _ => true
  | .moment _ => true
  | .text s => s ≠ ""
  | .noValue _ => true

/-- What is wrong with a scalar. -/
def fault? : Scalar → Option String
  | .noValue why => some why
  | _ => none

end Scalar

end TypedTables.Yaml
