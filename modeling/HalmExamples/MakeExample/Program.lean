import HalmExamples.Foundation.Numeral
import Mathlib.Data.List.AList

/-!
# Options of the templates

`parse_config` of `tools/make_example.py`, with what it uses of the language, and the names
that the templates build from an option.  Texts are lists of their code points.
-/

set_option autoImplicit false

namespace HalmExamples.MakeExample

open Foundation

abbrev Text := List Char

/-- What the interpreter brings along: its tables for the characters beyond ASCII, and the
number of decimal digits up to which `int` and `str` convert, 0 for no limit. -/
structure Python where
  isSpace : Char → Bool
  toDecimal : Char → Option (Fin 10)
  maxStrDigits : Nat

/-! ## `int` of a text in base 10 or 16 -/

def Python.toAscii (python : Python) (character : Char) : Char :=
  if character.toNat < 127 then character
  else if python.isSpace character then ' '
  else
    match python.toDecimal character with
    | some digit => Char.ofNat (48 + digit.val)
    | none => '?'

def isAsciiSpace (character : Char) : Bool :=
  character = ' ' || 9 ≤ character.toNat && character.toNat ≤ 13

def strip (text : Text) : Text :=
  ((text.dropWhile isAsciiSpace).reverse.dropWhile isAsciiSpace).reverse

def isNegative : Text → Bool
  | '-' :: _ => true
  | _ => false

def unsigned : Text → Text
  | '-' :: rest => rest
  | '+' :: rest => rest
  | text => text

/-- `0x`, and one underscore behind it. -/
def withoutPrefix : Text → Text
  | '0' :: 'x' :: '_' :: rest => rest
  | '0' :: 'X' :: '_' :: rest => rest
  | '0' :: 'x' :: rest => rest
  | '0' :: 'X' :: rest => rest
  | text => text

def symbolValue? (character : Char) : Option Nat :=
  if '0' ≤ character ∧ character ≤ '9' then some (character.toNat - 48)
  else if 'a' ≤ character ∧ character ≤ 'z' then some (character.toNat - 87)
  else if 'A' ≤ character ∧ character ≤ 'Z' then some (character.toNat - 55)
  else none

def digit? (base : Nat) (character : Char) : Option Nat :=
  (symbolValue? character).filter (· < base)

/-- Single underscores may stand between digits. -/
def digits? (base : Nat) (text : Text) : Option (List Nat) :=
  let groups := text.splitOn '_'
  if [] ∈ groups then none else groups.flatten.mapM (digit? base)

def Python.Converts (python : Python) (digits : Nat) : Prop :=
  python.maxStrDigits = 0 ∨ digits ≤ python.maxStrDigits

instance (python : Python) (digits : Nat) : Decidable (python.Converts digits) := by
  unfold Python.Converts
  infer_instance

def Python.magnitude? (python : Python) (base : Nat) (text : Text) : Option Nat :=
  match digits? base (if base = 16 then withoutPrefix text else text) with
  | none => none
  | some digits =>
      if base = 16 ∨ python.Converts digits.length then some (Numeral.valueOf base digits) else none

def withSign (negative : Bool) (magnitude : Nat) : Int :=
  if negative then -magnitude else magnitude

/-- No result is a `ValueError`. -/
def Python.int? (python : Python) (text : Text) (base : Nat) : Option Int :=
  let text := strip (text.map python.toAscii)
  (python.magnitude? base (unsigned text)).map (withSign (isNegative text))

/-! ## The options -/

inductive Value where
  | boolean (value : Bool)
  | integer (value : Int)
  | text (value : Text)
  deriving DecidableEq

abbrev Options := AList fun _ : Text => Value

def trueText : Text := ['t', 'r', 'u', 'e']

def falseText : Text := ['f', 'a', 'l', 's', 'e']

/-- The value that is stored for `parts[1]`. -/
def Python.interpret (python : Python) (text : Text) : Value :=
  if text = trueText ∨ text = falseText then .boolean (text = trueText)
  else
    match python.int? text 10 with
    | some value => .integer value
    | none =>
        match python.int? text 16 with
        | some value => .integer value
        | none => .text text

def Python.addEntry (python : Python) (options : Options) (entry : Text) : Options :=
  match entry.splitOn '=' with
  | [key, value] => options.insert key (python.interpret value)
  | _ => options

def Python.parseConfig (python : Python) (text : Text) : Options :=
  (text.splitOn ',').foldl python.addEntry ∅

/-! ## Rendering -/

/-- `str` of a value, which is what a template prints for it. -/
def Python.str? (python : Python) : Value → Option Text
  | .boolean true => some ['T', 'r', 'u', 'e']
  | .boolean false => some ['F', 'a', 'l', 's', 'e']
  | .integer value =>
      let digits := Nat.toDigits 10 value.natAbs
      if python.Converts digits.length then
        some (if value < 0 then '-' :: digits else digits)
      else none
  | .text value => some value

/-- A name with an optional suffix, as in `boardSetupFlash{{config.FLASH_SUFFIX}}`. -/
def Python.renderName? (python : Python) (options : Options) (name key : Text) : Option Text :=
  match options.lookup key with
  | none => some name
  | some value => (python.str? value).map (name ++ ·)

end HalmExamples.MakeExample
