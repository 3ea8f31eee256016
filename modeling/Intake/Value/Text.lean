import Intake.Decimal.Layout
import Intake.Value.Basic

/-!
# Values as texts

A text is its own text. Every other value is written as a literal, and a text inside of one in quotes.
-/
namespace Intake.Value

def commas (pieces : List String) : String := ", ".intercalate pieces

mutual

def literal : Value → String
  | .null => "None"
  | .boolean b => if b then "True" else "False"
  | .integer n => toString n
  | .real x => Decimal.textOf x
  | .text s => Text.quoted s
  | .list items => "[" ++ commas (literals items) ++ "]"
  | .object members => "\x7b" ++ commas (memberLiterals members) ++ "\x7d"

def literals : List Value → List String
  | [] => []
  | v :: vs => literal v :: literals vs

def memberLiterals : List (String × Value) → List String
  | [] => []
  | m :: ms => memberLiteral m :: memberLiterals ms

def memberLiteral : String × Value → String
  | (name, v) => Text.quoted name ++ ": " ++ literal v

end

def toText : Value → String
  | text s => s
  | v => v.literal

def textOrNone (s : Option String) : String := (ofText? s).toText

end Intake.Value
