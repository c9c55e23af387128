import AgentUplink.Lib.Decimal
import AgentUplink.Lib.JsonText

/-
Reading a JSON value.

A value keeps the text of its numbers, so an accessor for integers looks at the text: an
integer has digits only and must fit its width.
-/
namespace JsonText.Value

def get (value : Value) (name : String) : Option Value :=
  match value with
  | object members => members.lookup name
  | _ => none

def digits (text : List Char) : Option Nat :=
  if text ≠ [] ∧ text.all Char.isDigit = true then some (Decimal.value text) else none

/-- An integer without a sign that fits into 64 bits. -/
def asU64 (value : Value) : Option Nat :=
  match value with
  | number lexeme => (digits lexeme.toList).filter fun n => decide (n < 2 ^ 64)
  | _ => none

end JsonText.Value
