import Intake.Text.Shown

/-!
# Quoted texts in reports

A text in a report stands between double quotes.  Quotes and backslashes get a backslash, four
control characters their letter, and all other characters that cannot be shown by themselves their
code point in braces.
-/

namespace Intake
namespace Quoted

/-- A character as it stands between the quotes. -/
def escape (c : Char) : List Char :=
  if c = '"' then ['\\', '"']
  else if c = '\\' then ['\\', '\\']
  else if c = '\x00' then ['\\', '0']
  else if c = '\x09' then ['\\', 't']
  else if c = '\x0a' then ['\\', 'n']
  else if c = '\x0d' then ['\\', 'r']
  else if Shown.isShown c then [c]
  else ['\\', 'u', '\x7b'] ++ Nat.toDigits 16 c.toNat ++ ['\x7d']

/-- A text between quotes. -/
def chars (value : String) : List Char := '"' :: value.toList.flatMap escape ++ ['"']

/-- A text between quotes. -/
def text (value : String) : String := String.ofList (chars value)

end Quoted
end Intake
