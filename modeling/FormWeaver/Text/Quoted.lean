import FormWeaver.Text.Numeral
import FormWeaver.Text.Printable

/-!
# Quoted texts in messages

A message quotes a text so that the reader sees every character of it: between double quotes,
with a backslash before the quote and the backslash, short escapes for the usual controls, and
the code point of any other character that would not show.
-/

namespace FormWeaver.Text

/-- How a quoted text shows one character. -/
def quoteChar (c : Char) : List Char :=
  if c = '\x00' then ['\\', '0']
  else if c = '\t' then ['\\', 't']
  else if c = '\r' then ['\\', 'r']
  else if c = '\n' then ['\\', 'n']
  else if c = '\\' then ['\\', '\\']
  else if c = '"' then ['\\', '"']
  else if showsAsItself c then [c]
  else ['\\', 'u', '\x7b'] ++ hexDigits c.toNat ++ ['\x7d']

/-- The text in double quotes. -/
def quoted (s : String) : String := String.ofList ('"' :: s.toList.flatMap quoteChar ++ ['"'])

end FormWeaver.Text
