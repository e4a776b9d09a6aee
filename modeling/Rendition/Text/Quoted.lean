import Rendition.Text.Hidden

/-!
# Quoted text

Diagnostics show names in double quotes.  Inside them a quote, a backslash and every
character that cannot be seen on its own (`isHidden`) is written as an escape; all
other characters stand for themselves.
-/

namespace Rendition.Text

/-- How a character is written between quotes. -/
def quotedChar (c : Char) : String :=
  if c = '"' then "\\\""
  else if c = '\\' then "\\\\"
  else if c = '\n' then "\\n"
  else if c = '\t' then "\\t"
  else if c = '\r' then "\\r"
  else if c.toNat = 0 then "\\0"
  else if isHidden c then
    "\\u\x7b" ++ String.ofList (Nat.toDigits 16 c.toNat) ++ "\x7d"
  else c.toString

/-- The text in double quotes. -/
def quoted (text : String) : String :=
  "\"" ++ String.join (text.toList.map quotedChar) ++ "\""

end Rendition.Text
