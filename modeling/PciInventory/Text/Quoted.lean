import PciInventory.Text.GraphemeExtend
import PciInventory.Text.Numeral
import PciInventory.Text.Unprintable

/-!
# Quoted text in messages

Text of unknown content is shown between double quotes.  A quote or backslash
inside is marked by a backslash, and whatever would not show as itself is
written by name or by its code point in braces, so that the shown form is one
line of visible characters.
-/

namespace PciInventory.Quoted

def character (c : Char) : String :=
  if c = '\x00' then "\\0"
  else if c = '\t' then "\\t"
  else if c = '\r' then "\\r"
  else if c = '\n' then "\\n"
  else if c = '"' then "\\\""
  else if c = '\\' then "\\\\"
  else if GraphemeExtend.isExtending c || Unprintable.isUnprintable c then
    "\\u\x7b" ++ Numeral.hex 1 c.toNat ++ "\x7d"
  else
    c.toString

def text (content : List Char) : String :=
  "\"" ++ String.join (content.map character) ++ "\""

end PciInventory.Quoted
