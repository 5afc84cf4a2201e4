import PciInventory.Text.Numeral

/-!
# Text in the log

The log is read in a terminal.  The characters with which a text could command
the terminal are written by their numbers; all others, line ends and tabs among
them, stand as they are.
-/

namespace PciInventory.LogText

/-- The control characters of ASCII that a terminal obeys: bell, backspace, form
feed, escape and delete. -/
def commands : List Char :=
  ['\x07', '\x08', '\x0c', '\x1b', '\x7f']

/-- Whether a character is one of the control characters beyond ASCII. -/
def isHighControl (c : Char) : Bool :=
  0x80 ≤ c.toNat && c.toNat ≤ 0x9f

def character (c : Char) : List Char :=
  if commands.contains c then '\\' :: 'x' :: Numeral.hexDigits 2 c.toNat
  else if isHighControl c then
    '\\' :: 'u' :: '\x7b' :: Numeral.hexDigits 1 c.toNat ++ ['\x7d']
  else [c]

def text (content : String) : String :=
  String.ofList (content.toList.flatMap character)

end PciInventory.LogText
