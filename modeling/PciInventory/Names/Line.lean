import PciInventory.Text.Numeral
import PciInventory.Text.Utf8

/-!
# Lines of a name database

The database is one byte string, and every search in it runs over the lines
between two positions.  A line keeps its position, so that a later search can
start right behind it.  The lines of a range tile it: each starts where the one
before ends, a newline apart.
-/

namespace PciInventory.Names

def newline : UInt8 := 0x0a
def space : UInt8 := 0x20
def tab : UInt8 := 0x09
def carriageReturn : UInt8 := 0x0d
def hash : UInt8 := 0x23

/-- One line.  `start` and `stop` enclose its text, `next` is the position
behind its newline. -/
structure Line where
  text : Bytes
  start : Nat
  stop : Nat
  next : Nat
deriving DecidableEq

namespace Line

/-- The lines of a byte string, `read` being what precedes it on its first
line, in reverse; that line begins at `start`. -/
def scan (start : Nat) (read : Bytes) : Bytes → List Line
  | [] =>
      if read.isEmpty then []
      else
        let stop := start + read.length
        [⟨read.reverse, start, stop, stop⟩]
  | byte :: rest =>
      if byte = newline then
        let stop := start + read.length
        ⟨read.reverse, start, stop, stop + 1⟩ :: scan (stop + 1) [] rest
      else
        scan start (byte :: read) rest

def between (database : Bytes) (position limit : Nat) : List Line :=
  scan position [] ((database.take limit).drop position)

def behind (database : Bytes) (position : Nat) : List Line :=
  between database position database.length

/-- What follows `lead` on the line, if the line starts with it. -/
def after? (lead : Bytes) (line : Line) : Option Bytes :=
  if lead.isPrefixOf line.text then some (line.text.drop lead.length)
  else none

def startsWith (lead : Bytes) (line : Line) : Bool :=
  lead.isPrefixOf line.text

/-- Whether an id may end before these bytes: at the end of the line or at a
separator. -/
def endsId : Bytes → Bool
  | [] => true
  | byte :: _ => byte = space || byte = tab || byte = carriageReturn

/-- Whether the line starts with the id `lead`, read to its end. -/
def hasId (lead : Bytes) (line : Line) : Bool :=
  match line.after? lead with
  | some rest => endsId rest
  | none => false

end Line

/-- The id as it is written, in lower case and padded to `width` digits. -/
def idBytes (width value : Nat) : Bytes :=
  (Numeral.hexDigits width value).map Char.toUInt8

/-- Blanks that are cut off the end of a name. -/
def isTrailing (byte : UInt8) : Bool :=
  byte = space || byte = tab || byte = newline || byte = 0x0c ||
    byte = carriageReturn

def trimEnd (bytes : Bytes) : Bytes :=
  (bytes.reverse.dropWhile isTrailing).reverse

/-- The name in what follows an id: the blanks around it are cut off, and bytes
that are not text are no name. -/
def nameIn (rest : Bytes) : String :=
  let name := trimEnd (rest.dropWhile fun byte => byte = space || byte = tab)
  (Utf8.decode? name).getD ""

def Line.nameAfter (lead : Bytes) (line : Line) : String :=
  nameIn (line.text.drop lead.length)

end PciInventory.Names
