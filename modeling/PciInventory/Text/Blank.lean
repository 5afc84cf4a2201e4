import PciInventory.Text.CodePoint

/-!
# Blank characters, lines and fields

A text file is read as lines, a line as fields.  Lines end at a line feed, or
at a carriage return and line feed together; an unfinished last line counts.
Fields are the maximal runs of characters that are not blank, where blank is
the property White_Space of Unicode.
-/

namespace PciInventory.Blank

open CodePoint

def ranges : Ranges where
  list :=
    [(0x9, 0xd), (0x20, 0x20), (0x85, 0x85), (0xa0, 0xa0), (0x1680, 0x1680),
      (0x2000, 0x200a), (0x2028, 0x2029), (0x202f, 0x202f), (0x205f, 0x205f),
      (0x3000, 0x3000)]
  ascending := by decide +kernel

def isBlank (c : Char) : Bool :=
  c ∈ ranges

def trim (text : List Char) : List Char :=
  ((text.dropWhile isBlank).reverse.dropWhile isBlank).reverse

/-- A finished line, given in reverse, without the carriage return that belongs
to its ending. -/
def finished : List Char → List Char
  | '\r' :: line => line.reverse
  | line => line.reverse

/-- The lines of a text, `read` being what precedes it on its first line, in
reverse. -/
def linesFrom (read : List Char) : List Char → List (List Char)
  | [] => if read.isEmpty then [] else [read.reverse]
  | c :: rest =>
      if c = '\n' then finished read :: linesFrom [] rest
      else linesFrom (c :: read) rest

def lines (text : List Char) : List (List Char) :=
  linesFrom [] text

/-- The fields of a text, `read` being what precedes it of its first field, in
reverse. -/
def fieldsFrom (read : List Char) : List Char → List (List Char)
  | [] => if read.isEmpty then [] else [read.reverse]
  | c :: rest =>
      if isBlank c then
        if read.isEmpty then fieldsFrom [] rest
        else read.reverse :: fieldsFrom [] rest
      else fieldsFrom (c :: read) rest

def fields (text : List Char) : List (List Char) :=
  fieldsFrom [] text

end PciInventory.Blank
