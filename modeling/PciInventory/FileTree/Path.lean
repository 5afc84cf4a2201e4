import PciInventory.Bytes

/-!
# Paths

A path is a byte string whose segments are separated by slashes.  Empty
segments mean nothing, and neither does a single dot, except that the part
before it has to be a directory.
-/

namespace PciInventory.Path

def separator : UInt8 := 0x2f

def here : Bytes := [0x2e]

def up : Bytes := [0x2e, 0x2e]

def isAbsolute (path : Bytes) : Bool :=
  path.head? = some separator

def endsInSeparator (path : Bytes) : Bool :=
  path.getLast? = some separator

/-- `path` without separators at its end, the first byte excepted. -/
def withoutEnd : Bytes → Bytes
  | [] => []
  | first :: rest =>
      first :: (rest.reverse.dropWhile (· = separator)).reverse

/-- The segments that are not empty, `read` being what precedes the path in its
first segment, in reverse. -/
def segmentsFrom (read : Bytes) : Bytes → List Bytes
  | [] => if read.isEmpty then [] else [read.reverse]
  | byte :: rest =>
      if byte = separator then
        if read.isEmpty then segmentsFrom [] rest
        else read.reverse :: segmentsFrom [] rest
      else segmentsFrom (byte :: read) rest

def segments (path : Bytes) : List Bytes :=
  segmentsFrom [] path

/-- The segments to go through one by one.  A separator at the end asks for a
directory; it is an empty step of its own. -/
def steps (path : Bytes) : List Bytes :=
  if endsInSeparator path then segments path ++ [[]] else segments path

/-- `path` seen from `base`. -/
def join (base path : Bytes) : Bytes :=
  if isAbsolute path then path
  else if base.isEmpty || endsInSeparator base then base ++ path
  else base ++ separator :: path

def components (path : Bytes) : List Bytes :=
  (segments path).filter fun segment => segment ≠ here

def names (path : Bytes) : List Bytes :=
  (components path).filter fun segment => segment ≠ up

def fileName? (path : Bytes) : Option Bytes :=
  match (components path).getLast? with
  | some segment => if segment = up then none else some segment
  | none => none

/-- How many bytes lead a path without being part of a segment that can be
taken off its end: the slash of an absolute path, or a dot that is the first
segment of a relative one. -/
def anchorLength : Bytes → Nat
  | 0x2f :: _ => 1
  | [0x2e] => 1
  | 0x2e :: 0x2f :: _ => 1
  | _ => 0

/-- A path, given in reverse, without the separators and dots at its end. -/
def withoutIdleEnd : Bytes → Bytes
  | 0x2f :: rest => withoutIdleEnd rest
  | [0x2e] => []
  | 0x2e :: 0x2f :: rest => withoutIdleEnd rest
  | path => path

/-- The directory that a new entry at `path` would be made in: the path as it is
written, up to its last segment. -/
def directoryOf (path : Bytes) : Bytes :=
  let anchor := path.take (anchorLength path)
  let body := withoutIdleEnd (path.drop anchor.length).reverse
  let parents := withoutIdleEnd (body.dropWhile (· ≠ separator))
  if body.isEmpty || (anchor.isEmpty && parents.isEmpty) then here
  else anchor ++ parents.reverse

end PciInventory.Path
