import PciInventory.Bytes

/-!
# UTF-8

Text is accepted only when the bytes are well-formed UTF-8; the accepted bytes
are then exactly the encoding of the text.  For the rest this module says where
and how reading stops, and gives the replacement reading used for names and
messages, in which every ill-formed stretch becomes one U+FFFD.
-/

namespace PciInventory.Utf8

def decode? (bytes : Bytes) : Option String :=
  String.fromUTF8? ⟨bytes.toArray⟩

theorem decode?_eq_some_iff {bytes : Bytes} {text : String} :
    decode? bytes = some text ↔ bytes = Bytes.ofText text := by
  unfold decode? String.fromUTF8?
  constructor
  · intro hdecode
    split at hdecode
    next hvalid =>
      simp only [Option.some.injEq] at hdecode
      subst text
      simp [Bytes.ofText, String.fromUTF8]
    next => contradiction
  · intro hbytes
    subst bytes
    have hvalid : text.toByteArray.IsValidUTF8 := text.isValidUTF8
    simp [Bytes.ofText, hvalid, String.fromUTF8]

/-- What stands at the front of a byte string. -/
inductive Front where
  /-- A well-formed sequence of `width` bytes. -/
  | character (c : Char) (width : Nat)
  /-- `width` bytes that begin no well-formed sequence, the longest stretch that
  could have begun one. -/
  | illFormed (width : Nat)
  /-- The bytes end inside a sequence that is well-formed so far. -/
  | unfinished

/-- The number of continuation bytes that a first byte calls for, and the least
and greatest value allowed for the first of them. -/
def continuation? (first : UInt8) : Option (Nat × UInt8 × UInt8) :=
  if first < 0xc2 then none
  else if first < 0xe0 then some (1, 0x80, 0xbf)
  else if first = 0xe0 then some (2, 0xa0, 0xbf)
  else if first = 0xed then some (2, 0x80, 0x9f)
  else if first < 0xf0 then some (2, 0x80, 0xbf)
  else if first = 0xf0 then some (3, 0x90, 0xbf)
  else if first < 0xf4 then some (3, 0x80, 0xbf)
  else if first = 0xf4 then some (3, 0x80, 0x8f)
  else none

/-- Reads `missing` more continuation bytes after `width` bytes with the
payload `payload`. -/
def continued (payload width : Nat) (least greatest : UInt8) :
    (missing : Nat) → Bytes → Front
  | 0, _ => .character (Char.ofNat payload) width
  | _ + 1, [] => .unfinished
  | missing + 1, byte :: rest =>
      if least ≤ byte && byte ≤ greatest then
        continued (payload * 64 + byte.toNat % 64) (width + 1) 0x80 0xbf
          missing rest
      else
        .illFormed width

def front (first : UInt8) (rest : Bytes) : Front :=
  if first < 0x80 then
    .character (Char.ofNat first.toNat) 1
  else
    match continuation? first with
    | none => .illFormed 1
    | some (missing, least, greatest) =>
        let payload := first.toNat % (64 >>> missing)
        continued payload 1 least greatest missing rest

/-- The place of the first ill-formed stretch; its width is `none` when the
bytes end too early. -/
structure Fault where
  index : Nat
  width : Option Nat
deriving DecidableEq

def faultFrom (index : Nat) : Bytes → Fault
  | [] => ⟨index, none⟩
  | first :: rest =>
      match front first rest with
      | .character _ width =>
          faultFrom (index + width) (rest.drop (width - 1))
      | .illFormed width => ⟨index, some width⟩
      | .unfinished => ⟨index, none⟩
termination_by bytes => bytes.length
decreasing_by simp only [List.length_cons, List.length_drop]; omega

def fault (bytes : Bytes) : Fault :=
  faultFrom 0 bytes

def Fault.message (fault : Fault) : String :=
  match fault.width with
  | some width =>
      s!"invalid utf-8 sequence of {width} bytes from index {fault.index}"
  | none => s!"incomplete utf-8 byte sequence from index {fault.index}"

def replacing : Bytes → List Char
  | [] => []
  | first :: rest =>
      match front first rest with
      | .character c width => c :: replacing (rest.drop (width - 1))
      | .illFormed width => '\uFFFD' :: replacing (rest.drop (width - 1))
      | .unfinished => ['\uFFFD']
termination_by bytes => bytes.length
decreasing_by
  all_goals simp only [List.length_cons, List.length_drop]; omega

/-- A readable text for bytes of unknown content. -/
def display (bytes : Bytes) : String :=
  String.ofList (replacing bytes)

end PciInventory.Utf8
