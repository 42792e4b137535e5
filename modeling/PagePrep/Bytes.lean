namespace PagePrep

-- What a file holds.
abbrev Bytes := List UInt8

namespace Bytes

-- Meant for ASCII, where every character is one byte.
def ofAscii (s : String) : Bytes :=
  s.toList.map fun c => .ofNat c.toNat

-- The text, if the bytes are one in UTF-8.
def toText? (bytes : Bytes) : Option String :=
  String.fromUTF8? ⟨bytes.toArray⟩

end Bytes

end PagePrep
