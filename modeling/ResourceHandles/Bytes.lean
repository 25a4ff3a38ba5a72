/-!
# Byte strings

The data of files and connections are lists of bytes, so that appending,
taking and dropping are those of lists.
-/

namespace ResourceHandles

abbrev Bytes := List UInt8

namespace Bytes

def ofString (text : String) : Bytes :=
  text.toUTF8.toList

/-- The text that the bytes encode in UTF-8, if they encode one. -/
def toString? (data : Bytes) : Option String :=
  String.fromUTF8? ⟨data.toArray⟩

/-- A byte string of a given length that consists of one byte. -/
def filled (size : Nat) (byte : UInt8) : Bytes :=
  List.replicate size byte

end Bytes

end ResourceHandles
