import ControlLoop.Json.Decode
/-!
# Documents

Reading a document of a known type from its text. What the text says is looked at before what follows
it, so a document of the wrong type is reported as that even if something stands after it.
-/
namespace ControlLoop.Json

open Text (Characters)

/-- Reads a text that is one document. -/
def readCharacters {α : Type} (decode : Source → Decoded α) (cs : Characters) : Decoded α := do
  let a ← decode ⟨.text, .ofText Node.depthLimit cs⟩
  match skipValue cs with
  | .error e => throw (.unreadable e)
  | .ok rest => if (skipSpace rest).isEmpty then return a else throw (.unreadable .trailingCharacters)

def readDocument {α : Type} (decode : Source → Decoded α) (text : String) : Decoded α :=
  readCharacters decode (.ofString text)

/-- Reads octets that are one document. Only strings that are asked for need to be in UTF-8. -/
def readOctets {α : Type} (decode : Source → Decoded α) (octets : ByteArray) : Decoded α :=
  readCharacters decode (.ofOctets octets)

/-- Reads a text that is one JSON value. -/
def parse (text : String) : Decoded Json := readDocument Source.decodeAny text

end ControlLoop.Json
