import ControlLoop.Resource.Basic
import ControlLoop.Text.Base64
/-!
# Configuration maps

Named pieces of text and of octets.
-/
namespace ControlLoop

namespace Source

/-- A member that must have the given text. -/
def decodeExactly (text : String) (v : Source) : Decoded Unit := do
  let s ← v.decodeString
  if s = text then return () else .error (.invalidValue (.string s) text)

def octetsShape : String := "a base64-encoded string"

/-- Octets written in base 64; null stands for none, unless it was put aside. -/
def decodeOctets (v : Source) : Decoded (List UInt8) :=
  match v.node with
  | .str s => (Text.Base64.decode s).mapError fun e => .malformed e.message
  | .null => if v.medium = .aside then v.unexpected octetsShape else .ok []
  | _ => v.unexpected octetsShape

end Source

/-- A configuration map. -/
structure ConfigMap where
  metadata : Metadata := {}
  data : Option StringMap := none
  binaryData : Option (List (String × List UInt8)) := none
  immutable : Option Bool := none
  deriving DecidableEq, Repr

namespace ConfigMap

def encode (c : ConfigMap) : Json :=
  .ofMembers
    [("apiVersion", some (.str "v1")),
     ("kind", some (.str "ConfigMap")),
     ("binaryData", c.binaryData.map fun l =>
       .obj (l.map fun e => (e.1, .str (Text.Base64.encode e.2)))),
     ("data", c.data.map .ofStringMap),
     ("immutable", c.immutable.map .bool),
     ("metadata", some c.metadata.encode)]

def member (c : ConfigMap) (name : String) (v : Source) : Decoded ConfigMap :=
  match name with
  | "apiVersion" => do v.decodeExactly "v1"; return c
  | "kind" => do v.decodeExactly "ConfigMap"; return c
  | "binaryData" =>
    return { c with binaryData := ← v.decodeOption (Source.decodeMap Source.decodeOctets) }
  | "data" => return { c with data := ← v.decodeOption (Source.decodeMap Source.decodeString) }
  | "immutable" => return { c with immutable := ← v.decodeOption Source.decodeBool }
  | "metadata" => return { c with metadata := (← v.decodeOption Metadata.decode).getD {} }
  | _ => return c

def decode : Source → Decoded ConfigMap := Source.decodeMembers "ConfigMap" member {}

instance : Resource ConfigMap where
  kind := "ConfigMap"
  group := ""
  version := "v1"
  plural := "configmaps"
  namespaced := true
  metadata := ConfigMap.metadata
  setMetadata c m := { c with metadata := m }
  encode := encode
  decode := decode

end ConfigMap

end ControlLoop
