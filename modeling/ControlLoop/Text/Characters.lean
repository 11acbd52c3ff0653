/-!
# Text that may not be text

What arrives in octets need not be UTF-8. It is read as a list in which every octet that belongs to no
character has a place of its own, so that a reader can pass over it where it does no harm.
-/
namespace ControlLoop.Text

/-- The characters of a text, with nothing in the place of an octet that belongs to none. -/
abbrev Characters := List (Option Char)

namespace Characters

def ofString (text : String) : Characters := text.toList.map some

/-- The characters from a position on, at most `limit` of them. -/
def scan (octets : ByteArray) : Nat → Nat → Characters
  | 0, _ => []
  | limit + 1, position =>
    if octets.size ≤ position then []
    else
      match octets.utf8DecodeChar? position with
      | some c => some c :: scan octets limit (position + c.utf8Size)
      | none => none :: scan octets limit (position + 1)

def ofOctets (octets : ByteArray) : Characters :=
  match String.fromUTF8? octets with
  | some text => ofString text
  | none => scan octets octets.size 0

/-- The number of octets. -/
def octets (cs : Characters) : Nat :=
  cs.foldl (fun n c => n + (c.map Char.utf8Size).getD 1) 0

/-- The text, if all of it is characters. -/
def text? (cs : Characters) : Option String := (cs.mapM id).map String.ofList

end Characters

end ControlLoop.Text
