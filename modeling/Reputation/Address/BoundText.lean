import Reputation.Error
import Reputation.Text.Blank
/-!
Reading bounds from text and from stored integers. The text may be narrower than the stored form
and in either case, with white space around it and one plus sign before it.
-/
namespace Reputation.Bound

open Text

/-- At most 32 bytes after trimming, so the value always fits. -/
def parse (s : String) : Except Error Bound :=
  let cs := trimChars s.toList
  let t := String.ofList cs
  let malformed (n : Option NumeralFault) : Except Error Bound :=
    .error (.invalidRecord (.malformedBound t n))
  if cs.isEmpty || 32 < t.utf8ByteSize then malformed none
  else match natural? 16 cs with
    | none => malformed (some .invalidDigit)
    | some n => match ofNat? n with
      | some b => .ok b
      | none => malformed (some .tooLarge)

def parse? (s : String) : Option Bound :=
  (parse s).toOption

def ofInteger (n : Int64) : Except Error Bound :=
  match n.toInt with
  | .ofNat k =>
    match ofNat? k with
    | some b => .ok b
    | none => .error (.invalidRecord (.negativeBound n.toInt))
  | .negSucc _ => .error (.invalidRecord (.negativeBound n.toInt))

end Reputation.Bound
