import SubstModel.Datum.Reader
import SubstModel.Failure

/-!
# Data of a text — the reader with its failures

* `Datum.allOfText` — every datum of a text;
* `Datum.ofText` — the only datum of a text;
* `Datum.fault` — how a fault of the reader is reported.

Positions are counted in bytes of UTF-8 from the start of the text.  The excerpt of an unreadable place skips as
many *characters* as there are bytes in front of the outermost datum, and shows at most ten.
-/

namespace SubstModel.Datum

/-- The length of a text in bytes of UTF-8. -/
def byteLength (cs : List Char) : Nat :=
  cs.foldr (fun c n => c.utf8Size + n) 0

/-- How many characters an excerpt shows at most. -/
def excerptLength : Nat := 10

/-- The report of a fault in the text `cs`, which arose in the outermost datum that begins at `start`. -/
def fault (cs start : List Char) : Fault → ReadFault
  | .unreadable =>
    .invalidNear (String.ofList ((cs.drop (byteLength cs - byteLength start)).take excerptLength))
  | .badString rest => .expectedCharacter (byteLength cs - byteLength rest)
  | .unclosed => .unexpectedEnd
  | .tooDeep => .tooDeep maxNesting

/-- Every datum of a text. -/
def allOfText (text : String) : Outcome (List Datum) :=
  match readAll text.toList with
  | .ok ds => .ok ds
  | .error (f, start) => .error (.ofReading (fault text.toList start f))

/-- The only datum of a text. -/
def ofText (text : String) : Outcome Datum := do
  match ← allOfText text with
  | [] => .error (.ofReading .unexpectedEnd)
  | [d] => .ok d
  | d :: _ => .error (.ofReading (.remaining d))

end SubstModel.Datum
