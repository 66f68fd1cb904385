/-!
# What can be wrong with a document

Reading a document stops at the first thing that is wrong with it, in reading order. Only the
category of that fault is kept: it says whether the text is no document, ends before one is
complete, or is one that does not have the wanted shape.
-/

namespace Pacing.Json

/-- The category of the first fault of a document. -/
inductive Fault where
  /-- The text does not follow the grammar, or exceeds a limit of the reader. -/
  | malformed
  /-- The text ends too early. -/
  | truncated
  /-- The text is well-formed so far but not what is wanted here. -/
  | mistyped
  deriving DecidableEq, Repr, Inhabited

/-- The category as it stands at the end of a message. -/
def Fault.category : Fault → String
  | .malformed => "<syntax>"
  | .truncated => "<eof>"
  | .mistyped => "<data>"

end Pacing.Json
