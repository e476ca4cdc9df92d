/-
# Generating bindings

Generating bindings is loading a document and emitting the bindings of its
schema.  The outcome is the whole module or a failure, never a part of it, and
the log of both steps.

Source: `idlforge.core.pipeline` (`generate`).
-/

import AnchorIdl.Bindings.Module
import AnchorIdl.Document.Load
import AnchorIdl.Failure

namespace AnchorIdl

/-- The bindings of a document under given names. -/
def generate (strict : Bool) (source : Document.Source) (name binding : Text) :
    Logged Failure Text := do
  let schema ← (Document.load strict source).mapError (Document.Rejection.toFailure none)
  Bindings.emit schema name binding

end AnchorIdl
