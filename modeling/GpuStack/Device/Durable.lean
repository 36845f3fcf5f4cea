import Mathlib

/-!
# Device/Durable — how writing a record ends

A record is written to a temporary file, renamed into place, and its directory synced.  The rename is
what makes it visible, so an error may come back with the record in place, and so may a stop of the
process.
-/

namespace GpuStack

/-- How writing a record ends: it is published; an error comes back, the file being in place or not;
or the process stops, before the rename or after. -/
inductive WriteEnd
  | published
  | failed (err : String) (linked : Bool)
  | stopped (linked : Bool)
deriving DecidableEq, Repr

/-- Whether the file is in place. -/
def WriteEnd.linked : WriteEnd → Bool
  | published => true
  | failed _ linked => linked
  | stopped linked => linked

end GpuStack
