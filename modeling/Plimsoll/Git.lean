import Plimsoll.Action
import Plimsoll.Runtime
import Plimsoll.Python.PurePath

/-!
What the services see of Git: two operations on a world that may answer
differently each time, and the files of a checkout while it is open.
-/

namespace Plimsoll

open Python

/-- `GitAccess`. -/
structure GitAccess where
  url : String
  kind : Option String := none
  secret : Option (List UInt8) := none
deriving DecidableEq, Repr

/-- `RefResolution`. -/
structure RefResolution where
  sha : String
deriving DecidableEq, Repr

/-- The files a path can be asked about. -/
structure FileView where
  /-- `path.is_file()`. -/
  isFile : PurePath → Except Raised Bool
  /-- `path.read_bytes()`. -/
  readBytes : PurePath → Except Raised (List UInt8)

/-- `path.read_text(errors="replace")`. -/
def FileView.readText (rt : Runtime) (files : FileView) (path : PurePath) : Except Raised String :=
  (files.readBytes path).map rt.decode

/-- What stands open inside `async with fetch_plan(...) as root`. -/
structure Checkout where
  root : PurePath
  files : FileView

/-- A behaviour of Git. The world is what has happened so far: two calls with
the same arguments need not agree. -/
structure Git (W : Type) where
  /-- `resolve_ref(access, ref)`. -/
  resolveRef : GitAccess → String → Action W RefResolution
  /-- `fetch_plan(access, sha, plan_path)`, entered and left again. -/
  fetchPlan : GitAccess → String → String → Action W Checkout

end Plimsoll
