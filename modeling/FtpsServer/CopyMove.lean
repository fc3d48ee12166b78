import FtpsServer.CanonicalPath
import FtpsServer.Lib.Walks
import FtpsServer.Renaming

/-!
# What `file::copy` and the two moves report

They ask `file::exists`, which is never true, and so they never report a failure.  The
copy empties its destination before it has seen a source, and the moves do not look at
what `rename` says.  In all three a path stands for what `realpath` takes it for.
-/

namespace FtpsServer

open ByteString Posix

variable {t t' : FileTree} {p q : Bytes}

/-! ## 1. Reports -/

/-- OPERATION_SUCCESS is reported only of what was done, and a reported failure has changed
    nothing. -/
def Honest (t : FileTree) (r : Int × FileTree) (done : FileTree → Prop) : Prop :=
  (r.1 = OPERATION_SUCCESS → done r.2) ∧ (r.1 = OPERATION_FAILURE → r.2 = t)

namespace Path

end Path

namespace File

variable {device : Location → Bytes} {l l' : Location} {m m' : Mode} {content content' : Bytes}

end File

/-! ## 4. Copy and move -/

end FtpsServer
