import OperationLibrary.Disk.Tar
import OperationLibrary.Disk.Zip

/-!
Archives of either format, told apart by their names.
-/

namespace OperationLibrary

inductive ArchiveKind where
  | zip
  | tarGz
  deriving DecidableEq

namespace ArchiveKind

/-- The kind of archive that a name tells. A name that is nothing but the ending tells none. -/
def ofName? (name : String) : Option ArchiveKind :=
  if name.endsWith ".zip" ∧ name ≠ ".zip" then some .zip
  else if name.endsWith ".tar.gz" ∨ name.endsWith ".tgz" then some .tarGz
  else none

/-- Unpacks an archive below the directory `root`. -/
def unpack (root : String) : ArchiveKind → ByteArray → Unpacked
  | .zip => Zip.unpack root
  | .tarGz => Tar.unpack root

end ArchiveKind

end OperationLibrary
