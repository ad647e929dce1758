/-!
# Version

The version of the library, as a text and by its parts.
-/

namespace ContractClient

/-- The parts of the version, the most significant one first. -/
def versionParts : List Nat := [0, 1, 0]

def version : String :=
  ".".intercalate (versionParts.map toString)

end ContractClient
