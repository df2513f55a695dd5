/-!
# Listings of names

Messages that say what there is list it between brackets, each name in single quotes. Names stand
in a listing as they are, whatever characters they have.
-/

namespace Custody

/-- The listing of some names. -/
def listing (names : List String) : String :=
  "[" ++ String.intercalate ", " (names.map fun name => "'" ++ name ++ "'") ++ "]"

end Custody
