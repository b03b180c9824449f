/-!
What the library says of itself.
-/

namespace BoxSearch

def version : String := "0.1.0"

end BoxSearch
