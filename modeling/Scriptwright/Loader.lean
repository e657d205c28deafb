import Scriptwright.Value

/-!
# Reading values

Documents, schemas and manifests are values that are written in a notation. Which value a text
stands for is up to a loader, and so are the words about a text that stands for none.
-/

namespace Scriptwright

/-- Why a text is not read: it is not in the notation, or something it stands for does not exist. -/
inductive Refusal where
  | malformed (detail : String)
  | fault (f : Fault)

class Loader where
  load : String → Except Refusal Value

end Scriptwright
