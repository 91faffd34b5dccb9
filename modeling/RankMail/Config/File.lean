import RankMail.Config.Json
import RankMail.World

set_option autoImplicit false

/-! # Configuration files -/

namespace RankMail

def Config.ofFile (path : String) : Action World Config := do
  .ofFault (Config.ofBytes (← World.readFile path))

end RankMail
