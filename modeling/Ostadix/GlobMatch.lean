import Ostadix.Basic
import Ostadix.StarPattern

/-! Glob patterns for the paths of outputs, and the language that they are documented to have. -/

namespace Ostadix.Project

open StarPattern List

variable {pat text : String}

end Ostadix.Project
