/-!
The name and the version of the program.
-/

set_option autoImplicit false

namespace DocAudit

def programName : String := "docblock-checker"

def programVersion : String := "0.1.0"

end DocAudit
