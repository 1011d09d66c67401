import DocAudit.Text.Blank
import DocAudit.Text.LowerCase
import DocAudit.Text.Split

/-!
Settings of the service, taken from environment variables.
-/

set_option autoImplicit false

namespace DocAudit.Service

structure Settings where
  debug : Bool := false
  corsOrigins : List String := ["*"]
  defaultExclude : List String := []
deriving DecidableEq, Repr

abbrev Environment := List (String × String)

def Environment.get? (env : Environment) (name : String) : Option String :=
  (env.find? (·.1 == name)).map (·.2)

def isYes (value : String) : Bool := ["true", "1", "yes"].contains (Text.lower value)

-- The entries of a list with commas, trimmed; blank ones are dropped.
def listEntries (value : String) : List String :=
  ((Text.split ',' value).map Text.trim).filter (· != "")

-- A variable that is not set leaves its default.
def Settings.ofEnvironment (env : Environment) : Settings where
  debug := ((env.get? "DEBUG").map isYes).getD false
  corsOrigins := ((env.get? "CORS_ORIGINS").map listEntries).getD ["*"]
  defaultExclude := ((env.get? "DEFAULT_EXCLUDE").map listEntries).getD []

end DocAudit.Service
