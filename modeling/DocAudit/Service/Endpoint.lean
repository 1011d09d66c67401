/-!
The endpoints of the service.
-/

set_option autoImplicit false

namespace DocAudit.Service

def serviceName : String := "Docblock Checker API"

inductive Endpoint where
  | description
  | health
  | ready
  | scan
  | source
  | root
deriving DecidableEq, Repr

namespace Endpoint

def all : List Endpoint := [.description, .health, .ready, .scan, .source, .root]

def path : Endpoint → String
  | .description => "/openapi.json"
  | .health => "/health"
  | .ready => "/ready"
  | .scan => "/scan/"
  | .source => "/scan/source"
  | .root => "/"

def methods : Endpoint → List String
  | .description => ["GET", "HEAD"]
  | .health | .ready | .root => ["GET"]
  | .scan | .source => ["POST"]

-- The endpoint at a path. A line break at the end of the path does not count.
def at? (path : String) : Option Endpoint :=
  all.find? fun endpoint => path == endpoint.path || path == endpoint.path ++ "\n"

end Endpoint

end DocAudit.Service
