import DocAudit.Json.Basic
import DocAudit.Service.Host
import DocAudit.Text.Blank
import DocAudit.Text.LowerCase
import DocAudit.Text.Split

/-!
Requests to the service and its responses.
-/

set_option autoImplicit false

namespace DocAudit.Service

structure Request where
  method : String
  -- The path as it is, with nothing decoded in it.
  path : String
  server : String
  -- Names and values, with a character for each byte.
  headers : List (String × String) := []
  body : String := ""
deriving DecidableEq, Repr

def Request.header? (request : Request) (name : String) : Option String :=
  (request.headers.find? (·.1 == name)).map (·.2)

-- The host that a request asks for, or the server where it asks for none that can be.
def Request.host (request : Request) : String :=
  match request.header? "host" with
  | some host => if isHost host.toList then host else request.server
  | none => request.server

/-! ### Types of content -/

def mediaType (contentType : String) : String :=
  Text.lower (Text.trim (String.ofList (contentType.toList.takeWhile (· != ';'))))

def isJsonType (contentType : String) : Bool :=
  match Text.split '/' (mediaType contentType) with
  | ["application", subtype] =>
    subtype == "json" || "+json".toList.isSuffixOf subtype.toList
  | _ => false

def Request.hasJson (request : Request) : Bool :=
  (request.header? "content-type").any isJsonType

/-! ### Responses -/

inductive Content where
  | json (value : Json)
  | text (value : String)

structure Response where
  status : Nat
  content : Content
  headers : List (String × String) := []

def detailJson (text : String) : Json := .obj [("detail", .str text)]

namespace Response

def ofJson (status : Nat) (value : Json) : Response := { status, content := .json value }

def detail (status : Nat) (text : String) : Response := .ofJson status (detailJson text)

def withHeader (response : Response) (name value : String) : Response :=
  { response with headers := response.headers ++ [(name, value)] }

end Response

end DocAudit.Service
