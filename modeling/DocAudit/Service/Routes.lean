import DocAudit.Json.Writer
import DocAudit.Project
import DocAudit.Schema.Report
import DocAudit.Service.Body
import DocAudit.Service.Description
import DocAudit.Service.Message
import DocAudit.Service.Settings

/-!
The answers of the service. A path that differs from that of an endpoint by slashes at its end is
sent on to it; answers to other origins say which origin may read them.
-/

set_option autoImplicit false

namespace DocAudit.Service

structure Context where
  fs : File.System
  settings : Settings := {}
  schemas : SchemaStore := bundledSchemas

-- What no answer is given for: a scan that was given up, a number that JSON has no text for, and
-- halves of pairs in a text to be sent or in a report.
inductive Fault where
  | project (error : ProjectError)
  | notFinite
  | halfInText (run : Text.HalfRun)
  | halfInReport (run : Text.HalfRun)
deriving DecidableEq, Repr

def Fault.message : Fault → String
  | .project e => e.message
  | .notFinite => "Out of range float values are not JSON compliant"
  | .halfInText run => run.message
  | .halfInReport run => "Error serializing to JSON: UnicodeEncodeError: " ++ run.message

def rootJson (settings : Settings) : Json :=
  .obj [("name", .str serviceName), ("version", .str programVersion),
    ("endpoints", .strings [Endpoint.scan.path, Endpoint.source.path]),
    ("default_exclude", .strings settings.defaultExclude)]

def healthJson : Json :=
  .obj [("status", .str "ok"), ("version", .str programVersion)]

def readiness (schemas : SchemaStore) : Response :=
  match schemas.load reportSchema.id with
  | .ok _ => .ofJson 200 (.obj [("status", .str "ready")])
  | .error e => .detail 503 e.message

def failureJson (report : FileReport) : Json :=
  .obj [("file", .str report.path), ("error", .str ((report.failure.map (·.message)).getD ""))]

def runStatus (run : Run) : String := if run.findings.isEmpty then "clean" else "violations"

def runJson (run : Run) : Json :=
  .obj [("status", .str (runStatus run)), ("summary", run.summary.json),
    ("report", .arr run.records), ("errors", .arr (run.failed.map failureJson))]

def sending (halves : Text.Halves) (document : Json) (response : Response) :
    Except Fault Response :=
  if document.finite then
    match halves.run? (document.write .compact 0 []) with
    | some run => .error (.halfInText run)
    | none => .ok response
  else .error .notFinite

-- Says what is wrong with a body. The values at fault are written too, and not shown.
def refuse (halves : Text.Halves) : Refusal → Except Fault Response
  | .unreadable => .ok (.detail 400 "There was an error parsing the body")
  | .problems problems =>
    sending halves (.obj [("detail", .arr (problems.map (·.document)))])
      (.ofJson 422 (.obj [("detail", .arr (problems.map (·.json)))]))

def report (halves : Text.Halves) (run : Run) : Except Fault Response :=
  match (runJson run).texts.findSome? fun text => halves.run? text.toList with
  | some run => .error (.halfInReport run)
  | none => .ok (.ofJson 200 (runJson run))

def ScanBody.request (body : ScanBody) (halves : Text.Halves) (settings : Settings) :
    DocAudit.Request where
  halves := halves
  directory := body.directory.map File.Path.ofString
  files := body.files
  exclude := settings.defaultExclude ++ body.exclude
  flags := body.flags

def scanFiles (context : Context) (halves : Text.Halves) (body : ScanBody) :
    Except Fault Response :=
  if body.directory.isNone && body.files.isEmpty then
    .ok (.detail 422 "Provide a directory and/or files")
  else
    match (body.request halves context.settings).scan context.fs with
    | .ok run => report halves run
    | .error (.noDirectory path) =>
      sending halves (detailJson (ProjectError.noDirectory path).message)
        (.detail 404 (ProjectError.noDirectory path).message)
    | .error e => .error (.project e)

def scanSource (halves : Text.Halves) (body : SourceBody) : Except Fault Response :=
  report halves ⟨[checkSource body.flags body.path body.source]⟩

def withBody {α : Type} (context : Context) (request : Request)
    (read : Text.Halves → Json → Checked α) (answer : Text.Halves → α → Except Fault Response) :
    Except Fault Response :=
  let halves := bodyHalves context.fs.root request.body
  match readBody halves (read halves) request.hasJson request.body with
  | .ok body => answer halves body
  | .error refusal => refuse halves refusal

def Endpoint.serve (context : Context) (request : Request) : Endpoint → Except Fault Response
  | .description => .ok (.ofJson 200 serviceDescription)
  | .root => .ok (.ofJson 200 (rootJson context.settings))
  | .health => .ok (.ofJson 200 healthJson)
  | .ready => .ok (readiness context.schemas)
  | .scan => withBody context request readScanBody (scanFiles context)
  | .source => withBody context request readSourceBody scanSource

def otherPath (path : String) : String :=
  if path.toList.getLast? = some '/' then
    String.ofList (Text.dropEnd (· == '/') path.toList)
  else path ++ "/"

def redirect? (path : String) : Option String :=
  (Endpoint.at? (otherPath path)).map fun _ => otherPath path

def route (context : Context) (request : Request) : Except Fault Response :=
  match Endpoint.at? request.path with
  | some endpoint =>
    if endpoint.methods.contains request.method then endpoint.serve context request
    else
      .ok ((Response.detail 405 "Method Not Allowed").withHeader "allow"
        (String.intercalate ", " endpoint.methods))
  | none =>
    match redirect? request.path with
    | some path =>
      .ok (({ status := 307, content := .text "" } : Response).withHeader "location"
        (location request.host path))
    | none => .ok (.detail 404 "Not Found")

/-! ### Other origins -/

def allowedMethods : List String := ["GET", "POST"]

-- The origin that an answer names as allowed: any, the one that asks, or none.
def allowedOrigin (settings : Settings) (origin : String) : Option String :=
  if settings.corsOrigins.contains "*" then some "*"
  else if settings.corsOrigins.contains origin then some origin
  else none

def allowOrigin (settings : Settings) (origin : String) (response : Response) : Response :=
  match allowedOrigin settings origin with
  | some allowed => response.withHeader "access-control-allow-origin" allowed
  | none => response

-- The answer to the question whether an origin may use a method. A private network is open to
-- none.
def preflight (settings : Settings) (request : Request) (origin method : String) : Response :=
  let failures :=
    (if (allowedOrigin settings origin).isSome then [] else ["origin"]) ++
      (if allowedMethods.contains method then [] else ["method"]) ++
      (if (request.header? "access-control-request-private-network").isNone then []
        else ["private-network"])
  let response : Response :=
    if failures.isEmpty then { status := 200, content := .text "OK" }
    else { status := 400,
           content := .text ("Disallowed CORS " ++ String.intercalate ", " failures) }
  (allowOrigin settings origin response).withHeader "access-control-allow-methods"
    (String.intercalate ", " allowedMethods)

def handle (context : Context) (request : Request) : Except Fault Response :=
  match request.header? "origin" with
  | none => route context request
  | some origin =>
    let answer := (route context request).map (allowOrigin context.settings origin)
    match request.header? "access-control-request-method" with
    | some method =>
      if request.method = "OPTIONS" then .ok (preflight context.settings request origin method)
      else answer
    | none => answer

end DocAudit.Service
