import DocAudit.Json.Basic
import DocAudit.Program
import DocAudit.Service.Endpoint

/-!
The description of the service for its clients: what each endpoint takes and gives, and the shapes
of the values.
-/

set_option autoImplicit false

namespace DocAudit.Service

/-! ### Shapes -/

def shapeRef (name : String) : Json := .obj [("$ref", .str ("#/components/schemas/" ++ name))]

def ofType (type : String) (more : List (String × Json) := []) : Json :=
  .obj (("type", .str type) :: more)

def titled (title type : String) (more : List (String × Json) := []) : Json :=
  .obj ([("type", .str type), ("title", .str title)] ++ more)

def arrayOf (title : String) (items : Json) (more : List (String × Json) := []) : Json :=
  titled title "array" (("items", items) :: more)

def about (text : String) : String × Json := ("description", .str text)

def objectShape (title : String) (properties : List (String × Json))
    (more : List (String × Json)) : Json :=
  .obj ([("type", .str "object"), ("title", .str title), ("properties", .obj properties)] ++ more)

def flagShapes : List (String × Json) :=
  let flag (title text : String) : Json :=
    titled title "boolean" [about text, ("default", .bool false)]
  [("skip_classes", flag "Skip Classes" "Don't check classes"),
   ("skip_methods", flag "Skip Methods" "Don't check methods or anonymous functions"),
   ("skip_anonymous_functions",
     flag "Skip Anonymous Functions" "Don't check anonymous functions")]

def textsShape (title text : String) : Json := arrayOf title (ofType "string") [about text]

def scanRequestShape : Json :=
  objectShape "ScanRequest"
    (flagShapes ++
      [("directory", .obj
         [("anyOf", .arr [ofType "string", ofType "null"]), ("title", .str "Directory"),
          about "Directory to scan"]),
       ("files", textsShape "Files" "Files to scan"),
       ("exclude", textsShape "Exclude" "Paths relative to directory to skip")])
    [about "Request to scan a directory and/or files on the server",
     ("example", .obj
       [("directory", .str "/path/to/project/src"),
        ("exclude", .strings ["vendor", "Legacy/Old.php"]),
        ("skip_anonymous_functions", .bool true)])]

def sourceRequestShape : Json :=
  objectShape "SourceScanRequest"
    (flagShapes ++
      [("path", titled "Path" "string"
         [about "Name reported for the file", ("default", .str "<source>")]),
       ("source", titled "Source" "string" [about "PHP source text"])])
    [("required", .strings ["source"]),
     about "Request to scan PHP source sent in the request body",
     ("example", .obj
       [("path", .str "src/Foo.php"), ("source", .str "<?php\nclass Foo \x7b\x7d\n")])]

def fileErrorShape : Json :=
  objectShape "FileError"
    [("file", titled "File" "string"), ("error", titled "Error" "string")]
    [("required", .strings ["file", "error"]), about "A file that could not be scanned"]

def summaryShape : Json :=
  let count (title : String) : Json := titled title "integer" [("default", .int 0)]
  objectShape "ScanSummary"
    [("files_scanned", count "Files Scanned"), ("files_failed", count "Files Failed"),
     ("findings_total", count "Findings Total"), ("clean_classes", count "Clean Classes"),
     ("by_type", titled "By Type" "object" [("additionalProperties", ofType "integer")])]
    [about "Summary of scan results"]

def responseShape : Json :=
  objectShape "ScanResponse"
    [("status", titled "Status" "string" [about "Scan status: clean, violations"]),
     ("summary", shapeRef "ScanSummary"),
     ("report", arrayOf "Report" (ofType "object" [("additionalProperties", .bool true)])),
     ("errors", arrayOf "Errors" (shapeRef "FileError"))]
    [("required", .strings ["status", "summary"]),
     about "Response from a scan operation",
     ("example", .obj
       [("status", .str "violations"),
        ("summary", .obj
          [("files_scanned", .int 12), ("files_failed", .int 0), ("findings_total", .int 1),
           ("clean_classes", .int 11), ("by_type", .obj [("method", .int 1)])]),
        ("report", .arr [.obj
          [("type", .str "method"), ("file", .str "Foo.php"), ("class", .str "Foo"),
           ("method", .str "run"), ("line", .int 10)]]),
        ("errors", .arr [])])]

def problemShape : Json :=
  objectShape "ValidationError"
    [("loc", arrayOf "Location" (.obj
       [("anyOf", .arr [ofType "string", ofType "integer"])])),
     ("msg", titled "Message" "string"), ("type", titled "Error Type" "string"),
     ("input", .obj [("title", .str "Input")]), ("ctx", titled "Context" "object")]
    [("required", .strings ["loc", "msg", "type"])]

def problemsShape : Json :=
  objectShape "HTTPValidationError" [("detail", arrayOf "Detail" (shapeRef "ValidationError"))] []

def shapes : List (String × Json) :=
  [("FileError", fileErrorShape), ("HTTPValidationError", problemsShape),
   ("ScanRequest", scanRequestShape), ("ScanResponse", responseShape),
   ("ScanSummary", summaryShape), ("SourceScanRequest", sourceRequestShape),
   ("ValidationError", problemShape)]

/-! ### Operations -/

def jsonContent (shape : Json) : String × Json :=
  ("content", .obj [("application/json", .obj [("schema", shape)])])

def outcomeJson (text : String) (shape : Json) : Json := .obj [about text, jsonContent shape]

structure Operation where
  summary : String
  text : String
  id : String
  group : Option String
  shapes : Option (String × String)

def Operation.json (o : Operation) : Json :=
  let group := (o.group.map fun name => ("tags", Json.strings [name])).toList
  let head := group ++ [("summary", .str o.summary), about o.text, ("operationId", .str o.id)]
  match o.shapes with
  | none =>
    .obj (head ++ [("responses", .obj [("200", outcomeJson "Successful Response" (.obj []))])])
  | some (body, answer) =>
    .obj (head ++
      [("requestBody", .obj [jsonContent (shapeRef body), ("required", .bool true)]),
       ("responses", .obj
         [("200", outcomeJson "Successful Response" (shapeRef answer)),
          ("422", outcomeJson "Validation Error" (shapeRef "HTTPValidationError"))])])

-- The operation of an endpoint. The description does not describe itself.
def Endpoint.operation? : Endpoint → Option Operation
  | .description => none
  | .health => some ⟨"Health Check", "Process is up.", "health_check_health_get", some "Health", none⟩
  | .ready => some ⟨"Readiness Check",
      "Ready once the bundled report schema can be loaded, since every\n" ++
        "report the service returns is shaped by it.",
      "readiness_check_ready_get", some "Health", none⟩
  | .scan => some ⟨"Run Scan",
      "Scan a directory and/or files on the server.\n\n" ++
        "- **directory**: Local directory to walk for ``*.php`` files\n" ++
        "- **files**: Extra files, relative to the directory when given\n" ++
        "- **exclude**: Paths relative to the directory to leave out",
      "run_scan_scan__post", some "Scan", some ("ScanRequest", "ScanResponse")⟩
  | .source => some ⟨"Scan Source", "Scan PHP source text sent in the request body.",
      "scan_source_scan_source_post", some "Scan", some ("SourceScanRequest", "ScanResponse")⟩
  | .root => some ⟨"Root", "List the scan endpoints and the active exclude defaults.",
      "root__get", none, none⟩

def Endpoint.verb : Endpoint → String
  | .scan | .source => "post"
  | _ => "get"

def pathsJson : Json :=
  .obj (Endpoint.all.filterMap fun endpoint =>
    endpoint.operation?.map fun o => (endpoint.path, .obj [(endpoint.verb, o.json)]))

def serviceDescription : Json :=
  .obj
    [("openapi", .str "3.1.0"),
     ("info", .obj
       [("title", .str serviceName),
        about "Reports PHP classes and methods missing a docblock",
        ("version", .str programVersion)]),
     ("paths", pathsJson),
     ("components", .obj [("schemas", .obj shapes)])]

end DocAudit.Service
