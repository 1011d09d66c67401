import DocAudit.File.System
import DocAudit.Json.Reader
import DocAudit.Schema.Basic

/-!
The schema of reports, and schemas found by name.
-/

set_option autoImplicit false

namespace DocAudit

def nonEmptyString : List Rule := [.type .string, .minLength 1]

def recordRules : List Rule :=
  [.type .object,
   .required ["type", "file", "class", "line"],
   .properties
     [("type", [.oneOf ["class", "method"]]),
      ("file", nonEmptyString),
      ("class", nonEmptyString),
      ("method", nonEmptyString),
      ("line", [.type .integer, .minimum 1])]
     true,
   .conditional
     [.properties [("type", [.exactly "method"])] false]
     [.required ["method"]]
     [.broken [.required ["method"]]]]

-- A report is an array of records; those of methods, and no others, name a method.
def reportSchema : Schema where
  dialect := "https://json-schema.org/draft/2020-12/schema"
  id := "report.schema.json"
  title := "Missing docblock report"
  description := "One record per class or method lacking a docblock."
  rules := [.type .array, .items recordRules]

inductive SchemaError where
  | notFound (name : String)
  | unusable (cause : File.AccessError) (path : File.Path)
  | malformed (mistake : Json.Mistake)
deriving DecidableEq, Repr

def SchemaError.message : SchemaError → String
  | .notFound name => "schema not found: " ++ name
  | .unusable cause path => cause.message path
  | .malformed mistake => mistake.message

def schemaFolder : List String := ["usr", "lib", "docblock_checker", "data", "schemas"]

def schemaFiles (folder : List String) (schemas : List Schema) : File.System where
  root := (File.Node.folder (schemas.map fun schema => (schema.id, .file []))).put folder
    (.folder [])
  cwd := folder

structure SchemaStore where
  schemas : List Schema
  folder : List String := schemaFolder
  files : File.System := schemaFiles folder schemas

def bundledSchemas : SchemaStore := { schemas := [reportSchema] }

namespace SchemaStore

def at? (store : SchemaStore) (place : List String) : Option Schema :=
  store.schemas.find? fun schema => store.folder ++ [schema.id] == place

def refusal (name : String) (bytes : List UInt8) : SchemaError :=
  let text := Text.Utf8.decodeChars bytes
  match Json.read {} text with
  | .error (.malformed flaw left) => .malformed (.ofLeft text flaw left)
  | _ => .notFound name

def load (store : SchemaStore) (name : String) : Except SchemaError Schema :=
  let path := File.Path.ofString name
  if path.hasNul then .error (.notFound name)
  else
    match store.files.resolve path with
    | .error .nameTooLong => .error (.unusable .nameTooLong path)
    | .error _ => .error (.notFound name)
    | .ok place =>
      match store.at? place with
      | some schema => .ok schema
      | none =>
        match store.files.node? place with
        | some (.file bytes) => .error (refusal name bytes)
        | _ => .error (.unusable .isFolder path)

end SchemaStore

end DocAudit
