import DocAudit.File.Naming
import DocAudit.Finding
import DocAudit.Json.Reader
import DocAudit.Schema.Basic
import DocAudit.Text.Encoding
import DocAudit.Text.LowerCase

/-!
Bodies of requests, and what is wrong with them. Fields are read in a fixed order and all their
problems are collected; unknown fields do not matter. A body may name halves of pairs, which are
kept as they are.
-/

set_option autoImplicit false

namespace DocAudit.Service

inductive ProblemKind where
  | missing
  | notString
  | notList
  | notBoolean
  | unclearBoolean
  | notUnicode
  | notObject
  | notJson
deriving DecidableEq, Repr

namespace ProblemKind

def name : ProblemKind → String
  | .missing => "missing"
  | .notString => "string_type"
  | .notList => "list_type"
  | .notBoolean => "bool_type"
  | .unclearBoolean => "bool_parsing"
  | .notUnicode => "string_unicode"
  | .notObject => "model_attributes_type"
  | .notJson => "json_invalid"

def message : ProblemKind → String
  | .missing => "Field required"
  | .notString => "Input should be a valid string"
  | .notList => "Input should be a valid list"
  | .notBoolean => "Input should be a valid boolean"
  | .unclearBoolean => "Input should be a valid boolean, unable to interpret input"
  | .notUnicode => "Input should be a valid string, unable to parse raw data as a unicode string"
  | .notObject => "Input should be a valid dictionary or object to extract fields from"
  | .notJson => "JSON decode error"

end ProblemKind

structure Problem where
  kind : ProblemKind
  path : List Place
  value : Json

namespace Problem

-- Fields whose names begin so are left out of the values that are shown.
def isHidden (key : String) : Bool := "_sa".toList.isPrefixOf key.toList

def fields (p : Problem) : List (String × Json) :=
  [("type", .str p.kind.name), ("loc", .arr (.str "body" :: p.path.map (·.json))),
    ("msg", .str p.kind.message)]

def json (p : Problem) : Json := .obj p.fields

def document (p : Problem) : Json :=
  .obj (p.fields ++ [("input", p.value.withoutFields isHidden)])

end Problem

-- A value read from a field, and its problems. With problems the value does not matter.
abbrev Checked (α : Type) := List Problem × α

def fieldOr {α : Type} (default : α) (read : String → Json → Checked α) (body : Json)
    (key : String) : Checked α :=
  match body.get? key with
  | some j => read key j
  | none => ([], default)

def readText (key : String) : Json → Checked String
  | .str s => ([], s)
  | j => ([⟨.notString, [.key key], j⟩], "")

def readNullableText (key : String) : Json → Checked (Option String)
  | .null => ([], none)
  | j => ((readText key j).1, some (readText key j).2)

def readTextItems (key : String) (index : Nat) : List Json → Checked (List String)
  | [] => ([], [])
  | j :: js =>
    let (problems, texts) := readTextItems key (index + 1) js
    match j with
    | .str s => (problems, s :: texts)
    | j => (⟨.notString, [.key key, .index index], j⟩ :: problems, texts)

def readTexts (key : String) : Json → Checked (List String)
  | .arr items => readTextItems key 0 items
  | j => ([⟨.notList, [.key key], j⟩], [])

def trueWords : List String := ["1", "on", "t", "true", "y", "yes"]
def falseWords : List String := ["0", "off", "f", "false", "n", "no"]

-- Integers of more bits than this are no booleans, not even unclear ones.
def integerLimit : Int := Int.pow 2 63

def booleanOfInt (n : Int) : Except ProblemKind Bool :=
  if n = 1 then .ok true else if n = 0 then .ok false else .error .unclearBoolean

-- Words in any case and the numbers one and zero are booleans too.
def booleanOf (halves : Text.Halves) : Json → Except ProblemKind Bool
  | .bool b => .ok b
  | .str s =>
    let word := String.ofList (s.toList.map Text.lowerAscii)
    if halves.occursIn s then .error .notUnicode
    else if trueWords.contains word then .ok true
    else if falseWords.contains word then .ok false
    else .error .unclearBoolean
  | .int n =>
    if -integerLimit ≤ n ∧ n < integerLimit then booleanOfInt n else .error .notBoolean
  | .float x =>
    match x.toInt? with
    | some n =>
      if -integerLimit < n ∧ n < integerLimit then booleanOfInt n else .error .notBoolean
    | none => .error .notBoolean
  | _ => .error .notBoolean

def readBoolean (halves : Text.Halves) (key : String) (j : Json) : Checked Bool :=
  match booleanOf halves j with
  | .ok b => ([], b)
  | .error kind => ([⟨kind, [.key key], j⟩], false)

def readFlags (halves : Text.Halves) (body : Json) : Checked SkipFlags :=
  let classes := fieldOr false (readBoolean halves) body "skip_classes"
  let methods := fieldOr false (readBoolean halves) body "skip_methods"
  let closures := fieldOr false (readBoolean halves) body "skip_anonymous_functions"
  (classes.1 ++ methods.1 ++ closures.1, ⟨classes.2, methods.2, closures.2⟩)

structure ScanBody where
  flags : SkipFlags
  directory : Option String
  files : List String
  exclude : List String
deriving DecidableEq, Repr

def readScanBody (halves : Text.Halves) (body : Json) : Checked ScanBody :=
  let flags := readFlags halves body
  let directory := fieldOr none readNullableText body "directory"
  let files := fieldOr [] readTexts body "files"
  let exclude := fieldOr [] readTexts body "exclude"
  (flags.1 ++ directory.1 ++ files.1 ++ exclude.1,
    ⟨flags.2, directory.2, files.2, exclude.2⟩)

structure SourceBody where
  flags : SkipFlags
  path : String
  source : String
deriving DecidableEq, Repr

def readSourceBody (halves : Text.Halves) (body : Json) : Checked SourceBody :=
  let flags := readFlags halves body
  let path := fieldOr "<source>" readText body "path"
  let source := match body.get? "source" with
    | some j => readText "source" j
    | none => ([⟨.missing, [.key "source"], body⟩], "")
  (flags.1 ++ path.1 ++ source.1, ⟨flags.2, path.2, source.2⟩)

inductive Refusal where
  | unreadable
  | problems (problems : List Problem)

def bodyDialect (halves : Text.Halves) : Json.Dialect :=
  { depth := some 965, digits := some 4300, halves }

-- A mark of the byte order in front of a body is no part of it.
def byteOrderMark : Char := Char.ofNat 0xFEFF

def withoutMark : List Char → List Char
  | [] => []
  | c :: text => if c = byteOrderMark then text else c :: text

-- The code points of a body, which may be in an encoding other than the one of texts.
def bodyPoints? (body : String) : Option (List Nat) :=
  let bytes := Text.Utf8.encode body
  match Text.Encoding.guess bytes with
  | .utf8 => some ((withoutMark body.toList).map Char.toNat)
  | encoding => encoding.points? bytes

-- The characters that stand for the halves of a body. They are neither in the body nor in the tree.
def bodyHalves (root : File.Node) (body : String) : Text.Halves :=
  match bodyPoints? body with
  | some points =>
    let denoted := Text.joinPairs (Json.denotedUnits (Text.Halves.empty.text points))
    if (points ++ denoted).any Text.isHalf then
      .apartFrom (points ++ denoted ++ root.chars.map Char.toNat)
    else .empty
  | none => .empty

def bodyValue (halves : Text.Halves) (body : String) : Except Refusal Json :=
  match bodyPoints? body with
  | none => .error .unreadable
  | some points =>
    match Json.read (bodyDialect halves) (halves.text points) with
    | .ok value => .ok value
    | .error (.malformed _ _) => .error (.problems [⟨.notJson, [], .obj []⟩])
    | .error _ => .error .unreadable

def readObject {α : Type} (read : Json → Checked α) : Json → Except Refusal α
  | .obj fields =>
    match read (.obj fields) with
    | ([], value) => .ok value
    | (problems, _) => .error (.problems problems)
  | j => .error (.problems [⟨.notObject, [], j⟩])

-- Reads a body. Without text there is none, and one that is not sent as JSON is a text.
def readBody {α : Type} (halves : Text.Halves) (read : Json → Checked α) (isJson : Bool)
    (body : String) : Except Refusal α :=
  if body = "" then .error (.problems [⟨.missing, [], .null⟩])
  else if isJson then
    match bodyValue halves body with
    | .ok value => readObject read value
    | .error refusal => .error refusal
  else readObject read (.str body)

end DocAudit.Service
