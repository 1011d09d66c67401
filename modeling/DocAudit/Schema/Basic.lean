import DocAudit.Json.Display

/-!
Schemas: lists of rules that a JSON value must keep, and where and how it breaks them. A rule that
speaks of another type of value than the one given is kept.
-/

set_option autoImplicit false

namespace DocAudit

inductive JsonType where
  | array
  | object
  | string
  | integer
deriving DecidableEq, Repr

def JsonType.name : JsonType → String
  | .array => "array"
  | .object => "object"
  | .string => "string"
  | .integer => "integer"

-- A number with an integral value is an integer, however it is written.
def JsonType.has : JsonType → Json → Bool
  | .array, .arr _ => true
  | .object, .obj _ => true
  | .string, .str _ => true
  | .integer, .int _ => true
  | .integer, .float x => x.toInt?.isSome
  | _, _ => false

inductive Rule where
  | type (expected : JsonType)
  | oneOf (values : List String)
  | exactly (value : String)
  | minLength (length : Nat)
  | minimum (bound : Int)
  | required (keys : List String)
  -- Rules for fields by name; a closed object has no others.
  | properties (fields : List (String × List Rule)) (closed : Bool)
  | items (rules : List Rule)
  | conditional (test whenKept whenBroken : List Rule)
  | broken (rules : List Rule)

inductive Breach where
  | type (value : Json) (expected : JsonType)
  | oneOf (value : Json) (values : List String)
  | exactly (value : String)
  | minLength (value : String)
  | minimum (value : Json) (bound : Int)
  | required (key : String)
  | extra (keys : List String)
  | kept

namespace Breach

def keyword : Breach → String
  | .type _ _ => "type"
  | .oneOf _ _ => "enum"
  | .exactly _ => "const"
  | .minLength _ => "minLength"
  | .minimum _ _ => "minimum"
  | .required _ => "required"
  | .extra _ => "additionalProperties"
  | .kept => "not"

def message : Breach → Option String
  | .type value expected =>
    some (value.display ++ " is not of type " ++ Text.quoted expected.name)
  | .oneOf value values =>
    some (value.display ++ " is not one of " ++ (Json.strings values).display)
  | .exactly value => some (Text.quoted value ++ " was expected")
  | .minLength value => some (Text.quoted value ++ " should be non-empty")
  | .minimum value bound =>
    some (value.display ++ " is less than the minimum of " ++ Number.numeral bound)
  | .required key => some (Text.quoted key ++ " is a required property")
  | .extra keys =>
    some ("Additional properties are not allowed (" ++
      String.intercalate ", " ((keys.mergeSort (· ≤ ·)).map Text.quoted) ++
      (if keys.length = 1 then " was unexpected)" else " were unexpected)"))
  | .kept => none

end Breach

inductive Place where
  | key (name : String)
  | index (n : Nat)
deriving DecidableEq, Repr

def Place.json : Place → Json
  | .key name => .str name
  | .index n => .int n

structure Violation where
  path : List Place
  breach : Breach

def Violation.under (place : Place) (v : Violation) : Violation :=
  { v with path := place :: v.path }

def breachUnless (kept : Bool) (breach : Breach) : List Violation :=
  if kept then [] else [⟨[], breach⟩]

def belowBound (bound : Int) : Json → Bool
  | .int n => n < bound
  | .float x => x.lessThan bound
  | _ => false

def missingKeys (keys : List String) (fields : List (String × Json)) : List String :=
  keys.filter fun key => (Json.lookup key fields).isNone

mutual

def Rule.violations : Rule → Json → List Violation
  | .type expected, j => breachUnless (expected.has j) (.type j expected)
  | .oneOf values, .str s => breachUnless (values.contains s) (.oneOf (.str s) values)
  | .oneOf values, j => [⟨[], .oneOf j values⟩]
  | .exactly value, .str s => breachUnless (s == value) (.exactly value)
  | .exactly value, _ => [⟨[], .exactly value⟩]
  | .minLength length, .str s => breachUnless (length ≤ s.length) (.minLength s)
  | .minLength _, _ => []
  | .minimum bound, j => breachUnless (!belowBound bound j) (.minimum j bound)
  | .required keys, .obj fields =>
    (missingKeys keys fields).map fun key => ⟨[], .required key⟩
  | .required _, _ => []
  | .properties rules closed, .obj fields =>
    let extra := if closed then (fields.map (·.1)).filter fun key => !(rules.map (·.1)).contains key
      else []
    fieldViolations rules fields ++ breachUnless extra.isEmpty (.extra extra)
  | .properties _ _, _ => []
  | .items rules, .arr js =>
    js.zipIdx.flatMap fun (j, i) => (allViolations rules j).map (·.under (.index i))
  | .items _, _ => []
  | .conditional test whenKept whenBroken, j =>
    if (allViolations test j).isEmpty then allViolations whenKept j else allViolations whenBroken j
  | .broken rules, j => breachUnless (!(allViolations rules j).isEmpty) .kept

def allViolations : List Rule → Json → List Violation
  | [], _ => []
  | rule :: rules, j => rule.violations j ++ allViolations rules j

def fieldViolations : List (String × List Rule) → List (String × Json) → List Violation
  | [], _ => []
  | (key, rules) :: others, fields =>
    (match Json.lookup key fields with
      | some j => (allViolations rules j).map (·.under (.key key))
      | none => []) ++ fieldViolations others fields

end

mutual

def Rule.keywords : Rule → List (String × Json)
  | .type expected => [("type", .str expected.name)]
  | .oneOf values => [("enum", .strings values)]
  | .exactly value => [("const", .str value)]
  | .minLength length => [("minLength", .int length)]
  | .minimum bound => [("minimum", .int bound)]
  | .required keys => [("required", .strings keys)]
  | .properties fields closed =>
    (if closed then [("additionalProperties", .bool false)] else []) ++
      [("properties", .obj (fieldKeywords fields))]
  | .items rules => [("items", .obj (allKeywords rules))]
  | .conditional test whenKept whenBroken =>
    [("if", .obj (allKeywords test)), ("then", .obj (allKeywords whenKept)),
     ("else", .obj (allKeywords whenBroken))]
  | .broken rules => [("not", .obj (allKeywords rules))]

def allKeywords : List Rule → List (String × Json)
  | [] => []
  | rule :: rules => rule.keywords ++ allKeywords rules

def fieldKeywords : List (String × List Rule) → List (String × Json)
  | [] => []
  | (key, rules) :: others => (key, .obj (allKeywords rules)) :: fieldKeywords others

end

structure Schema where
  dialect : String
  id : String
  title : String
  description : String
  rules : List Rule

namespace Schema

def violations (schema : Schema) (j : Json) : List Violation := allViolations schema.rules j

def accepts (schema : Schema) (j : Json) : Bool := (schema.violations j).isEmpty

def json (schema : Schema) : Json :=
  .obj ([("$schema", .str schema.dialect), ("$id", .str schema.id), ("title", .str schema.title),
    ("description", .str schema.description)] ++ allKeywords schema.rules)

end Schema

end DocAudit
