import DocAudit.Json.Basic
import DocAudit.Number.Shortest
import DocAudit.Text.Quoted

/-!
Values as messages show them.
-/

set_option autoImplicit false

namespace DocAudit.Json

mutual

def display : Json → String
  | .null => "None"
  | .bool true => "True"
  | .bool false => "False"
  | .int n => Number.numeral n
  | .float x => x.text
  | .str s => Text.quoted s
  | .arr items => "[" ++ String.intercalate ", " (displayItems items) ++ "]"
  | .obj fields => "\x7b" ++ String.intercalate ", " (displayFields fields) ++ "\x7d"

def displayItems : List Json → List String
  | [] => []
  | j :: js => display j :: displayItems js

def displayFields : List (String × Json) → List String
  | [] => []
  | (k, j) :: fields => (Text.quoted k ++ ": " ++ display j) :: displayFields fields

end

end DocAudit.Json
