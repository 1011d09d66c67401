import DocAudit.Number.Binary64

/-!
JSON values. Fields keep the order in which they were given.
-/

set_option autoImplicit false

namespace DocAudit

inductive Json where
  | null
  | bool (value : Bool)
  | int (value : Int)
  | float (value : Number.Binary64)
  | str (value : String)
  | arr (items : List Json)
  | obj (fields : List (String × Json))
deriving Inhabited

namespace Json

-- The value of the last field with a name.
def lookup (key : String) (fields : List (String × Json)) : Option Json :=
  (fields.reverse.find? (·.1 == key)).map (·.2)

def get? (j : Json) (key : String) : Option Json :=
  match j with
  | .obj fields => lookup key fields
  | _ => none

-- Sets a field: in its old place when there is one, else at the end.
def setField (key : String) (value : Json) : List (String × Json) → List (String × Json)
  | [] => [(key, value)]
  | (k, v) :: fields =>
    if k = key then (key, value) :: fields else (k, v) :: setField key value fields

def strings (values : List String) : Json := .arr (values.map .str)

def ofOption (value : Option String) : Json :=
  match value with
  | some s => .str s
  | none => .null

mutual

def sorted : Json → Json
  | .arr items => .arr (sortedItems items)
  | .obj fields => .obj ((sortedFields fields).mergeSort fun a b => a.1 ≤ b.1)
  | j => j

def sortedItems : List Json → List Json
  | [] => []
  | j :: js => sorted j :: sortedItems js

def sortedFields : List (String × Json) → List (String × Json)
  | [] => []
  | (k, j) :: fields => (k, sorted j) :: sortedFields fields

end

mutual

def finite : Json → Bool
  | .float x => x.isFinite
  | .arr items => finiteItems items
  | .obj fields => finiteFields fields
  | _ => true

def finiteItems : List Json → Bool
  | [] => true
  | j :: js => finite j && finiteItems js

def finiteFields : List (String × Json) → Bool
  | [] => true
  | (_, j) :: fields => finite j && finiteFields fields

end

mutual

-- The texts in a value, names of fields among them, in the order in which they are written.
def texts : Json → List String
  | .str s => [s]
  | .arr items => itemTexts items
  | .obj fields => fieldTexts fields
  | _ => []

def itemTexts : List Json → List String
  | [] => []
  | j :: js => texts j ++ itemTexts js

def fieldTexts : List (String × Json) → List String
  | [] => []
  | (k, j) :: fields => k :: (texts j ++ fieldTexts fields)

end

mutual

def withoutFields (hidden : String → Bool) : Json → Json
  | .arr items => .arr (itemsWithoutFields hidden items)
  | .obj fields => .obj (fieldsWithout hidden fields)
  | j => j

def itemsWithoutFields (hidden : String → Bool) : List Json → List Json
  | [] => []
  | j :: js => withoutFields hidden j :: itemsWithoutFields hidden js

def fieldsWithout (hidden : String → Bool) : List (String × Json) → List (String × Json)
  | [] => []
  | (k, j) :: fields =>
    if hidden k then fieldsWithout hidden fields
    else (k, withoutFields hidden j) :: fieldsWithout hidden fields

end

end Json

end DocAudit
