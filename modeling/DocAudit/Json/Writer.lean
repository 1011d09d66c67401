import DocAudit.Json.Dialect
import DocAudit.Number.Shortest
import DocAudit.Text.Quoted

/-!
JSON text. A value is written on one line, with blanks or without, or with each item on a line of
its own; fields are written in the order of their names.
-/

set_option autoImplicit false

namespace DocAudit.Json

inductive Layout where
  | compact
  | line
  | block (width : Nat)
deriving DecidableEq, Repr

namespace Layout

-- A negative indent is no indent.
def ofIndent : Option Int → Layout
  | none => .line
  | some n => .block n.toNat

def margin (l : Layout) (level : Nat) : List Char :=
  match l with
  | .compact | .line => []
  | .block width => '\n' :: List.replicate (width * level) ' '

def separator (l : Layout) (level : Nat) : List Char :=
  match l with
  | .compact => [',']
  | .line => [',', ' ']
  | .block _ => ',' :: l.margin level

def colon (l : Layout) : List Char :=
  match l with
  | .compact => [':']
  | .line | .block _ => [':', ' ']

end Layout

-- Quotes, backslashes and control characters are escaped, and nothing else.
def escapeChar (c : Char) : List Char :=
  if c = '"' then ['\\', '"']
  else if c = '\\' then ['\\', '\\']
  else if c = '\n' then ['\\', 'n']
  else if c = '\r' then ['\\', 'r']
  else if c = '\t' then ['\\', 't']
  else if c.toNat = 8 then ['\\', 'b']
  else if c.toNat = 12 then ['\\', 'f']
  else if c.toNat < 0x20 then '\\' :: 'u' :: Text.hexDigits 4 c.toNat
  else [c]

def writeString (s : String) (rest : List Char) : List Char :=
  '"' :: (s.toList.flatMap escapeChar ++ '"' :: rest)

-- Numbers that are not finite have names.
def floatText : Number.Binary64 → List Char
  | .nan => ['N', 'a', 'N']
  | .infinite false => ['I', 'n', 'f', 'i', 'n', 'i', 't', 'y']
  | .infinite true => ['-', 'I', 'n', 'f', 'i', 'n', 'i', 't', 'y']
  | x => x.text.toList

mutual

def write (l : Layout) (level : Nat) : Json → List Char → List Char
  | .null, rest => 'n' :: 'u' :: 'l' :: 'l' :: rest
  | .bool true, rest => 't' :: 'r' :: 'u' :: 'e' :: rest
  | .bool false, rest => 'f' :: 'a' :: 'l' :: 's' :: 'e' :: rest
  | .int n, rest => Number.intDigits n ++ rest
  | .float x, rest => floatText x ++ rest
  | .str s, rest => writeString s rest
  | .arr [], rest => '[' :: ']' :: rest
  | .arr (j :: js), rest =>
    '[' :: (l.margin (level + 1) ++
      write l (level + 1) j (writeItems l (level + 1) js (l.margin level ++ ']' :: rest)))
  | .obj [], rest => '{' :: '}' :: rest
  | .obj ((k, j) :: fields), rest =>
    '{' :: (l.margin (level + 1) ++ writeString k (l.colon ++
      write l (level + 1) j (writeFields l (level + 1) fields (l.margin level ++ '}' :: rest))))

def writeItems (l : Layout) (level : Nat) : List Json → List Char → List Char
  | [], rest => rest
  | j :: js, rest => l.separator level ++ write l level j (writeItems l level js rest)

def writeFields (l : Layout) (level : Nat) : List (String × Json) → List Char → List Char
  | [], rest => rest
  | (k, j) :: fields, rest =>
    l.separator level ++ writeString k (l.colon ++
      write l level j (writeFields l level fields rest))

end

-- The text of a value, with its fields sorted and a newline at its end.
def text (l : Layout) (j : Json) : String :=
  String.ofList (write l 0 j.sorted ['\n'])

-- Why a value has no text: the indent is too wide, values are nested too deep, or an integer is too
-- long.
inductive WriteError where
  | tooWide
  | tooDeep
  | tooLong
deriving DecidableEq, Repr

def isEmpty : Json → Bool
  | .arr [] | .obj [] => true
  | _ => false

-- The levels of nesting that a value takes itself. A writer on one line takes one for an empty value
-- as well; one that indents takes none for it, and takes one for the text of a float.
def Layout.level (l : Layout) (j : Json) : Nat :=
  match l, j with
  | .block _, .arr _ | .block _, .obj _ => if j.isEmpty then 0 else 1
  | .block _, .float _ => 1
  | _, .arr _ | _, .obj _ => 1
  | _, _ => 0

section

variable (d : Dialect) (l : Layout)

def depthExcess? (depth : Nat) : Option WriteError :=
  if d.admitsDepth depth then none else some .tooDeep

mutual

-- The first limit that is passed in writing a value inside `depth` others.
def excess? (depth : Nat) : Json → Option WriteError
  | .int n => if d.admitsDigits (Number.natDigits n.natAbs).length then none else some .tooLong
  | .arr items =>
    let depth := depth + l.level (.arr items)
    (depthExcess? d depth).or (itemsExcess? depth items)
  | .obj fields =>
    let depth := depth + l.level (.obj fields)
    (depthExcess? d depth).or (fieldsExcess? depth fields)
  | j => depthExcess? d (depth + l.level j)

def itemsExcess? (depth : Nat) : List Json → Option WriteError
  | [] => none
  | j :: js => (excess? depth j).or (itemsExcess? depth js)

def fieldsExcess? (depth : Nat) : List (String × Json) → Option WriteError
  | [] => none
  | (_, j) :: fields => (excess? depth j).or (fieldsExcess? depth fields)

end

end

def isText : Json → Bool
  | .str _ => true
  | _ => false

-- Indents are machine integers.
def indentLimit : Int := Int.pow 2 63

def Indents (indent : Option Int) : Prop := ∀ n ∈ indent, -indentLimit ≤ n ∧ n < indentLimit

instance (indent : Option Int) : Decidable (Indents indent) :=
  inferInstanceAs (Decidable (∀ n ∈ indent, -indentLimit ≤ n ∧ n < indentLimit))

-- The text of a value, where nothing stands in its way. The indent is of no matter to a single text.
def canonical? (d : Dialect) (indent : Option Int) (j : Json) : Except WriteError String :=
  if !j.isText && !decide (Indents indent) then .error .tooWide
  else match j.sorted.excess? d (.ofIndent indent) 0 with
    | some e => .error e
    | none => .ok (j.text (.ofIndent indent))

end DocAudit.Json
