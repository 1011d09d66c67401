import DocAudit.Text.Split

/-!
Paths in normal form: no empty parts and no `.` parts. Parent parts stay, since a link may stand
before them.
-/

set_option autoImplicit false

namespace DocAudit.File

-- Where a path begins. Exactly two leading slashes are a root of their own.
inductive Anchor where
  | relative
  | root
  | doubleRoot
deriving DecidableEq, Repr

def Anchor.text : Anchor → String
  | .relative => ""
  | .root => "/"
  | .doubleRoot => "//"

structure Path where
  anchor : Anchor
  parts : List String
deriving DecidableEq, Repr

namespace Path

def anchorOf (s : List Char) : Anchor :=
  match (s.takeWhile (· == '/')).length with
  | 0 => .relative
  | 2 => .doubleRoot
  | _ => .root

def ofString (s : String) : Path where
  anchor := anchorOf s.toList
  parts := (Text.split '/' s).filter fun part => part != "" && part != "."

def here : Path := ⟨.relative, []⟩

-- An anchored path stands for itself, wherever it is taken from.
def join (base : Path) (path : Path) : Path :=
  if path.anchor = .relative then ⟨base.anchor, base.parts ++ path.parts⟩ else path

def parent (p : Path) : Path := ⟨p.anchor, p.parts.dropLast⟩

def child (p : Path) (name : String) : Path := ⟨p.anchor, p.parts ++ [name]⟩

-- No file system has a name with this character.
def nul : Char := Char.ofNat 0

def hasNul (p : Path) : Bool := p.parts.any (·.toList.contains nul)

def text (p : Path) : String :=
  let s := p.anchor.text ++ String.intercalate "/" p.parts
  if s = "" then "." else s

end Path

end DocAudit.File
