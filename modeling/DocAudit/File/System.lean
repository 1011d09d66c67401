import DocAudit.File.Node
import DocAudit.File.Path
import DocAudit.Number.Numeral
import DocAudit.Text.Quoted
import DocAudit.Text.Utf8

/-!
A file system: a tree, and the working directory in it. Paths are followed name by name, and
links are followed where they are met.
-/

set_option autoImplicit false

namespace DocAudit.File

inductive AccessError where
  | notFound
  | taken
  | notFolder
  | isFolder
  | nameTooLong
  | tooManyLinks
deriving DecidableEq, Repr

namespace AccessError

def code : AccessError → Nat
  | .notFound => 2
  | .taken => 17
  | .notFolder => 20
  | .isFolder => 21
  | .nameTooLong => 36
  | .tooManyLinks => 40

def reason : AccessError → String
  | .notFound => "No such file or directory"
  | .taken => "File exists"
  | .notFolder => "Not a directory"
  | .isFolder => "Is a directory"
  | .nameTooLong => "File name too long"
  | .tooManyLinks => "Too many levels of symbolic links"

def messageAbout (e : AccessError) (shown : String) : String :=
  "[Errno " ++ Number.numeral e.code ++ "] " ++ e.reason ++ ": " ++ shown

def message (e : AccessError) (path : Path) : String := e.messageAbout (Text.quoted path.text)

end AccessError

structure System where
  root : Node
  -- The names from the root to the working directory.
  cwd : List String

def linkLimit : Nat := 40

def nameLimit : Nat := 255

def pathLimit : Nat := 4096

inductive Progress where
  | arrived (place : List String)
  | atLink (place : List String) (target : String) (rest : List String)
  | absent (place : List String) (name : String) (rest : List String)
  | failed (cause : AccessError)
deriving DecidableEq, Repr

-- Where a path leads: to something, or to a free name in a folder.
inductive Spot where
  | occupied (place : List String)
  | free (folder : List String) (name : String)
deriving DecidableEq, Repr

namespace System

def node? (fs : System) (place : List String) : Option Node := fs.root.descend place

def isFolderAt (fs : System) (place : List String) : Bool :=
  (fs.node? place).any (·.isFolder)

def advance (fs : System) (place : List String) : List String → Progress
  | [] => .arrived place
  | name :: names =>
    match fs.node? place with
    | some (.folder entries) =>
      if name = "." then fs.advance place names
      else if name = ".." then fs.advance place.dropLast names
      else if nameLimit < Text.Utf8.size name then .failed .nameTooLong
      else match Entries.get? entries name with
        | none => .absent place name names
        | some (.link target) => .atLink place target names
        | some _ => fs.advance (place ++ [name]) names
    | _ => .failed .notFolder

-- The names of a link's target. A slash at the end asks for a folder.
def targetNames (target : String) : List String :=
  let names := Text.split '/' target
  names.filter (· != "") ++ (if names.getLast? = some "" then ["."] else [])

def follow (fs : System) (links : Nat) (place names : List String) : Except AccessError Spot :=
  match fs.advance place names with
  | .arrived place => .ok (.occupied place)
  | .absent place name [] => .ok (.free place name)
  | .absent _ _ (_ :: _) => .error .notFound
  | .failed e => .error e
  | .atLink place target rest =>
    match links with
    | 0 => .error .tooManyLinks
    | links + 1 =>
      let start := if (Path.ofString target).anchor = .relative then place else []
      fs.follow links start (targetNames target ++ rest)

def spot (fs : System) (path : Path) : Except AccessError Spot :=
  if pathLimit ≤ Text.Utf8.size path.text then .error .nameTooLong
  else fs.follow linkLimit (if path.anchor = .relative then fs.cwd else []) path.parts

def resolve (fs : System) (path : Path) : Except AccessError (List String) :=
  match fs.spot path with
  | .ok (.occupied place) => .ok place
  | .ok (.free _ _) => .error .notFound
  | .error e => .error e

def read (fs : System) (path : Path) : Except AccessError (List UInt8) :=
  match fs.resolve path with
  | .error e => .error e
  | .ok place =>
    match fs.node? place with
    | some (.file bytes) => .ok bytes
    | some (.folder _) => .error .isFolder
    | _ => .error .notFound

-- The place of a folder. A path that is too long is an error; any other path that leads to no
-- folder is none.
def folder? (fs : System) (path : Path) : Except AccessError (Option (List String)) :=
  if path.hasNul then .ok none
  else match fs.resolve path with
    | .ok place => .ok (if fs.isFolderAt place then some place else none)
    | .error .nameTooLong => .error .nameTooLong
    | .error _ => .ok none

end System

end DocAudit.File
