import DocAudit.File.System

/-!
Changes of a file system. Links on the way are followed; a link at the end of a path is followed
when a file is written, and stands for itself when it is made or taken away.
-/

set_option autoImplicit false

namespace DocAudit.File

structure Entry where
  folder : List String
  name : String
  node : Option Node

namespace System

def put (fs : System) (place : List String) (node : Node) : System :=
  { fs with root := node.put place fs.root }

def parentPlace (fs : System) (path : Path) : Except AccessError (List String) :=
  if pathLimit ≤ Text.Utf8.size path.text then .error .nameTooLong
  else match fs.resolve path.parent with
    | .error e => .error e
    | .ok place => if fs.isFolderAt place then .ok place else .error .notFolder

-- The entry that a path names. A path that ends with a parent part names none.
def entry? (fs : System) (path : Path) : Except AccessError (Option Entry) :=
  match path.parts.getLast? with
  | none => .ok none
  | some name =>
    match fs.parentPlace path with
    | .error e => .error e
    | .ok folder =>
      if name = ".." then .ok none
      else if nameLimit < Text.Utf8.size name then .error .nameTooLong
      else .ok (some ⟨folder, name, fs.node? (folder ++ [name])⟩)

def makeFolder (fs : System) (path : Path) : Except AccessError System :=
  match fs.entry? path with
  | .error e => .error e
  | .ok none => .error .taken
  | .ok (some e) =>
    if e.node.isSome then .error .taken else .ok (fs.put (e.folder ++ [e.name]) (.folder []))

def isFolder (fs : System) (path : Path) : Bool :=
  match fs.resolve path with
  | .ok place => fs.isFolderAt place
  | .error _ => false

-- A failed attempt does not matter where a folder is already.
def unlessFolder (fs : System) (path : Path) (cause : AccessError) :
    Except (AccessError × Path) System :=
  if fs.isFolder path then .ok fs else .error (cause, path)

-- Makes the folder at names, given last first, and those on the way to it.
def makeFoldersAt (fs : System) (anchor : Anchor) :
    List String → Except (AccessError × Path) System
  | [] => .ok fs
  | name :: up =>
    let path : Path := ⟨anchor, (name :: up).reverse⟩
    match fs.makeFolder path with
    | .ok made => .ok made
    | .error .notFound =>
      match fs.makeFoldersAt anchor up with
      | .error e => .error e
      | .ok fs =>
        match fs.makeFolder path with
        | .ok made => .ok made
        | .error cause => fs.unlessFolder path cause
    | .error cause => fs.unlessFolder path cause

def makeFolders (fs : System) (path : Path) : Except (AccessError × Path) System :=
  fs.makeFoldersAt path.anchor path.parts.reverse

def writeFile (fs : System) (path : Path) (bytes : List UInt8) : Except AccessError System :=
  match fs.spot path with
  | .error e => .error e
  | .ok (.free folder name) => .ok (fs.put (folder ++ [name]) (.file bytes))
  | .ok (.occupied place) =>
    if fs.isFolderAt place then .error .isFolder else .ok (fs.put place (.file bytes))

def writeLink (fs : System) (path : Path) (target : String) : Except AccessError System :=
  match fs.entry? path with
  | .error e => .error e
  | .ok none => .error .isFolder
  | .ok (some e) =>
    if e.node.any (·.isFolder) then .error .isFolder
    else .ok (fs.put (e.folder ++ [e.name]) (.link target))

def erase (fs : System) (path : Path) : Except AccessError System :=
  match fs.entry? path with
  | .error e => .error e
  | .ok none => .error .isFolder
  | .ok (some e) =>
    match e.node with
    | none => .error .notFound
    | some (.folder _) => .error .isFolder
    | some _ =>
      let folder := (fs.node? e.folder).getD (.folder [])
      .ok (fs.put e.folder (folder.erase e.name))

end System

end DocAudit.File
