import DocAudit.File.Exclude
import DocAudit.File.System

/-!
The source files below a directory, folder by folder: first the files of a folder, then those of
its subfolders, each in the order of their names.
-/

set_option autoImplicit false

namespace DocAudit.File

-- What to look for and what to leave out. Excluded paths are relative to the directory.
structure Search where
  extensions : List String := [".php"]
  exclude : List String := []
  ignoredFolders : List String := [".git", ".hg", ".svn"]
deriving DecidableEq, Repr

-- The last dot of a name and what follows it, unless only dots stand before.
def extensionChars (name : List Char) : List Char :=
  let tail := name.reverse.takeWhile (· != '.')
  let stem := name.reverse.drop (tail.length + 1)
  if stem.any (· != '.') then '.' :: tail.reverse else []

def extension (name : String) : String := String.ofList (extensionChars name.toList)

namespace Search

-- Whether a file is listed. `folder` is empty or ends with a slash.
def lists (search : Search) (folder name : String) : Bool :=
  !search.exclude.contains (folder ++ name) && search.extensions.contains (extension name)

def enters (search : Search) (folder name : String) : Bool :=
  !search.ignoredFolders.contains name && !search.exclude.contains (folder ++ name)

end Search

-- A file, or a link that leads to no folder. Links are followed along the whole path by which
-- they were found.
def System.isPlain (fs : System) (path : Path) : Node → Bool
  | .file _ => true
  | .folder _ => false
  | .link _ =>
    match fs.resolve path with
    | .ok target => !fs.isFolderAt target
    | .error _ => true

def plainFiles (fs : System) (search : Search) (path : Path) (folder : String)
    (entries : Entries) : List String :=
  let names := (entries.filter fun (name, node) => fs.isPlain (path.child name) node).map (·.1)
  ((names.mergeSort (· ≤ ·)).filter (search.lists folder)).map (folder ++ ·)

-- A folder is listed by its path, which may be too long for that.
def tooLong (path : Path) : Bool := pathLimit ≤ Text.Utf8.size path.text

mutual

-- The source files below a node with a path; `folder` is the part of it below the directory. A
-- folder that cannot be listed is passed over.
def Node.sources (fs : System) (search : Search) (path : Path) (folder : String) :
    Node → List String
  | .folder entries =>
    if tooLong path then []
    else
      plainFiles fs search path folder entries ++
        ((subfolderSources fs search path folder entries).mergeSort
          fun a b => a.1 ≤ b.1).flatMap (·.2)
  | .file _ => []
  | .link _ => []

def subfolderSources (fs : System) (search : Search) (path : Path) (folder : String) :
    List (String × Node) → List (String × List String)
  | [] => []
  | (name, node) :: entries =>
    let others := subfolderSources fs search path folder entries
    if node.isFolder && search.enters folder name then
      (name, node.sources fs search (path.child name) (folder ++ name ++ "/")) :: others
    else others

end

-- The path by which a walk names the directory it begins in. The dot of the working directory
-- stays in front of all that is found below it.
def Path.walked (root : Path) : Path := if root = .here then ⟨.relative, ["."]⟩ else root

-- The source files below a directory; none where there is no directory.
def System.sources (fs : System) (search : Search) (root : Path) :
    Except AccessError (List String) :=
  match fs.folder? root with
  | .error e => .error e
  | .ok none => .ok []
  | .ok (some place) =>
    .ok (((fs.node? place).map fun node => node.sources fs search root.walked "").getD [])

def System.discover (fs : System) (root : Path) (exclude : List String) :
    Except AccessError (List String) :=
  fs.sources { exclude := normalizeExcludes exclude } root

end DocAudit.File
