/-!
Trees of files, folders and links.
-/

set_option autoImplicit false

namespace DocAudit.File

inductive Node where
  | file (bytes : List UInt8)
  | link (target : String)
  | folder (entries : List (String × Node))
deriving Inhabited

abbrev Entries := List (String × Node)

namespace Entries

def get? (entries : Entries) (name : String) : Option Node :=
  (entries.find? (·.1 == name)).map (·.2)

-- Sets an entry: in its old place when there is one, else at the end.
def set (name : String) (node : Node) : Entries → Entries
  | [] => [(name, node)]
  | (n, old) :: entries =>
    if n = name then (name, node) :: entries else (n, old) :: set name node entries

def erase (entries : Entries) (name : String) : Entries :=
  entries.filter (·.1 != name)

end Entries

namespace Node

def isFolder : Node → Bool
  | .folder _ => true
  | _ => false

def descend (node : Node) : List String → Option Node
  | [] => some node
  | name :: names =>
    match node with
    | .folder entries => (Entries.get? entries name).bind (·.descend names)
    | _ => none

-- Puts a node below names, with folders on the way where there are none.
def put (fresh : Node) : List String → Node → Node
  | [], _ => fresh
  | name :: names, .folder entries =>
    .folder (Entries.set name (put fresh names ((Entries.get? entries name).getD (.folder [])))
      entries)
  | name :: names, _ => .folder [(name, put fresh names (.folder []))]

def erase (name : String) : Node → Node
  | .folder entries => .folder (Entries.erase entries name)
  | node => node

end Node

end DocAudit.File
