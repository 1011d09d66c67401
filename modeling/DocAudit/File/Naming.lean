import DocAudit.File.System
import DocAudit.Text.Halves

/-!
Names of files spelled with halves of pairs. A half may stand for one byte of a name, and it is by
its bytes that a file is known.
-/

set_option autoImplicit false

namespace DocAudit.File

mutual

-- The characters in a tree: in its names and links, and in the texts of its files.
def Node.chars : Node → List Char
  | .file bytes => Text.Utf8.decodeChars bytes
  | .link target => target.toList
  | .folder entries => entryChars entries

def entryChars : List (String × Node) → List Char
  | [] => []
  | (name, node) :: entries => name.toList ++ (node.chars ++ entryChars entries)

end

-- Halves that stand for bytes come in the order of the bytes, from 0x80 on.
def charBytes (halves : Text.Halves) (c : Char) : List UInt8 :=
  match halves.half? c with
  | some half => [UInt8.ofNat (0x80 + half % 0x80)]
  | none => Text.Utf8.encodeChar c

def nameBytes (halves : Text.Halves) (s : String) : List UInt8 :=
  s.toList.flatMap (charBytes halves)

-- The name that a text spells. Bytes that are no text name nothing; with a slash for each half they
-- are as long as before, and no file is found.
def spelledName (halves : Text.Halves) (s : String) : String :=
  let name := Text.Utf8.decode (nameBytes halves s)
  if !halves.occursIn s then s
  else if Text.Utf8.encode name = nameBytes halves s then name
  else String.ofList (s.toList.map fun c => if (halves.half? c).isSome then '/' else c)

def Path.spelled (path : Path) (halves : Text.Halves) : Path :=
  { path with parts := path.parts.map (spelledName halves) }

-- The place of a folder that a text names. A half that stands for no byte names none.
def System.spelledFolder? (fs : System) (halves : Text.Halves) (path : Path) :
    Except AccessError (Option (List String)) :=
  if (halves.pathRun? path.text.toList).isSome then .ok none
  else fs.folder? (path.spelled halves)

end DocAudit.File
