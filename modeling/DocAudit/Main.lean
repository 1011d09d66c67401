import DocAudit.CommandLine.Command
import DocAudit.File.Change

/-!
The program. It takes a picture of the files that a command line is about, runs the command in
it, and prints what the command printed.
-/

set_option autoImplicit false

namespace DocAudit.Main

open File CommandLine

def pathOf (place : List String) : Path := ⟨.root, place⟩

def placeOfText (text : String) : List String := (Path.ofString text).parts

inductive Seen where
  | nothing
  | folder
  | file
  | link (target : String)

def deadTarget (looping : Bool) (place : List String) : String :=
  if looping then (pathOf place).text else "/" ++ String.ofList [Path.nul]

def bytesAt (place : List String) : IO (List UInt8) := do
  return (← IO.FS.readBinFile (pathOf place).text).toList

-- Where a link leads. A link without an end is told from a loop by the error of reading it.
def targetOf (place : List String) : IO String := do
  try
    return (← IO.FS.realPath (pathOf place).text).toString
  catch _ =>
    try
      let _ ← bytesAt place
      return deadTarget false place
    catch
      | .noFileOrDirectory .. => return deadTarget false place
      | _ => return deadTarget true place

def look (place : List String) : IO Seen := do
  try
    match (← ((← IO.currentDir) / (pathOf place).text).symlinkMetadata).type with
    | .dir => return .folder
    | .symlink => return .link (← targetOf place)
    | _ => return .file
  catch _ => return .nothing

partial def addPlace (fs : File.System) (place : List String) : IO File.System := do
  match ← look place with
  | .nothing => return fs
  | .folder => return if fs.isFolderAt place then fs else fs.put place (.folder [])
  | .file => return fs.put place (.file (← bytesAt place))
  | .link target =>
    let linked := fs.put place (.link target)
    if placeOfText target = place then return linked else addPlace linked (placeOfText target)

partial def addWay (fs : File.System) (place : List String) : List String → IO File.System
  | [] => return fs
  | ".." :: names => addWay fs place.dropLast names
  | name :: names => do
    let next := place ++ [name]
    let fs ← addPlace fs next
    match fs.follow linkLimit place [name] with
    | .ok (.occupied reached) => addWay fs reached names
    | _ => return fs

partial def addBelow (fs : File.System) (place : List String) : IO File.System := do
  let mut fs := fs
  for entry in ← ((← IO.currentDir) / (pathOf place).text).readDir do
    let next := place ++ [entry.fileName]
    fs ← addPlace fs next
    match fs.node? next with
    | some (.folder _) => fs ← addBelow fs next
    | _ => pure ()
  return fs

def startOf (fs : File.System) (path : Path) : List String :=
  if path.anchor = .relative then fs.cwd else []

def picture (request : Request) : IO File.System := do
  let cwd := placeOfText (← IO.currentDir).toString
  let start : File.System := { root := .folder [], cwd }
  let mut fs := start.put cwd (.folder [])
  if let some root := request.directory then
    fs ← addWay fs (startOf fs root) root.parts
    if let .ok (some place) := fs.folder? root then
      fs ← addBelow fs place
  for file in request.files do
    let path := (request.directory.getD .here).join (Path.ofString file)
    fs ← addWay fs (startOf fs path) path.parts
  return fs

def faultMessage : Fault → String
  | .separatorAsDirectory => "the separator is no directory"
  | .project e => e.message
  | .invalidReport violations =>
    String.intercalate "\n" (violations.filterMap (·.breach.message))

def exitStatus (code : ExitCode) : UInt32 := UInt32.ofNat code.toNat

def runCommand (argv : List String) : IO UInt32 := do
  let fs ← match readOptions argv with
    | .ok o => picture o.request
    | .error _ => pure { root := .folder [], cwd := [] }
  match CommandLine.run argv fs with
  | .ok result =>
    IO.print result.stdout
    IO.eprint result.stderr
    return exitStatus result.code
  | .error fault =>
    IO.eprintln (faultMessage fault)
    return 1

end DocAudit.Main

def main (argv : List String) : IO UInt32 := DocAudit.Main.runCommand argv
