import DocAudit.Text.Digit
import DocAudit.Text.Quoted

/-!
The switches of the command line, and what each argument is taken for. A long switch may be cut
short where that leaves one choice, short ones may be joined, and values may be attached.
-/

set_option autoImplicit false

namespace DocAudit.CommandLine

inductive Switch where
  | help
  | directory
  | exclude
  | skipClasses
  | skipMethods
  | skipClosures
  | json
  | debug
  | version
deriving DecidableEq, Repr

-- The names of the switches, in the order in which choices are listed.
def switchNames : List (String × Switch) :=
  [("-h", .help), ("--help", .help), ("-d", .directory), ("--directory", .directory),
   ("-x", .exclude), ("--exclude", .exclude), ("--skip-classes", .skipClasses),
   ("--skip-methods", .skipMethods), ("--skip-anonymous-functions", .skipClosures),
   ("-j", .json), ("--json", .json), ("--debug", .debug), ("--version", .version)]

namespace Switch

def named? (name : String) : Option Switch :=
  (switchNames.find? (·.1 == name)).map (·.2)

def takesValue : Switch → Bool
  | .directory | .exclude => true
  | _ => false

def label (s : Switch) : String :=
  String.intercalate "/" ((switchNames.filter (·.2 == s)).map (·.1))

end Switch

inductive UsageError where
  | ambiguous (argument : String) (choices : List String)
  | noValue (switch : Switch)
  | unusedValue (switch : Switch) (value : String)
  | unrecognized (arguments : List String)
deriving DecidableEq, Repr

def UsageError.message : UsageError → String
  | .ambiguous argument choices =>
    "ambiguous option: " ++ argument ++ " could match " ++ String.intercalate ", " choices
  | .noValue switch => "argument " ++ switch.label ++ ": expected one argument"
  | .unusedValue switch value =>
    "argument " ++ switch.label ++ ": ignored explicit argument " ++ Text.quoted value
  | .unrecognized arguments => "unrecognized arguments: " ++ String.intercalate " " arguments

def separatorText : String := "--"

inductive Argument where
  | plain (text : String)
  | separator
  | switch (switch : Switch) (short : Bool) (value : Option String)
  | unknown (text : String)
deriving DecidableEq, Repr

def cutAtEquals (s : List Char) : String × Option String :=
  let name := String.ofList (s.takeWhile (· != '='))
  match s.dropWhile (· != '=') with
  | _ :: value => (name, some (String.ofList value))
  | [] => (name, none)

def isLong (s : List Char) : Bool := ['-', '-'].isPrefixOf s

-- The switches that an argument may be short for, by name, with the value attached to it.
def candidates (s : List Char) : List (String × Switch × Option String) :=
  if isLong s then
    let (start, value) := cutAtEquals s
    (switchNames.filter fun n => start.toList.isPrefixOf n.1.toList).map fun (name, switch) =>
      (name, switch, value)
  else
    (switchNames.filter fun n => n.1.toList == s.take 2).map fun (name, switch) =>
      (name, switch, some (String.ofList (s.drop 2)))

-- Digits after a minus sign, perhaps with a point before the last of them.
def looksNegative (s : List Char) : Bool :=
  let body := if s.getLast? = some '\n' then s.dropLast else s
  match body with
  | '-' :: digits =>
    match digits.dropWhile Text.decimalDigit with
    | [] => !digits.isEmpty
    | '.' :: fraction => !fraction.isEmpty && fraction.all Text.decimalDigit
    | _ => false
  | _ => false

def classifyDashed (text : String) : Except UsageError Argument :=
  match cutAtEquals text.toList with
  | (name, some value) =>
    match Switch.named? name with
    | some switch => .ok (.switch switch (!isLong name.toList) (some value))
    | none => choose text
  | (_, none) => choose text
where
  choose (text : String) : Except UsageError Argument :=
    match candidates text.toList with
    | [(name, switch, value)] => .ok (.switch switch (!isLong name.toList) value)
    | [] =>
      if looksNegative text.toList || text.toList.contains ' ' then .ok (.plain text)
      else .ok (.unknown text)
    | several => .error (.ambiguous text (several.map (·.1)))

def classify (text : String) : Except UsageError Argument :=
  match text.toList with
  | '-' :: _ :: _ =>
    match Switch.named? text with
    | some switch => .ok (.switch switch (!isLong text.toList) none)
    | none => classifyDashed text
  | _ => .ok (.plain text)

-- After the separator everything is plain.
def classifyAll : List String → Except UsageError (List Argument)
  | [] => .ok []
  | text :: rest =>
    if text = separatorText then .ok (.separator :: rest.map .plain)
    else
      match classify text with
      | .error e => .error e
      | .ok argument =>
        match classifyAll rest with
        | .error e => .error e
        | .ok arguments => .ok (argument :: arguments)

end DocAudit.CommandLine
