import DocAudit.CommandLine.Switch
import DocAudit.Finding

/-!
What a command line asks for.
-/

set_option autoImplicit false

namespace DocAudit.CommandLine

structure Options where
  directory : Option String := none
  exclude : Option String := none
  flags : SkipFlags := {}
  json : Bool := false
  debug : Bool := false
  files : Option (List String) := none
  unrecognized : List String := []
deriving DecidableEq, Repr

inductive Stop where
  | help
  | version
  | usage (error : UsageError)
deriving DecidableEq, Repr

namespace Options

-- An attached exclude list that is the separator excludes nothing.
def excludeOf (value : Option String) : Option String :=
  if value = some separatorText then none else value

def apply (o : Options) (switch : Switch) (value : Option String) : Except Stop Options :=
  match switch with
  | .help => .error .help
  | .version => .error .version
  | .directory => .ok { o with directory := value }
  | .exclude => .ok { o with exclude := excludeOf value }
  | .skipClasses => .ok { o with flags := { o.flags with classes := true } }
  | .skipMethods => .ok { o with flags := { o.flags with methods := true } }
  | .skipClosures => .ok { o with flags := { o.flags with closures := true } }
  | .json => .ok { o with json := true }
  | .debug => .ok { o with debug := true }

def applyAll (o : Options) : List (Switch × Option String) → Except Stop Options
  | [] => .ok o
  | (switch, value) :: rest =>
    match o.apply switch value with
    | .error stop => .error stop
    | .ok o => o.applyAll rest

end Options

-- The switches joined in one argument, with the value of the last. A value that none of them
-- takes is an error.
def joined (switch : Switch) (short : Bool) : List Char →
    Except UsageError (List (Switch × Option String))
  | [] =>
    if switch.takesValue then .ok [(switch, some "")] else .error (.unusedValue switch "")
  | c :: value =>
    if switch.takesValue then .ok [(switch, some (String.ofList (c :: value)))]
    else if !short then .error (.unusedValue switch (String.ofList (c :: value)))
    else
      match Switch.named? (String.ofList ['-', c]) with
      | none => .error (.unusedValue switch (String.ofList (c :: value)))
      | some next =>
        if value.isEmpty then .ok [(switch, none), (next, none)]
        else
          match joined next true value with
          | .error e => .error e
          | .ok switches => .ok ((switch, none) :: switches)

def expand (switch : Switch) (short : Bool) :
    Option String → Except UsageError (List (Switch × Option String))
  | none => .ok [(switch, none)]
  | some value => joined switch short value.toList

def takeValue (switches : List (Switch × Option String)) (rest : List Argument) :
    Except UsageError (List (Switch × Option String) × List Argument) :=
  match switches.getLast? with
  | some (switch, none) =>
    if switch.takesValue then
      match rest with
      | .plain text :: rest => .ok (switches.dropLast ++ [(switch, some text)], rest)
      | _ => .error (.noValue switch)
    else .ok (switches, rest)
  | _ => .ok (switches, rest)

theorem takeValue_length {switches taken : List (Switch × Option String)}
    {rest left : List Argument} (h : takeValue switches rest = .ok (taken, left)) :
    left.length ≤ rest.length := by
  unfold takeValue at h
  split at h
  · split at h
    · split at h <;> simp at h
      simp [← h.2]
    · simp at h
      simp [h.2]
  · simp at h
    simp [h.2]

def Argument.isPlain : Argument → Bool
  | .plain _ | .separator => true
  | _ => false

def Argument.text : Argument → String
  | .plain text | .unknown text => text
  | _ => separatorText

namespace Options

-- The first run of plain arguments names the files, without the separator; later ones are not
-- recognized.
def takePlain (o : Options) (run : List Argument) : Options :=
  match o.files with
  | none => { o with files := some ((run.erase .separator).map (·.text)) }
  | some _ => { o with unrecognized := o.unrecognized ++ run.map (·.text) }

def consume (o : Options) (arguments : List Argument) : Except Stop Options :=
  match arguments with
  | [] => .ok o
  | .unknown text :: rest =>
    { o with unrecognized := o.unrecognized ++ [text] }.consume rest
  | .switch switch short value :: rest =>
    match expand switch short value with
    | .error e => .error (.usage e)
    | .ok switches =>
      match _taken : takeValue switches rest with
      | .error e => .error (.usage e)
      | .ok (switches, rest) =>
        match o.applyAll switches with
        | .error stop => .error stop
        | .ok o => o.consume rest
  | .plain text :: rest =>
    (o.takePlain (.plain text :: rest.takeWhile Argument.isPlain)).consume
      (rest.dropWhile Argument.isPlain)
  | .separator :: rest =>
    (o.takePlain (.separator :: rest.takeWhile Argument.isPlain)).consume
      (rest.dropWhile Argument.isPlain)
termination_by arguments.length
decreasing_by
  · simp
  · have := takeValue_length _taken
    simp
    omega
  · have := (List.dropWhile_sublist Argument.isPlain (l := rest)).length_le
    simp
    omega
  · have := (List.dropWhile_sublist Argument.isPlain (l := rest)).length_le
    simp
    omega

end Options

-- Reads a command line. Arguments that were not recognized are reported together at its end.
def readOptions (argv : List String) : Except Stop Options :=
  match classifyAll argv with
  | .error e => .error (.usage e)
  | .ok arguments =>
    match Options.consume {} arguments with
    | .error stop => .error stop
    | .ok o =>
      if o.unrecognized.isEmpty then .ok o else .error (.usage (.unrecognized o.unrecognized))

end DocAudit.CommandLine
