import DocAudit.CommandLine.Options

/-!
Command lines that spell everything out: switches by their long names, with values attached, and the
files behind a separator. They are read as they were written, whatever the values and the files look
like.
-/

set_option autoImplicit false

namespace DocAudit.CommandLine

def Switch.longName (switch : Switch) : String :=
  ((switchNames.find? fun n => n.2 == switch && isLong n.1.toList).map (·.1)).getD ""

-- A switch with the value attached to it.
abbrev Setting := Switch × Option String

namespace Setting

def text (setting : Setting) : String :=
  match setting.2 with
  | none => setting.1.longName
  | some value => setting.1.longName ++ "=" ++ value

def argument (setting : Setting) : Argument := .switch setting.1 false setting.2

-- There is a value exactly where the switch takes one.
def Complete (setting : Setting) : Prop := setting.1.takesValue = setting.2.isSome

end Setting

def spelledOut (settings : List Setting) (files : List String) : List String :=
  settings.map Setting.text ++ separatorText :: files

/-! ### Arguments -/

theorem switch_names_plain : ∀ n ∈ switchNames, '=' ∉ n.1.toList := by decide

theorem named_plain (name : String) (equals : '=' ∈ name.toList) : Switch.named? name = none := by
  rw [Switch.named?, Option.map_eq_none_iff, List.find?_eq_none]
  intro n member same
  exact switch_names_plain n member (beq_iff_eq.mp same ▸ equals)

theorem long_name_plain (switch : Switch) : '=' ∉ switch.longName.toList := by
  cases switch <;> decide

theorem long_name_start (switch : Switch) : ∃ rest, switch.longName.toList = '-' :: '-' :: rest := by
  cases switch <;> exact ⟨_, rfl⟩

theorem long_name_named (switch : Switch) : Switch.named? switch.longName = some switch := by
  cases switch <;> decide

theorem cut_at_equals (name value : List Char) (plain : '=' ∉ name) :
    cutAtEquals (name ++ '=' :: value) = (String.ofList name, some (String.ofList value)) := by
  have other : ∀ c ∈ name, (c != '=') = true := by
    intro c member
    exact bne_iff_ne.mpr fun same => plain (same ▸ member)
  have behind : ('=' :: value).takeWhile (· != '=') = [] := rfl
  have from_ : ('=' :: value).dropWhile (· != '=') = '=' :: value := rfl
  simp only [cutAtEquals, List.takeWhile_append_of_pos other, List.dropWhile_append_of_pos other, behind, from_,
    List.append_nil]

theorem classify_long (switch : Switch) : classify switch.longName = .ok (.switch switch false none) := by
  obtain ⟨rest, start⟩ := long_name_start switch
  rw [classify, start, long_name_named]
  rfl

-- No switch has an equals sign in its name, so the first one ends the name.
theorem classify_attached (switch : Switch) (value : String) :
    classify (switch.longName ++ "=" ++ value) = .ok (.switch switch false (some value)) := by
  obtain ⟨rest, start⟩ := long_name_start switch
  have text : (switch.longName ++ "=" ++ value).toList = switch.longName.toList ++ '=' :: value.toList := by simp
  have whole : Switch.named? (switch.longName ++ "=" ++ value) = none := named_plain _ (by simp [text])
  have cut := cut_at_equals switch.longName.toList value.toList (long_name_plain switch)
  rw [String.ofList_toList, String.ofList_toList] at cut
  have dashed : classifyDashed (switch.longName ++ "=" ++ value) = .ok (.switch switch false (some value)) := by
    rw [classifyDashed, text, cut]
    dsimp only
    rw [long_name_named]
    dsimp only
    rw [start]
    rfl
  rw [classify, text, start]
  dsimp only [List.cons_append]
  rw [whole]
  exact dashed

theorem classify_setting (setting : Setting) : classify setting.text = .ok setting.argument := by
  obtain ⟨switch, value⟩ := setting
  cases value with
  | none => exact classify_long switch
  | some value => exact classify_attached switch value

theorem long_name_length (switch : Switch) : separatorText.length < switch.longName.length := by
  cases switch <;> decide

theorem setting_not_separator (setting : Setting) : setting.text ≠ separatorText := by
  intro same
  have longer := long_name_length setting.1
  rw [← same, Setting.text] at longer
  split at longer
  · omega
  · rw [String.length_append, String.length_append] at longer
    omega

theorem classify_spelled_out (settings : List Setting) (files : List String) :
    classifyAll (spelledOut settings files) =
      .ok (settings.map Setting.argument ++ .separator :: files.map .plain) := by
  induction settings with
  | nil => rfl
  | cons setting settings ih =>
      rw [spelledOut, List.map_cons, List.cons_append, classifyAll, if_neg (setting_not_separator setting),
        classify_setting]
      dsimp only
      rw [← spelledOut, ih]
      rfl

/-! ### Options -/

theorem joined_attached (switch : Switch) (value : String) (takes : switch.takesValue = true) :
    joined switch false value.toList = .ok [(switch, some value)] := by
  cases text : value.toList with
  | nil => rw [joined, if_pos takes, ← String.toList_eq_nil_iff.mp text]
  | cons c rest => rw [joined, if_pos takes, ← text, String.ofList_toList]

theorem expand_setting (setting : Setting) (complete : setting.Complete) :
    expand setting.1 false setting.2 = .ok [setting] := by
  obtain ⟨switch, value⟩ := setting
  cases value with
  | none => rfl
  | some value => exact joined_attached switch value complete

theorem take_value_setting (setting : Setting) (rest : List Argument) (complete : setting.Complete) :
    takeValue [setting] rest = .ok ([setting], rest) := by
  obtain ⟨switch, value⟩ := setting
  cases value with
  | none =>
      have none : switch.takesValue = false := complete
      simp [takeValue, none]
  | some value => rfl

namespace Options

theorem consume_setting (o next : Options) (setting : Setting) (rest : List Argument) (complete : setting.Complete)
    (applied : o.apply setting.1 setting.2 = .ok next) : o.consume (setting.argument :: rest) = next.consume rest := by
  rw [Setting.argument, consume, expand_setting setting complete]
  dsimp only
  split
  · rename_i e taken
    rw [take_value_setting setting rest complete] at taken
    cases taken
  · rename_i switches others taken
    rw [take_value_setting setting rest complete] at taken
    cases taken
    rw [applyAll, applied]
    rfl

theorem consume_settings (o : Options) (settings : List Setting) (rest : List Argument)
    (complete : ∀ setting ∈ settings, setting.Complete) (next : Options) (applied : o.applyAll settings = .ok next) :
    o.consume (settings.map Setting.argument ++ rest) = next.consume rest := by
  induction settings generalizing o with
  | nil =>
      cases applied
      rfl
  | cons setting settings ih =>
      rw [List.forall_mem_cons] at complete
      rw [applyAll] at applied
      split at applied
      · cases applied
      · rename_i first one
        rw [List.map_cons, List.cons_append, consume_setting o first setting _ complete.1 one]
        exact ih first complete.2 applied

-- Of several separators the first is dropped, and that is the one in front of the files.
theorem consume_files (o : Options) (files : List String) (first : o.files = none) :
    o.consume (.separator :: files.map .plain) = .ok { o with files := some files } := by
  have plain : ∀ argument ∈ files.map Argument.plain, argument.isPlain = true := by simp [Argument.isPlain]
  have all : (files.map Argument.plain ++ []).takeWhile Argument.isPlain = files.map .plain ++ [] :=
    List.takeWhile_append_of_pos plain
  have none : (files.map Argument.plain ++ []).dropWhile Argument.isPlain = [] :=
    List.dropWhile_append_of_pos plain
  rw [List.append_nil] at all none
  rw [consume, all, none, takePlain, first]
  simp [consume, Argument.text, Function.comp_def]

end Options

theorem read_spelled_out (settings : List Setting) (files : List String) (o : Options)
    (complete : ∀ setting ∈ settings, setting.Complete) (applied : Options.applyAll {} settings = .ok o)
    (fresh : o.files = none) (known : o.unrecognized = []) :
    readOptions (spelledOut settings files) = .ok { o with files := some files } := by
  rw [readOptions, classify_spelled_out]
  dsimp only
  rw [Options.consume_settings {} settings _ complete o applied, Options.consume_files o files fresh]
  dsimp only
  rw [known]
  rfl

end DocAudit.CommandLine
