import DocAudit.Php.Tokenization

/-!
Runs of the lexer. Everything that holds of a whole source is proved once about one step and
then by induction on the run.
-/

set_option autoImplicit false

namespace DocAudit.Php

-- The four ways in which a step can succeed, with all that it leaves behind.
inductive StepCase (m : Mode) (c : Char) (s : List Char) : Step → Prop where
  | data (region : m.region = .data) : StepCase m c s ⟨⟨.data, c :: s⟩, [], m⟩
  | openTag (region : m.region = .markup) (cut : Cut) (found : readOpenTag (c :: s) = some cut) :
      StepCase m c s ⟨⟨.openTag, cut.text⟩, cut.rest, { m with region := .code }⟩
  | markup (region : m.region = .markup) (absent : readOpenTag (c :: s) = none) :
      StepCase m c s ⟨⟨.markup, c :: (toOpenTag s).text⟩, (toOpenTag s).rest, m⟩
  | code (region : m.region = .code) (shape : Shape) (cut : Cut)
      (found : readCode c s = .ok (shape, cut)) :
      StepCase m c s
        ⟨⟨m.settle shape (String.ofList cut.text), cut.text⟩, cut.rest,
          m.afterCode (m.settle shape (String.ofList cut.text)) (String.ofList cut.text)⟩

theorem step_cases (m : Mode) (c : Char) (s : List Char) (step : Step)
    (read : m.step c s = .ok step) : StepCase m c s step := by
  unfold Mode.step at read
  cases regionEq : m.region with
  | data =>
      simp only [regionEq, Except.ok.injEq] at read
      exact read ▸ .data regionEq
  | markup =>
      cases found : readOpenTag (c :: s) with
      | none =>
          simp only [regionEq, found, Except.ok.injEq] at read
          exact read ▸ .markup regionEq found
      | some cut =>
          simp only [regionEq, found, Except.ok.injEq] at read
          exact read ▸ .openTag regionEq cut found
  | code =>
      cases found : readCode c s with
      | error e => simp [regionEq, found] at read
      | ok result =>
          simp only [regionEq, found, Except.ok.injEq] at read
          exact read ▸ .code regionEq result.1 result.2 found

theorem step_error (m : Mode) (c : Char) (s : List Char) (e : Unterminated)
    (failed : m.step c s = .error e) : m.region = .code ∧ readCode c s = .error e := by
  unfold Mode.step at failed
  cases regionEq : m.region with
  | data => simp [regionEq] at failed
  | markup => cases found : readOpenTag (c :: s) <;> simp [regionEq, found] at failed
  | code =>
      cases found : readCode c s with
      | error cause => exact ⟨rfl, by simpa [regionEq, found] using failed⟩
      | ok result => simp [regionEq, found] at failed

-- The lexemes read on the way from one mode and text to a later mode and the text that is left.
inductive Reads : Mode → List Char → List Lexeme → Mode → List Char → Prop where
  | stop (m : Mode) (s : List Char) : Reads m s [] m s
  | next (m last : Mode) (c : Char) (s rest : List Char) (step : Step) (ls : List Lexeme)
      (read : m.step c s = .ok step) (run : Reads step.mode step.rest ls last rest) :
      Reads m (c :: s) (step.lexeme :: ls) last rest

-- A run ends with the text, or in front of what no step can read.
def Stuck (m : Mode) (rest : List Char) : Option Unterminated → Prop
  | none => rest = []
  | some e => ∃ c s, rest = c :: s ∧ m.step c s = .error e

theorem lex_reads (m : Mode) (s : List Char) :
    ∃ last rest, Reads m s (m.lex s).lexemes last rest ∧ Stuck last rest (m.lex s).failure := by
  fun_induction Mode.lex m s with
  | case1 m => exact ⟨m, [], .stop m [], rfl⟩
  | case2 m c s e failed => exact ⟨m, c :: s, .stop m (c :: s), c, s, rfl, failed⟩
  | case3 m c s step read ih =>
      obtain ⟨last, rest, run, ended⟩ := ih
      exact ⟨last, rest, .next m last c s rest step _ read run, ended⟩

theorem source_reads (s : List Char) :
    ∃ last rest, Reads {} s (lex s).lexemes last rest ∧ Stuck last rest (lex s).failure :=
  lex_reads {} s

def lexemeText (ls : List Lexeme) : List Char := ls.flatMap (·.text)

theorem reads_text (m last : Mode) (s rest : List Char) (ls : List Lexeme)
    (run : Reads m s ls last rest) : lexemeText ls ++ rest = s := by
  induction run with
  | stop m s => rfl
  | next m last c s rest step ls read run ih =>
      have whole := (Mode.whole_step read).1
      rw [← whole, ← ih]
      simp [lexemeText]

-- What holds of the lexeme of any step holds of all lexemes of a run.
theorem reads_each (P : Lexeme → Prop)
    (one : ∀ (m : Mode) (c : Char) (s : List Char) (step : Step), m.step c s = .ok step → P step.lexeme)
    (m last : Mode) (s rest : List Char) (ls : List Lexeme) (run : Reads m s ls last rest) : ∀ l ∈ ls, P l := by
  induction run with
  | stop m s => simp
  | next m last c s rest step ls read run ih =>
      intro l member
      rcases List.mem_cons.mp member with same | later
      · exact same ▸ one m c s step read
      · exact ih l later

theorem reads_nonempty (m last : Mode) (s rest : List Char) (ls : List Lexeme)
    (run : Reads m s ls last rest) : ∀ l ∈ ls, l.text ≠ [] :=
  reads_each (·.text ≠ []) (fun _ _ _ _ read => (Mode.whole_step read).2) m last s rest ls run

end DocAudit.Php
