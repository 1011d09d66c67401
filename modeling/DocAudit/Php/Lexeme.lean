import DocAudit.Php.Label
import DocAudit.Php.Token
import DocAudit.Text.Blank
import DocAudit.Text.WordChar

/-!
Lexemes, and how the next one is cut from a text. Each reader returns what it read and what
follows; together they are the text it was given.
-/

set_option autoImplicit false

namespace DocAudit.Php

-- The lexical classes. Those that no check tells apart share a token kind.
inductive Shape where
  | markup
  | openTag
  | closeTag
  | whitespace
  | docComment
  | blockComment
  | lineComment
  | quoted
  | heredoc
  | openBrace
  | closeBrace
  | variable
  | keyword
  | name
  | number
  | symbol
  | data
deriving DecidableEq, Repr

def Shape.kind : Shape → TokenKind
  | .whitespace => .whitespace
  | .docComment => .docComment
  | .blockComment => .blockComment
  | .lineComment => .lineComment
  | .openBrace => .openBrace
  | .closeBrace => .closeBrace
  | .keyword => .keyword
  | .name => .identifier
  | .markup | .openTag | .closeTag | .quoted | .heredoc | .variable | .number | .symbol
  | .data => .other

def Shape.trivia : Shape → Bool
  | .whitespace | .docComment | .blockComment | .lineComment => true
  | _ => false

structure Lexeme where
  shape : Shape
  text : List Char
deriving DecidableEq, Repr

inductive Unterminated where
  | comment
  | string
  | heredoc
deriving DecidableEq, Repr

structure Cut where
  text : List Char
  rest : List Char
deriving DecidableEq, Repr

namespace Cut

def whole (cut : Cut) : List Char := cut.text ++ cut.rest

def cons (c : Char) (cut : Cut) : Cut := ⟨c :: cut.text, cut.rest⟩

def after (text : List Char) (cut : Cut) : Cut := ⟨text ++ cut.text, cut.rest⟩

def run (p : Char → Bool) (s : List Char) : Cut := ⟨s.takeWhile p, s.dropWhile p⟩

@[simp] theorem whole_cons (c : Char) (cut : Cut) : (cut.cons c).whole = c :: cut.whole := rfl

@[simp] theorem whole_after (text : List Char) (cut : Cut) :
    (cut.after text).whole = text ++ cut.whole := by
  simp [after, whole]

@[simp] theorem whole_run (p : Char → Bool) (s : List Char) : (run p s).whole = s := by
  simp [run, whole]

@[simp] theorem text_cons_ne_nil (c : Char) (cut : Cut) : (cut.cons c).text ≠ [] := by
  simp [cons]

end Cut

def layout (c : Char) : Bool := c == ' ' || c == '\t' || c == '\r' || c == '\n'

/-! ### Comments -/

def pastCommentEnd : List Char → Option Cut
  | [] => none
  | '*' :: '/' :: s => some ⟨['*', '/'], s⟩
  | c :: s => (pastCommentEnd s).map (·.cons c)

-- A comment documents when its text, read after the opening, is a star and then whitespace.
def commentShape : List Char → Shape
  | '*' :: c :: _ => if layout c then .docComment else .blockComment
  | _ => .blockComment

def toLineEnd : List Char → Cut
  | [] => ⟨[], []⟩
  | '?' :: '>' :: s => ⟨[], '?' :: '>' :: s⟩
  | c :: s => if c = '\r' ∨ c = '\n' then ⟨[], c :: s⟩ else (toLineEnd s).cons c

/-! ### Strings -/

def backtick : Char := Char.ofNat 0x60

def isQuote (c : Char) : Bool := c == '\'' || c == '"' || c == backtick

-- Reads through the first `q` that no backslash escapes.
def pastQuote (q : Char) : List Char → Option Cut
  | [] => none
  | '\\' :: c :: s => (pastQuote q s).map fun cut => (cut.cons c).cons '\\'
  | c :: s => if c = q then some ⟨[c], s⟩ else (pastQuote q s).map (·.cons c)

/-! ### Heredocs -/

def indent (c : Char) : Bool := c == ' ' || c == '\t'

structure Opener where
  label : List Char
  cut : Cut
deriving DecidableEq, Repr

def readLineBreak : List Char → Option Cut
  | '\n' :: s => some ⟨['\n'], s⟩
  | '\r' :: '\n' :: s => some ⟨['\r', '\n'], s⟩
  | _ => none

def readHeredocLabel : List Char → Option Cut
  | c :: s => if asciiLabelStart c then some ((Cut.run Text.wordChar s).cons c) else none
  | [] => none

def readQuotedLabel (q : Char) (s : List Char) : Option Opener :=
  match readHeredocLabel s with
  | some label =>
    match label.rest with
    | c :: rest => if c = q then some ⟨label.text, ⟨q :: (label.text ++ [q]), rest⟩⟩ else none
    | [] => none
  | none => none

def readOpenerLabel : List Char → Option Opener
  | '"' :: s => readQuotedLabel '"' s
  | '\'' :: s => readQuotedLabel '\'' s
  | s => (readHeredocLabel s).map fun cut => ⟨cut.text, cut⟩

def readOpener : List Char → Option Opener
  | '<' :: '<' :: '<' :: s =>
    let gap := Cut.run indent s
    match readOpenerLabel gap.rest with
    | some opener =>
      (readLineBreak opener.cut.rest).map fun br =>
        ⟨opener.label, br.after ('<' :: '<' :: '<' :: (gap.text ++ opener.cut.text))⟩
    | none => none
  | _ => none

-- Reads the indented label that closes a heredoc, from the start of a line.
def readClosing (label s : List Char) : Option Cut :=
  let gap := Cut.run indent s
  if label.isPrefixOf gap.rest ∧ ((gap.rest.drop label.length).head?.any labelChar) = false then
    some ⟨gap.text ++ label, gap.rest.drop label.length⟩
  else none

def pastClosing (label : List Char) : Bool → List Char → Option Cut
  | _, [] => none
  | lineStart, c :: s =>
    match if lineStart then readClosing label (c :: s) else none with
    | some cut => some cut
    | none => (pastClosing label (c == '\n') s).map (·.cons c)

/-! ### Labels, numbers and symbols -/

def numberChar (c : Char) : Bool := c.isDigit || c.isLower || c.isUpper || c == '_' || c == '.'

def readSymbol (c : Char) (s : List Char) : Cut :=
  if c = '?' ∧ s.take 2 = ['-', '>'] then ⟨['?', '-', '>'], s.drop 2⟩
  else if c = '-' ∧ s.head? = some '>' then ⟨['-', '>'], s.tail⟩
  else if c = ':' ∧ s.head? = some ':' then ⟨[':', ':'], s.tail⟩
  else if c = '#' ∧ s.head? = some '[' then ⟨['#', '['], s.tail⟩
  else ⟨[c], s⟩

def readPlain (c : Char) (s : List Char) : Shape × Cut :=
  if c = '{' then (.openBrace, ⟨[c], s⟩)
  else if c = '}' then (.closeBrace, ⟨[c], s⟩)
  else if c = '$' then
    if s.head?.any labelStart then (.variable, (Cut.run labelChar s).cons c)
    else (.symbol, ⟨[c], s⟩)
  else if labelStart c then (.name, (Cut.run labelChar s).cons c)
  else if c.isDigit then (.number, (Cut.run numberChar s).cons c)
  else (.symbol, readSymbol c s)

def readCode (c : Char) (s : List Char) : Except Unterminated (Shape × Cut) :=
  if layout c then .ok (.whitespace, (Cut.run layout s).cons c)
  else if c = '?' ∧ s.head? = some '>' then .ok (.closeTag, ⟨['?', '>'], s.tail⟩)
  else if c = '/' ∧ s.head? = some '*' then
    match pastCommentEnd s.tail with
    | some cut => .ok (commentShape cut.text, (cut.cons '*').cons '/')
    | none => .error .comment
  else if (c = '/' ∧ s.head? = some '/') ∨ (c = '#' ∧ s.head? ≠ some '[') then
    .ok (.lineComment, (toLineEnd s).cons c)
  else if isQuote c then
    match pastQuote c s with
    | some cut => .ok (.quoted, cut.cons c)
    | none => .error .string
  else
    match readOpener (c :: s) with
    | some opener =>
      match pastClosing opener.label true opener.cut.rest with
      | some cut => .ok (.heredoc, cut.after opener.cut.text)
      | none => .error .heredoc
    | none => .ok (readPlain c s)

/-! ### Markup -/

-- Reads `<?=`, or `<?php` in any case before a blank or the end.
def readOpenTag : List Char → Option Cut
  | '<' :: '?' :: '=' :: s => some ⟨['<', '?', '='], s⟩
  | '<' :: '?' :: p :: h :: q :: s =>
    if [p, h, q].map Text.lowerAscii = ['p', 'h', 'p'] ∧ s.head?.all Text.blank then
      some ⟨['<', '?', p, h, q], s⟩
    else none
  | _ => none

def toOpenTag : List Char → Cut
  | [] => ⟨[], []⟩
  | c :: s => if (readOpenTag (c :: s)).isSome then ⟨[], c :: s⟩ else (toOpenTag s).cons c

/-! ### Nothing is lost -/

theorem head?_eq_some {s : List Char} {c : Char} (h : s.head? = some c) : s = c :: s.tail := by
  cases s with
  | nil => simp at h
  | cons d s => simp at h; simp [h]

theorem whole_pastCommentEnd {s : List Char} {cut : Cut} (h : pastCommentEnd s = some cut) :
    cut.whole = s := by
  fun_induction pastCommentEnd s generalizing cut with
  | case1 => simp at h
  | case2 s => simp at h; simp [← h, Cut.whole]
  | case3 c s _ ih =>
    obtain ⟨inner, found, rfl⟩ := Option.map_eq_some_iff.1 h
    simp [ih found]

theorem whole_toLineEnd (s : List Char) : (toLineEnd s).whole = s := by
  fun_induction toLineEnd s with
  | case1 => rfl
  | case2 s => rfl
  | case3 c s _ h => rfl
  | case4 c s _ h ih => simp [ih]

theorem whole_pastQuote {q : Char} {s : List Char} {cut : Cut} (h : pastQuote q s = some cut) :
    cut.whole = s := by
  fun_induction pastQuote q s generalizing cut with
  | case1 => simp at h
  | case2 c s ih =>
    obtain ⟨inner, found, rfl⟩ := Option.map_eq_some_iff.1 h
    simp [ih found]
  | case3 s => simp at h; simp [← h, Cut.whole]
  | case4 c s _ _ ih =>
    obtain ⟨inner, found, rfl⟩ := Option.map_eq_some_iff.1 h
    simp [ih found]

theorem whole_readLineBreak {s : List Char} {cut : Cut} (h : readLineBreak s = some cut) :
    cut.whole = s := by
  unfold readLineBreak at h
  split at h <;> simp at h <;> simp [← h, Cut.whole]

theorem whole_readHeredocLabel {s : List Char} {cut : Cut} (h : readHeredocLabel s = some cut) :
    cut.whole = s := by
  unfold readHeredocLabel at h
  split at h
  · split at h <;> simp at h
    simp [← h]
  · simp at h

theorem whole_readQuotedLabel {q : Char} {s : List Char} {opener : Opener}
    (h : readQuotedLabel q s = some opener) : opener.cut.whole = q :: s := by
  unfold readQuotedLabel at h
  split at h
  · rename_i label found
    split at h
    · rename_i c rest same
      split at h <;> simp at h
      rename_i eq
      have := whole_readHeredocLabel found
      rw [Cut.whole, same, eq] at this
      simp [← h, Cut.whole, ← this]
    · simp at h
  · simp at h

theorem whole_readOpenerLabel {s : List Char} {opener : Opener}
    (h : readOpenerLabel s = some opener) : opener.cut.whole = s := by
  unfold readOpenerLabel at h
  split at h
  · exact whole_readQuotedLabel h
  · exact whole_readQuotedLabel h
  · obtain ⟨cut, found, rfl⟩ := Option.map_eq_some_iff.1 h
    exact whole_readHeredocLabel found

theorem whole_readOpener {s : List Char} {opener : Opener} (h : readOpener s = some opener) :
    opener.cut.whole = s ∧ opener.cut.text ≠ [] := by
  unfold readOpener at h
  split at h
  · rename_i s
    dsimp only at h
    split at h
    · rename_i inner found
      obtain ⟨br, ends, rfl⟩ := Option.map_eq_some_iff.1 h
      have label := whole_readOpenerLabel found
      have line := whole_readLineBreak ends
      have gap := Cut.whole_run indent s
      rw [Cut.whole, ← label, Cut.whole, ← line] at gap
      constructor
      · simp [gap]
      · simp [Cut.after]
    · simp at h
  · simp at h

theorem whole_readClosing {label s : List Char} {cut : Cut} (h : readClosing label s = some cut) :
    cut.whole = s := by
  unfold readClosing at h
  dsimp only at h
  split at h <;> simp at h
  rename_i found
  obtain ⟨rest, same⟩ := List.isPrefixOf_iff_prefix.1 found.1
  have ends : label ++ (Cut.run indent s).rest.drop label.length = (Cut.run indent s).rest := by
    rw [← same, List.drop_left]
  rw [← h, Cut.whole, List.append_assoc, ends]
  exact Cut.whole_run indent s

theorem whole_pastClosing {label : List Char} {lineStart : Bool} {s : List Char} {cut : Cut}
    (h : pastClosing label lineStart s = some cut) : cut.whole = s := by
  fun_induction pastClosing label lineStart s generalizing cut with
  | case1 => simp at h
  | case2 lineStart c s inner found =>
    simp only [Option.some.injEq] at h
    subst h
    split at found
    · exact whole_readClosing found
    · simp at found
  | case3 lineStart c s _ ih =>
    obtain ⟨inner, found, rfl⟩ := Option.map_eq_some_iff.1 h
    simp [ih found]

theorem whole_readSymbol (c : Char) (s : List Char) :
    (readSymbol c s).whole = c :: s ∧ (readSymbol c s).text ≠ [] := by
  unfold readSymbol
  split
  · rename_i h
    refine ⟨?_, by simp⟩
    rw [Cut.whole, ← h.2, h.1]
    exact congrArg _ (List.take_append_drop 2 s)
  split
  · rename_i h
    exact ⟨by rw [h.1, head?_eq_some h.2]; rfl, by simp⟩
  split
  · rename_i h
    exact ⟨by rw [h.1, head?_eq_some h.2]; rfl, by simp⟩
  split
  · rename_i h
    exact ⟨by rw [h.1, head?_eq_some h.2]; rfl, by simp⟩
  · exact ⟨rfl, by simp⟩

theorem whole_readPlain (c : Char) (s : List Char) :
    (readPlain c s).2.whole = c :: s ∧ (readPlain c s).2.text ≠ [] := by
  unfold readPlain
  split
  · exact ⟨rfl, by simp⟩
  split
  · exact ⟨rfl, by simp⟩
  split
  · split
    · simp
    · exact ⟨rfl, by simp⟩
  split
  · simp
  split
  · simp
  · exact whole_readSymbol c s

theorem whole_readCode {c : Char} {s : List Char} {shape : Shape} {cut : Cut}
    (h : readCode c s = .ok (shape, cut)) : cut.whole = c :: s ∧ cut.text ≠ [] := by
  unfold readCode at h
  split at h
  · simp at h
    simp [← h.2]
  split at h
  · rename_i found
    simp at h
    simp [← h.2, Cut.whole, found.1, ← head?_eq_some found.2]
  split at h
  · rename_i found
    split at h <;> simp at h
    rename_i inner ends
    simp [← h.2, whole_pastCommentEnd ends, found.1, ← head?_eq_some found.2]
  split at h
  · simp at h
    simp [← h.2, whole_toLineEnd]
  split at h
  · split at h <;> simp at h
    rename_i inner ends
    simp [← h.2, whole_pastQuote ends]
  split at h
  · rename_i opener opens
    split at h <;> simp at h
    rename_i inner ends
    have opening := whole_readOpener opens
    have closing := whole_pastClosing ends
    rw [Cut.whole] at opening
    constructor
    · simp [← h.2, closing, opening]
    · simp [← h.2, Cut.after, opening.2]
  · simp at h
    have := whole_readPlain c s
    rw [h] at this
    exact this

theorem whole_readOpenTag {s : List Char} {cut : Cut} (h : readOpenTag s = some cut) :
    cut.whole = s ∧ cut.text ≠ [] := by
  unfold readOpenTag at h
  split at h
  · simp at h
    simp [← h, Cut.whole]
  · split at h <;> simp at h
    simp [← h, Cut.whole]
  · simp at h

theorem whole_toOpenTag (s : List Char) : (toOpenTag s).whole = s := by
  fun_induction toOpenTag s with
  | case1 => rfl
  | case2 c s h => rfl
  | case3 c s h ih => simp [ih]

end DocAudit.Php
