import DocAudit.Proofs.Php.Lookahead

/-!
Locality of the lexer. No tag and no opener of a heredoc holds a `>` or a `;`, so what is read in
front of such a character does not depend on the text behind it.
-/

set_option autoImplicit false

namespace DocAudit.Php

def fence (c : Char) : Bool := c == '>' || c == ';'

def Fenced (r : List Char) : Prop := r.getLast?.any fence = true

theorem fenced_append (t r : List Char) (fenced : Fenced r) : Fenced (t ++ r) := by
  obtain ⟨d, last, closes⟩ := (Option.any_eq_true _ _).mp fenced
  simp [Fenced, List.getLast?_append, last, closes]

theorem fenced_tail (d : Char) (r : List Char) (fenced : Fenced (d :: r)) (plain : fence d = false) :
    Fenced r := by
  cases r with
  | nil => simp [Fenced, plain] at fenced
  | cons e r => simpa [Fenced, List.getLast?_cons_cons] using fenced

theorem fenced_cons (r : List Char) (fenced : Fenced r) : ∃ d tail, r = d :: tail := by
  cases r with
  | nil => cases fenced
  | cons d tail => exact ⟨d, tail, rfl⟩

theorem unfenced_within (a b u x : List Char) (fenced : Fenced u) (plain : ∀ c ∈ a, fence c = false)
    (same : a ++ b = u ++ x) : ∃ w, Fenced w ∧ u = a ++ w ∧ b = w ++ x := by
  obtain ⟨d, last, closes⟩ := (Option.any_eq_true _ _).mp fenced
  have outside : d ∉ a := by
    intro inside
    rw [plain d inside] at closes
    cases closes
  obtain ⟨w, within, rfl, rfl⟩ := beginning_within a b u x d (List.mem_of_getLast? last) outside same
  have ends : w.getLast? = some d := by
    rw [List.getLast?_append, List.getLast?_eq_some_getLast (List.ne_nil_of_mem within)] at last
    rw [List.getLast?_eq_some_getLast (List.ne_nil_of_mem within)]
    exact last
  exact ⟨w, (Option.any_eq_true _ _).mpr ⟨d, ends, closes⟩, rfl, rfl⟩

/-! ### Openers and tags -/

theorem word_char_fence (c : Char) (closes : fence c = true) :
    Text.wordChar c = false ∧ asciiLabelStart c = false := by
  have neither : (Text.wordChar '>' = false ∧ asciiLabelStart '>' = false) ∧
      Text.wordChar ';' = false ∧ asciiLabelStart ';' = false := by decide +kernel
  simp only [fence, Bool.or_eq_true, beq_iff_eq] at closes
  rcases closes with rfl | rfl
  · exact neither.1
  · exact neither.2

theorem heredoc_label_unfenced (label : List Char) (valid : HeredocLabel label) :
    ∀ c ∈ label, fence c = false := by
  obtain ⟨d, w, rfl, start, rest⟩ := valid
  intro c inside
  rw [Bool.eq_false_iff]
  intro closes
  obtain ⟨word, first⟩ := word_char_fence c closes
  rcases List.mem_cons.mp inside with rfl | later
  · rw [first] at start
    cases start
  · rw [rest c later] at word
    cases word

theorem label_form_unfenced (label form : List Char) (valid : HeredocLabel label)
    (written : LabelForm label form) : ∀ c ∈ form, fence c = false := by
  have plain := heredoc_label_unfenced label valid
  cases written with
  | bare => exact plain
  | double => simpa [or_imp, forall_and, fence] using plain
  | single => simpa [or_imp, forall_and, fence] using plain

theorem read_opener_unfenced (s : List Char) (opener : Opener) (found : readOpener s = some opener) :
    ∀ c ∈ opener.cut.text, fence c = false := by
  obtain ⟨valid, gap, form, lineEnd, rfl, blanks, written, breaks⟩ := read_opener s opener found
  rw [read_opener_complete opener.label gap form lineEnd _ valid blanks written breaks] at found
  have text : '<' :: '<' :: '<' :: (gap ++ (form ++ lineEnd)) = opener.cut.text :=
    congrArg (·.cut.text) (Option.some.inj found)
  have gapPlain : ∀ c ∈ gap, fence c = false := by
    intro c inside
    have blank := blanks c inside
    simp only [indent, Bool.or_eq_true, beq_iff_eq] at blank
    rcases blank with rfl | rfl <;> rfl
  have breakPlain : ∀ c ∈ lineEnd, fence c = false := by cases breaks <;> simp [fence]
  intro c inside
  simp only [← text, List.mem_cons, List.mem_append] at inside
  rcases inside with rfl | rfl | rfl | inGap | inForm | inBreak
  · rfl
  · rfl
  · rfl
  · exact gapPlain c inGap
  · exact label_form_unfenced opener.label form valid written c inForm
  · exact breakPlain c inBreak

theorem open_tag_unfenced (tag following : List Char) (opens : OpensCode tag following) :
    ∀ c ∈ tag, fence c = false := by
  intro c inside
  rcases opens with rfl | ⟨spelled, -⟩
  · simp only [List.mem_cons, List.not_mem_nil, or_false] at inside
    rcases inside with rfl | rfl | rfl <;> rfl
  · have lowered := List.mem_map_of_mem (f := Text.lowerAscii) inside
    rw [spelled] at lowered
    rw [Bool.eq_false_iff]
    intro closes
    simp only [fence, Bool.or_eq_true, beq_iff_eq] at closes
    rcases closes with rfl | rfl <;> exact absurd lowered (by decide)

/-! ### The text behind a fence -/

theorem fenced_opener (u x y : List Char) (fenced : Fenced u) (found : (readOpener (u ++ x)).isSome = true) :
    (readOpener (u ++ y)).isSome = true := by
  obtain ⟨opener, opens⟩ := Option.isSome_iff_exists.mp found
  have plain := read_opener_unfenced _ opener opens
  obtain ⟨w, -, rfl, -⟩ := unfenced_within _ _ u x fenced plain (whole_readOpener opens).1
  rw [List.append_assoc, read_opener_again _ opener opens]
  rfl

theorem fenced_tag (u x y : List Char) (fenced : Fenced u) (found : (readOpenTag (u ++ x)).isSome = true) :
    (readOpenTag (u ++ y)).isSome = true := by
  obtain ⟨cut, tag⟩ := Option.isSome_iff_exists.mp found
  have opens := read_open_tag_opens _ cut tag
  have plain := open_tag_unfenced cut.text cut.rest opens
  obtain ⟨w, left, rfl, rest⟩ := unfenced_within _ _ u x fenced plain (whole_readOpenTag tag).1
  obtain ⟨d, w, rfl⟩ := fenced_cons w left
  rw [rest] at opens
  rw [List.append_assoc, read_open_tag_complete cut.text (d :: w ++ y) opens]
  rfl

theorem fenced_pair (r x y : List Char) (fenced : Fenced r) (c : Char) (plain : fence c = false)
    (found : (r ++ x).take 2 = [c, '>']) : (r ++ y).take 2 = [c, '>'] := by
  obtain ⟨d, tail, rfl⟩ := fenced_cons r fenced
  obtain ⟨rfl, follows⟩ := List.cons.inj found
  obtain ⟨e, tail, rfl⟩ := fenced_cons tail (fenced_tail d tail fenced plain)
  exact congrArg (d :: ·) follows

-- Behind a fence nothing is seen of the text that follows.
theorem fenced_ahead (r x y : List Char) (fenced : Fenced r) : SameAhead (r ++ x) (r ++ y) := by
  refine ⟨?_, ?_, ?_, ?_⟩
  · obtain ⟨d, tail, rfl⟩ := fenced_cons r fenced
    rfl
  · intro c mark
    have plain : fence c = false := by
      simp only [List.mem_cons, List.not_mem_nil, or_false] at mark
      rcases mark with rfl | rfl <;> rfl
    exact ⟨fenced_pair r y x fenced c plain, fenced_pair r x y fenced c plain⟩
  · intro text
    have whole := fenced_append text r fenced
    rw [← List.append_assoc, ← List.append_assoc, Bool.eq_iff_iff]
    exact ⟨fenced_opener _ y x whole, fenced_opener _ x y whole⟩
  · intro text
    have whole := fenced_append text r fenced
    rw [← List.append_assoc, ← List.append_assoc, Bool.eq_iff_iff]
    exact ⟨fenced_tag _ y x whole, fenced_tag _ x y whole⟩

-- A whole run in front of a fence is the same whatever stands behind the fence.
theorem reads_local (m last : Mode) (s r x y : List Char) (ls : List Lexeme) (fenced : Fenced r)
    (run : Reads m s ls last (r ++ x)) : Reads m (lexemeText ls ++ (r ++ y)) ls last (r ++ y) := by
  generalize left : r ++ x = rest at run
  induction run with
  | stop m s => exact .stop m (r ++ y)
  | next m last c s rest step ls read run ih =>
      subst left
      have whole := Mode.whole_step read
      have follows := reads_text _ _ _ _ ls run
      obtain ⟨⟨shape, text⟩, rest, next⟩ := step
      obtain ⟨d, t, rfl⟩ := List.exists_cons_of_ne_nil whole.2
      obtain ⟨rfl, rfl⟩ := List.cons.inj whole.1
      dsimp only at follows
      rw [← follows, ← List.append_assoc] at read
      have ahead := fenced_ahead (lexemeText ls ++ r) x y (fenced_append _ r fenced)
      have again := step_ahead m next d t _ _ shape ahead read
      rw [List.append_assoc] at again
      have further := Reads.next m last d _ (r ++ y) _ ls again (ih rfl)
      rw [lexeme_text_cons, List.append_assoc]
      exact further

end DocAudit.Php
