import DocAudit.Php.Lexeme

/-!
Texts with `\r\n` for `\n`: where a class of characters, a front or a first character is found in
the one, it is found in the other.
-/

set_option autoImplicit false

namespace DocAudit.Php

-- A text with every line break written `\r\n`.
def crlf (s : List Char) : List Char := s.flatMap fun c => if c = '\n' then ['\r', '\n'] else [c]

@[simp] theorem crlf_nil : crlf [] = [] := rfl

@[simp] theorem crlf_break (s : List Char) : crlf ('\n' :: s) = '\r' :: '\n' :: crlf s := rfl

@[simp] theorem crlf_append (s v : List Char) : crlf (s ++ v) = crlf s ++ crlf v := by
  simp [crlf]

theorem crlf_cons (c : Char) (s : List Char) (other : c ≠ '\n') : crlf (c :: s) = c :: crlf s := by
  simp [crlf, other]

theorem crlf_cons_ne_nil (c : Char) (s : List Char) : crlf (c :: s) ≠ [] := by
  by_cases lineEnd : c = '\n'
  · subst lineEnd
    simp
  · simp [crlf_cons c s lineEnd]

theorem crlf_one_line (s : List Char) (line : '\n' ∉ s) : crlf s = s := by
  induction s with
  | nil => rfl
  | cons c s ih =>
      rw [List.mem_cons, not_or] at line
      rw [crlf_cons c s (Ne.symm line.1), ih line.2]

theorem crlf_head (s : List Char) : (crlf s).head? = s.head?.map fun c => if c = '\n' then '\r' else c := by
  cases s with
  | nil => rfl
  | cons c s =>
      by_cases lineEnd : c = '\n'
      · subst lineEnd
        rfl
      · simp [crlf_cons c s lineEnd, lineEnd]

-- A character other than the two of a line ending stands first in both texts or in neither.
theorem crlf_head_iff (s : List Char) (c : Char) (plain : c ≠ '\n') (visible : c ≠ '\r') :
    (crlf s).head? = some c ↔ s.head? = some c := by
  rw [crlf_head]
  cases s with
  | nil => rfl
  | cons d s =>
      by_cases lineEnd : d = '\n'
      · subst lineEnd
        simp [Ne.symm plain, Ne.symm visible]
      · simp [lineEnd]

theorem crlf_head_test (p : Char → Bool) (same : p '\r' = p '\n') (s : List Char) :
    (crlf s).head?.map p = s.head?.map p := by
  rw [crlf_head]
  cases s with
  | nil => rfl
  | cons c s =>
      by_cases lineEnd : c = '\n'
      · subst lineEnd
        simp [same]
      · simp [lineEnd]

theorem crlf_head_any (p : Char → Bool) (same : p '\r' = p '\n') (s : List Char) :
    (crlf s).head?.any p = s.head?.any p := by
  simpa [Option.any_map, Function.comp_def] using congrArg (Option.any id) (crlf_head_test p same s)

theorem crlf_tail (s : List Char) (other : s.head? ≠ some '\n') : (crlf s).tail = crlf s.tail := by
  cases s with
  | nil => rfl
  | cons c s =>
      have plain : c ≠ '\n' := fun same => other (congrArg some same)
      rw [crlf_cons c s plain, List.tail_cons, List.tail_cons]

-- A text on one line stands at the front of both texts or of neither.
theorem crlf_front (front s v : List Char) (oneLine : '\n' ∉ front) (plain : '\r' ∉ front)
    (found : crlf s = front ++ v) : ∃ w, s = front ++ w ∧ crlf w = v := by
  induction front generalizing s with
  | nil => exact ⟨s, rfl, found⟩
  | cons c front ih =>
      rw [List.mem_cons, not_or] at oneLine plain
      have head : s.head? = some c := by
        rw [← crlf_head_iff s c (Ne.symm oneLine.1) (Ne.symm plain.1), found]
        rfl
      rw [head?_eq_some head, crlf_cons c _ (Ne.symm oneLine.1)] at found
      obtain ⟨w, same, rest⟩ := ih s.tail oneLine.2 plain.2 (List.cons.inj found).2
      exact ⟨w, by rw [head?_eq_some head, same]; rfl, rest⟩

theorem crlf_newlines (s : List Char) : (crlf s).count '\n' = s.count '\n' := by
  induction s with
  | nil => rfl
  | cons c s ih =>
      by_cases lineEnd : c = '\n'
      · subst lineEnd
        simp [ih]
      · simp [crlf_cons c s lineEnd, lineEnd, ih]

namespace Cut

def crlf (cut : Cut) : Cut := ⟨Php.crlf cut.text, Php.crlf cut.rest⟩

theorem crlf_cons (c : Char) (cut : Cut) (other : c ≠ '\n') : (cut.cons c).crlf = cut.crlf.cons c := by
  simp [crlf, cons, Php.crlf_cons c _ other]

@[simp] theorem crlf_break (cut : Cut) : (cut.cons '\n').crlf = (cut.crlf.cons '\n').cons '\r' := rfl

@[simp] theorem crlf_after (text : List Char) (cut : Cut) :
    (cut.after text).crlf = cut.crlf.after (Php.crlf text) := by
  simp [crlf, after]

-- A class that holds both characters of a line ending or none of them.
theorem run_crlf (p : Char → Bool) (same : p '\r' = p '\n') (s : List Char) :
    run p (Php.crlf s) = (run p s).crlf := by
  induction s with
  | nil => rfl
  | cons c s ih =>
      have text : (Php.crlf s).takeWhile p = Php.crlf (s.takeWhile p) := congrArg Cut.text ih
      have rest : (Php.crlf s).dropWhile p = Php.crlf (s.dropWhile p) := congrArg Cut.rest ih
      by_cases lineEnd : c = '\n'
      · subst lineEnd
        cases inside : p '\n' with
        | true => simp [run, crlf, same, inside, text, rest]
        | false => simp [run, crlf, same, inside]
      · cases inside : p c with
        | true => simp [run, crlf, Php.crlf_cons c _ lineEnd, inside, text, rest]
        | false => simp [run, crlf, Php.crlf_cons c _ lineEnd, inside]

end Cut

end DocAudit.Php
