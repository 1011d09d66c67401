import DocAudit.Proofs.Php.Conservation

/-!
What the shape of a lexeme says about its text, and about the region it was read in.
-/

set_option autoImplicit false

namespace DocAudit.Php

def Shape.region : Shape → Region
  | .markup | .openTag => .markup
  | .data => .data
  | _ => .code

def IsLabel (text : List Char) : Prop :=
  ∃ c w, text = c :: w ∧ labelStart c = true ∧ ∀ d ∈ w, labelChar d = true

def Spelling : Shape → List Char → Prop
  | .openTag, text => '\n' ∉ text
  | .openBrace, text => text = ['{']
  | .closeBrace, text => text = ['}']
  | .keyword, text | .name, text => IsLabel text
  | _, _ => True

structure Written (shape : Shape) (text : List Char) (region : Region) : Prop where
  region_eq : shape.region = region
  spelling : Spelling shape text

theorem comment_shape_written (inner text : List Char) : Written (commentShape inner) text .code := by
  unfold commentShape
  split
  · split <;> exact ⟨rfl, trivial⟩
  · exact ⟨rfl, trivial⟩

theorem read_plain_written (c : Char) (s : List Char) :
    Written (readPlain c s).1 (readPlain c s).2.text .code := by
  unfold readPlain
  split
  · rename_i brace
    exact ⟨rfl, congrArg (fun d => [d]) brace⟩
  split
  · rename_i brace
    exact ⟨rfl, congrArg (fun d => [d]) brace⟩
  split
  · split <;> exact ⟨rfl, trivial⟩
  split
  · rename_i start
    exact ⟨rfl, c, (Cut.run labelChar s).text, rfl, start, run_class labelChar s⟩
  split <;> exact ⟨rfl, trivial⟩

theorem read_code_written (c : Char) (s : List Char) (shape : Shape) (cut : Cut)
    (found : readCode c s = .ok (shape, cut)) : Written shape cut.text .code := by
  unfold readCode at found
  split at found
  · cases found
    exact ⟨rfl, trivial⟩
  split at found
  · cases found
    exact ⟨rfl, trivial⟩
  split at found
  · split at found
    · cases found
      exact comment_shape_written _ _
    · cases found
  split at found
  · cases found
    exact ⟨rfl, trivial⟩
  split at found
  · split at found
    · cases found
      exact ⟨rfl, trivial⟩
    · cases found
  split at found
  · split at found
    · cases found
      exact ⟨rfl, trivial⟩
    · cases found
  · have plain := read_plain_written c s
    rw [Except.ok.inj found] at plain
    exact plain

-- A character that is read as a symbol, whatever follows it, makes no other lexeme by itself.
theorem read_code_symbol (d : Char) (symbol : ∀ rest, readCode d rest = .ok (.symbol, ⟨[d], rest⟩)) (c : Char)
    (s : List Char) (shape : Shape) (cut : Cut) (found : readCode c s = .ok (shape, cut)) (text : cut.text = [d]) :
    shape = .symbol := by
  have whole := (whole_readCode found).1
  rw [Cut.whole, text, List.singleton_append] at whole
  obtain ⟨rfl, rfl⟩ := List.cons.inj whole
  rw [symbol] at found
  exact (congrArg Prod.fst (Except.ok.inj found)).symm

theorem settle_written (m : Mode) (shape : Shape) (text : String) (chars : List Char) (region : Region)
    (written : Written shape chars region) : Written (m.settle shape text) chars region := by
  unfold Mode.settle
  split
  · rename_i reserved
    rw [reserved.1] at written
    exact ⟨written.region_eq, written.spelling⟩
  · exact written

theorem lower_ascii_newline : Text.lowerAscii '\n' = '\n' := by decide

theorem open_tag_one_line (tag following : List Char) (opens : OpensCode tag following) : '\n' ∉ tag := by
  intro member
  rcases opens with rfl | ⟨spelled, -⟩
  · exact absurd member (by decide)
  · have mapped := List.mem_map_of_mem (f := Text.lowerAscii) member
    rw [spelled, lower_ascii_newline] at mapped
    exact absurd mapped (by decide)

theorem step_written (m : Mode) (c : Char) (s : List Char) (step : Step)
    (read : m.step c s = .ok step) : Written step.lexeme.shape step.lexeme.text m.region := by
  cases step_cases m c s step read with
  | data region => exact ⟨region.symm, trivial⟩
  | markup region absent => exact ⟨region.symm, trivial⟩
  | openTag region cut found =>
      exact ⟨region.symm, open_tag_one_line cut.text cut.rest (read_open_tag_opens (c :: s) cut found)⟩
  | code region shape cut found =>
      rw [region]
      exact settle_written m shape _ cut.text .code (read_code_written c s shape cut found)

theorem tokenize_spelling (source : String) (t : Token) (member : t ∈ (tokenize source).tokens) :
    ∃ l : Lexeme, Spelling l.shape l.text ∧ t.kind = l.shape.kind ∧ t.text = String.ofList l.text :=
  tokenize_each (fun l => Spelling l.shape l.text) (fun m c s step read => (step_written m c s step read).spelling)
    source t member

end DocAudit.Php
