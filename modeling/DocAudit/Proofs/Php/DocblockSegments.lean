import DocAudit.Proofs.Php.Scanning
import DocAudit.Proofs.Php.Walk

/-!
The docblock of a keyword, said by the tokens between the two. They split into segments that a
docblock reaches across: blanks, modifiers, whole attribute groups, and what ends on the line of
the keyword.
-/

set_option autoImplicit false

namespace DocAudit.Php

section

variable (ts : List Token)

-- A `#[` and the `]` that closes it.
structure GroupAt (opening closing : Nat) : Prop where
  less : opening < closing
  opens : ts[opening]?.map (·.text) = some "#["
  closes : ts[closing]?.map (·.text) = some "]"
  balanced : Balanced ((ts.take closing).drop (opening + 1))

-- The tokens from one position up to another that are passed over in one go on the way from a
-- keyword on `line`.
inductive Segment (line : Int) : Nat → Nat → Prop where
  | blank (p : Nat) (t : Token) (here : ts[p]? = some t) (blank : t.kind = .whitespace) :
      Segment line p (p + 1)
  | modifier (p : Nat) (t : Token) (here : ts[p]? = some t) (modifier : t.isModifier = true) :
      Segment line p (p + 1)
  | group (opening closing : Nat) (group : GroupAt ts opening closing) : Segment line opening (closing + 1)
  | onLine (p : Nat) (t : Token) (here : ts[p]? = some t) (comment : t.kind.isComment = false)
      (brace : t.kind.isBrace = false) (stop : t.text ≠ ";") (word : t.isDeclarationWord = false)
      (alone : ∀ opening, ¬ GroupAt ts opening p) (ends : t.endLine = line) : Segment line p (p + 1)

inductive Segments (line : Int) (i : Nat) : Nat → Prop where
  | none : Segments line i i
  | last (p q : Nat) (earlier : Segments line i p) (segment : Segment ts line p q) : Segments line i q

-- The group is one of the segments from `i` up to `k`.
structure Skips (line : Int) (i k opening closing : Nat) : Prop where
  group : GroupAt ts opening closing
  before : Segments ts line i opening
  after : Segments ts line (closing + 1) k

-- The doc comment at `j` is the docblock of the keyword at `k`.
structure Documents (k j : Nat) (d : Token) : Prop where
  here : ts[j]? = some d
  comment : d.kind = .docComment
  before : j < k
  between : Segments ts (lineAt ts k) (j + 1) k

/-! ### Groups -/

-- The walk over brackets from a `]` ends in front of the group that the `]` closes.
theorem before_group_at (c : Nat) (t : Token) (here : ts[c]? = some t) (closes : t.text = "]") (earlier : List Token) :
    beforeGroup 0 (beforeAt ts c) = some earlier ↔ ∃ o, GroupAt ts o c ∧ earlier = beforeAt ts o := by
  rw [before_group_iff]
  constructor
  · rintro ⟨inner, opening, shape, balanced, opens⟩
    have taken : ts.take c = earlier.reverse ++ opening :: inner := by
      simpa [beforeAt] using congrArg List.reverse shape
    obtain ⟨less, start, front, within⟩ := take_at c ts _ inner opening taken
    refine ⟨_, ⟨less, by rw [start, Option.map_some, opens],
      by rw [here, Option.map_some, closes], within ▸ balanced⟩, ?_⟩
    rw [beforeAt, front, List.reverse_reverse]
  · rintro ⟨o, group, rfl⟩
    obtain ⟨opening, start, opens⟩ := Option.map_eq_some_iff.mp group.opens
    refine ⟨(ts.take c).drop (o + 1), opening, ?_, group.balanced, opens⟩
    have taken := congrArg List.reverse (take_split o c ts opening group.less start)
    simpa [beforeAt] using taken

theorem group_unique (o o' c : Nat) (group : GroupAt ts o c) (again : GroupAt ts o' c) : o = o' := by
  obtain ⟨t, here, closes⟩ := Option.map_eq_some_iff.mp group.closes
  have first := (before_group_at ts c t here closes _).mpr ⟨o, group, rfl⟩
  have second := (before_group_at ts c t here closes _).mpr ⟨o', again, rfl⟩
  have same := congrArg List.length (Option.some.inj (first.symm.trans second))
  have bound := (List.getElem?_eq_some_iff.mp here).1
  have less := group.less
  have lessAgain := again.less
  simp only [beforeAt, List.length_reverse, List.length_take] at same
  omega

/-! ### The walk over segments -/

-- What the walk relies on: nothing but a symbol reads `]`.
def BracketsPlain : Prop := ∀ t ∈ ts, t.text = "]" → t.kind = .other

end

theorem modifier_passes (t : Token) (modifier : t.isModifier = true) :
    t.kind = .keyword ∧ t.isBoundary = false := by
  simp only [Token.isModifier, Bool.and_eq_true, beq_iff_eq, List.contains_iff_mem] at modifier
  obtain ⟨kind, listed⟩ := modifier
  refine ⟨kind, ?_⟩
  have stop : t.text ≠ ";" := by
    intro text
    rw [Token.lower, text] at listed
    exact absurd listed (by decide +kernel)
  have word : t.isDeclarationWord = false := by
    rw [Bool.eq_false_iff]
    intro word
    rcases (declaration_word_kind t word).2 with lower | lower <;> rw [lower] at listed <;>
      exact absurd listed (by decide)
  simp [Token.isBoundary, kind, TokenKind.isBrace, stop, word]

section

variable (ts : List Token) (line : Int) (plain : BracketsPlain ts)

theorem before_attribute_at (c : Nat) (t : Token) (here : ts[c]? = some t) (earlier : List Token) :
    beforeAttribute t (beforeAt ts c) = some earlier ↔ ∃ o, GroupAt ts o c ∧ earlier = beforeAt ts o := by
  by_cases closes : t.text = "]"
  · rw [beforeAttribute, if_pos closes]
    exact before_group_at ts c t here closes earlier
  · rw [beforeAttribute, if_neg closes]
    constructor
    · intro absent
      cases absent
    · rintro ⟨o, group, -⟩
      have text := group.closes
      rw [here] at text
      exact absurd (Option.some.inj text) closes

theorem before_attribute_none (c : Nat) (t : Token) (here : ts[c]? = some t) :
    beforeAttribute t (beforeAt ts c) = none ↔ ∀ o, ¬ GroupAt ts o c := by
  rw [Option.eq_none_iff_forall_ne_some]
  constructor
  · intro absent o group
    exact absent _ ((before_attribute_at ts c t here _).mpr ⟨o, group, rfl⟩)
  · intro alone earlier found
    obtain ⟨o, group, -⟩ := (before_attribute_at ts c t here earlier).mp found
    exact alone o group

include plain in
-- A segment behind a position does not change what documents it.
theorem segment_walk (p q : Nat) (segment : Segment ts line p q) :
    docblock line (beforeAt ts q) = docblock line (beforeAt ts p) := by
  cases segment with
  | blank t here blank => rw [before_at_succ ts p t here, docblock_cons, if_pos blank]
  | modifier t here modifier =>
      obtain ⟨kind, passes⟩ := modifier_passes t modifier
      rw [before_at_succ ts p t here, docblock_cons, kind, passes]
      simp [TokenKind.isComment, modifier]
  | group c group =>
      obtain ⟨t, here, closes⟩ := Option.map_eq_some_iff.mp group.closes
      have kind := plain t (List.mem_of_getElem? here) closes
      have found := (before_attribute_at ts c t here _).mpr ⟨p, group, rfl⟩
      have boundary : t.isBoundary = false := by
        simp [Token.isBoundary, Token.isDeclarationWord, kind, TokenKind.isBrace, closes]
      rw [before_at_succ ts c t here, docblock_cons, kind, boundary, bracket_not_modifier t closes, found]
      simp [TokenKind.isComment]
  | onLine t here comment brace stop word alone ends =>
      have boundary : t.isBoundary = false := by simp [Token.isBoundary, brace, stop, word]
      rw [before_at_succ ts p t here, docblock_cons, comment, boundary, (before_attribute_none ts p t here).mpr alone,
        Option.elim_none, if_pos ends]
      simp

include plain in
theorem segments_walk (i q : Nat) (segments : Segments ts line i q) :
    docblock line (beforeAt ts q) = docblock line (beforeAt ts i) := by
  induction segments with
  | none => rfl
  | last p q earlier segment ih => rw [segment_walk ts line plain p q segment, ih]

theorem comment_walk (j : Nat) (d : Token) (here : ts[j]? = some d) (comment : d.kind = .docComment) :
    docblock line (beforeAt ts (j + 1)) = some d := by
  rw [before_at_succ ts j d here, docblock_cons, comment]
  rfl

-- The walk has found its docblock, or it passes a segment.
theorem walk_cases (p : Nat) (d : Token) (bound : p ≤ ts.length) (found : docblock line (beforeAt ts p) = some d) :
    (∃ j, p = j + 1 ∧ ts[j]? = some d ∧ d.kind = .docComment) ∨
      ∃ q, q < p ∧ Segment ts line q p ∧ docblock line (beforeAt ts q) = some d := by
  cases p with
  | zero =>
      rw [beforeAt, List.take_zero, List.reverse_nil, docblock] at found
      cases found
  | succ p =>
      have here : ts[p]? = some ts[p] := List.getElem?_eq_getElem bound
      generalize ts[p] = t at here
      rw [before_at_succ ts p t here, docblock_cons] at found
      split at found
      · rename_i blank
        exact .inr ⟨p, Nat.lt_succ_self p, .blank p t here blank, found⟩
      split at found
      · split at found
        · rename_i comment
          cases found
          exact .inl ⟨p, rfl, here, comment⟩
        · cases found
      split at found
      · cases found
      split at found
      · rename_i modifier
        exact .inr ⟨p, Nat.lt_succ_self p, .modifier p t here modifier, found⟩
      · rename_i comment boundary _
        cases jump : beforeAttribute t (beforeAt ts p) with
        | some earlier =>
            obtain ⟨o, group, rfl⟩ := (before_attribute_at ts p t here earlier).mp jump
            rw [jump] at found
            exact .inr ⟨o, Nat.lt_succ_of_lt group.less, .group o p group, found⟩
        | none =>
            rw [jump, Option.elim_none] at found
            split at found
            · rename_i ends
              simp only [Token.isBoundary, Bool.or_eq_true, beq_iff_eq, not_or, Bool.not_eq_true] at comment boundary
              obtain ⟨⟨brace, stop⟩, word⟩ := boundary
              have alone := (before_attribute_none ts p t here).mp jump
              exact .inr ⟨p, Nat.lt_succ_self p, .onLine p t here comment brace stop word alone ends, found⟩
            · cases found

theorem walk_segments (p : Nat) (d : Token) (bound : p ≤ ts.length) (found : docblock line (beforeAt ts p) = some d) :
    ∃ j, ts[j]? = some d ∧ d.kind = .docComment ∧ j < p ∧ Segments ts line (j + 1) p := by
  induction p using Nat.strongRecOn with
  | _ p ih =>
      rcases walk_cases ts line p d bound found with ⟨j, rfl, here, comment⟩ | ⟨q, less, segment, further⟩
      · exact ⟨j, here, comment, Nat.lt_succ_self j, .none⟩
      · obtain ⟨j, here, comment, before, between⟩ := ih q less (by omega) further
        exact ⟨j, here, comment, Nat.lt_trans before less, .last q p between segment⟩

/-! ### One docblock -/

section

include plain

theorem closing_kind (o c : Nat) (t : Token) (group : GroupAt ts o c) (here : ts[c]? = some t) : t.kind = .other := by
  have text := group.closes
  rw [here] at text
  exact plain t (List.mem_of_getElem? here) (Option.some.inj text)

theorem segment_cases (q p : Nat) (segment : Segment ts line q p) :
    (∃ c, p = c + 1 ∧ GroupAt ts q c) ∨
      (p = q + 1 ∧ (∀ o, ¬ GroupAt ts o q) ∧
        ∃ t, ts[q]? = some t ∧ t.kind.isComment = false ∧ t.isDeclarationWord = false) := by
  cases segment with
  | group c group => exact .inl ⟨c, rfl, group⟩
  | onLine t here comment brace stop word alone ends => exact .inr ⟨rfl, alone, t, here, comment, word⟩
  | blank t here blank =>
      refine .inr ⟨rfl, ?_, t, here, by simp [blank, TokenKind.isComment], by simp [Token.isDeclarationWord, blank]⟩
      intro o group
      cases blank.symm.trans (closing_kind ts plain o q t group here)
  | modifier t here modifier =>
      obtain ⟨kind, passes⟩ := modifier_passes t modifier
      simp only [Token.isBoundary, Bool.or_eq_false_iff] at passes
      refine .inr ⟨rfl, ?_, t, here, by simp [kind, TokenKind.isComment], passes.2⟩
      intro o group
      cases kind.symm.trans (closing_kind ts plain o q t group here)

-- No segment ends with a doc comment.
theorem comment_not_passed (j q : Nat) (d : Token) (here : ts[j]? = some d) (comment : d.kind = .docComment) :
    ¬ Segment ts line q (j + 1) := by
  intro segment
  rcases segment_cases ts line plain q (j + 1) segment with ⟨c, same, group⟩ | ⟨same, -, t, found, other, -⟩
  · obtain rfl : j = c := Nat.succ.inj same
    cases comment.symm.trans (closing_kind ts plain q j d group here)
  · obtain rfl : j = q := Nat.succ.inj same
    obtain rfl := Option.some.inj (here.symm.trans found)
    rw [comment] at other
    cases other

-- Where a segment begins hangs on where it ends.
theorem segment_unique (q q' p : Nat) (segment : Segment ts line q p) (again : Segment ts line q' p) : q = q' := by
  rcases segment_cases ts line plain q p segment with ⟨c, rfl, group⟩ | ⟨rfl, alone, -⟩
  · rcases segment_cases ts line plain q' (c + 1) again with ⟨c', same, other⟩ | ⟨same, alone, -⟩
    · obtain rfl : c = c' := Nat.succ.inj same
      exact group_unique ts q q' c group other
    · obtain rfl : c = q' := Nat.succ.inj same
      exact absurd group (alone q)
  · rcases segment_cases ts line plain q' (q + 1) again with ⟨c, same, group⟩ | ⟨same, -⟩
    · obtain rfl : q = c := Nat.succ.inj same
      exact absurd group (alone q')
    · exact Nat.succ.inj same

theorem segments_unique (i j k : Nat) (d e : Token) (first : ts[i]? = some d) (second : ts[j]? = some e)
    (comment : d.kind = .docComment) (other : e.kind = .docComment) (left : Segments ts line (i + 1) k)
    (right : Segments ts line (j + 1) k) : i = j := by
  induction left with
  | none =>
      cases right with
      | none => rfl
      | last p _ earlier segment => exact absurd segment (comment_not_passed ts line plain i p d first comment)
  | last p q earlier segment ih =>
      cases right with
      | none => exact absurd segment (comment_not_passed ts line plain j p e second other)
      | last p' _ before also =>
          obtain rfl := segment_unique ts line plain p p' q segment also
          exact ih before

-- A declaration keyword among the segments stands inside a group.
theorem segments_keyword (i k n : Nat) (t : Token) (segments : Segments ts line i k) (least : i ≤ n) (limit : n < k)
    (here : ts[n]? = some t) (word : t.isDeclarationWord = true) :
    ∃ o c, Skips ts line i k o c ∧ o < n ∧ n < c := by
  have unmarked : ∀ mark ∈ marks, ts[n]?.map (·.text) ≠ some mark := by
    intro mark listed text
    rw [here, Option.map_some, Option.some.injEq] at text
    exact declaration_word_text t word (text ▸ listed)
  induction segments with
  | none => omega
  | last p q earlier segment ih =>
      by_cases early : n < p
      · obtain ⟨o, c, skips, above, below⟩ := ih early
        exact ⟨o, c, ⟨skips.group, skips.before, .last p q skips.after segment⟩, above, below⟩
      · rcases segment_cases ts line plain p q segment with ⟨c, rfl, group⟩ | ⟨rfl, -, u, found, -, other⟩
        · have first : n ≠ p := by
            rintro rfl
            exact unmarked "#[" (by decide) group.opens
          have last : n ≠ c := by
            rintro rfl
            exact unmarked "]" (by decide) group.closes
          exact ⟨p, c, ⟨group, earlier, .none⟩, by omega, by omega⟩
        · obtain rfl : n = p := by omega
          obtain rfl := Option.some.inj (here.symm.trans found)
          rw [word] at other
          cases other

end

end

/-! ### Tokens of a source -/

theorem step_bracket (m : Mode) (c : Char) (s : List Char) (step : Step) (read : m.step c s = .ok step)
    (text : step.lexeme.text = [']']) : step.lexeme.shape.kind = .other := by
  cases step_cases m c s step read with
  | data region => rfl
  | markup region absent => rfl
  | openTag region cut found => rfl
  | code region shape cut found =>
      obtain rfl := read_code_symbol ']' (fun _ => rfl) c s shape cut found text
      rfl

theorem tokenize_brackets (source : String) : BracketsPlain (tokenize source).tokens := by
  intro t member closes
  obtain ⟨l, plain, kind, text⟩ := tokenize_each (fun l => l.text = [']'] → l.shape.kind = .other) step_bracket
    source t member
  rw [kind]
  exact plain (by simpa using congrArg String.toList (text.symm.trans closes))

theorem documents_iff (ts : List Token) (plain : BracketsPlain ts) (k : Nat) (bound : k ≤ ts.length) (d : Token) :
    docblockAt ts k = some d ↔ ∃ j, Documents ts k j d := by
  constructor
  · intro found
    obtain ⟨j, here, comment, before, between⟩ := walk_segments ts (lineAt ts k) k d bound found
    exact ⟨j, here, comment, before, between⟩
  · rintro ⟨j, here, comment, before, between⟩
    rw [docblockAt, segments_walk ts _ plain (j + 1) k between]
    exact comment_walk ts _ j d here comment

theorem documents_unique (ts : List Token) (plain : BracketsPlain ts) (k i j : Nat) (d e : Token)
    (first : Documents ts k i d) (second : Documents ts k j e) : i = j :=
  segments_unique ts _ plain i j k d e first.here second.here first.comment second.comment first.between second.between

theorem documents_keyword (ts : List Token) (plain : BracketsPlain ts) (k j n : Nat) (d t : Token)
    (documented : Documents ts k j d) (after : j < n) (before : n < k) (here : ts[n]? = some t)
    (word : t.isDeclarationWord = true) : ∃ o c, Skips ts (lineAt ts k) (j + 1) k o c ∧ o < n ∧ n < c :=
  segments_keyword ts _ plain (j + 1) k n t documented.between after before here word

theorem docblock_by_segments (source : String) (k : Nat) (keyword : Token)
    (here : (tokenize source).tokens[k]? = some keyword) :
    let ts := (tokenize source).tokens
    let found := docblock keyword.line (ts.take k).reverse
    (∀ d, found = some d ↔ ∃ j, Documents ts k j d) ∧
    (found = none ↔ ¬ ∃ j d, Documents ts k j d) ∧
    (∀ i j d e, Documents ts k i d → Documents ts k j e → i = j) ∧
    (∀ j d n t, Documents ts k j d → j < n → n < k → ts[n]? = some t → t.isDeclarationWord = true →
      ∃ o c, Skips ts (lineAt ts k) (j + 1) k o c ∧ o < n ∧ n < c) ∧
    ∀ j d n t, n < k → ts[n]? = some t → t.isDeclarationWord = true →
      (∀ o c, Skips ts (lineAt ts k) (j + 1) k o c → ¬ (o < n ∧ n < c)) →
      Documents ts n j d → ¬ Documents ts k j d := by
  intro ts found
  have plain := tokenize_brackets source
  have bound := Nat.le_of_lt (List.getElem?_eq_some_iff.mp here).1
  have walk : found = docblockAt ts k := by
    rw [docblockAt, lineAt, here]
    rfl
  have documents := documents_iff ts plain k bound
  rw [← walk] at documents
  refine ⟨documents, ?_, documents_unique ts plain k, ?_, ?_⟩
  · simp only [Option.eq_none_iff_forall_ne_some, ne_eq, documents, not_exists]
    exact forall_comm
  · intro j d n t documented after before reads word
    exact documents_keyword ts plain k j n d t documented after before reads word
  · intro j d n t before reads word outside lent documented
    obtain ⟨o, c, skips, within⟩ := documents_keyword ts plain k j n d t documented lent.before before reads word
    exact outside o c skips within

-- The `class` inside the attribute does not keep the docblock from the class behind it.
theorem docblock_by_segments_attribute :
    let ts := (tokenize "<?php\n/** A */\n#[B(new class \x7b\x7d)]\nfinal class A \x7b\x7d").tokens
    docblock 4 (ts.take 18).reverse = some ⟨.docComment, "/** A */", 2⟩ ∧
      ∃ o c, Skips ts (lineAt ts 18) 3 18 o c ∧ o < 9 ∧ 9 < c := by
  intro ts
  have here : ts[18]? = some ⟨.keyword, "class", 4⟩ := by decide +kernel
  have found : docblock 4 (ts.take 18).reverse = some ⟨.docComment, "/** A */", 2⟩ := by decide +kernel
  have inner : ts[9]? = some ⟨.keyword, "class", 3⟩ := by decide +kernel
  have place : ∀ j < 18, ts[j]? = some ⟨.docComment, "/** A */", 2⟩ → j = 2 := by decide +kernel
  obtain ⟨documents, -, -, inside, -⟩ := docblock_by_segments _ 18 _ here
  obtain ⟨j, documented⟩ := (documents _).mp found
  obtain rfl := place j documented.before documented.here
  exact ⟨found, inside 2 _ 9 _ documented (by decide) (by decide) inner (by decide +kernel)⟩

end DocAudit.Php
