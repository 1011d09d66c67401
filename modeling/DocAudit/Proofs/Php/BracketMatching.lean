import DocAudit.Proofs.Php.DocblockSegments

/-!
Brackets that match, by counting. The walk back from a `]` finds the one bracket in front of it from
which the brackets in between come out even, and goes on when that bracket opens an attribute.
-/

set_option autoImplicit false

namespace DocAudit.Php

def openers (w : List Token) : Nat := w.countP fun t => t.text == "[" || t.text == "#["

def closers (w : List Token) : Nat := w.countP (·.text == "]")

-- Seen from the end nothing is opened that was not closed before, and the brackets come out even.
structure BracketsMatch (w : List Token) : Prop where
  suffix : ∀ s, s <:+ w → openers s ≤ closers s
  whole : openers w = closers w

theorem openers_append (a b : List Token) : openers (a ++ b) = openers a + openers b := List.countP_append ..

theorem closers_append (a b : List Token) : closers (a ++ b) = closers a + closers b := List.countP_append ..

section

variable (t : Token) (w : List Token)

theorem count_opener (opens : t.opensGroup) : openers (t :: w) = openers w + 1 ∧ closers (t :: w) = closers w := by
  refine ⟨?_, ?_⟩
  · exact List.countP_cons_of_pos (by simpa [Token.opensGroup] using opens)
  · exact List.countP_cons_of_neg (by simpa using opens_group_not_close t opens)

theorem count_closer (closes : t.text = "]") : openers (t :: w) = openers w ∧ closers (t :: w) = closers w + 1 := by
  refine ⟨?_, ?_⟩
  · exact List.countP_cons_of_neg (by simp [closes])
  · exact List.countP_cons_of_pos (by simp [closes])

theorem count_plain (closed : t.text ≠ "]") (shut : ¬ t.opensGroup) :
    openers (t :: w) = openers w ∧ closers (t :: w) = closers w := by
  refine ⟨?_, ?_⟩
  · exact List.countP_cons_of_neg (by simpa [Token.opensGroup] using shut)
  · exact List.countP_cons_of_neg (by simpa using closed)

end

/-! ### The walk back -/

-- What a walk has passed, nearest first, when `depth` brackets were to be opened and all are.
structure Walked (depth : Nat) (w : List Token) : Prop where
  front : ∀ a, a <+: w → openers a ≤ closers a + depth
  whole : openers w = closers w + depth

-- A token that moves the depth as it moves the counts can be taken off the front.
theorem walked_further (depth next : Nat) (t : Token) (w : List Token)
    (counts : ∀ a, openers (t :: a) + closers a + next = openers a + closers (t :: a) + depth)
    (walked : Walked depth (t :: w)) : Walked next w := by
  constructor
  · intro a begins
    have here := walked.front (t :: a) (List.cons_prefix_cons.mpr ⟨rfl, begins⟩)
    have moved := counts a
    omega
  · have here := walked.whole
    have moved := counts w
    omega

theorem walk_counted (w : List Token) (depth : Nat) (before : List Token) (walked : Walked depth w) :
    beforeGroup depth (w ++ before) = beforeGroup 0 before := by
  induction w generalizing depth with
  | nil =>
      obtain rfl : 0 = depth := by simpa [openers, closers] using walked.whole
      rfl
  | cons t w ih =>
      rw [List.cons_append]
      by_cases closes : t.text = "]"
      · rw [before_group_close depth t _ closes]
        apply ih
        apply walked_further depth (depth + 1) t w _ walked
        intro a
        have count := count_closer t a closes
        omega
      · by_cases opens : t.opensGroup
        · cases depth with
          | zero =>
              -- nothing was closed that this bracket could open
              have here := walked.front [t] (List.cons_prefix_cons.mpr ⟨rfl, List.nil_prefix⟩)
              have count := count_opener t [] opens
              simp only [openers, closers, List.countP_nil] at here count
              omega
          | succ depth =>
              rw [before_group_open depth t _ opens]
              apply ih
              apply walked_further (depth + 1) depth t w _ walked
              intro a
              have count := count_opener t a opens
              omega
        · rw [before_group_plain depth t _ closes opens]
          apply ih
          apply walked_further depth depth t w _ walked
          intro a
          have count := count_plain t a closes opens
          omega

theorem match_walked (w : List Token) (matching : BracketsMatch w) : Walked 0 w.reverse := by
  have same : ∀ a : List Token, openers a.reverse = openers a ∧ closers a.reverse = closers a :=
    fun a => ⟨List.countP_reverse, List.countP_reverse⟩
  constructor
  · intro a begins
    have here := matching.suffix a.reverse (List.reverse_prefix.mp (by rwa [List.reverse_reverse]))
    rwa [(same a).1, (same a).2] at here
  · rw [(same w).1, (same w).2]
    exact matching.whole

/-! ### Nesting and counting agree -/

theorem suffix_append_cases (s a b : List Token) (ends : s <:+ a ++ b) :
    s <:+ b ∨ ∃ front, s = front ++ b ∧ front <:+ a := by
  obtain ⟨before, whole⟩ := ends
  rcases List.append_eq_append_iff.mp whole with ⟨front, rfl, rfl⟩ | ⟨between, rfl, rfl⟩
  · exact .inr ⟨front, rfl, before, rfl⟩
  · exact .inl ⟨between, rfl⟩

theorem match_append (a b : List Token) (first : BracketsMatch a) (second : BracketsMatch b) :
    BracketsMatch (a ++ b) := by
  constructor
  · intro s ends
    rcases suffix_append_cases s a b ends with inside | ⟨front, rfl, inside⟩
    · exact second.suffix s inside
    · have here := first.suffix front inside
      have whole := second.whole
      rw [openers_append, closers_append]
      omega
  · rw [openers_append, closers_append, first.whole, second.whole]

theorem match_nil : BracketsMatch [] := by
  refine ⟨fun s ends => ?_, rfl⟩
  rw [List.suffix_nil.mp ends]
  exact Nat.le_refl 0

theorem match_plain (t : Token) (closed : t.text ≠ "]") (shut : ¬ t.opensGroup) : BracketsMatch [t] := by
  obtain ⟨opened, ended⟩ := count_plain t [] closed shut
  constructor
  · intro s ends
    rcases List.suffix_cons_iff.mp ends with rfl | empty
    · rw [opened, ended]
      exact match_nil.suffix [] List.suffix_rfl
    · exact match_nil.suffix s empty
  · rw [opened, ended, match_nil.whole]

theorem match_group (opening closing : Token) (inner : List Token) (opens : opening.opensGroup)
    (closes : closing.text = "]") (matching : BracketsMatch inner) :
    BracketsMatch (opening :: (inner ++ [closing])) := by
  have opened := count_opener opening (inner ++ [closing]) opens
  have closed := count_closer closing [] closes
  have empty := match_nil.whole
  have whole := matching.whole
  rw [openers_append, closers_append] at opened
  constructor
  · intro s ends
    rcases List.suffix_cons_iff.mp ends with rfl | inside
    · omega
    · rcases suffix_append_cases s inner [closing] inside with last | ⟨front, rfl, within⟩
      · rcases List.suffix_cons_iff.mp last with rfl | none
        · omega
        · exact match_nil.suffix s none
      · have here := matching.suffix front within
        rw [openers_append, closers_append]
        omega
  · omega

theorem balanced_iff_match (w : List Token) : Balanced w ↔ BracketsMatch w := by
  constructor
  · intro balanced
    induction balanced with
    | nil => exact match_nil
    | plain t closed shut => exact match_plain t closed shut
    | group opening closing inner opens closes balanced ih => exact match_group opening closing inner opens closes ih
    | append first second left right leftIH rightIH => exact match_append first second leftIH rightIH
  · intro matching
    -- in front of a `#[` the walk passes over all of it, so it is what a group holds
    let hash : Token := ⟨.other, "#[", 1⟩
    have walk : beforeGroup 0 (w.reverse ++ [hash]) = some [] :=
      walk_counted w.reverse 0 [hash] (match_walked w matching)
    obtain ⟨inner, opening, split, balanced, -⟩ := (before_group_iff _ _).mp walk
    have same : w.reverse = inner.reverse := (List.append_inj' split rfl).1
    rwa [List.reverse_inj.mp same]

/-! ### The bracket that a `]` closes -/

section

variable (ts : List Token)

-- A bracket at `i`, whichever way it is written, that a `]` at `c` closes.
structure OpenerAt (i c : Nat) (t : Token) : Prop where
  less : i < c
  here : ts[i]? = some t
  opens : t.opensGroup
  within : BracketsMatch ((ts.take c).drop (i + 1))

theorem opener_last (i j c : Nat) (t u : Token) (first : OpenerAt ts i c t) (second : OpenerAt ts j c u) : ¬ i < j := by
  intro early
  have here : (ts.take c)[j]? = some u := by rw [List.getElem?_take_of_lt second.less, second.here]
  obtain ⟨bound, same⟩ := List.getElem?_eq_some_iff.mp here
  -- from the second bracket on, more is opened than closed
  have ends : u :: (ts.take c).drop (j + 1) <:+ (ts.take c).drop (i + 1) := by
    rw [← same, ← List.drop_eq_getElem_cons bound]
    exact List.drop_suffix_drop_left _ early
  have more := first.within.suffix _ ends
  have count := count_opener u ((ts.take c).drop (j + 1)) second.opens
  have even := second.within.whole
  omega

theorem opener_unique (i j c : Nat) (t u : Token) (first : OpenerAt ts i c t) (second : OpenerAt ts j c u) : i = j := by
  have left := opener_last ts i j c t u first second
  have right := opener_last ts j i c u t second first
  omega

theorem group_at_iff (i c : Nat) (closing : Token) (here : ts[c]? = some closing) (closes : closing.text = "]") :
    GroupAt ts i c ↔ ∃ t, OpenerAt ts i c t ∧ t.text = "#[" := by
  constructor
  · intro group
    obtain ⟨t, found, opens⟩ := Option.map_eq_some_iff.mp group.opens
    exact ⟨t, ⟨group.less, found, .inr opens, (balanced_iff_match _).mp group.balanced⟩, opens⟩
  · rintro ⟨t, opener, opens⟩
    refine ⟨opener.less, ?_, ?_, (balanced_iff_match _).mpr opener.within⟩
    · rw [opener.here, Option.map_some, opens]
    · rw [here, Option.map_some, closes]

-- The position of the `#[` that opens the attribute group closed at `c`.
def attributeStart (c : Nat) : Option Nat :=
  (ts[c]?.bind fun t => beforeAttribute t (beforeAt ts c)).map List.length

theorem attribute_start_iff (i c : Nat) (closing : Token) (here : ts[c]? = some closing) (closes : closing.text = "]") :
    attributeStart ts c = some i ↔ ∃ t, OpenerAt ts i c t ∧ t.text = "#[" := by
  have length : ∀ o, GroupAt ts o c → (beforeAt ts o).length = o := by
    intro o group
    have bound := (List.getElem?_eq_some_iff.mp here).1
    have less := group.less
    rw [beforeAt, List.length_reverse, List.length_take]
    omega
  rw [← group_at_iff ts i c closing here closes, attributeStart, here, Option.bind_some, Option.map_eq_some_iff]
  constructor
  · rintro ⟨earlier, found, rfl⟩
    obtain ⟨o, group, rfl⟩ := (before_attribute_at ts c closing here earlier).mp found
    rwa [length o group]
  · intro group
    exact ⟨beforeAt ts i, (before_attribute_at ts c closing here _).mpr ⟨i, group, rfl⟩, length i group⟩

-- The position says all that the walk finds.
theorem before_attribute_start (c : Nat) (closing : Token) (here : ts[c]? = some closing)
    (closes : closing.text = "]") :
    beforeAttribute closing (beforeAt ts c) = (attributeStart ts c).map (beforeAt ts) := by
  cases start : attributeStart ts c with
  | none =>
      rw [attributeStart, here, Option.bind_some, Option.map_eq_none_iff] at start
      exact start
  | some i =>
      have opener := (attribute_start_iff ts i c closing here closes).mp start
      have group := (group_at_iff ts i c closing here closes).mpr opener
      exact (before_attribute_at ts c closing here _).mpr ⟨i, group, rfl⟩

theorem attribute_start_none (c : Nat) (closing : Token) (here : ts[c]? = some closing) (closes : closing.text = "]") :
    attributeStart ts c = none ↔ (∃ i t, OpenerAt ts i c t ∧ t.text = "[") ∨ ∀ i t, ¬ OpenerAt ts i c t := by
  have found := fun i => attribute_start_iff ts i c closing here closes
  constructor
  · intro absent
    by_cases opened : ∃ i t, OpenerAt ts i c t
    · obtain ⟨i, t, opener⟩ := opened
      refine .inl ⟨i, t, opener, opener.opens.resolve_right fun hash => ?_⟩
      cases absent.symm.trans ((found i).mpr ⟨t, opener, hash⟩)
    · exact .inr fun i t opener => opened ⟨i, t, opener⟩
  · intro plain
    rw [Option.eq_none_iff_forall_ne_some]
    intro i start
    obtain ⟨t, opener, hash⟩ := (found i).mp start
    rcases plain with ⟨j, u, other, bracket⟩ | absent
    · obtain rfl := opener_unique ts i j c t u opener other
      obtain rfl : t = u := Option.some.inj (opener.here.symm.trans other.here)
      exact absurd (hash.symm.trans bracket) (by decide)
    · exact absent i t opener

theorem attribute_start_exact (c : Nat) (closing : Token) (here : ts[c]? = some closing) (closes : closing.text = "]") :
    (∀ i, attributeStart ts c = some i ↔
      i < c ∧ ts[i]?.map (·.text) = some "#[" ∧ BracketsMatch ((ts.take c).drop (i + 1))) ∧
    (∀ i j t u, OpenerAt ts i c t → OpenerAt ts j c u → i = j) ∧
    (attributeStart ts c = none ↔ (∃ i t, OpenerAt ts i c t ∧ t.text = "[") ∨ ∀ i t, ¬ OpenerAt ts i c t) ∧
    beforeAttribute closing (beforeAt ts c) = (attributeStart ts c).map (beforeAt ts) := by
  refine ⟨fun i => ?_, fun i j t u => opener_unique ts i j c t u, attribute_start_none ts c closing here closes,
    before_attribute_start ts c closing here closes⟩
  rw [attribute_start_iff ts i c closing here closes]
  constructor
  · rintro ⟨t, opener, hash⟩
    exact ⟨opener.less, by rw [opener.here, Option.map_some, hash], opener.within⟩
  · rintro ⟨less, text, within⟩
    obtain ⟨t, found, hash⟩ := Option.map_eq_some_iff.mp text
    exact ⟨t, ⟨less, found, .inr hash, within⟩, hash⟩

end

-- A group that holds an index, behind brackets that do not match.
theorem attribute_start_exact_nested :
    let ts : List Token := ["]", "[", "#[", "A", "[", "]", "]"].map fun text => ⟨.other, text, 1⟩
    let closing : Token := ⟨.other, "]", 1⟩
    ts[6]? = some closing ∧ attributeStart ts 6 = some 2 ∧ BracketsMatch ((ts.take 6).drop 3) ∧
      ts[5]? = some closing ∧ OpenerAt ts 4 5 ⟨.other, "[", 1⟩ ∧ attributeStart ts 5 = none := by
  intro ts closing
  have start : attributeStart ts 6 = some 2 := by decide +kernel
  have plain : OpenerAt ts 4 5 ⟨.other, "[", 1⟩ := ⟨by decide, rfl, .inl rfl, match_nil⟩
  have outer := attribute_start_exact ts 6 closing rfl rfl
  have inner := attribute_start_exact ts 5 closing rfl rfl
  exact ⟨rfl, start, ((outer.1 2).mp start).2.2, rfl, plain, inner.2.2.1.mpr (.inl ⟨4, _, plain, rfl⟩)⟩

end DocAudit.Php
