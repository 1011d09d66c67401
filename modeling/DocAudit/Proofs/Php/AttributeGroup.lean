import DocAudit.Php.Docblock

/-!
Attribute groups and the `new` of an anonymous class, as shapes of the tokens in front of a
keyword. The walks back count brackets and find exactly these shapes.
-/

set_option autoImplicit false

namespace DocAudit.Php

def Token.opensGroup (t : Token) : Prop := t.text = "[" ∨ t.text = "#["

-- Square brackets that match, in source order. An opening `#[` counts as one.
inductive Balanced : List Token → Prop where
  | nil : Balanced []
  | plain (t : Token) (closed : t.text ≠ "]") (shut : ¬ t.opensGroup) : Balanced [t]
  | group (opening closing : Token) (inner : List Token) (opens : opening.opensGroup)
      (closes : closing.text = "]") (balanced : Balanced inner) : Balanced (opening :: (inner ++ [closing]))
  | append (first second : List Token) (left : Balanced first) (right : Balanced second) :
      Balanced (first ++ second)

theorem opens_group_not_close (t : Token) (opens : t.opensGroup) : t.text ≠ "]" := by
  rcases opens with text | text
  · rw [text]
    decide
  · rw [text]
    decide

theorem before_group_close (depth : Nat) (t : Token) (before : List Token) (closes : t.text = "]") :
    beforeGroup depth (t :: before) = beforeGroup (depth + 1) before := by
  cases depth <;> rw [beforeGroup, if_pos closes]

theorem before_group_open (depth : Nat) (t : Token) (before : List Token) (opens : t.opensGroup) :
    beforeGroup (depth + 1) (t :: before) = beforeGroup depth before := by
  rw [beforeGroup, if_neg (opens_group_not_close t opens)]
  exact if_pos opens

theorem before_group_end (t : Token) (before : List Token) (opens : t.opensGroup) :
    beforeGroup 0 (t :: before) = if t.text = "#[" then some before else none := by
  rw [beforeGroup, if_neg (opens_group_not_close t opens)]
  exact if_pos opens

theorem before_group_plain (depth : Nat) (t : Token) (before : List Token) (closed : t.text ≠ "]")
    (shut : ¬ t.opensGroup) : beforeGroup depth (t :: before) = beforeGroup depth before := by
  cases depth with
  | zero =>
      rw [beforeGroup, if_neg closed]
      exact if_neg shut
  | succ depth =>
      rw [beforeGroup, if_neg closed]
      exact if_neg shut

theorem before_group_balanced (w : List Token) (balanced : Balanced w) (depth : Nat) (before : List Token) :
    beforeGroup depth (w.reverse ++ before) = beforeGroup depth before := by
  induction balanced generalizing depth before with
  | nil => rfl
  | plain t closed shut => exact before_group_plain depth t before closed shut
  | group opening closing inner opens closes balanced ih =>
      have order : (opening :: (inner ++ [closing])).reverse ++ before =
          closing :: (inner.reverse ++ opening :: before) := by simp
      rw [order, before_group_close depth closing _ closes, ih, before_group_open depth opening before opens]
  | append first second left right leftIH rightIH =>
      rw [List.reverse_append, List.append_assoc, rightIH, leftIH]

-- The walk stops at the first bracket that the tokens behind it leave open. With none passed it
-- is the end of the walk; otherwise the walk goes on from there, with one bracket less to match.
theorem before_group_split (depth : Nat) (w earlier : List Token) (found : beforeGroup depth w = some earlier) :
    ∃ inner opening before, w = inner.reverse ++ opening :: before ∧ Balanced inner ∧
      match depth with
      | 0 => opening.text = "#[" ∧ before = earlier
      | depth + 1 => opening.opensGroup ∧ beforeGroup depth before = some earlier := by
  induction size : w.length using Nat.strongRecOn generalizing depth w earlier with
  | _ n ih =>
      cases w with
      | nil => simp [beforeGroup] at found
      | cons t w =>
          subst size
          by_cases closes : t.text = "]"
          · rw [before_group_close depth t w closes] at found
            obtain ⟨inner, opening, before, rfl, balanced, opens, further⟩ := ih _ (by simp) (depth + 1) w earlier found rfl
            obtain ⟨outer, last, rest, rfl, level, ends⟩ := ih _ (by simp; omega) depth before earlier further rfl
            exact ⟨outer ++ opening :: (inner ++ [t]), last, rest, by simp,
              .append outer _ level (.group opening t inner opens closes balanced), ends⟩
          · by_cases opens : t.opensGroup
            · refine ⟨[], t, w, rfl, .nil, ?_⟩
              cases depth with
              | zero =>
                  rw [before_group_end t w opens] at found
                  simpa using found
              | succ depth =>
                  rw [before_group_open depth t w opens] at found
                  exact ⟨opens, found⟩
            · rw [before_group_plain depth t w closes opens] at found
              obtain ⟨inner, opening, before, rfl, balanced, ends⟩ := ih _ (by simp) depth w earlier found rfl
              exact ⟨inner ++ [t], opening, before, by simp, .append inner [t] balanced (.plain t closes opens), ends⟩

theorem before_group_iff (w earlier : List Token) :
    beforeGroup 0 w = some earlier ↔
      ∃ inner opening, w = inner.reverse ++ opening :: earlier ∧ Balanced inner ∧ opening.text = "#[" := by
  constructor
  · intro found
    obtain ⟨inner, opening, before, shape, balanced, opens, rfl⟩ := before_group_split 0 w earlier found
    exact ⟨inner, opening, shape, balanced, opens⟩
  · rintro ⟨inner, opening, rfl, balanced, opens⟩
    rw [before_group_balanced inner balanced, before_group_end opening earlier (.inr opens)]
    exact if_pos opens

/-! ### The `new` of an anonymous class -/

-- In source order, up to the keyword.
inductive NewHead : List Token → Prop where
  | new (before : List Token) (t : Token) (word : t.isKeyword "new" = true) : NewHead (before ++ [t])
  | passed (before : List Token) (t : Token) (passes : (t.trivia || t.isModifier) = true)
      (head : NewHead before) : NewHead (before ++ [t])
  | group (before inner : List Token) (opening closing : Token) (opens : opening.text = "#[")
      (closes : closing.text = "]") (significant : closing.trivia = false) (balanced : Balanced inner)
      (head : NewHead before) : NewHead (before ++ opening :: (inner ++ [closing]))

theorem lower_bracket : Text.lower "]" = "]" := by decide +kernel

theorem bracket_not_modifier (t : Token) (closes : t.text = "]") : t.isModifier = false := by
  simp [Token.isModifier, Token.lower, closes, lower_bracket, modifierWords]

theorem new_word (t : Token) (word : t.isKeyword "new" = true) :
    (t.trivia || t.isModifier) = false ∧ t.text ≠ "]" := by
  simp only [Token.isKeyword, Bool.and_eq_true, beq_iff_eq] at word
  refine ⟨?_, ?_⟩
  · simp [Token.trivia, TokenKind.isComment, Token.isModifier, modifierWords, word.1, word.2]
  · intro closes
    have lower := word.2
    rw [Token.lower, closes, lower_bracket] at lower
    exact absurd lower (by decide)

theorem follows_new_word (t : Token) (before : List Token) (word : t.isKeyword "new" = true) :
    followsNew (t :: before) = true := by
  obtain ⟨stays, plain⟩ := new_word t word
  have ungrouped : beforeAttribute t before = none := if_neg plain
  rw [followsNew, if_neg (by simp [stays])]
  split
  · rename_i earlier group
    rw [ungrouped] at group
    cases group
  · exact word

theorem follows_new_group (t : Token) (before earlier : List Token) (closes : t.text = "]")
    (significant : t.trivia = false) (group : beforeGroup 0 before = some earlier) :
    followsNew (t :: before) = followsNew earlier := by
  have grouped : beforeAttribute t before = some earlier := (if_pos closes).trans group
  rw [followsNew, if_neg (by simp [significant, bracket_not_modifier t closes])]
  split
  · rename_i other found
    rw [grouped] at found
    cases found
    rfl
  · rename_i none
    rw [grouped] at none
    cases none

theorem follows_new_head (w : List Token) (follows : followsNew w = true) : NewHead w.reverse := by
  fun_induction followsNew w with
  | case1 => simp at follows
  | case2 t before passes ih =>
      rw [List.reverse_cons]
      exact .passed _ t passes (ih follows)
  | case3 t before stays earlier group ih =>
      unfold beforeAttribute at group
      split at group
      · rename_i closes
        obtain ⟨inner, opening, rfl, balanced, opens⟩ := (before_group_iff before earlier).mp group
        have significant : t.trivia = false := by
          rw [Bool.eq_false_iff]
          intro trivia
          simp [trivia] at stays
        have shape := NewHead.group earlier.reverse inner opening t opens closes significant balanced (ih follows)
        simpa using shape
      · cases group
  | case4 t before stays group =>
      rw [List.reverse_cons]
      exact .new _ t follows

theorem new_head_follows (source : List Token) (head : NewHead source) : followsNew source.reverse = true := by
  induction head with
  | new before t word =>
      rw [List.reverse_append]
      exact follows_new_word t before.reverse word
  | passed before t passes head ih =>
      rw [List.reverse_append, List.reverse_singleton, List.singleton_append, followsNew, if_pos passes]
      exact ih
  | group before inner opening closing opens closes significant balanced head ih =>
      have order : (before ++ opening :: (inner ++ [closing])).reverse =
          closing :: (inner.reverse ++ opening :: before.reverse) := by simp
      have group := (before_group_iff (inner.reverse ++ opening :: before.reverse) before.reverse).mpr
        ⟨inner, opening, rfl, balanced, opens⟩
      rw [order, follows_new_group closing _ before.reverse closes significant group]
      exact ih

theorem new_head_iff (source : List Token) : NewHead source ↔ followsNew source.reverse = true := by
  constructor
  · exact new_head_follows source
  · intro follows
    have head := follows_new_head source.reverse follows
    rwa [List.reverse_reverse] at head

instance (source : List Token) : Decidable (NewHead source) := decidable_of_iff _ (new_head_iff source).symm

end DocAudit.Php
