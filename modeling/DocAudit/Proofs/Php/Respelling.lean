import DocAudit.Proofs.Php.Charge
import DocAudit.Proofs.Php.KeywordCase

/-!
Scans of a source with keywords in another case. Every position keeps its part in the stream, so the
same is found and summed up there; only a name that is itself a keyword is told in its new case.
-/

set_option autoImplicit false

namespace DocAudit.Php

open Text (SameLetters)

/-! ### Tokens -/

section

variable (t u : Token) (recased : t.Recased u)

include recased

theorem recased_spelling : SameLetters t.text.toList u.text.toList := by
  rcases recased.text with same | ⟨-, letters⟩
  · rw [same]
    rfl
  · exact letters

theorem recased_unless_keyword (other : t.kind ≠ .keyword) : u = t := by
  obtain ⟨kind, line, text⟩ := recased
  obtain ⟨k, s, n⟩ := u
  obtain rfl : s = t.text := text.resolve_right fun keyword => other keyword.1
  obtain rfl : k = t.kind := kind
  obtain rfl : n = t.line := line
  rfl

theorem recased_lower : u.lower = t.lower :=
  Text.lower_same_letters _ _ (recased_spelling t u recased).symm

theorem recased_trivia : u.trivia = t.trivia := by
  rw [Token.trivia, Token.trivia, recased.kind]

theorem recased_end_line : u.endLine = t.endLine := by
  have count : u.text.toList.count '\n' = t.text.toList.count '\n' :=
    (Text.same_letters_count _ newline_caseless _ _ (recased_spelling t u recased)).symm
  rw [Token.endLine, Token.endLine, recased.line, count]

theorem recased_mark (mark : String) (plain : mark.toList.any Char.isAlpha = false) :
    u.text = mark ↔ t.text = mark := by
  rw [← String.toList_inj, ← String.toList_inj]
  exact Text.same_letters_mark mark.toList _ _ plain (recased_spelling t u recased)

theorem recased_keyword (word : String) : u.isKeyword word = t.isKeyword word := by
  rw [Token.isKeyword, Token.isKeyword, recased.kind, recased_lower t u recased]

theorem recased_modifier : u.isModifier = t.isModifier := by
  rw [Token.isModifier, Token.isModifier, recased.kind, recased_lower t u recased]

theorem recased_boundary : u.isBoundary = t.isBoundary := by
  have semicolon := recased_mark t u recased ";" (by decide)
  rw [Token.isBoundary, Token.isBoundary, Token.isDeclarationWord, Token.isDeclarationWord, recased.kind,
    recased_lower t u recased, Bool.eq_iff_iff]
  simp only [Bool.or_eq_true, beq_iff_eq, semicolon]

theorem recased_passes (head : Head) : head.passes u = head.passes t := by
  have ampersand := recased_mark t u recased "&" (by decide)
  cases head with
  | ofClass => exact recased_trivia t u recased
  | ofFunction =>
      rw [Head.passes, Head.passes, recased_trivia t u recased, Bool.eq_iff_iff]
      simp only [Bool.or_eq_true, beq_iff_eq, ampersand]

end

/-! ### Walks back -/

theorem before_group_recased (w v : List Token) (recased : Recased w v) (depth : Nat) :
    Option.Rel Recased (beforeGroup depth w) (beforeGroup depth v) := by
  induction recased generalizing depth with
  | nil => exact .none
  | cons first rest ih =>
      rename_i t u w v
      apply before_group_cons_related Recased t u w v _ rest ih depth
      intro mark bracket
      have plain : ∀ m ∈ ["[", "]", "#["], m.toList.any Char.isAlpha = false := by decide
      exact (recased_mark t u first mark (plain mark bracket)).symm

theorem before_attribute_recased (t u : Token) (w v : List Token) (first : t.Recased u) (rest : Recased w v) :
    Option.Rel Recased (beforeAttribute t w) (beforeAttribute u v) := by
  have bracket := recased_mark t u first "]" (by decide)
  simp only [beforeAttribute, bracket]
  split
  · exact before_group_recased w v rest 0
  · exact .none

theorem follows_new_recased (w v : List Token) (recased : Recased w v) : followsNew w = followsNew v := by
  induction size : w.length using Nat.strongRecOn generalizing w v with
  | _ n ih =>
      subst size
      cases recased with
      | nil => rfl
      | cons first rest =>
          rename_i t u w v
          rw [follows_new_cons, follows_new_cons, recased_trivia t u first, recased_modifier t u first,
            recased_keyword t u first, ih w.length (by simp) w v rest rfl]
          congr 1
          apply elim_related Recased Eq _ _ _ _ _ _ (before_attribute_recased t u w v first rest) rfl
          intro earlier later found jump
          have shorter := length_beforeAttribute found
          exact ih earlier.length (by simp; omega) earlier later jump rfl

-- A doc comment is no keyword, so the walks find the same one.
theorem docblock_recased (line : Int) (w v : List Token) (recased : Recased w v) :
    docblock line w = docblock line v := by
  induction size : w.length using Nat.strongRecOn generalizing w v with
  | _ n ih =>
      subst size
      cases recased with
      | nil => rfl
      | cons first rest =>
          rename_i t u w v
          have further := ih w.length (by simp) w v rest rfl
          rw [docblock_cons, docblock_cons, first.kind, recased_boundary t u first, recased_modifier t u first,
            recased_end_line t u first, further]
          split
          · rfl
          split
          · split
            · rename_i doc
              rw [recased_unless_keyword t u first (by rw [doc]; decide)]
            · rfl
          split
          · rfl
          split
          · rfl
          · apply elim_related Recased Eq _ _ _ _ _ _ (before_attribute_recased t u w v first rest) rfl
            intro earlier later found jump
            have shorter := length_beforeAttribute found
            exact ih earlier.length (by simp; omega) earlier later jump rfl

theorem after_use_recased (w v : List Token) (recased : Recased w v) :
    (v.find? (!·.trivia)).any (·.lower == "use") = (w.find? (!·.trivia)).any (·.lower == "use") := by
  induction recased with
  | nil => rfl
  | cons first rest ih =>
      rename_i t u w v
      rw [List.find?_cons, List.find?_cons, recased_trivia t u first]
      cases t.trivia with
      | true => exact ih
      | false => rw [Bool.not_false, Option.any_some, Option.any_some, recased_lower t u first]

theorem find_stop_recased (head : Head) (w v : List Token) (recased : Recased w v) :
    v.findIdx? (!head.passes ·) = w.findIdx? (!head.passes ·) := by
  induction recased with
  | nil => rfl
  | cons first rest ih =>
      rename_i t u w v
      rw [List.findIdx?_cons, List.findIdx?_cons, recased_passes t u first head, ih]

/-! ### Positions -/

theorem any_recased (a b : Option Token) (related : Option.Rel Token.Recased a b) (test : Token → Bool)
    (blind : ∀ t u : Token, t.Recased u → test u = test t) : b.any test = a.any test := by
  cases related with
  | none => rfl
  | some first => exact blind _ _ first

section

variable (ts us : List Token) (recased : Recased ts us)

include recased

theorem token_at_recased (k : Nat) : Option.Rel Token.Recased ts[k]? us[k]? := by
  induction recased generalizing k with
  | nil => exact .none
  | cons first rest ih =>
      cases k with
      | zero => exact .some first
      | succ k => exact ih k

theorem word_at_recased : wordAt us = wordAt ts := by
  funext word k
  exact any_recased _ _ (token_at_recased ts us recased k) _ fun t u first => recased_keyword t u first word

theorem opens_at_recased : opensAt us = opensAt ts := by
  funext k
  exact any_recased _ _ (token_at_recased ts us recased k) _ fun t u first => by rw [first.kind]

theorem closes_at_recased : closesAt us = closesAt ts := by
  funext k
  exact any_recased _ _ (token_at_recased ts us recased k) _ fun t u first => by rw [first.kind]

theorem line_at_recased : lineAt us = lineAt ts := by
  funext k
  have here := token_at_recased ts us recased k
  rw [lineAt, lineAt]
  generalize ts[k]? = a, us[k]? = b at here ⊢
  cases here with
  | none => rfl
  | some first => rw [Option.map_some, Option.map_some, first.line]

theorem before_at_recased (k : Nat) : Recased (beforeAt ts k) (beforeAt us k) :=
  List.rel_reverse (List.forall₂_take k recased)

theorem docblock_at_recased : docblockAt us = docblockAt ts := by
  funext k
  rw [docblockAt, docblockAt, line_at_recased ts us recased,
    docblock_recased _ _ _ (before_at_recased ts us recased k)]

theorem follows_new_at_recased (k : Nat) : followsNew (beforeAt us k) = followsNew (beforeAt ts k) :=
  (follows_new_recased _ _ (before_at_recased ts us recased k)).symm

theorem after_use_at_recased : afterUseAt us = afterUseAt ts := by
  funext k
  exact after_use_recased _ _ (before_at_recased ts us recased k)

theorem next_at_recased (head : Head) (k : Nat) : nextAt us head.passes k = nextAt ts head.passes k := by
  have later : Recased (ts.drop (k + 1)) (us.drop (k + 1)) := List.forall₂_drop (k + 1) recased
  rw [nextAt, nextAt, find_stop_recased head _ _ later]

theorem open_braces_recased : openBraces us = openBraces ts := by
  funext k
  induction k with
  | zero => rfl
  | succ k ih => rw [openBraces, openBraces, opens_at_recased ts us recased, closes_at_recased ts us recased, ih]

theorem next_token_recased (head : Head) (k : Nat) :
    Option.Rel Token.Recased (nextToken ts head k) (nextToken us head k) := by
  rw [nextToken, nextToken, next_at_recased ts us recased head k]
  cases nextAt ts head.passes k with
  | none => exact .none
  | some n => exact token_at_recased ts us recased n

variable (taken : Nat → Bool)

theorem live_at_recased : liveAt us taken = liveAt ts taken := by
  funext word k
  rw [liveAt, liveAt, word_at_recased ts us recased]

theorem names_class_recased : namesClassAt us taken = namesClassAt ts taken := by
  funext k
  rw [namesClassAt, namesClassAt, live_at_recased ts us recased taken, follows_new_at_recased ts us recased k]

theorem class_named_recased (k : Nat) : (classNameAt us taken k).isSome = (classNameAt ts taken k).isSome := by
  rw [classNameAt, classNameAt, names_class_recased ts us recased taken]
  have label : ∀ t u : Token, t.Recased u → u.kind.isLabel = t.kind.isLabel := fun t u first => by rw [first.kind]
  split
  · rw [Option.isSome_filter, Option.isSome_filter]
    exact any_recased _ _ (next_token_recased ts us recased .ofClass k) _ label
  · rfl

theorem ordinal_at_recased : ordinalAt us taken = ordinalAt ts taken := by
  funext k
  simp only [ordinalAt, class_named_recased ts us recased taken]

theorem head_is_some_recased (k : Nat) : (headAt us taken k).isSome = (headAt ts taken k).isSome := by
  rw [headAt, headAt, live_at_recased ts us recased taken, follows_new_at_recased ts us recased k]
  split
  · rfl
  · rw [Option.isSome_map, Option.isSome_map, class_named_recased ts us recased taken k]

theorem head_before_recased : headBefore us taken = headBefore ts taken := by
  funext k
  induction k with
  | zero => rfl
  | succ k ih =>
      rw [headBefore, headBefore, opens_at_recased ts us recased, head_is_some_recased ts us recased taken k, ih]

theorem innermost_recased : innermostHead us taken = innermostHead ts taken := by
  funext k
  rw [innermostHead, innermostHead, open_braces_recased ts us recased, head_before_recased ts us recased taken]

theorem enclosing_is_some_recased (k : Nat) : (enclosingAt us taken k).isSome = (enclosingAt ts taken k).isSome := by
  rw [enclosing_head, enclosing_head, innermost_recased ts us recased taken]
  cases innermostHead ts taken k with
  | none => rfl
  | some h => exact head_is_some_recased ts us recased taken h

theorem awaits_name_recased : awaitsName us taken = awaitsName ts taken := by
  funext head k
  cases head with
  | ofClass => rw [awaitsName, awaitsName, names_class_recased ts us recased taken]
  | ofFunction =>
      rw [awaitsName, awaitsName, live_at_recased ts us recased taken, after_use_at_recased ts us recased,
        enclosing_is_some_recased ts us recased taken k]

theorem is_name_recased : isName us taken = isName ts taken := by
  funext n
  have label : us[n]?.any (·.kind.isLabel) = ts[n]?.any (·.kind.isLabel) :=
    any_recased _ _ (token_at_recased ts us recased n) _ fun t u first => by rw [first.kind]
  rw [isName, isName, awaits_name_recased ts us recased taken, label]
  simp only [next_at_recased ts us recased]

theorem names_below_recased (n : Nat) : namesBelow us n = namesBelow ts n := by
  induction n with
  | zero => rfl
  | succ n ih => simp only [namesBelow, ih, is_name_recased ts us recased]

-- The same labels are read as names.
theorem taken_at_recased : takenAt us = takenAt ts := by
  funext k
  rw [takenAt, takenAt, names_below_recased ts us recased, recased.length_eq]

end

/-! ### Names in their new case -/

-- The position of the name that the keyword at `k` waits for.
def namePosition (ts : List Token) (k : Nat) : Option Nat :=
  ([Head.ofClass, .ofFunction].find? fun head => awaitsName ts (takenAt ts) head k).bind fun head =>
    nextAt ts head.passes k

-- The name that the keyword at `k` is given, as `us` spells it if it is a keyword in `ts`.
def newCase (ts us : List Token) (k : Nat) (name : String) : String :=
  match namePosition ts k with
  | some n => if ts[n]?.any (·.kind == .keyword) then (us[n]?.map (·.text)).getD name else name
  | none => name

-- The same for the name of the class around `k`.
def ownerNewCase (ts us : List Token) (k : Nat) (name : String) : String :=
  (innermostHead ts (takenAt ts) k).elim name fun h => newCase ts us h name

def Declaration.newCase (ts us : List Token) (k : Nat) (d : Declaration) : Declaration :=
  { d with name := Php.newCase ts us k d.name, enclosing := d.enclosing.map (ownerNewCase ts us k) }

theorem name_position (ts : List Token) (head : Head) (k : Nat) (awaits : awaitsName ts (takenAt ts) head k = true) :
    namePosition ts k = nextAt ts head.passes k := by
  cases head with
  | ofClass => simp [namePosition, awaits]
  | ofFunction =>
      have other : awaitsName ts (takenAt ts) .ofClass k = false := by
        rw [Bool.eq_false_iff]
        intro also
        cases awaits_one_head ts (takenAt ts) .ofClass .ofFunction k also awaits
      simp [namePosition, awaits, other]

section

variable (ts us : List Token) (recased : Recased ts us)

include recased

omit recased in
theorem new_case_other (head : Head) (k : Nat) (t : Token) (awaits : awaitsName ts (takenAt ts) head k = true)
    (next : nextToken ts head k = some t) (other : t.kind ≠ .keyword) (name : String) :
    newCase ts us k name = name := by
  obtain ⟨n, position, here⟩ := Option.bind_eq_some_iff.mp next
  rw [newCase, name_position ts head k awaits, position]
  simp [here, other]

-- What stands in the place of a name is told as `us` spells it, keyword or not.
theorem new_case_next (head : Head) (k : Nat) (t u : Token) (awaits : awaitsName ts (takenAt ts) head k = true)
    (next : nextToken ts head k = some t) (also : nextToken us head k = some u) : newCase ts us k t.text = u.text := by
  by_cases keyword : t.kind = .keyword
  · obtain ⟨n, position, here⟩ := Option.bind_eq_some_iff.mp next
    rw [nextToken, next_at_recased ts us recased, position, Option.bind_some] at also
    rw [newCase, name_position ts head k awaits, position]
    simp [here, also, keyword]
  · have same := next_token_recased ts us recased head k
    rw [next, also] at same
    rw [new_case_other ts us head k t awaits next keyword]
    cases same with
    | some first => rw [recased_unless_keyword t u first keyword]

theorem class_name_recased (k : Nat) :
    (classNameAt us (takenAt ts) k).map (·.text) = (classNameAt ts (takenAt ts) k).map (newCase ts us k ·.text) := by
  rw [classNameAt, classNameAt, names_class_recased ts us recased]
  split
  · rename_i awaits
    have name := new_case_next ts us recased .ofClass k
    have same := next_token_recased ts us recased .ofClass k
    generalize nextToken ts .ofClass k = a, nextToken us .ofClass k = b at name same ⊢
    cases same with
    | none => rfl
    | some first =>
        rw [Option.filter_some, Option.filter_some, first.kind]
        split
        · rw [Option.map_some, Option.map_some, name _ _ awaits rfl rfl]
        · rfl
  · rfl

omit recased in
theorem anonymous_new_case (h : Nat)
    (anonymous : (liveAt ts (takenAt ts) "class" h && followsNew (beforeAt ts h)) = true) (name : String) :
    newCase ts us h name = name := by
  have head : headAt ts (takenAt ts) h = some ⟨anonymousClassName, none⟩ := by rw [headAt, if_pos anonymous]
  rw [Bool.and_eq_true] at anonymous
  have noClass : awaitsName ts (takenAt ts) .ofClass h = false := by simp [awaitsName, namesClassAt, anonymous.2]
  have noFunction : awaitsName ts (takenAt ts) .ofFunction h = false := by
    rw [Bool.eq_false_iff]
    intro awaits
    rw [function_headless ts (takenAt ts) h awaits] at head
    cases head
  simp [newCase, namePosition, noClass, noFunction]

theorem head_at_recased (h : Nat) :
    headAt us (takenAt ts) h = (headAt ts (takenAt ts) h).map fun scope =>
      { scope with name := newCase ts us h scope.name } := by
  rw [headAt, headAt, live_at_recased ts us recased, follows_new_at_recased ts us recased]
  split
  · rename_i anonymous
    rw [Option.map_some, anonymous_new_case ts us h anonymous]
  · have named := congrArg (Option.map fun name => Scope.mk name (some (ordinalAt ts (takenAt ts) h)))
      (class_name_recased ts us recased h)
    rw [ordinal_at_recased ts us recased]
    simpa only [Option.map_map, Function.comp_def] using named

theorem enclosing_recased (k : Nat) :
    enclosingAt us (takenAt ts) k = (enclosingAt ts (takenAt ts) k).map fun scope =>
      { scope with name := ownerNewCase ts us k scope.name } := by
  rw [enclosing_head, enclosing_head, innermost_recased ts us recased]
  cases innermost : innermostHead ts (takenAt ts) k with
  | none => rfl
  | some h =>
      rw [Option.bind_some, Option.bind_some, head_at_recased ts us recased h]
      simp only [ownerNewCase, innermost, Option.elim_some]

theorem declared_at_recased (k : Nat) (kind : DeclarationKind) (name : String) (charged : Option Nat) :
    declaredAt us (takenAt ts) k kind (newCase ts us k name) charged =
      (declaredAt ts (takenAt ts) k kind name charged).newCase ts us k := by
  simp [declaredAt, Declaration.newCase, line_at_recased ts us recased, docblock_at_recased ts us recased,
    enclosing_recased ts us recased, Function.comp_def]

theorem function_at_recased (k : Nat) (t u : Token) (awaits : awaitsName ts (takenAt ts) .ofFunction k = true)
    (next : nextToken ts .ofFunction k = some t) (also : nextToken us .ofFunction k = some u) (first : t.Recased u) :
    functionAt us (takenAt ts) k u = (functionAt ts (takenAt ts) k t).map (Declaration.newCase ts us k) := by
  have parenthesis := recased_mark t u first "(" (by decide)
  have charged : (enclosingAt us (takenAt ts) k).bind (·.ordinal) =
      (enclosingAt ts (takenAt ts) k).bind (·.ordinal) := by
    rw [enclosing_recased ts us recased]
    cases enclosingAt ts (takenAt ts) k <;> rfl
  have name := new_case_next ts us recased .ofFunction k t u awaits next also
  simp only [functionAt, first.kind, parenthesis, charged]
  split
  · rw [Option.map_some, ← declared_at_recased ts us recased, name]
  split
  · rename_i unlabelled _
    have closure : t.kind ≠ .keyword := by
      intro keyword
      exact unlabelled (by rw [keyword]; rfl)
    rw [Option.map_some, ← declared_at_recased ts us recased,
      new_case_other ts us .ofFunction k t awaits next closure]
  · rfl

theorem declaration_at_recased (k : Nat) :
    declarationAt us (takenAt ts) k = (declarationAt ts (takenAt ts) k).map (Declaration.newCase ts us k) := by
  rw [declarationAt, declarationAt, awaits_name_recased ts us recased]
  split
  · rename_i awaits
    have function := function_at_recased ts us recased k
    have same := next_token_recased ts us recased .ofFunction k
    generalize nextToken ts .ofFunction k = a, nextToken us .ofFunction k = b at function same ⊢
    cases same with
    | none => rfl
    | some first => exact function _ _ awaits rfl rfl first
  · have named := congrArg
      (Option.map fun name => declaredAt us (takenAt ts) k .classDecl name (some (ordinalAt ts (takenAt ts) k)))
      (class_name_recased ts us recased k)
    rw [ordinal_at_recased ts us recased]
    simpa only [Option.map_map, Function.comp_def, declared_at_recased ts us recased] using named

end

end DocAudit.Php

namespace DocAudit

open Php

/-! ### Outcomes -/

def Finding.newCase (ts us : List Token) (k : Nat) (f : Finding) : Finding :=
  { f with name := Php.newCase ts us k f.name, className := f.className.map (ownerNewCase ts us k) }

def ClassSummary.newCase (ts us : List Token) (h : Nat) (c : ClassSummary) : ClassSummary :=
  { c with name := Php.newCase ts us h c.name }

section

variable (flags : SkipFlags) (path : String) (ts us : List Token) (recased : Recased ts us)

include recased

theorem finding_at_recased (k : Nat) :
    findingAt flags path us k = (findingAt flags path ts k).map (Finding.newCase ts us k) := by
  rw [findingAt, findingAt, taken_at_recased ts us recased, declaration_at_recased ts us recased, Option.filter_map,
    Option.map_map, Option.map_map]
  rfl

theorem class_at_recased (h : Nat) : classAt us h = (classAt ts h).map (Declaration.newCase ts us h) := by
  rw [classAt, classAt, taken_at_recased ts us recased, declaration_at_recased ts us recased, Option.filter_map]
  rfl

theorem named_heads_recased : namedHeads us = namedHeads ts := by
  simp only [namedHeads, namedBelow, taken_at_recased ts us recased, recased.length_eq,
    class_named_recased ts us recased]

end

-- Two partial functions over the same positions, one told from the other.
theorem kept_changed {α β : Type} (f g : α → Option β) (change : α → β → β)
    (changed : ∀ k, g k = (f k).map (change k)) (ks : List α) (ds es : List β) (first : List.Forall₂ (fun k d => f k = some d) ks ds)
    (second : List.Forall₂ (fun k e => g k = some e) ks es) : es = List.zipWith change ks ds := by
  induction first generalizing es with
  | nil =>
      cases second
      rfl
  | cons here rest ih =>
      cases second with
      | cons there later =>
          rw [changed, here, Option.map_some] at there
          rw [List.zipWith_cons_cons, ← Option.some.inj there, ih _ later]

section

variable (flags : SkipFlags) (path : String) (ts us : List Token) (recased : Recased ts us)
variable (spelled : ∀ t ∈ ts, WellSpelled t) (respelled : ∀ u ∈ us, WellSpelled u)

include recased spelled respelled

theorem classes_recased :
    classDeclarations (declarations us) =
      List.zipWith (Declaration.newCase ts us) (namedHeads ts) (classDeclarations (declarations ts)) := by
  have again := classes_by_position us respelled
  rw [named_heads_recased ts us recased] at again
  exact kept_changed (classAt ts) (classAt us) _ (class_at_recased ts us recased) _ _ _
    (classes_by_position ts spelled) again

theorem charges_recased :
    (missing flags (declarations us)).map (·.charged) = (missing flags (declarations ts)).map (·.charged) := by
  rw [declarations_by_position us respelled, declarations_by_position ts spelled, missing, missing,
    List.filter_filterMap, List.filter_filterMap, List.map_filterMap, List.map_filterMap,
    taken_at_recased ts us recased, recased.length_eq]
  congr 1
  funext k
  rw [declaration_at_recased ts us recased, Option.filter_map, Option.map_map]
  rfl

theorem summaries_recased :
    summaries (declarations us) (missing flags (declarations us)) =
      List.zipWith (ClassSummary.newCase ts us) (namedHeads ts)
        (summaries (declarations ts) (missing flags (declarations ts))) := by
  have charges : ∀ ordinal, (missing flags (declarations us)).any (·.charged == ordinal) =
      (missing flags (declarations ts)).any (·.charged == ordinal) := by
    intro ordinal
    have same := congrArg (·.any (· == ordinal)) (charges_recased flags ts us recased spelled respelled)
    simpa only [List.any_map, Function.comp_def] using same
  rw [summaries, summaries, classes_recased ts us recased spelled respelled]
  apply List.ext_getElem?
  intro i
  simp only [charges, List.getElem?_map, List.getElem?_zipIdx, List.getElem?_zipWith]
  cases (namedHeads ts)[i]? <;> cases (classDeclarations (declarations ts))[i]? <;> rfl

end

theorem keyword_case_insensitive (source other : String) (us : List Token) (complete : (tokenize source).error = none)
    (recased : Recased (tokenize source).tokens us) (written : other.toList = tokenText us) :
    let ts := (tokenize source).tokens
    tokenize other = ⟨us, none⟩ ∧
    ∀ (flags : SkipFlags) (path : String),
      let old := scan flags ts path
      let new := scan flags us path
      (old.findings = (List.range ts.length).filterMap (findingAt flags path ts) ∧
        new.findings = (List.range ts.length).filterMap fun k =>
          (findingAt flags path ts k).map (Finding.newCase ts us k)) ∧
      List.Forall₂ (SumsUp flags path ts) (namedHeads ts) old.classes ∧
        new.classes = List.zipWith (ClassSummary.newCase ts us) (namedHeads ts) old.classes := by
  intro ts
  have again := tokenize_recased source other us complete recased written
  refine ⟨again, ?_⟩
  intro flags path old new
  have spelled := tokenize_well_spelled source
  have respelled := tokenize_well_spelled other
  have findings := findings_by_position other flags path
  rw [again] at respelled findings
  refine ⟨⟨findings_by_position source flags path, ?_⟩, classes_summed_up flags path ts spelled, ?_⟩
  · rw [findings, ← recased.length_eq]
    exact congrArg (List.filterMap · _) (funext (finding_at_recased flags path ts us recased))
  · rw [scan_classes, scan_classes]
    exact summaries_recased flags ts us recased spelled respelled

-- A class and a method with reserved words for names, and a constant that keeps its name.
theorem keyword_case_insensitive_names :
    let source := "<?php class list\x7bconst or=1;function &print()\x7b\x7d\x7d"
    let other := "<?php Class LIST\x7bCONST or=1;FUNCTION &Print()\x7b\x7d\x7d"
    let us := (tokenize other).tokens
    (tokenize source).error = none ∧ Recased (tokenize source).tokens us ∧ other.toList = tokenText us ∧
      (scan {} (tokenize source).tokens "a.php").classes = [⟨"list", 1, false⟩] ∧
      (scan {} us "a.php").classes = [⟨"LIST", 1, false⟩] ∧
      (scan {} us "a.php").findings =
        [⟨.classDecl, "a.php", none, "LIST", 1⟩, ⟨.method, "a.php", some "LIST", "Print", 1⟩] := by
  intro source other us
  have complete : (tokenize source).error = none := by decide +kernel
  have recased : Recased (tokenize source).tokens us := by decide +kernel
  have written : other.toList = tokenText us := by decide +kernel
  obtain ⟨-, outcomes⟩ := keyword_case_insensitive source other us complete recased written
  obtain ⟨⟨-, findings⟩, -, classes⟩ := outcomes {} "a.php"
  have before : (scan {} (tokenize source).tokens "a.php").classes = [⟨"list", 1, false⟩] := by decide +kernel
  refine ⟨complete, recased, written, before, ?_, ?_⟩
  · rw [classes, before]
    decide +kernel
  · rw [findings]
    decide +kernel

end DocAudit
