import DocAudit.Proofs.Php.Waiting

/-!
A doc comment put in front of a declaration keyword. The keyword hides the comment from every
later walk back, so it documents that keyword and changes no other verdict.
-/

set_option autoImplicit false

namespace DocAudit.Php

/-! ### Histories with one more comment -/

-- The same history, or one with `doc` behind a `keyword` that both have read.
inductive Documented (keyword doc : Token) : List Token → List Token → Prop where
  | same (w : List Token) : Documented keyword doc w w
  | here (w : List Token) : Documented keyword doc (keyword :: w) (keyword :: doc :: w)
  | later (t : Token) (w v : List Token) (rest : Documented keyword doc w v) :
      Documented keyword doc (t :: w) (t :: v)

section

variable (keyword doc : Token) (word : keyword.isDeclarationWord = true)
variable (closed : doc.text ≠ "]") (shut : ¬ doc.opensGroup)

theorem group_with_itself (found : Option (List Token)) : Option.Rel (Documented keyword doc) found found := by
  cases found with
  | none => exact .none
  | some w => exact .some (.same w)

include word in
theorem before_group_keyword (depth : Nat) (w : List Token) :
    beforeGroup depth (keyword :: w) = beforeGroup depth w := by
  have plain := declaration_word_text keyword word
  apply before_group_plain
  · intro closes
    exact plain (by rw [closes]; decide)
  · rintro (opens | opens) <;> exact plain (by rw [opens]; decide)

include word closed shut

theorem before_group_documented (w v : List Token) (documented : Documented keyword doc w v) (depth : Nat) :
    Option.Rel (Documented keyword doc) (beforeGroup depth w) (beforeGroup depth v) := by
  induction documented generalizing depth with
  | same w => exact group_with_itself keyword doc _
  | here w =>
      rw [before_group_keyword keyword word, before_group_keyword keyword word,
        before_group_plain depth doc w closed shut]
      exact group_with_itself keyword doc _
  | later t w v rest ih => exact before_group_cons_in_step _ t t w v (alike_refl t) rest ih depth

-- No walk gets past the keyword, and none jumps to the comment over an attribute.
theorem documented_simulates : Simulates Eq (Documented keyword doc) := by
  have jumps := before_group_documented keyword doc word closed shut
  refine ⟨fun t u same => same ▸ alike_refl t, ?_, fun t u w v same rest => same ▸ .later t w v rest⟩
  intro w v documented
  cases documented with
  | same =>
      cases w with
      | nil => exact .start
      | cons t w => exact .past t t w w (alike_refl t) (.same w) (jumps w w (.same w) 0)
  | here w => exact .stop keyword keyword w (doc :: w) (alike_refl keyword) word
  | later t w v rest => exact .past t t w v (alike_refl t) rest (jumps w v rest 0)

end

/-! ### The keyword itself -/

theorem declaration_word_significant (keyword : Token) (word : keyword.isDeclarationWord = true) :
    keyword.trivia = false := by
  simp [Token.trivia, (declaration_word_kind keyword word).1, TokenKind.isComment]

theorem declaration_word_plain (keyword : Token) (word : keyword.isDeclarationWord = true) :
    keyword.text ≠ "&" := by
  intro ampersand
  exact declaration_word_text keyword word (by rw [ampersand]; decide)

-- The state with `doc` read as well.
def Scan.withComment (st : Scan) (doc : Token) : Scan := { st with before := doc :: st.before }

-- The right-hand state awaits its name with `doc`.
def DocumentedBy (doc : Token) (_ e : Option Token) : Prop := e = some doc

section

variable (doc : Token) (comment : doc.kind = .docComment) (keyword : Token)
variable (word : keyword.isDeclarationWord = true) (st : Scan)

include comment

theorem comment_trivia : doc.trivia = true := by
  simp [Token.trivia, comment, TokenKind.isComment]

theorem comment_follows_new (w : List Token) : followsNew (doc :: w) = followsNew w := by
  rw [follows_new_cons, comment_trivia doc comment]
  rfl

theorem comment_documents (line : Int) (w : List Token) : docblock line (doc :: w) = some doc := by
  simp [docblock_cons, comment, TokenKind.isComment]

theorem comment_after_use : (st.withComment doc).afterUse = st.afterUse := by
  simp [Scan.afterUse, Scan.significantBefore, Scan.withComment, comment_trivia doc comment]

theorem await_name_documented (head : Head) :
    Scan.Matches (DocumentedBy doc) (st.awaitName head keyword)
      ((st.withComment doc).awaitName head keyword) :=
  ⟨rfl, rfl, rfl, .some ⟨rfl, rfl, comment_documents doc comment keyword.line st.before⟩⟩

include word

theorem enter_documented (idle : st.pending = none) :
    Scan.Matches (DocumentedBy doc) (st.enter keyword)
      ((st.withComment doc).enter keyword) := by
  have kind := (declaration_word_kind keyword word).1
  have unset : Option.Rel (Pending.Matches (DocumentedBy doc)) st.pending st.pending := by
    rw [idle]
    exact .none
  have new : followsNew (st.withComment doc).before = followsNew st.before :=
    comment_follows_new doc comment st.before
  have enclosing : (st.withComment doc).enclosing = st.enclosing := rfl
  rw [Scan.enter, Scan.enter, kind]
  dsimp only
  rw [new, comment_after_use doc comment, enclosing]
  split
  · split
    · exact ⟨rfl, rfl, rfl, unset⟩
    · exact await_name_documented doc comment keyword st .ofClass
  split
  · exact await_name_documented doc comment keyword st .ofFunction
  · exact ⟨rfl, rfl, rfl, unset⟩

-- A keyword that is read as a name declares as before and awaits nothing.
theorem step_documented :
    ((st.withComment doc).step keyword).2 = (st.step keyword).2 ∧
      Scan.Matches (DocumentedBy doc) (st.step keyword).1
        ((st.withComment doc).step keyword).1 := by
  have kind := (declaration_word_kind keyword word).1
  have significant := declaration_word_significant keyword word
  have plain := declaration_word_plain keyword word
  have label : keyword.kind.isLabel = true := by rw [kind]; rfl
  have waiting : (st.withComment doc).pending = st.pending := rfl
  simp only [Scan.step, significant, Bool.false_eq_true, if_false]
  cases pending : st.pending with
  | none =>
      obtain ⟨frames, body, named, awaited⟩ := enter_documented doc comment keyword word st pending
      simp only [Scan.read, waiting, pending, true_and]
      exact ⟨frames, body, named, awaited⟩
  | some p =>
      cases head : p.head with
      | ofClass =>
          simp only [Scan.read, waiting, pending, head, label, if_true]
          exact ⟨rfl, rfl, rfl, rfl, .none⟩
      | ofFunction =>
          simp only [Scan.read, waiting, pending, head, plain, label, if_true, if_false]
          exact ⟨rfl, rfl, rfl, rfl, .none⟩

end

theorem comment_step (doc : Token) (comment : doc.kind = .docComment) (st : Scan) :
    st.step doc = (st.withComment doc, none) :=
  step_passed st doc (by simp [Scan.passes, comment_trivia doc comment])

-- Nothing that waits passes over a declaration keyword.
theorem declaration_word_stops (keyword : Token) (word : keyword.isDeclarationWord = true) (st : Scan) :
    st.passes keyword = false := by
  have significant := declaration_word_significant keyword word
  have plain := declaration_word_plain keyword word
  rw [Scan.passes, significant, Bool.false_or, Option.any_eq_false]
  intro p _
  cases p.head <;> simp [Head.passes, significant, plain]

/-! ### The stream with the comment -/

section

variable (ts : List Token) (spelled : ∀ u ∈ ts, WellSpelled u) (k : Nat) (keyword doc : Token)
variable (here : ts[k]? = some keyword) (word : keyword.isDeclarationWord = true)
variable (comment : doc.kind = .docComment) (closed : doc.text ≠ "]") (shut : ¬ doc.opensGroup)

include spelled here word comment closed shut

-- The keyword's own declaration is documented; the declarations before it are the same, and those
-- after it are judged alike.
theorem declarations_documented : ∃ answer others,
    Option.Rel (Declaration.Matches (DocumentedBy doc)) (declarationAt ts (takenAt ts) k) answer ∧
      List.Forall₂ (Declaration.Matches SameVerdict)
        ((List.range' (k + 1) (ts.length - (k + 1))).filterMap (declarationAt ts (takenAt ts))) others ∧
      declarations (ts.take k ++ doc :: ts.drop k) =
        (List.range k).filterMap (declarationAt ts (takenAt ts)) ++ (answer.toList ++ others) := by
  have fixed := taken_at_is_name ts
  obtain ⟨bound, getElem⟩ := List.getElem?_eq_some_iff.mp here
  have total : k + 1 + (ts.length - (k + 1)) = ts.length := by omega
  have split : ts.drop k = keyword :: ts.drop (k + 1) := by rw [List.drop_eq_getElem_cons bound, getElem]
  obtain ⟨waiting, follows⟩ := scan_after_follows ts spelled k (Nat.le_of_lt bound)
  generalize reached : scanAfter (ts.take k) = st at follows
  have stops : st.passes keyword = false := declaration_word_stops keyword word st
  obtain ⟨declared, next, after, awaited⟩ :=
    stop_declares ts (takenAt ts) fixed spelled k waiting st keyword follows here stops
  obtain ⟨also, matching⟩ := step_documented doc comment keyword word st
  have related : Documented keyword doc (st.step keyword).1.before
      ((st.withComment doc).step keyword).1.before := by
    rw [before_step, before_step]
    exact .here st.before
  obtain ⟨answer, rest, others, answered, plain, documented, alike⟩ :=
    scan_answers ts (takenAt ts) fixed spelled (Documented keyword doc)
      (documented_simulates keyword doc word closed shut) (DocumentedBy doc) (k + 1) next _ _ bound after
      matching related
  have later := run_declarations ts (takenAt ts) fixed spelled _ (k + 1) next _ total after
  rw [awaited] at answered
  rw [later] at plain
  refine ⟨answer, others, answered, List.append_cancel_left plain ▸ alike, ?_⟩
  calc
    declarations (ts.take k ++ doc :: ts.drop k)
      = declarations (ts.take k) ++ st.declarations (doc :: ts.drop k) := by
        rw [← reached]
        exact declarations_append {} (ts.take k) (doc :: ts.drop k)
    _ = declarations (ts.take k) ++
        ((waitingDeclaration ts (takenAt ts) waiting).toList ++ (answer.toList ++ others)) := by
        rw [Scan.declarations, comment_step doc comment, split, Scan.declarations, also, declared, documented]
        rfl
    _ = (List.range k).filterMap (declarationAt ts (takenAt ts)) ++ (answer.toList ++ others) := by
        rw [← List.append_assoc, declared_before ts spelled k (Nat.le_of_lt bound) waiting (reached ▸ follows)]

end

/-! ### The verdicts -/

theorem missing_documented (flags : SkipFlags) (doc : Token) (declared answer : Option Declaration)
    (answered : Option.Rel (Declaration.Matches (DocumentedBy doc)) declared answer) :
    missing flags answer.toList = [] := by
  cases answered with
  | none => rfl
  | some same => simp [missing, SkipFlags.misses, show _ = some doc from same.docblock]

theorem summary_at (ds missed : List Declaration) (n : Nat) (c : ClassSummary)
    (found : (summaries ds missed)[n]? = some c) :
    ∃ d, (classDeclarations ds)[n]? = some d ∧ c = ⟨d.name, d.line, !missed.any (·.charged == some n)⟩ := by
  rw [summaries, List.getElem?_map, List.getElem?_zipIdx, Option.map_map, Nat.zero_add,
    Option.map_eq_some_iff] at found
  obtain ⟨d, here, rfl⟩ := found
  exact ⟨d, here, rfl⟩

theorem clean_at (ds missed : List Declaration) (n : Nat) (c : ClassSummary)
    (found : (summaries ds missed)[n]? = some c) : c.clean = !missed.any (·.charged == some n) := by
  obtain ⟨d, -, rfl⟩ := summary_at ds missed n c found
  rfl

section

variable (flags : SkipFlags) (before after others : List Declaration) (declared answer : Option Declaration)
variable (doc : Token) (answered : Option.Rel (Declaration.Matches (DocumentedBy doc)) declared answer)
variable (alike : List.Forall₂ (Declaration.Matches SameVerdict) after others)

include answered

theorem missing_but_answer :
    missing flags (before ++ (answer.toList ++ others)) = missing flags before ++ missing flags others := by
  rw [missing_append, missing_append, missing_documented flags doc declared answer answered, List.nil_append]

include alike

theorem findings_documented (path : String) :
    (missing flags (before ++ (answer.toList ++ others))).map (Finding.ofDeclaration path) =
      (missing flags (before ++ after)).map (Finding.ofDeclaration path) := by
  rw [missing_but_answer flags before others declared answer doc answered, missing_append, List.map_append,
    List.map_append, findings_match SameVerdict _ _ path (missing_match flags after others alike)]

theorem classes_documented :
    (classDeclarations (before ++ (answer.toList ++ others))).map (fun d => (d.name, d.line)) =
      (classDeclarations (before ++ (declared.toList ++ after))).map fun d => (d.name, d.line) := by
  have own := classes_match (DocumentedBy doc) _ _ (rel_to_list _ declared answer answered)
  have rest := classes_match SameVerdict after others alike
  simp only [class_declarations_append, List.map_append, own, rest]

-- Only what the keyword itself lacked can have been held against a class.
theorem charges_documented (n : Nat)
    (changed : (missing flags (before ++ (declared.toList ++ after))).any (·.charged == some n) ≠
      (missing flags (before ++ (answer.toList ++ others))).any (·.charged == some n)) :
    (missing flags (before ++ (answer.toList ++ others))).any (·.charged == some n) = false ∧
      ∃ d, declared = some d ∧ flags.misses d = true ∧ d.charged = some n := by
  have rest := any_charged_match SameVerdict _ _ (some n) (missing_match flags after others alike)
  rw [missing_but_answer flags before others declared answer doc answered, missing_append, missing_append,
    List.any_append, List.any_append, List.any_append, rest] at changed
  rw [missing_but_answer flags before others declared answer doc answered, List.any_append]
  cases held : (missing flags before).any (·.charged == some n) ||
      (missing flags others).any (·.charged == some n) with
  | true =>
      rcases Bool.or_eq_true_iff.mp held with early | late
      · simp [early] at changed
      · simp [late] at changed
  | false =>
      obtain ⟨early, late⟩ := Bool.or_eq_false_iff.mp held
      rw [early, late, Bool.false_or, Bool.or_false] at changed
      have own : (missing flags declared.toList).any (·.charged == some n) = true := by simpa using changed
      obtain ⟨d, member, charged⟩ := List.any_eq_true.mp own
      obtain ⟨inside, misses⟩ := List.mem_filter.mp member
      exact ⟨rfl, d, Option.mem_toList.mp inside, misses, beq_iff_eq.mp charged⟩

theorem clean_documented (ds es : List Declaration) (whole : ds = before ++ (declared.toList ++ after))
    (documented : es = before ++ (answer.toList ++ others)) (n : Nat) (c d : ClassSummary)
    (oldAt : (summaries ds (missing flags ds))[n]? = some c)
    (newAt : (summaries es (missing flags es))[n]? = some d) (differ : c.clean ≠ d.clean) :
    c.clean = false ∧ d.clean = true ∧
      ∃ own, declared = some own ∧ flags.misses own = true ∧ own.charged = some n := by
  have oldClean := clean_at ds (missing flags ds) n c oldAt
  have newClean := clean_at es (missing flags es) n d newAt
  have changed : (missing flags ds).any (·.charged == some n) ≠ (missing flags es).any (·.charged == some n) := by
    intro same
    rw [oldClean, newClean, same] at differ
    exact differ rfl
  rw [whole, documented] at changed
  obtain ⟨clean, own⟩ := charges_documented flags before after others declared answer doc answered alike n changed
  rw [documented, clean, Bool.not_false] at newClean
  rw [newClean] at differ
  exact ⟨Bool.eq_false_iff.mpr differ, newClean, own⟩

end

-- The names and lines of the classes that a scan sums up.
theorem class_list (flags : SkipFlags) (ts : List Token) (path : String) :
    (scan flags ts path).classes.map (fun c => (c.name, c.line)) =
      (classDeclarations (declarations ts)).map fun d => (d.name, d.line) := by
  rw [scan_classes, summaries, List.map_map]
  conv_rhs => rw [← List.zipIdx_map_fst 0 (classDeclarations (declarations ts)), List.map_map]
  rfl

theorem positions_but (k n : Nat) (less : k < n) :
    (List.range n).filter (· ≠ k) = List.range k ++ List.range' (k + 1) (n - (k + 1)) := by
  have early : (List.range k).filter (· ≠ k) = List.range k := by
    rw [List.filter_eq_self]
    intro i member
    have bound := List.mem_range.mp member
    exact decide_eq_true (by omega)
  have late : (List.range' (k + 1) (n - (k + 1))).filter (· ≠ k) = List.range' (k + 1) (n - (k + 1)) := by
    rw [List.filter_eq_self]
    intro i member
    have bound := (List.mem_range'_1.mp member).1
    exact decide_eq_true (by omega)
  rw [range_at (k + 1) n less, List.range_succ, List.append_assoc, List.filter_append, List.filter_append, early, late]
  simp

theorem docblock_fixes_its_finding (source : String) (flags : SkipFlags) (path : String) (k : Nat)
    (keyword doc : Token) (here : (tokenize source).tokens[k]? = some keyword)
    (word : keyword.isDeclarationWord = true) (comment : doc.kind = .docComment)
    (plain : doc.text ≠ "[" ∧ doc.text ≠ "]" ∧ doc.text ≠ "#[") :
    let ts := (tokenize source).tokens
    let old := scan flags ts path
    let new := scan flags (ts.take k ++ doc :: ts.drop k) path
    old.findings = (List.range ts.length).filterMap (findingAt flags path ts) ∧
    new.findings = ((List.range ts.length).filter (· ≠ k)).filterMap (findingAt flags path ts) ∧
    new.classes.map (fun c => (c.name, c.line)) = old.classes.map (fun c => (c.name, c.line)) ∧
    ∀ n c d, old.classes[n]? = some c → new.classes[n]? = some d → c.clean ≠ d.clean →
      c.clean = false ∧ d.clean = true ∧ (findingAt flags path ts k).isSome = true ∧
        (declarationAt ts (takenAt ts) k).bind (·.charged) = some n := by
  intro ts old new
  have spelled := tokenize_well_spelled source
  have less : k < ts.length := (List.getElem?_eq_some_iff.mp here).1
  have shut : ¬ doc.opensGroup := fun opens => opens.elim plain.1 plain.2.2
  obtain ⟨answer, others, answered, alike, declared⟩ :=
    declarations_documented ts spelled k keyword doc here word comment plain.2.1 shut
  have whole : declarations ts = (List.range k).filterMap (declarationAt ts (takenAt ts)) ++
      ((declarationAt ts (takenAt ts) k).toList ++
        (List.range' (k + 1) (ts.length - (k + 1))).filterMap (declarationAt ts (takenAt ts))) := by
    rw [declarations_by_position ts spelled, range_at (k + 1) ts.length less, List.range_succ, List.append_assoc,
      List.filterMap_append, List.filterMap_append, filter_map_single]
  refine ⟨findings_by_position source flags path, ?_, ?_, ?_⟩
  · rw [positions_but k ts.length less, ← missing_by_position, List.filterMap_append,
      ← findings_documented flags _ _ others _ answer doc answered alike path, ← declared]
    exact scan_findings flags path _
  · rw [class_list flags _ path, class_list flags _ path, declared, whole]
    exact classes_documented _ _ others _ answer doc answered alike
  · intro n c d oldAt newAt differ
    rw [scan_classes] at oldAt newAt
    obtain ⟨flagged, clean, own, found, misses, charged⟩ :=
      clean_documented flags _ _ others _ answer doc answered alike _ _ whole declared n c d oldAt newAt differ
    refine ⟨flagged, clean, ?_, ?_⟩
    · rw [SkipFlags.misses] at misses
      simp [findingAt, found, Option.filter, misses]
    · rw [found]
      exact charged

-- The class has a documented method, so nothing else is held against it.
theorem docblock_fixes_class :
    let ts := (tokenize "<?php\nclass A\x7b/** f */function f()\x7b\x7d\x7d").tokens
    let doc : Token := ⟨.docComment, "/** A */", 2⟩
    (scan {} ts "a.php").findings = [⟨.classDecl, "a.php", none, "A", 2⟩] ∧
      (scan {} (ts.take 2 ++ doc :: ts.drop 2) "a.php").findings = [] := by
  intro ts doc
  have here : ts[2]? = some ⟨.keyword, "class", 2⟩ := by decide +kernel
  have fixed := docblock_fixes_its_finding _ {} "a.php" 2 _ doc here (by decide +kernel) rfl (by decide)
  exact ⟨by decide +kernel, fixed.2.1.trans (by decide +kernel)⟩

end DocAudit.Php
