import DocAudit.Proofs.Php.Relocation
import DocAudit.Proofs.Php.Waiting
import Mathlib.Data.List.Infix

/-!
Top-level code in pieces. Behind a piece that closes all it opens and ends a statement, the next
piece is scanned as if it stood alone: the findings and the classes are those of the one, then
those of the other.
-/

set_option autoImplicit false

namespace DocAudit.Php

/-! ### Classes by number -/

-- The classes that a scan still knows of, open or about to open.
def Scan.known (st : Scan) : List (Option Scope) := st.body :: st.frames

def Counted (st : Scan) : Prop := ∀ frame ∈ st.known, ∀ scope ∈ frame, ∀ n ∈ scope.ordinal, n < st.named

-- From one state to a later one: each class declared on the way is counted, and what is declared
-- is charged to a class that is.
structure Counts (st next : Scan) (declared : List Declaration) : Prop where
  counted : Counted next
  named : next.named = st.named + (classDeclarations declared).length
  charged : ∀ d ∈ declared, ∀ n ∈ d.charged, n < next.named

theorem counts_trans (a b c : Scan) (ds es : List Declaration) (first : Counts a b ds) (second : Counts b c es) :
    Counts a c (ds ++ es) := by
  refine ⟨second.counted, ?_, ?_⟩
  · rw [second.named, first.named, class_declarations_append, List.length_append, Nat.add_assoc]
  · intro d member n charged
    rcases List.mem_append.mp member with early | late
    · have bound := first.charged d early n charged
      have grown := second.named
      omega
    · exact second.charged d late n charged

theorem enter_named (st : Scan) (t : Token) : (st.enter t).named = st.named := by
  rw [Scan.enter]
  repeat' split
  all_goals rfl

-- Only an anonymous class is known without being counted.
theorem enter_known (st : Scan) (t : Token) (frame : Option Scope) (member : frame ∈ (st.enter t).known) :
    frame = none ∨ frame = some ⟨anonymousClassName, none⟩ ∨ frame ∈ st.known := by
  rw [Scan.enter] at member
  simp only [Scan.known, List.mem_cons] at member ⊢
  split at member
  · exact member.elim .inl fun old => .inr (.inr (List.mem_cons.mp old))
  · exact .inr (.inr (member.imp_right List.mem_of_mem_tail))
  · split at member
    · split at member
      · exact .inr (member.imp_right .inr)
      · exact .inr (.inr member)
    split at member
    · exact .inr (.inr member)
    · exact .inr (.inr member)
  · exact .inr (.inr member)

section

variable (st : Scan) (counted : Counted st)

include counted

theorem enter_counts (t : Token) : Counts st (st.enter t) [] := by
  refine ⟨?_, enter_named st t, by simp⟩
  intro frame member scope inside n ordinal
  rw [enter_named]
  rcases enter_known st t frame member with rfl | rfl | old
  · cases inside
  · cases inside
    cases ordinal
  · exact counted frame old scope inside n ordinal

theorem function_charged (p : Pending) (name : String) :
    ∀ d ∈ (st.declareFunction p name).toList, d.kind ≠ .classDecl ∧ ∀ n ∈ d.charged, n < st.named := by
  intro d member
  obtain ⟨owner, enclosing, rfl⟩ := Option.map_eq_some_iff.mp (Option.mem_toList.mp member)
  obtain ⟨frame, inside, same⟩ := List.exists_of_findSome?_eq_some enclosing
  refine ⟨?_, counted frame (List.mem_cons_of_mem _ inside) owner same⟩
  dsimp only
  split <;> simp

theorem function_counts (p : Pending) (name : String) (next : Scan) (counts : Counts st next []) :
    Counts st next (st.declareFunction p name).toList := by
  have function := function_charged st counted p name
  have classless : classDeclarations (st.declareFunction p name).toList = [] := by
    rw [classDeclarations, List.filter_eq_nil_iff]
    intro d member
    simpa using (function d member).1
  refine ⟨counts.counted, ?_, ?_⟩
  · rw [classless]
    exact counts.named
  · intro d member n charged
    exact counts.named ▸ (function d member).2 n charged

theorem class_counts (p : Pending) (name : String) :
    Counts st { st with pending := none, body := some ⟨name, some st.named⟩, named := st.named + 1 }
      [st.declareClass p name] := by
  refine ⟨?_, rfl, ?_⟩
  · intro frame member scope inside n ordinal
    rcases List.mem_cons.mp member with rfl | later
    · cases inside
      cases ordinal
      exact Nat.lt_succ_self st.named
    · exact Nat.lt_succ_of_lt (counted frame (List.mem_cons_of_mem _ later) scope inside n ordinal)
  · intro d member n charged
    rw [List.mem_singleton] at member
    subst member
    cases charged
    exact Nat.lt_succ_self st.named

theorem read_counts (t : Token) : Counts st (st.read t).1 (st.read t).2.toList := by
  have idle : Counts st { st with pending := none } [] := ⟨counted, rfl, by simp⟩
  have entered : Counts st (Scan.enter { st with pending := none } t) [] :=
    counts_trans st _ _ [] [] idle (enter_counts _ idle.counted t)
  rw [Scan.read]
  cases st.pending with
  | none => exact enter_counts st counted t
  | some p =>
      dsimp only
      cases p.head with
      | ofFunction =>
          dsimp only
          split
          · exact ⟨counted, rfl, by simp⟩
          split
          · exact function_counts st counted p t.text _ idle
          split
          · exact function_counts st counted p closureName _ entered
          · exact entered
      | ofClass =>
          dsimp only
          split
          · exact class_counts st counted p t.text
          · exact entered

theorem step_counts (t : Token) : Counts st (st.step t).1 (st.step t).2.toList := by
  rw [Scan.step]
  cases t.trivia with
  | true => exact ⟨counted, rfl, by simp⟩
  | false =>
      obtain ⟨next, named, charged⟩ := read_counts st counted t
      exact ⟨next, named, charged⟩

end

theorem run_counts (ts : List Token) (st : Scan) (counted : Counted st) :
    Counts st (ts.foldl (fun st t => (st.step t).1) st) (st.declarations ts) := by
  induction ts generalizing st with
  | nil => exact ⟨counted, rfl, by simp [Scan.declarations]⟩
  | cons t ts ih =>
      have first := step_counts st counted t
      exact counts_trans st _ _ _ _ first (ih _ first.counted)

theorem scan_after_counts (ts : List Token) : Counts {} (scanAfter ts) (declarations ts) := by
  apply run_counts
  intro frame member scope inside
  rw [List.mem_singleton.mp member] at inside
  cases inside

/-! ### Pieces that stand alone -/

-- The tokens after the `]` that closes a bracket. The walk has passed `depth` further brackets
-- that are still to be closed.
def afterGroup (depth : Nat) : List Token → Option (List Token)
  | [] => none
  | t :: ts =>
    if t.text = "]" then
      match depth with
      | 0 => some ts
      | depth + 1 => afterGroup depth ts
    else if t.text = "[" ∨ t.text = "#[" then afterGroup (depth + 1) ts
    else afterGroup depth ts

instance (t : Token) : Decidable t.opensGroup := inferInstanceAs (Decidable (t.text = "[" ∨ t.text = "#["))

-- Every bracket that opens is matched by a later `]`.
def GroupsClosed (ts : List Token) : Prop :=
  ∀ rest ∈ ts.tails, ∀ t ∈ rest.head?, t.opensGroup → (afterGroup 0 rest.tail).isSome = true
deriving Decidable

def Token.EndsStatement (t : Token) : Prop :=
  (t.kind = .closeBrace ∧ t.text = "\x7d") ∨ (t.kind = .other ∧ t.text = ";")
deriving Decidable

structure SelfContained (ts : List Token) : Prop where
  frames : (scanAfter ts).frames = []
  pending : (scanAfter ts).pending = none
  body : (scanAfter ts).body = none
  ends : ∃ t ∈ ts.getLast?, t.EndsStatement
  groups : GroupsClosed ts

theorem after_group_close (depth : Nat) (t : Token) (ts : List Token) (closes : t.text = "]") :
    afterGroup (depth + 1) (t :: ts) = afterGroup depth ts := by
  rw [afterGroup, if_pos closes]

theorem after_group_open (depth : Nat) (t : Token) (ts : List Token) (opens : t.opensGroup) :
    afterGroup depth (t :: ts) = afterGroup (depth + 1) ts := by
  cases depth <;> rw [afterGroup, if_neg (opens_group_not_close t opens)] <;> exact if_pos opens

theorem after_group_plain (depth : Nat) (t : Token) (ts : List Token) (closed : t.text ≠ "]")
    (shut : ¬ t.opensGroup) : afterGroup depth (t :: ts) = afterGroup depth ts := by
  cases depth <;> rw [afterGroup, if_neg closed] <;> exact if_neg shut

theorem after_group_balanced (w : List Token) (balanced : Balanced w) (depth : Nat) (ts : List Token) :
    afterGroup depth (w ++ ts) = afterGroup depth ts := by
  induction balanced generalizing depth ts with
  | nil => rfl
  | plain t closed shut => exact after_group_plain depth t ts closed shut
  | group opening closing inner opens closes balanced ih =>
      rw [List.cons_append, List.append_assoc, after_group_open depth opening _ opens, ih]
      exact after_group_close depth closing ts closes
  | append first second left right leftIH rightIH => rw [List.append_assoc, leftIH, rightIH]

-- Walking back, brackets that are closed are never the ones that are looked for.
theorem closed_groups_before (ts : List Token) (groups : GroupsClosed ts) (depth : Nat) :
    beforeGroup depth ts.reverse = none := by
  rw [Option.eq_none_iff_forall_ne_some]
  intro earlier found
  obtain ⟨inner, opening, before, shape, balanced, stop⟩ := before_group_split depth _ earlier found
  have opens : opening.opensGroup := by
    cases depth with
    | zero => exact .inr stop.1
    | succ depth => exact stop.1
  have whole : ts = before.reverse ++ opening :: inner := by simpa using congrArg List.reverse shape
  have unclosed : afterGroup 0 inner = none := by
    simpa [afterGroup] using after_group_balanced inner balanced 0 []
  have closed := groups (opening :: inner) ((List.mem_tails _ ts).mpr ⟨before.reverse, whole.symm⟩) opening rfl opens
  rw [List.tail_cons, unclosed] at closed
  cases closed

theorem lower_statement_ends : Text.lower "\x7d" = "\x7d" ∧ Text.lower ";" = ";" := by decide +kernel

structure Ending (t : Token) : Prop where
  trivia : t.trivia = false
  keyword : t.kind ≠ .keyword
  boundary : t.isBoundary = true
  whitespace : t.kind ≠ .whitespace
  comment : t.kind.isComment = false
  text : t.text ≠ "]"
  lower : t.lower ≠ "use"

theorem ends_statement_ending (t : Token) (ends : t.EndsStatement) : Ending t := by
  rcases ends with ⟨kind, text⟩ | ⟨kind, text⟩
  · constructor <;> simp [Token.trivia, Token.isBoundary, Token.lower, kind, text, TokenKind.isComment,
      TokenKind.isBrace, lower_statement_ends.1]
  · constructor <;> simp [Token.trivia, Token.isBoundary, Token.lower, kind, text, TokenKind.isComment,
      lower_statement_ends.2]

-- So every walk back that reaches the piece stops at its last token.
theorem self_contained_dead_end (ts : List Token) (closed : SelfContained ts) : DeadEnd ts.reverse := by
  obtain ⟨t, last, ends⟩ := closed.ends
  obtain ⟨trivia, keyword, boundary, whitespace, comment, text, lower⟩ := ends_statement_ending t ends
  rw [← List.head?_reverse] at last
  obtain ⟨rest, shape⟩ := List.head?_eq_some_iff.mp last
  refine ⟨closed_groups_before ts closed.groups, ?_, ?_, ?_⟩
  · have unkeyed : (t.kind == .keyword) = false := beq_false_of_ne keyword
    rw [shape, follows_new_cons, beforeAttribute, if_neg text]
    simp [trivia, Token.isModifier, Token.isKeyword, unkeyed]
  · intro line
    rw [shape, docblock_cons, if_neg whitespace, if_neg (by simp [comment]), if_pos boundary]
  · simp [shape, trivia, lower]

theorem before_run (ts : List Token) (st : Scan) :
    (ts.foldl (fun st t => (st.step t).1) st).before = ts.reverse ++ st.before := by
  induction ts generalizing st with
  | nil => rfl
  | cons t ts ih =>
      rw [List.foldl_cons, ih, before_step, List.reverse_cons, List.append_assoc]
      rfl

theorem self_contained_state (ts : List Token) (closed : SelfContained ts) :
    scanAfter ts = Scan.relocate ⟨0, (scanAfter ts).named⟩ ts.reverse {} := by
  have before : (scanAfter ts).before = ts.reverse := by
    rw [scanAfter, before_run, List.append_nil]
  obtain ⟨frames, pending, body, -, -⟩ := closed
  generalize scanAfter ts = st at before frames pending body
  cases st
  simp_all [Scan.relocate]

theorem declarations_joined (first second : List Token) (closed : SelfContained first) :
    declarations (first ++ second) = declarations first ++
      (declarations second).map (Declaration.relocate ⟨0, (scanAfter first).named⟩) := by
  have stream := stream_relocated ⟨0, (scanAfter first).named⟩ second
  rw [token_stays, List.map_id] at stream
  have run := declarations_relocated _ [] first.reverse dead_end_nil (self_contained_dead_end first closed) second second
    stream {} first.reverse .front
  rw [← self_contained_state first closed] at run
  exact (declarations_append {} first second).trans (congrArg (declarations first ++ ·) run)

theorem top_level_independence (first second : List Token) (closed : SelfContained first) (flags : SkipFlags)
    (path : String) :
    scan flags (first ++ second) path =
      ⟨(scan flags first path).findings ++ (scan flags second path).findings,
        (scan flags first path).classes ++ (scan flags second path).classes⟩ := by
  obtain ⟨-, named, charged⟩ := scan_after_counts first
  have count : (classDeclarations (declarations first)).length = (scanAfter first).named := by
    simpa using named.symm
  have joined := scan_joined ⟨0, (scanAfter first).named⟩ flags path (first ++ second) _ _
    (declarations_joined first second closed) count charged
  rw [joined, finding_stays, summary_stays, List.map_id, List.map_id, scan_composed flags path first,
    scan_composed flags path second]

-- The second piece has a bracket that it does not open; the first has none to offer.
theorem top_level_independence_after_class :
    let first := (tokenize "<?php #[A([1])] class A\x7bfunction f()\x7b\x7d\x7d").tokens
    let second := (tokenize "<?php /** B */ ] class B\x7bfunction g()\x7b\x7d\x7d").tokens
    SelfContained first ∧
      scan {} (first ++ second) "a.php" =
        ⟨[⟨.classDecl, "a.php", none, "A", 1⟩, ⟨.method, "a.php", some "A", "f", 1⟩] ++
            [⟨.method, "a.php", some "B", "g", 1⟩],
          [⟨"A", 1, false⟩] ++ [⟨"B", 1, false⟩]⟩ := by
  intro first second
  have closed : SelfContained first := by
    refine ⟨?_, ?_, ?_, ⟨⟨.closeBrace, "\x7d", 1⟩, ?_, by decide⟩, ?_⟩
    all_goals decide +kernel
  refine ⟨closed, (top_level_independence first second closed {} "a.php").trans ?_⟩
  decide +kernel

end DocAudit.Php
