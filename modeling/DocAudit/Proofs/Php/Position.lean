import DocAudit.Php.Declaration

/-!
Declarations said by position. What a token stream declares, and which class is around a token,
is read off the positions of braces, class heads and names, with no state carried along.
-/

set_option autoImplicit false

namespace DocAudit.Php

section

variable (ts : List Token)

def beforeAt (k : Nat) : List Token := (ts.take k).reverse

def wordAt (word : String) (k : Nat) : Bool := ts[k]?.any (·.isKeyword word)

def opensAt (k : Nat) : Bool := ts[k]?.any (·.kind == .openBrace)

def closesAt (k : Nat) : Bool := ts[k]?.any (·.kind == .closeBrace)

def lineAt (k : Nat) : Int := (ts[k]?.map (·.line)).getD 0

def docblockAt (k : Nat) : Option Token := docblock (lineAt ts k) (beforeAt ts k)

def afterUseAt (k : Nat) : Bool :=
  ((beforeAt ts k).find? (!·.trivia)).any (·.lower == "use")

-- The first position after `k` whose token is not passed over.
def nextAt (passes : Token → Bool) (k : Nat) : Option Nat :=
  ((ts.drop (k + 1)).findIdx? (!passes ·)).map (k + 1 + ·)

-- The braces open at a position, innermost first. A `}` with none open is ignored.
def openBraces : Nat → List Nat
  | 0 => []
  | p + 1 =>
      if opensAt ts p then p :: openBraces p
      else if closesAt ts p then (openBraces p).tail
      else openBraces p

end

-- What may stand between a keyword and the name that it waits for.
def Head.passes : Head → Token → Bool
  | .ofClass, t => t.trivia
  | .ofFunction, t => t.trivia || t.text == "&"

def Head.word : Head → String
  | .ofClass => "class"
  | .ofFunction => "function"

section

-- The positions whose labels are read as names, and so as no keywords.
variable (ts : List Token) (taken : Nat → Bool)

def liveAt (word : String) (k : Nat) : Bool := wordAt ts word k && !taken k

-- What follows a keyword at `k`.
def nextToken (head : Head) (k : Nat) : Option Token := (nextAt ts head.passes k).bind (ts[·]?)

def namesClassAt (k : Nat) : Bool := liveAt ts taken "class" k && !followsNew (beforeAt ts k)

def classNameAt (k : Nat) : Option Token :=
  if namesClassAt ts taken k then (nextToken ts .ofClass k).filter (·.kind.isLabel) else none

-- How many named classes stand before `k`.
def ordinalAt (k : Nat) : Nat := (List.range k).countP fun j => (classNameAt ts taken j).isSome

-- The class whose head is at `k`: a named class, or an anonymous one.
def headAt (k : Nat) : Option Scope :=
  if liveAt ts taken "class" k && followsNew (beforeAt ts k) then some ⟨anonymousClassName, none⟩
  else (classNameAt ts taken k).map fun t => ⟨t.text, some (ordinalAt ts taken k)⟩

-- The latest class head before a position with no `{` in between.
def headBefore : Nat → Option Nat
  | 0 => none
  | p + 1 =>
      if opensAt ts p then none
      else if (headAt ts taken p).isSome then some p
      else headBefore p

-- The class that a `{` at `b` is the body of.
def ownerAt (b : Nat) : Option Scope := (headBefore ts taken b).bind (headAt ts taken)

def enclosingAt (k : Nat) : Option Scope := (openBraces ts k).findSome? (ownerAt ts taken)

def awaitsName : Head → Nat → Bool
  | .ofClass, k => namesClassAt ts taken k
  | .ofFunction, k =>
      liveAt ts taken "function" k && !afterUseAt ts k && (enclosingAt ts taken k).isSome

-- Whether the label at `n` is the name that a keyword before it waits for.
def isName (n : Nat) : Bool :=
  ts[n]?.any (·.kind.isLabel) &&
    (List.range n).any fun k =>
      (awaitsName ts taken .ofClass k && nextAt ts Head.ofClass.passes k == some n) ||
        (awaitsName ts taken .ofFunction k && nextAt ts Head.ofFunction.passes k == some n)

def declaredAt (k : Nat) (kind : DeclarationKind) (name : String) (charged : Option Nat) :
    Declaration where
  kind := kind
  name := name
  line := lineAt ts k
  enclosing := (enclosingAt ts taken k).map (·.name)
  docblock := docblockAt ts k
  charged := charged

def functionAt (k : Nat) (t : Token) : Option Declaration :=
  let charged := (enclosingAt ts taken k).bind (·.ordinal)
  if t.kind.isLabel then some (declaredAt ts taken k .method t.text charged)
  else if t.text = "(" then some (declaredAt ts taken k .closure closureName charged)
  else none

-- What the keyword at `k` declares.
def declarationAt (k : Nat) : Option Declaration :=
  if awaitsName ts taken .ofFunction k then (nextToken ts .ofFunction k).bind (functionAt ts taken k)
  else (classNameAt ts taken k).map fun t =>
    declaredAt ts taken k .classDecl t.text (some (ordinalAt ts taken k))

end

-- The names among the first `n` tokens. Whether a label is a name hangs on earlier labels alone.
def namesBelow (ts : List Token) : Nat → List Nat
  | 0 => []
  | n + 1 =>
      let earlier := namesBelow ts n
      if isName ts earlier.contains n then n :: earlier else earlier

def takenAt (ts : List Token) (k : Nat) : Bool := (namesBelow ts ts.length).contains k

/-! ### Names hang on earlier names alone -/

theorem open_braces_lt (ts : List Token) (p b : Nat) (member : b ∈ openBraces ts p) : b < p := by
  induction p with
  | zero => simp [openBraces] at member
  | succ p ih =>
      rw [openBraces] at member
      split at member
      · rcases List.mem_cons.mp member with rfl | earlier
        · omega
        · have bound := ih earlier
          omega
      · split at member
        · have bound := ih (List.mem_of_mem_tail member)
          omega
        · have bound := ih member
          omega

theorem head_before_iff (ts : List Token) (taken : Nat → Bool) (p h : Nat) :
    headBefore ts taken p = some h ↔ h < p ∧ (headAt ts taken h).isSome = true ∧
      (∀ i, h ≤ i → i < p → opensAt ts i = false) ∧ ∀ i, h < i → i < p → headAt ts taken i = none := by
  induction p with
  | zero => simp [headBefore]
  | succ p ih =>
      rw [headBefore]
      constructor
      · intro found
        split at found
        · simp at found
        · rename_i closed
          split at found
          · rename_i head
            cases found
            refine ⟨Nat.lt_succ_self h, head, ?_, ?_⟩
            · intro i after before
              rw [show i = h by omega]
              exact Bool.eq_false_iff.mpr closed
            · intro i after before
              omega
          · rename_i headless
            obtain ⟨less, head, shut, none⟩ := ih.mp found
            refine ⟨Nat.lt_succ_of_lt less, head, ?_, ?_⟩
            · intro i after before
              by_cases last : i = p
              · exact last ▸ Bool.eq_false_iff.mpr closed
              · exact shut i after (by omega)
            · intro i after before
              by_cases last : i = p
              · exact last ▸ (by simpa using headless)
              · exact none i after (by omega)
      · rintro ⟨less, head, shut, none⟩
        rw [shut p (by omega) (Nat.lt_succ_self p)]
        by_cases last : h = p
        · subst last
          simp [head]
        · rw [none p (by omega) (Nat.lt_succ_self p)]
          exact ih.mpr ⟨by omega, head, fun i after before => shut i after (by omega),
            fun i after before => none i after (by omega)⟩

-- A brace that no class head follows leaves the next brace to nobody.
theorem head_before_none (ts : List Token) (taken : Nat → Bool) (p i : Nat) (early : i < p)
    (opens : opensAt ts i = true) (headless : ∀ j, i < j → j < p → headAt ts taken j = none) :
    headBefore ts taken p = none := by
  cases found : headBefore ts taken p with
  | none => rfl
  | some h =>
      obtain ⟨less, head, shut, -⟩ := (head_before_iff ts taken p h).mp found
      by_cases after : i < h
      · rw [headless h after less] at head
        cases head
      · rw [shut i (by omega) early] at opens
        cases opens

section

variable (ts : List Token) (f g : Nat → Bool)

theorem live_at_congr (word : String) (k : Nat) (same : f k = g k) :
    liveAt ts f word k = liveAt ts g word k := by
  rw [liveAt, liveAt, same]

theorem class_name_at_congr (k : Nat) (same : f k = g k) :
    classNameAt ts f k = classNameAt ts g k := by
  rw [classNameAt, classNameAt, namesClassAt, namesClassAt, live_at_congr ts f g "class" k same]

theorem ordinal_at_congr (k : Nat) (same : ∀ j, j < k → f j = g j) :
    ordinalAt ts f k = ordinalAt ts g k := by
  apply List.countP_congr
  intro j member
  rw [class_name_at_congr ts f g j (same j (List.mem_range.mp member))]

theorem head_at_congr (k : Nat) (same : ∀ j, j ≤ k → f j = g j) : headAt ts f k = headAt ts g k := by
  rw [headAt, headAt, live_at_congr ts f g "class" k (same k (Nat.le_refl k)),
    class_name_at_congr ts f g k (same k (Nat.le_refl k)),
    ordinal_at_congr ts f g k (fun j less => same j (Nat.le_of_lt less))]

theorem head_before_congr (p : Nat) (same : ∀ j, j < p → f j = g j) :
    headBefore ts f p = headBefore ts g p := by
  induction p with
  | zero => rfl
  | succ p ih =>
      rw [headBefore, headBefore, head_at_congr ts f g p (fun j le => same j (Nat.lt_succ_of_le le)),
        ih (fun j less => same j (Nat.lt_succ_of_lt less))]

theorem owner_at_congr (b : Nat) (same : ∀ j, j < b → f j = g j) : ownerAt ts f b = ownerAt ts g b := by
  rw [ownerAt, ownerAt, head_before_congr ts f g b same]
  cases found : headBefore ts g b with
  | none => rfl
  | some h =>
      have less := ((head_before_iff ts g b h).mp found).1
      exact head_at_congr ts f g h (fun j le => same j (Nat.lt_of_le_of_lt le less))

theorem enclosing_at_congr (k : Nat) (same : ∀ j, j < k → f j = g j) :
    enclosingAt ts f k = enclosingAt ts g k := by
  have owners : ∀ b ∈ openBraces ts k, ownerAt ts f b = ownerAt ts g b := by
    intro b member
    have less := open_braces_lt ts k b member
    exact owner_at_congr ts f g b (fun j early => same j (Nat.lt_trans early less))
  unfold enclosingAt
  generalize openBraces ts k = braces at owners ⊢
  induction braces with
  | nil => rfl
  | cons b rest ih =>
      rw [List.findSome?_cons, List.findSome?_cons, owners b List.mem_cons_self,
        ih (fun c member => owners c (List.mem_cons_of_mem b member))]

theorem awaits_name_congr (head : Head) (k : Nat) (same : ∀ j, j ≤ k → f j = g j) :
    awaitsName ts f head k = awaitsName ts g head k := by
  cases head with
  | ofClass =>
      simp only [awaitsName, namesClassAt, live_at_congr ts f g "class" k (same k (Nat.le_refl k))]
  | ofFunction =>
      simp only [awaitsName, live_at_congr ts f g "function" k (same k (Nat.le_refl k)),
        enclosing_at_congr ts f g k (fun j less => same j (Nat.le_of_lt less))]

theorem is_name_congr (n : Nat) (same : ∀ j, j < n → f j = g j) : isName ts f n = isName ts g n := by
  unfold isName
  congr 1
  rw [Bool.eq_iff_iff]
  simp only [List.any_eq_true, List.mem_range]
  refine exists_congr fun k => and_congr_right fun less => ?_
  have upTo : ∀ j, j ≤ k → f j = g j := fun j le => same j (Nat.lt_of_le_of_lt le less)
  rw [awaits_name_congr ts f g .ofClass k upTo, awaits_name_congr ts f g .ofFunction k upTo]

end

theorem names_below_lt (ts : List Token) (n k : Nat) (member : k ∈ namesBelow ts n) : k < n := by
  induction n with
  | zero => simp [namesBelow] at member
  | succ n ih =>
      simp only [namesBelow] at member
      split at member
      · rcases List.mem_cons.mp member with rfl | earlier
        · omega
        · have bound := ih earlier
          omega
      · have bound := ih member
        omega

theorem names_below_stable (ts : List Token) (n m k : Nat) (early : k < n) (le : n ≤ m) :
    (namesBelow ts m).contains k = (namesBelow ts n).contains k := by
  induction m with
  | zero => omega
  | succ m ih =>
      by_cases last : n = m + 1
      · rw [last]
      · have inner := ih (by omega)
        have different : k ≠ m := by omega
        rw [← inner]
        simp only [namesBelow]
        split <;> simp [different]

-- The names are the one reading of the stream that agrees with itself.
theorem taken_at_is_name (ts : List Token) (n : Nat) : takenAt ts n = isName ts (takenAt ts) n := by
  by_cases inside : n < ts.length
  · have earlier : ∀ j, j < n → (namesBelow ts n).contains j = takenAt ts j := by
      intro j less
      exact (names_below_stable ts n ts.length j less (Nat.le_of_lt inside)).symm
    have fresh : (namesBelow ts n).contains n = false := by
      rw [Bool.eq_false_iff]
      intro found
      exact Nat.lt_irrefl n (names_below_lt ts n n (by simpa using found))
    rw [← is_name_congr ts _ (takenAt ts) n earlier, takenAt,
      names_below_stable ts (n + 1) ts.length n (Nat.lt_succ_self n) inside]
    simp only [namesBelow]
    cases decided : isName ts (namesBelow ts n).contains n with
    | true => simp
    | false => simpa using fresh
  · have outside : takenAt ts n = false := by
      rw [Bool.eq_false_iff]
      intro found
      exact inside (names_below_lt ts ts.length n (by simpa [takenAt] using found))
    have absent : ts[n]? = none := List.getElem?_eq_none (Nat.le_of_not_gt inside)
    rw [outside, isName, absent]
    rfl

end DocAudit.Php
