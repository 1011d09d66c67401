import DocAudit.Php.Token

/-!
Walks back from a keyword: to the doc comment that documents it, and to the `new` in front of an
anonymous class. A walk is given the tokens before the keyword, nearest first.
-/

set_option autoImplicit false

namespace DocAudit.Php

def modifierWords : List String :=
  ["abstract", "final", "public", "protected", "private", "static", "readonly", "var"]

def declarationWords : List String := ["class", "function"]

namespace Token

def isModifier (t : Token) : Bool :=
  t.kind == .keyword && modifierWords.contains t.lower

def isDeclarationWord (t : Token) : Bool :=
  t.kind == .keyword && declarationWords.contains t.lower

-- A brace, a `;` or a declaration keyword: no docblock reaches past it.
def isBoundary (t : Token) : Bool :=
  t.kind.isBrace || t.text == ";" || t.isDeclarationWord

end Token

-- The tokens before the bracket that matches a `]`, when that bracket is a `#[`. The walk has
-- passed `depth` further `]` that are still to be matched.
def beforeGroup (depth : Nat) : List Token → Option (List Token)
  | [] => none
  | t :: before =>
    if t.text = "]" then beforeGroup (depth + 1) before
    else if t.text = "[" ∨ t.text = "#[" then
      match depth with
      | 0 => if t.text = "#[" then some before else none
      | depth + 1 => beforeGroup depth before
    else beforeGroup depth before

theorem length_beforeGroup {depth : Nat} {ts before : List Token}
    (h : beforeGroup depth ts = some before) : before.length < ts.length := by
  fun_induction beforeGroup depth ts with
  | case1 => simp at h
  | case2 depth t ts _ ih =>
    have := ih h
    simp
    omega
  | case3 t ts => simp at h; simp [h]
  | case4 => simp at h
  | case5 t ts _ _ depth ih =>
    have := ih h
    simp
    omega
  | case6 depth t ts _ _ ih =>
    have := ih h
    simp
    omega

def beforeAttribute (t : Token) (before : List Token) : Option (List Token) :=
  if t.text = "]" then beforeGroup 0 before else none

theorem length_beforeAttribute {t : Token} {ts before : List Token}
    (h : beforeAttribute t ts = some before) : before.length < ts.length := by
  unfold beforeAttribute at h
  split at h
  · exact length_beforeGroup h
  · simp at h

-- Whether a `class` follows `new`, past trivia, modifiers and attributes.
def followsNew (before : List Token) : Bool :=
  match before with
  | [] => false
  | t :: before =>
    if t.trivia || t.isModifier then followsNew before
    else match _group : beforeAttribute t before with
      | some earlier => followsNew earlier
      | none => t.isKeyword "new"
termination_by before.length
decreasing_by
  · simp
  · have := length_beforeAttribute _group
    simp
    omega

-- The doc comment of a keyword on `line`. The walk goes back over whitespace, modifiers,
-- attributes and whatever ends on that line; the first comment it reaches decides.
def docblock (line : Int) (before : List Token) : Option Token :=
  match before with
  | [] => none
  | t :: before =>
    if t.kind = .whitespace then docblock line before
    else if t.kind.isComment then if t.kind = .docComment then some t else none
    else if t.isBoundary then none
    else if t.isModifier then docblock line before
    else match _group : beforeAttribute t before with
      | some earlier => docblock line earlier
      | none => if t.endLine = line then docblock line before else none
termination_by before.length
decreasing_by
  · simp
  · simp
  · have := length_beforeAttribute _group
    simp
    omega
  · simp

end DocAudit.Php
