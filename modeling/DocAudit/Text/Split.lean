/-!
Pieces of a text between separators.
-/

set_option autoImplicit false

namespace DocAudit.Text

-- The pieces between separators; there is one more of them than of separators.
def splitChars (sep : Char) : List Char → List (List Char)
  | [] => [[]]
  | c :: s =>
    if c = sep then [] :: splitChars sep s
    else match splitChars sep s with
      | piece :: pieces => (c :: piece) :: pieces
      | [] => [[c]]

def split (sep : Char) (s : String) : List String :=
  (splitChars sep s.toList).map String.ofList

end DocAudit.Text
