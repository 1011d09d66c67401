import DocAudit.Text.Blank

/-!
Exclude lists: paths below the scanned directory that are left out.
-/

set_option autoImplicit false

namespace DocAudit.File

-- One entry: trimmed, with slashes for backslashes, without slashes at its end and without a
-- leading `./`.
def cleanChars (entry : List Char) : List Char :=
  let slashed := (Text.trimChars entry).map fun c => if c = '\\' then '/' else c
  match Text.dropEnd (· == '/') slashed with
  | '.' :: '/' :: rest => rest
  | cleaned => cleaned

def cleanEntry (entry : String) : String := String.ofList (cleanChars entry.toList)

-- The entries of an exclude list that name something, sorted and each once.
def normalizeExcludes (entries : List String) : List String :=
  (((entries.map cleanEntry).filter (· != "")).mergeSort (· ≤ ·)).eraseDups

end DocAudit.File
