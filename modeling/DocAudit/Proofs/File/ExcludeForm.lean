import DocAudit.File.Exclude
import Mathlib.Algebra.Order.BigOperators.Group.List
import Mathlib.Data.List.Perm.Subperm
import Mathlib.Data.String.Basic

/-!
The form of exclude entries. Cleaning goes over an entry once, so it takes backslashes and slashes at
the end away for good, and may leave blanks at the ends and a leading `./`: those that come to the
ends only where slashes or a dot are taken away. Cleaning again changes nothing exactly where none do.
-/

set_option autoImplicit false

namespace DocAudit.File

/-! ### Entries in character lists -/

def slashed (c : Char) : Char := if c = '\\' then '/' else c

def withoutDot : List Char → List Char
  | '.' :: '/' :: rest => rest
  | s => s

-- An entry that is cleaned but for a dot in front.
def ended (s : List Char) : List Char := Text.dropEnd (· == '/') ((Text.trimChars s).map slashed)

theorem clean_chars_eq (s : List Char) : cleanChars s = withoutDot (ended s) := rfl

theorem drop_end_begins (p : Char → Bool) (s : List Char) : Text.dropEnd p s <+: s := by
  have suffix : s.reverse.dropWhile p <:+ s.reverse := List.dropWhile_suffix p
  have begins := List.reverse_prefix.mpr suffix
  rwa [List.reverse_reverse] at begins

theorem drop_end_last (p : Char → Bool) (s : List Char) : ∀ c ∈ (Text.dropEnd p s).getLast?, p c = false := by
  intro c last
  have stops := List.head?_dropWhile_not p s.reverse
  rw [Text.dropEnd, List.getLast?_reverse, Option.mem_def] at last
  rw [last] at stops
  exact stops

theorem drop_while_self (p : Char → Bool) (s : List Char) (first : ∀ c ∈ s.head?, p c = false) :
    s.dropWhile p = s := by
  cases s with
  | nil => rfl
  | cons c s => rw [List.dropWhile_cons_of_neg]; simp [first c rfl]

theorem drop_end_self (p : Char → Bool) (s : List Char) (last : ∀ c ∈ s.getLast?, p c = false) :
    Text.dropEnd p s = s := by
  rw [Text.dropEnd, drop_while_self p s.reverse, List.reverse_reverse]
  rwa [List.head?_reverse]

def Unblanked (s : List Char) : Prop :=
  (∀ c ∈ s.head?, Text.blank c = false) ∧ ∀ c ∈ s.getLast?, Text.blank c = false

theorem trim_self (s : List Char) (unblanked : Unblanked s) : Text.trimChars s = s := by
  rw [Text.trimChars, drop_while_self Text.blank s unblanked.1, drop_end_self Text.blank s unblanked.2]

theorem trim_within (s : List Char) : Text.trimChars s <:+: s :=
  (drop_end_begins Text.blank (s.dropWhile Text.blank)).isInfix.trans (List.dropWhile_suffix Text.blank).isInfix

theorem trim_unblanked (s : List Char) : Unblanked (Text.trimChars s) := by
  refine ⟨?_, drop_end_last Text.blank _⟩
  intro c head
  obtain ⟨rest, whole⟩ := drop_end_begins Text.blank (s.dropWhile Text.blank)
  have stops := List.head?_dropWhile_not Text.blank s
  have begins : (s.dropWhile Text.blank).head? = some c := by
    rw [← whole, List.head?_append]
    exact congrArg (·.or rest.head?) head
  rw [begins] at stops
  exact stops

theorem without_dot_suffix (s : List Char) : withoutDot s <:+ s := by
  unfold withoutDot
  split
  · exact ⟨['.', '/'], rfl⟩
  · exact List.suffix_refl s

theorem without_dot_self (s : List Char) (plain : ¬ ['.', '/'] <+: s) : withoutDot s = s := by
  unfold withoutDot
  split
  · rename_i rest
    exact absurd ⟨rest, rfl⟩ plain
  · rfl

theorem without_dot_shorter (s : List Char) (dotted : ['.', '/'] <+: s) : (withoutDot s).length < s.length := by
  obtain ⟨rest, rfl⟩ := dotted
  rw [List.length_append]
  exact Nat.lt_add_of_pos_left (by decide)

theorem slashed_other (c : Char) : slashed c ≠ '\\' := by
  unfold slashed
  split
  · decide
  · rename_i other
    exact other

theorem slashed_self (s : List Char) (plain : '\\' ∉ s) : s.map slashed = s := by
  have same : ∀ c ∈ s, slashed c = c := by
    intro c member
    rw [slashed, if_neg]
    rintro rfl
    exact plain member
  rw [List.map_congr_left same, List.map_id']

theorem blank_slashed (c : Char) : Text.blank (slashed c) = Text.blank c := by
  unfold slashed
  split
  · rename_i same
    rw [same]
    decide
  · rfl

/-! ### What cleaning leaves -/

theorem ended_begins (s : List Char) : ended s <+: (Text.trimChars s).map slashed := drop_end_begins _ _

theorem ended_last (s : List Char) : (ended s).getLast? ≠ some '/' := fun last =>
  absurd (drop_end_last _ _ '/' last) (by decide)

theorem ended_first (s : List Char) : ∀ c ∈ (ended s).head?, Text.blank c = false := by
  intro c first
  obtain ⟨rest, whole⟩ := ended_begins s
  have head : ((Text.trimChars s).map slashed).head? = some c := by
    rw [← whole, List.head?_append, Option.mem_def.mp first]
    rfl
  rw [List.head?_map] at head
  obtain ⟨d, here, rfl⟩ := Option.map_eq_some_iff.mp head
  rw [blank_slashed]
  exact (trim_unblanked s).1 d here

theorem ended_self (s : List Char) (plain : '\\' ∉ s) (ends : s.getLast? ≠ some '/') (unblanked : Unblanked s) :
    ended s = s := by
  have last : ∀ c ∈ s.getLast?, (c == '/') = false := by
    intro c here
    rw [beq_eq_false_iff_ne]
    rintro rfl
    exact ends here
  rw [ended, trim_self s unblanked, slashed_self s plain, drop_end_self _ s last]

theorem ended_length_le (s : List Char) : (ended s).length ≤ (Text.trimChars s).length :=
  (ended_begins s).length_le.trans_eq (List.length_map slashed)

theorem clean_unslashed (s : List Char) : '\\' ∉ cleanChars s ∧ (cleanChars s).getLast? ≠ some '/' := by
  obtain ⟨front, whole⟩ := without_dot_suffix (ended s)
  rw [← clean_chars_eq] at whole
  constructor
  · intro backslash
    have inside := (ended_begins s).subset (whole ▸ List.mem_append_right front backslash)
    obtain ⟨c, -, same⟩ := List.mem_map.mp inside
    exact slashed_other c same
  · intro last
    apply ended_last s
    rw [← whole, List.getLast?_append, last]
    rfl

theorem clean_self (s : List Char) (plain : '\\' ∉ s) (ends : s.getLast? ≠ some '/') (unblanked : Unblanked s)
    (undotted : ¬ ['.', '/'] <+: s) : cleanChars s = s := by
  rw [clean_chars_eq, ended_self s plain ends unblanked, without_dot_self s undotted]

theorem clean_length_le (s : List Char) : (cleanChars s).length ≤ s.length :=
  (without_dot_suffix (ended s)).length_le.trans ((ended_length_le s).trans (trim_within s).length_le)

-- What cleaning changes besides backslashes, it makes shorter.
theorem clean_same_length (s : List Char) (plain : '\\' ∉ s) (same : (cleanChars s).length = s.length) :
    Unblanked s ∧ ¬ ['.', '/'] <+: s := by
  have trimmed := (trim_within s).length_le
  have cut := ended_length_le s
  have begun := (without_dot_suffix (ended s)).length_le
  rw [clean_chars_eq] at same
  have whole : Text.trimChars s = s := (trim_within s).eq_of_length (by omega)
  have unblanked : Unblanked s := whole ▸ trim_unblanked s
  refine ⟨unblanked, fun dotted => ?_⟩
  have all : ended s = s := by
    rw [(ended_begins s).eq_of_length (by rw [List.length_map]; omega), whole, slashed_self s plain]
  rw [all] at same
  exact absurd same (without_dot_shorter s dotted).ne

/-! ### Entries -/

-- Parts with slashes between them: what every entry is after cleaning.
structure Separated (entry : String) : Prop where
  filled : entry ≠ ""
  plain : '\\' ∉ entry.toList
  ends : entry.toList.getLast? ≠ some '/'

-- What cleaning takes away once, it may leave once more.
structure Settled (entry : String) : Prop where
  unblanked : Unblanked entry.toList
  undotted : ¬ ['.', '/'] <+: entry.toList

theorem clean_entry_chars (entry : String) : (cleanEntry entry).toList = cleanChars entry.toList := by
  rw [cleanEntry, String.toList_ofList]

theorem clean_entry_separated (entry : String) (filled : cleanEntry entry ≠ "") : Separated (cleanEntry entry) := by
  obtain ⟨plain, ends⟩ := clean_unslashed entry.toList
  rw [← clean_entry_chars] at plain ends
  exact ⟨filled, plain, ends⟩

theorem clean_entry_self (entry : String) (separated : Separated entry) (settled : Settled entry) :
    cleanEntry entry = entry := by
  rw [cleanEntry, clean_self entry.toList separated.plain separated.ends settled.unblanked settled.undotted,
    String.ofList_toList]

theorem clean_entry_length_le (entry : String) : (cleanEntry entry).length ≤ entry.length := by
  rw [← String.length_toList, clean_entry_chars, ← String.length_toList]
  exact clean_length_le entry.toList

theorem clean_entry_shorter (entry : String) (separated : Separated entry) (unsettled : ¬ Settled entry) :
    (cleanEntry entry).length < entry.length := by
  refine lt_of_le_of_ne (clean_entry_length_le entry) fun same => unsettled ?_
  rw [← String.length_toList, clean_entry_chars, ← String.length_toList] at same
  obtain ⟨unblanked, undotted⟩ := clean_same_length entry.toList separated.plain same
  exact ⟨unblanked, undotted⟩

-- Behind a dot and in front of a slash, any separated entry outlasts the cleaning.
theorem clean_entry_wrapped (entry : String) (separated : Separated entry) : cleanEntry ("./" ++ entry ++ "/") = entry := by
  have filled : entry.toList ≠ [] := by simpa using separated.filled
  have chars : ("./" ++ entry ++ "/").toList = '.' :: '/' :: (entry.toList ++ ['/']) := by simp
  have unblanked : Unblanked ('.' :: '/' :: (entry.toList ++ ['/'])) := by
    constructor
    · intro c head
      exact Option.some.inj head ▸ by decide
    · intro c last
      rw [← List.cons_append, ← List.cons_append, List.getLast?_concat] at last
      exact Option.some.inj last ▸ by decide
  have plain : '\\' ∉ '.' :: '/' :: (entry.toList ++ ['/']) := by simp [separated.plain]
  have cut : Text.dropEnd (· == '/') ('.' :: '/' :: (entry.toList ++ ['/'])) = '.' :: '/' :: entry.toList := by
    have last : ∀ c ∈ ('.' :: '/' :: entry.toList).getLast?, (c == '/') = false := by
      intro c last
      rw [List.getLast?_cons_of_ne_nil (by simp), List.getLast?_cons_of_ne_nil filled] at last
      rw [beq_eq_false_iff_ne]
      rintro rfl
      exact separated.ends last
    rw [← drop_end_self (· == '/') ('.' :: '/' :: entry.toList) last]
    simp [Text.dropEnd]
  rw [cleanEntry, chars, clean_chars_eq, ended, trim_self _ unblanked, slashed_self _ plain, cut, withoutDot,
    String.ofList_toList]

-- Neither the slashes that are cut off nor the dot in front bring a blank or one more `./` to an end.
structure CleanAtOnce (entry : String) : Prop where
  ending : ∀ c ∈ (ended entry.toList).getLast?, Text.blank c = false
  beginning : ∀ rest, ended entry.toList = '.' :: '/' :: rest →
    (∀ c ∈ rest.head?, Text.blank c = false) ∧ ¬ ['.', '/'] <+: rest

theorem clean_entry_settled_iff (entry : String) : Settled (cleanEntry entry) ↔ CleanAtOnce entry := by
  have chars : (cleanEntry entry).toList = withoutDot (ended entry.toList) := clean_entry_chars entry
  by_cases dotted : ['.', '/'] <+: ended entry.toList
  · obtain ⟨rest, whole⟩ := dotted
    have inner : (cleanEntry entry).toList = rest := by
      rw [chars, ← whole]
      rfl
    have last : (∀ c ∈ (ended entry.toList).getLast?, Text.blank c = false) ↔
        ∀ c ∈ rest.getLast?, Text.blank c = false := by
      cases rest with
      | nil => exact absurd (congrArg List.getLast? whole.symm) (ended_last entry.toList)
      | cons c rest =>
          rw [← whole]
          rfl
    constructor
    · rintro ⟨⟨first, final⟩, undotted⟩
      rw [inner] at first final undotted
      refine ⟨last.mpr final, fun tail same => ?_⟩
      cases whole.trans same
      exact ⟨first, undotted⟩
    · rintro ⟨ending, beginning⟩
      obtain ⟨first, undotted⟩ := beginning rest whole.symm
      refine ⟨⟨?_, ?_⟩, ?_⟩ <;> rw [inner]
      exacts [first, last.mp ending, undotted]
  · rw [without_dot_self _ dotted] at chars
    constructor
    · rintro ⟨⟨-, final⟩, -⟩
      exact ⟨chars ▸ final, fun rest whole => absurd ⟨rest, whole.symm⟩ dotted⟩
    · rintro ⟨ending, -⟩
      refine ⟨⟨?_, ?_⟩, ?_⟩ <;> rw [chars]
      exacts [ended_first entry.toList, ending, dotted]

/-! ### Lists of entries -/

theorem normalized_iff (entries : List String) (entry : String) :
    entry ∈ normalizeExcludes entries ↔ entry ≠ "" ∧ ∃ e ∈ entries, cleanEntry e = entry := by
  simp only [normalizeExcludes, List.mem_eraseDups, List.mem_mergeSort, List.mem_filter, List.mem_map, bne_iff_ne]
  exact and_comm

theorem erase_dups_pairwise {α : Type} [BEq α] [LawfulBEq α] (r : α → α → Prop) (l : List α) (ordered : l.Pairwise r) :
    l.eraseDups.Pairwise fun a b => r a b ∧ a ≠ b := by
  match l with
  | [] => simp
  | a :: l =>
      obtain ⟨first, rest⟩ := List.pairwise_cons.mp ordered
      rw [List.eraseDups_cons, List.pairwise_cons]
      have shorter := List.length_filter_le (fun b => !b == a) l
      refine ⟨?_, erase_dups_pairwise r _ (rest.filter _)⟩
      intro b member
      obtain ⟨inside, other⟩ := List.mem_filter.mp (List.mem_eraseDups.mp member)
      refine ⟨first b inside, ?_⟩
      rintro rfl
      simp at other
termination_by l.length

theorem normalized_ordered (entries : List String) : (normalizeExcludes entries).Pairwise (· < ·) := by
  have sorted : (((entries.map cleanEntry).filter (· != "")).mergeSort (· ≤ ·)).Pairwise fun a b =>
      decide (a ≤ b) = true := by
    apply List.pairwise_mergeSort
    · intro a b c first second
      rw [decide_eq_true_eq] at *
      exact first.trans second
    · intro a b
      simpa using le_total a b
  apply (erase_dups_pairwise _ _ sorted).imp
  rintro a b ⟨le, ne⟩
  exact lt_of_le_of_ne (of_decide_eq_true le) ne

theorem normalized_nodup (entries : List String) : (normalizeExcludes entries).Nodup :=
  (normalized_ordered entries).imp fun less => less.ne

-- A list of excludes is determined by what is in it.
theorem normalized_ext (a b : List String) (same : ∀ x, x ∈ normalizeExcludes a ↔ x ∈ normalizeExcludes b) :
    normalizeExcludes a = normalizeExcludes b := by
  refine List.Perm.eq_of_pairwise ?_ (normalized_ordered a) (normalized_ordered b) ?_
  · intro x y _ _ first second
    exact absurd second (lt_asymm first)
  · exact (List.perm_ext_iff_of_nodup (normalized_nodup a) (normalized_nodup b)).mpr same

theorem normalized_separated (entries : List String) : ∀ x ∈ normalizeExcludes entries, Separated x := by
  intro x member
  obtain ⟨filled, e, -, rfl⟩ := (normalized_iff entries x).mp member
  exact clean_entry_separated e filled

theorem separated_iff_normalized (x : String) : (∃ entries, x ∈ normalizeExcludes entries) ↔ Separated x := by
  constructor
  · rintro ⟨entries, member⟩
    exact normalized_separated entries x member
  · intro separated
    refine ⟨["./" ++ x ++ "/"], (normalized_iff _ x).mpr ⟨separated.filled, ?_⟩⟩
    exact ⟨_, List.mem_singleton.mpr rfl, clean_entry_wrapped x separated⟩

theorem settled_normalized (entries : List String) (settled : ∀ x ∈ normalizeExcludes entries, Settled x) :
    normalizeExcludes (normalizeExcludes entries) = normalizeExcludes entries := by
  have self : ∀ x ∈ normalizeExcludes entries, cleanEntry x = x := fun x member =>
    clean_entry_self x (normalized_separated entries x member) (settled x member)
  apply normalized_ext
  intro x
  rw [normalized_iff (normalizeExcludes entries)]
  constructor
  · rintro ⟨-, e, member, rfl⟩
    exact (self e member).symm ▸ member
  · intro member
    exact ⟨(normalized_separated entries x member).filled, x, member, self x member⟩

-- A map that permutes a list and makes no entry longer makes none shorter.
theorem permuted_same_length (f : String → String) (l : List String) (permuted : l.Perm (l.map f))
    (bound : ∀ y, (f y).length ≤ y.length) : ∀ x ∈ l, ¬ (f x).length < x.length := by
  intro x member shorter
  have lengths := (permuted.map String.length).sum_eq
  rw [List.map_map] at lengths
  have less := List.sum_lt_sum (String.length ∘ f) String.length (fun y _ => bound y) ⟨x, member, shorter⟩
  exact less.ne lengths.symm

theorem normalized_settled (entries : List String)
    (fixed : normalizeExcludes (normalizeExcludes entries) = normalizeExcludes entries) :
    ∀ x ∈ normalizeExcludes entries, Settled x := by
  have covers : normalizeExcludes entries ⊆ (normalizeExcludes entries).map cleanEntry := by
    intro x member
    rw [← fixed, normalized_iff] at member
    exact List.mem_map.mpr member.2
  have permuted : (normalizeExcludes entries).Perm ((normalizeExcludes entries).map cleanEntry) :=
    ((normalized_nodup entries).subperm covers).perm_of_length_le (by simp)
  intro x member
  by_contra unsettled
  exact permuted_same_length cleanEntry _ permuted clean_entry_length_le x member
    (clean_entry_shorter x (normalized_separated entries x member) unsettled)

-- Entries that cleaning leaves empty are settled.
theorem normalized_settled_iff (entries : List String) :
    (∀ x ∈ normalizeExcludes entries, Settled x) ↔ ∀ e ∈ entries, CleanAtOnce e := by
  constructor
  · intro settled e member
    rw [← clean_entry_settled_iff]
    by_cases filled : cleanEntry e = ""
    · rw [filled]
      exact ⟨⟨by simp, by simp⟩, by simp⟩
    · exact settled _ ((normalized_iff entries _).mpr ⟨filled, e, member, rfl⟩)
  · intro once x member
    obtain ⟨-, e, listed, rfl⟩ := (normalized_iff entries x).mp member
    exact (clean_entry_settled_iff e).mpr (once e listed)

theorem normalized_excludes_form (entries : List String) :
    (∀ x ∈ normalizeExcludes entries, Separated x) ∧
    ((∀ x ∈ normalizeExcludes entries, Settled x) ↔ ∀ e ∈ entries, CleanAtOnce e) ∧
    (normalizeExcludes (normalizeExcludes entries) = normalizeExcludes entries ↔ ∀ e ∈ entries, CleanAtOnce e) := by
  refine ⟨normalized_separated entries, normalized_settled_iff entries, ?_⟩
  rw [← normalized_settled_iff]
  exact ⟨normalized_settled entries, settled_normalized entries⟩

-- A dot, a blank and a blank that the cleaning brings to the ends of entries.
theorem cleaning_leaves_work :
    (normalizeExcludes ["././a"] = ["./a"] ∧ ¬ Settled "./a" ∧ normalizeExcludes ["./a"] = ["a"]) ∧
    (normalizeExcludes ["./ b"] = [" b"] ∧ ¬ Settled " b" ∧ normalizeExcludes [" b"] = ["b"]) ∧
    (normalizeExcludes ["c /"] = ["c "] ∧ ¬ Settled "c " ∧ normalizeExcludes ["c "] = ["c"]) := by
  refine ⟨⟨?_, fun settled => ?_, ?_⟩, ⟨?_, fun settled => ?_, ?_⟩, ?_, fun settled => ?_, ?_⟩
  case refine_2 => exact settled.undotted ⟨['a'], rfl⟩
  case refine_5 => exact absurd (settled.unblanked.1 ' ' rfl) (by decide)
  case refine_8 => exact absurd (settled.unblanked.2 ' ' rfl) (by decide)
  all_goals decide +kernel

end DocAudit.File
