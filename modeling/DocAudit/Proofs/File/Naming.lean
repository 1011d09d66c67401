import DocAudit.File.Naming
import DocAudit.Proofs.File.Tree
import DocAudit.Proofs.Text.Decoding

/-!
Names that texts spell, and the characters in them. What stands for a half is no slash, no dot and no
NUL, so that a path keeps it where the text has it.
-/

set_option autoImplicit false

namespace DocAudit.File

/-! ### Characters of a path -/

def Path.Holds (p : Path) (c : Char) : Prop := ∃ part ∈ p.parts, c ∈ part.toList

theorem mem_split_chars (sep c : Char) (s : List Char) (other : c ≠ sep) :
    c ∈ s ↔ ∃ piece ∈ Text.splitChars sep s, c ∈ piece := by
  induction s with
  | nil => simp [Text.splitChars]
  | cons d s ih =>
      rw [Text.splitChars, List.mem_cons, ih]
      split
      · rename_i same
        have different : c ≠ d := same ▸ other
        simp [different]
      · cases pieces : Text.splitChars sep s with
        | nil => exact absurd pieces (split_chars_ne_nil sep s)
        | cons piece rest => simp [or_assoc]

theorem mem_components (c : Char) (path : String) (other : c ≠ '/') :
    c ∈ path.toList ↔ ∃ name ∈ components path, c ∈ name.toList := by
  simp [mem_split_chars '/' c path.toList other, components, Text.split]

theorem mem_joined (c : Char) (names : List String) (other : c ≠ '/') :
    c ∈ (joined names).toList ↔ ∃ name ∈ names, c ∈ name.toList := by
  induction names with
  | nil => simp [joined]
  | cons name names ih =>
      cases names with
      | nil => simp [joined_one]
      | cons next names =>
          rw [joined_cons name _ (by simp), String.toList_append, String.toList_append, List.mem_append,
            List.mem_append, ih, List.exists_mem_cons_iff]
          simp [other]

section

variable (c : Char) (slash : c ≠ '/') (dot : c ≠ '.')

include slash dot

-- The parts that a path leaves out are empty, or a dot.
theorem of_string_holds (path : String) : (Path.ofString path).Holds c ↔ c ∈ path.toList := by
  rw [mem_components c path slash]
  constructor
  · rintro ⟨name, member, held⟩
    exact ⟨name, List.mem_of_mem_filter member, held⟩
  · rintro ⟨name, member, held⟩
    have filled : name ≠ "" := by
      rintro rfl
      simp at held
    have other : name ≠ "." := by
      rintro rfl
      exact dot (List.mem_singleton.mp held)
    exact ⟨name, List.mem_filter.mpr ⟨member, by simp [filled, other]⟩, held⟩

theorem join_holds (base : Path) (path : String) (clear : ¬ base.Holds c) :
    (base.join (Path.ofString path)).Holds c ↔ c ∈ path.toList := by
  rw [← of_string_holds c slash dot path, Path.join]
  split
  · simp only [Path.Holds, List.mem_append, or_and_right, exists_or]
    exact or_iff_right clear
  · rfl

theorem mem_path_text (p : Path) : c ∈ p.text.toList ↔ p.Holds c := by
  have anchor : c ∉ p.anchor.text.toList := by
    cases p.anchor <;> simp [Anchor.text, slash]
  have whole : c ∈ (p.anchor.text ++ joined p.parts).toList ↔ p.Holds c := by
    rw [String.toList_append, List.mem_append, mem_joined c p.parts slash]
    exact or_iff_right anchor
  rw [← whole, Path.text, ← joined]
  split
  · rename_i empty
    rw [empty]
    simp [dot]
  · rfl

end

/-! ### Characters that stand for halves -/

section

variable (halves : Text.Halves)

-- A half that stands for no byte of a name.
def isStray (c : Char) : Bool := (halves.half? c).any fun half => !Text.Halves.isByteHalf half

theorem stand_in_far (c : Char) (near : c.toNat < Text.Halves.firstStandIn) : halves.half? c = none := by
  have absent : c ∉ halves.standIns := fun member => absurd near (Nat.not_lt.mpr (halves.apart c member))
  rw [Text.Halves.half?, List.idxOf?_eq_none_iff.mpr absent, Option.map_none]

theorem stray_far (c : Char) (stray : isStray halves c = true) : c ≠ '/' ∧ c ≠ '.' ∧ c ≠ Path.nul := by
  have other (d : Char) (near : d.toNat < Text.Halves.firstStandIn) : c ≠ d := by
    rintro rfl
    simp [isStray, stand_in_far halves c near] at stray
  exact ⟨other '/' (by decide), other '.' (by decide), other Path.nul (by decide)⟩

theorem path_run_none (s : List Char) : halves.pathRun? s = none ↔ ∀ c ∈ s, isStray halves c = false := by
  have each (position : Nat) : halves.firstRun? (fun half => !Text.Halves.isByteHalf half) position s = none ↔
      ∀ c ∈ s, isStray halves c = false := by
    induction s generalizing position with
    | nil => simp [Text.Halves.firstRun?]
    | cons c s ih =>
        rw [Text.Halves.firstRun?, List.forall_mem_cons, ← ih (position + 1), ← isStray]
        cases isStray halves c <;> simp
  rw [Text.Halves.pathRun?]
  exact each 0

/-! ### Spelled names -/

theorem name_bytes_plain (s : String) (plain : halves.occursIn s = false) :
    nameBytes halves s = Text.Utf8.encode s := by
  have each : ∀ c ∈ s.toList, charBytes halves c = Text.Utf8.encodeChar c := by
    intro c member
    have whole : halves.half? c = none := by simpa using List.any_eq_false.mp plain c member
    rw [charBytes, whole]
  exact List.flatMap_congr each

-- A text names the file whose name has its bytes.
theorem spelled_name_iff (s name : String) (slashless : '/' ∉ name.toList) :
    spelledName halves s = name ↔ Text.Utf8.encode name = nameBytes halves s := by
  have decoded (bytes : Text.Utf8.encode name = nameBytes halves s) :
      Text.Utf8.decode (nameBytes halves s) = name := by
    rw [← bytes, Text.Utf8.decode_encode]
  rw [spelledName]
  cases occurs : halves.occursIn s with
  | false =>
      rw [name_bytes_plain halves s occurs] at decoded ⊢
      rw [Text.Utf8.decode_encode] at decoded
      exact ⟨fun same => same ▸ rfl, decoded⟩
  | true =>
      by_cases valid : Text.Utf8.encode (Text.Utf8.decode (nameBytes halves s)) = nameBytes halves s
      · rw [if_neg (by simp), if_pos valid]
        exact ⟨fun same => same ▸ valid, decoded⟩
      · rw [if_neg (by simp), if_neg valid]
        constructor
        · intro same
          obtain ⟨c, member, half⟩ := List.any_eq_true.mp occurs
          have slash : '/' ∈ name.toList := by
            rw [← same, String.toList_ofList, List.mem_map]
            exact ⟨c, member, if_pos half⟩
          exact absurd slash slashless
        · intro bytes
          rw [decoded bytes] at valid
          exact absurd bytes valid

theorem spelled_name_size (s : String) : Text.Utf8.size (spelledName halves s) = (nameBytes halves s).length := by
  have slashed (c : Char) : (Text.Utf8.encodeChar (if (halves.half? c).isSome then '/' else c)).length =
      (charBytes halves c).length := by
    rw [charBytes]
    cases halves.half? c with
    | none => rfl
    | some half => rfl
  rw [spelledName, Text.Utf8.size]
  split
  · rename_i plain
    rw [name_bytes_plain halves s (by simpa using plain)]
  · split
    · rename_i valid
      rw [valid]
    · rw [Text.Utf8.encode, String.toList_ofList, Text.Utf8.encodeChars, nameBytes, List.length_flatMap,
        List.length_flatMap, List.map_map]
      exact congrArg List.sum (List.map_congr_left fun c _ => slashed c)

theorem nul_decoded (bytes : List UInt8) : Path.nul ∈ Text.Utf8.decodeChars bytes ↔ 0 ∈ bytes := by
  have counted := Text.Utf8.decoded_count bytes Path.nul (by decide)
  have byte : UInt8.ofNat Path.nul.toNat = 0 := by decide
  rw [← List.count_pos_iff, counted, byte, List.count_pos_iff]

theorem nul_encoded (c : Char) : 0 ∈ Text.Utf8.encodeChar c ↔ Path.nul = c := by
  have read : Text.Utf8.decodeChars (Text.Utf8.encodeChar c) = [c] := by
    have whole := Text.Utf8.decode_char c []
    rw [List.append_nil] at whole
    exact whole
  rw [← nul_decoded, read, List.mem_singleton]

theorem nul_in_char (c : Char) : 0 ∈ charBytes halves c ↔ Path.nul = c := by
  rw [charBytes]
  cases found : halves.half? c with
  | none => exact nul_encoded c
  | some half =>
      have far : Path.nul ≠ c := by
        rintro rfl
        rw [stand_in_far halves Path.nul (by decide)] at found
        cases found
      have byte : (0 : UInt8) ≠ UInt8.ofNat (0x80 + half % 0x80) := by
        intro same
        have value := congrArg UInt8.toNat same
        rw [UInt8.toNat_ofNat_of_lt' (by simp [UInt8.size]; omega)] at value
        have zero : (0 : UInt8).toNat = 0 := rfl
        omega
      rw [List.mem_singleton]
      exact iff_of_false byte far

theorem nul_in_name (s : String) : 0 ∈ nameBytes halves s ↔ Path.nul ∈ s.toList := by
  rw [nameBytes, List.mem_flatMap]
  simp [nul_in_char]

theorem nul_spelled (s : String) : Path.nul ∈ (spelledName halves s).toList ↔ Path.nul ∈ s.toList := by
  have decoded : Path.nul ∈ (Text.Utf8.decode (nameBytes halves s)).toList ↔ Path.nul ∈ s.toList := by
    rw [Text.Utf8.decode, String.toList_ofList, nul_decoded, nul_in_name]
  have slashed : Path.nul ∈ (s.toList.map fun c => if (halves.half? c).isSome then '/' else c) ↔
      Path.nul ∈ s.toList := by
    have each (c : Char) : (if (halves.half? c).isSome then '/' else c) = Path.nul ↔ c = Path.nul := by
      by_cases far : c = Path.nul
      · rw [far, stand_in_far halves Path.nul (by decide)]
        simp
      · have slash : '/' ≠ Path.nul := by decide
        split <;> simp [far, slash]
    simp [each]
  rw [spelledName]
  split
  · rfl
  · split
    · exact decoded
    · rw [String.toList_ofList]
      exact slashed

theorem nul_spelled_path (p : Path) : (p.spelled halves).hasNul = true ↔ p.Holds Path.nul := by
  simp [Path.hasNul, Path.spelled, Path.Holds, nul_spelled]

end

/-! ### Texts that are no paths -/

section

variable (halves : Text.Halves)

-- Whether a text is the path of a file that there may be.
def nameable (path : String) : Bool := path.toList.all fun c => !isStray halves c && c != Path.nul

def Path.Nameable (p : Path) : Prop := ∀ c, p.Holds c → isStray halves c = false ∧ c ≠ Path.nul

theorem nameable_iff (path : String) :
    nameable halves path = true ↔ path.toList.any (isStray halves) = false ∧ Path.nul ∉ path.toList := by
  rw [nameable, List.all_eq_true, List.any_eq_false]
  constructor
  · intro each
    refine ⟨fun c member => ?_, fun member => ?_⟩
    · simpa using (Bool.and_eq_true_iff.mp (each c member)).1
    · simpa using (Bool.and_eq_true_iff.mp (each _ member)).2
  · rintro ⟨strayless, nulless⟩ c member
    have other : c ≠ Path.nul := fun same => nulless (same ▸ member)
    simpa [other] using strayless c member

variable (base : Path) (clear : base.Nameable halves) (path : String)

include clear

theorem join_run : halves.pathRun? (base.join (Path.ofString path)).text.toList = none ↔
    path.toList.any (isStray halves) = false := by
  rw [path_run_none, List.any_eq_false]
  have each (c : Char) (stray : isStray halves c = true) :
      c ∈ (base.join (Path.ofString path)).text.toList ↔ c ∈ path.toList := by
    obtain ⟨slash, dot, -⟩ := stray_far halves c stray
    have absent : ¬ base.Holds c := fun held => by simp [(clear c held).1] at stray
    rw [mem_path_text c slash dot, join_holds c slash dot base path absent]
  constructor
  · intro strayless c member stray
    simp [strayless c ((each c stray).mpr member)] at stray
  · intro strayless c member
    rw [Bool.eq_false_iff]
    exact fun stray => strayless c ((each c stray).mp member) stray

theorem join_nul : ((base.join (Path.ofString path)).spelled halves).hasNul = true ↔ Path.nul ∈ path.toList := by
  have absent : ¬ base.Holds Path.nul := fun held => (clear _ held).2 rfl
  rw [nul_spelled_path, join_holds Path.nul (by decide) (by decide) base path absent]

end

/-! ### Texts without halves -/

theorem half_empty (c : Char) : Text.Halves.empty.half? c = none := rfl

theorem spelled_empty (p : Path) : p.spelled .empty = p := by
  have plain (s : String) : spelledName .empty s = s := by
    have absent : Text.Halves.empty.occursIn s = false := by
      rw [Text.Halves.occursIn, List.any_eq_false]
      simp [half_empty]
    rw [spelledName, absent]
    rfl
  have names : p.parts.map (spelledName .empty) = p.parts := by
    rw [List.map_congr_left fun s _ => plain s, List.map_id']
  rw [Path.spelled, names]

theorem quoted_empty (s : String) : Text.Halves.empty.quoted s = Text.quoted s := rfl

theorem spelled_folder_empty (fs : System) (p : Path) : fs.spelledFolder? .empty p = fs.folder? p := by
  have whole : Text.Halves.empty.pathRun? p.text.toList = none := by
    rw [path_run_none]
    exact fun c _ => rfl
  rw [System.spelledFolder?, whole, spelled_empty]
  rfl

/-! ### Characters of a tree -/

-- No character of a tree stands for a half.
def Node.Apart (node : Node) (halves : Text.Halves) : Prop := ∀ c ∈ node.chars, halves.half? c = none

theorem entry_chars (entries : List (String × Node)) (name : String) (node : Node)
    (member : (name, node) ∈ entries) (c : Char) (held : c ∈ name.toList ∨ c ∈ node.chars) :
    c ∈ entryChars entries := by
  induction entries with
  | nil => cases member
  | cons first rest ih =>
      rw [entryChars, List.mem_append, List.mem_append]
      rcases List.mem_cons.mp member with rfl | later
      · exact held.imp_right .inl
      · exact .inr (.inr (ih later))

theorem descend_chars (node : Node) (names : List String) (inner : Node)
    (found : node.descend names = some inner) (c : Char)
    (held : (∃ name ∈ names, c ∈ name.toList) ∨ c ∈ inner.chars) : c ∈ node.chars := by
  induction names generalizing node with
  | nil =>
      obtain rfl := Option.some.inj found
      simpa using held
  | cons name names ih =>
      cases node with
      | file bytes => cases found
      | link target => cases found
      | folder entries =>
          obtain ⟨next, here, further⟩ := Option.bind_eq_some_iff.mp found
          rw [Node.chars]
          apply entry_chars entries name next (get_entry entries name next here)
          rw [List.exists_mem_cons_iff, or_assoc] at held
          exact held.imp_right (ih next further)

end DocAudit.File
