import DocAudit.Proofs.Batch
import DocAudit.Proofs.Json.Halves
import DocAudit.Service.Routes

/-!
A request for a scan, written as JSON. The service reads from it what was asked for, and answers with
the scan.
-/

set_option autoImplicit false

namespace DocAudit.Service

def ScanBody.json (body : ScanBody) : Json :=
  .obj [("directory", .ofOption body.directory), ("files", .strings body.files),
    ("exclude", .strings body.exclude), ("skip_classes", .bool body.flags.classes),
    ("skip_methods", .bool body.flags.methods), ("skip_anonymous_functions", .bool body.flags.closures)]

def ScanBody.post (body : ScanBody) (layout : Json.Layout) (server : String) : Request where
  method := "POST"
  path := "/scan/"
  server := server
  headers := [("content-type", "application/json")]
  body := String.ofList (body.json.write layout 0 [])

/-! ### The text of a body -/

theorem guess_utf8 (a b : UInt8) (bytes : List UInt8) (first : a ≠ 0) (second : b ≠ 0) :
    Text.Encoding.guess (a :: b :: bytes) = .utf8 := by
  cases bytes with
  | nil => simp [Text.Encoding.guess, first, second]
  | cons c bytes =>
      cases bytes with
      | nil => rfl
      | cons d bytes => simp [Text.Encoding.guess, first, second]

theorem object_points (c : Char) (s : List Char) (start : c = '"' ∨ c = '\n') :
    bodyPoints? (String.ofList ('{' :: c :: s)) = some (('{' :: c :: s).map Char.toNat) := by
  have unmarked : withoutMark ('{' :: c :: s) = '{' :: c :: s := by
    rw [withoutMark, if_neg (by decide)]
  have bytes : ∃ b, b ≠ 0 ∧ Text.Utf8.encodeChar c = [b] := by
    rcases start with rfl | rfl
    · exact ⟨34, by decide, rfl⟩
    · exact ⟨10, by decide, rfl⟩
  obtain ⟨b, filled, second⟩ := bytes
  have first : Text.Utf8.encodeChar '{' = [123] := rfl
  have guessed : Text.Encoding.guess (Text.Utf8.encodeChars ('{' :: c :: s)) = .utf8 := by
    rw [Text.Utf8.encodeChars, List.flatMap_cons, List.flatMap_cons, first, second]
    exact guess_utf8 123 b _ (by decide) filled
  simp only [bodyPoints?, Text.Utf8.encode, String.toList_ofList, guessed, unmarked]

theorem whole_halves (root : File.Node) (text : String)
    (points : bodyPoints? text = some (text.toList.map Char.toNat)) (whole : Json.Whole text.toList) :
    bodyHalves root text = .empty := by
  have each : ∀ unit ∈ text.toList.map Char.toNat ++ Text.joinPairs (Json.denotedUnits text.toList),
      ¬ Text.isHalf unit = true := by
    rw [Json.join_pairs_whole _ whole, List.forall_mem_append, List.forall_mem_map]
    exact ⟨fun c _ => by simp [Json.char_not_half c], fun unit member => by simp [whole unit member]⟩
  rw [bodyHalves, points]
  dsimp only
  rw [Json.halves_text, List.any_eq_false.mpr each]
  rfl

-- The characters that stand for halves are new to the tree, so that no name in it is taken for another.
theorem body_halves_apart (root : File.Node) (body : String) : root.Apart (bodyHalves root body) := by
  intro c member
  rw [bodyHalves]
  cases bodyPoints? body with
  | none => exact File.half_empty c
  | some points =>
      dsimp only
      split
      · have absent : c ∉ Text.Halves.fresh (points ++ Text.joinPairs (Json.denotedUnits
            (Text.Halves.empty.text points)) ++ root.chars.map Char.toNat) := by
          intro chosen
          exact (Text.Halves.fresh_apart _ c chosen).2 (List.mem_append_right _ (List.mem_map_of_mem member))
        rw [Text.Halves.half?, Text.Halves.apartFrom, List.idxOf?_eq_none_iff.mpr absent, Option.map_none]
      · exact File.half_empty c

theorem object_start (layout : Json.Layout) (field : String × Json) (fields : List (String × Json)) :
    ∃ c s, Json.write layout 0 (.obj (field :: fields)) [] = '{' :: c :: s ∧ (c = '"' ∨ c = '\n') := by
  cases layout with
  | block width => exact ⟨'\n', _, rfl, .inr rfl⟩
  | _ => exact ⟨'"', _, rfl, .inl rfl⟩

theorem object_body (root : File.Node) (layout : Json.Layout) (field : String × Json) (fields : List (String × Json))
    (admitted : Json.Admits (bodyDialect .empty) 0 (.obj (field :: fields))) :
    let text := String.ofList (Json.write layout 0 (.obj (field :: fields)) [])
    text ≠ "" ∧ bodyHalves root text = .empty ∧ bodyValue .empty text = .ok (.obj (field :: fields)) := by
  intro text
  obtain ⟨c, s, written, start⟩ := object_start layout field fields
  have chars : text.toList = Json.write layout 0 (.obj (field :: fields)) [] := String.toList_ofList
  have points : bodyPoints? text = some (text.toList.map Char.toNat) := by
    have read := object_points c s start
    rw [← written] at read
    rw [chars]
    exact read
  have whole := Json.whole_write layout _ 0 0 _ admitted [] Json.whole_nil
  refine ⟨?_, ?_, ?_⟩
  · intro empty
    rw [empty, written] at chars
    cases chars
  · exact whole_halves root text points (chars ▸ whole)
  · rw [bodyValue, points]
    dsimp only
    rw [Json.halves_text, chars, Json.read_written _ layout _ [] admitted (by simp)]

/-! ### The fields of a body -/

theorem read_text_items (key : String) (index : Nat) (values : List String) :
    readTextItems key index (values.map .str) = ([], values) := by
  induction values generalizing index with
  | nil => rfl
  | cons value values ih => rw [List.map_cons, readTextItems, ih]

theorem read_nullable_text (key : String) (value : Option String) :
    readNullableText key (.ofOption value) = ([], value) := by
  cases value <;> rfl

theorem field_value {α : Type} (default value : α) (read : String → Json → Checked α) (body j : Json)
    (key : String) (found : body.get? key = some j) (decoded : read key j = ([], value)) :
    fieldOr default read body key = ([], value) := by
  rw [fieldOr, found]
  exact decoded

theorem read_scan_body (body : ScanBody) : readScanBody .empty body.json = ([], body) := by
  have classes := field_value false body.flags.classes (readBoolean .empty) body.json _ "skip_classes" rfl rfl
  have methods := field_value false body.flags.methods (readBoolean .empty) body.json _ "skip_methods" rfl rfl
  have closures := field_value false body.flags.closures (readBoolean .empty) body.json _
    "skip_anonymous_functions" rfl rfl
  have directory := field_value none body.directory readNullableText body.json _ "directory" rfl
    (read_nullable_text _ _)
  have files := field_value [] body.files readTexts body.json _ "files" rfl (read_text_items _ 0 _)
  have exclude := field_value [] body.exclude readTexts body.json _ "exclude" rfl (read_text_items _ 0 _)
  simp only [readScanBody, readFlags, classes, methods, closures, directory, files, exclude, List.append_nil]

theorem strings_admitted (d : Json.Dialect) (depth : Nat) (values : List String)
    (deep : d.admitsDepth (depth + 1) = true) : Json.Admits d depth (.strings values) := by
  refine .arr depth _ deep ?_
  rw [List.forall_mem_map]
  exact fun value _ => .str _ value

theorem option_admitted (d : Json.Dialect) (depth : Nat) (value : Option String) :
    Json.Admits d depth (.ofOption value) := by
  cases value with
  | none => exact .null depth
  | some value => exact .str depth value

theorem scan_body_admitted (body : ScanBody) : Json.Admits (bodyDialect .empty) 0 body.json := by
  have once : ["directory", "files", "exclude", "skip_classes", "skip_methods", "skip_anonymous_functions"].Nodup := by
    decide
  refine .obj 0 _ (by decide) once ?_
  simp only [List.forall_mem_cons]
  exact ⟨option_admitted _ 1 _, strings_admitted _ 1 _ (by decide), strings_admitted _ 1 _ (by decide),
    .bool 1 _, .bool 1 _, .bool 1 _, by simp⟩

theorem read_post (root : File.Node) (body : ScanBody) (layout : Json.Layout) (server : String) :
    bodyHalves root (body.post layout server).body = .empty ∧
      readBody .empty (readScanBody .empty) true (body.post layout server).body = .ok body := by
  have written : (body.post layout server).body ≠ "" ∧ bodyHalves root (body.post layout server).body = .empty ∧
      bodyValue .empty (body.post layout server).body = .ok body.json :=
    object_body root layout _ _ (scan_body_admitted body)
  refine ⟨written.2.1, ?_⟩
  have checked : readObject (readScanBody .empty) body.json = .ok body := by
    rw [ScanBody.json, readObject, ← ScanBody.json, read_scan_body]
  rw [readBody, if_neg written.1, if_pos rfl, written.2.2]
  exact checked

theorem handle_post (context : Context) (body : ScanBody) (layout : Json.Layout) (server : String) :
    handle context (body.post layout server) = scanFiles context .empty body := by
  obtain ⟨halves, read⟩ := read_post context.fs.root body layout server
  have typed : isJsonType "application/json" = true := by decide +kernel
  have json : (body.post layout server).hasJson = true := typed
  have served : Endpoint.serve context (body.post layout server) .scan = scanFiles context .empty body := by
    rw [Endpoint.serve, withBody, halves, json, read]
  have found : Endpoint.at? "/scan/" = some .scan := by decide
  have routed : route context (body.post layout server) = scanFiles context .empty body := by
    rw [route, ScanBody.post, found]
    exact served
  exact routed

/-! ### Scans without halves -/

theorem run_empty (s : List Char) : Text.Halves.empty.run? s = none := by
  have each (position : Nat) : Text.Halves.empty.firstRun? (fun _ => true) position s = none := by
    induction s generalizing position with
    | nil => rfl
    | cons c s ih => rw [Text.Halves.firstRun?, File.half_empty, if_neg (by simp), ih]
  exact each 0

theorem sending_whole (document : Json) (response : Response) (finite : document.finite = true) :
    sending .empty document response = .ok response := by
  rw [sending, if_pos finite, run_empty]

theorem report_whole (run : Run) : report .empty run = .ok (.ofJson 200 (runJson run)) := by
  have texts : (runJson run).texts.findSome? (fun text => Text.Halves.empty.run? text.toList) = none := by
    rw [List.findSome?_eq_none_iff]
    exact fun text _ => run_empty text.toList
  rw [report, texts]

-- What is asked for, with nothing excluded by default.
def ScanBody.plainRequest (body : ScanBody) : DocAudit.Request where
  directory := body.directory.map File.Path.ofString
  files := body.files
  exclude := body.exclude
  flags := body.flags

theorem plain_request (body : ScanBody) (settings : Settings) (none : settings.defaultExclude = []) :
    body.request .empty settings = body.plainRequest := by
  rw [ScanBody.request, none, List.nil_append, ScanBody.plainRequest]

end DocAudit.Service
