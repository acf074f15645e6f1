import Mathlib.Data.List.TakeWhile
import Anticheat.Daemon.GrowthTables
import Anticheat.Foundation.QuotedText

/-!
# Manifests of implicit layers

A manifest of an implicit Vulkan layer is a JSON file.  The daemon does not parse it:
it searches the text for the quoted name of a key and reads the string behind the colon
that has to follow.  A string value can end as a quoted key does.
`json_extract_string` then goes on with the next occurrence, while
`json_extract_disable_env` looks at the first occurrence only.

Main results:

- Theorem {lit}`jsonExtractDisableEnv_manifest`: what is read as the disable variable of
  a manifest.
- Theorem {lit}`manifest_round_trip_iff`: a manifest gives back its record exactly when
  no string in front of the disable variable ends as the quoted key does.
- Theorem {lit}`decoy_description_hides_variable`: a description that is the key hides
  the variable.
-/

namespace Anticheat

open Foundation Quoted

/-! ## The extractors -/

/-- `AC_MANIFEST_STR_LEN` -/
def acManifestStrLen : Nat := 256

/-- The string that is copied to a buffer from behind an opening quote. -/
def copyString (outsz : Nat) (q : List UInt8) : CStr :=
  -- the buffer is used as a C string
  (CStr.bounded outsz (unquote q)).takeWhile fun c => c != 0

/-- The string behind a key: a colon, an opening quote and the string. -/
def stringValue (outsz : Nat) (q : List UInt8) : Option CStr :=
  ((expect 58 q).bind (expect 34)).map (copyString outsz)

/-- The first key of the object behind a key: a colon, an opening brace, an opening quote
and the string. -/
def firstKey (outsz : Nat) (q : List UInt8) : Option CStr :=
  (((expect 58 q).bind (expect 123)).bind (expect 34)).map (copyString outsz)

/-- `json_extract_string`: every occurrence of the quoted key is tried. -/
def jsonExtractString (json : List UInt8) (key : CStr) (outsz : Nat) : Option CStr :=
  -- the needle has to fit its buffer
  if (needle key).length ≥ 64 then none
  else (occurrences (needle key) json).findSome? (stringValue outsz)

/-- `json_extract_disable_env`: only the first occurrence of the quoted key is tried. -/
def jsonExtractDisableEnv (json : List UInt8) (outsz : Nat) : Option CStr :=
  (occurrences (needle (CStr.ascii "disable_environment")) json).head?.bind (firstKey outsz)

/-! ## A manifest as it is written -/

/-- `isprint` -/
def isPrint (c : UInt8) : Bool :=
  32 ≤ c && c ≤ 126

/-- The strings of a manifest, of printable characters. -/
structure LayerRecord where
  name : CStr
  libraryPath : CStr
  description : CStr
  disableEnv : CStr
  disableValue : CStr
  name_print : name.all isPrint = true
  libraryPath_print : libraryPath.all isPrint = true
  description_print : description.all isPrint = true
  disableEnv_print : disableEnv.all isPrint = true
  disableValue_print : disableValue.all isPrint = true

/-- A key, its string value and a comma, with white space before every token. -/
def member (ws : Nat → Gap) (i : Nat) (key value : CStr) (rest : List UInt8) : List UInt8 :=
  str (ws i) key <| punct (ws (i + 1)) .colon <|
  str (ws (i + 2)) value <| punct (ws (i + 3)) .comma rest

/-- The text of the layer object, from its first key on, and of what follows it. -/
def layerText (ws : Nat → Gap) (r : LayerRecord) : List UInt8 :=
  member ws 8 (CStr.ascii "name") r.name <|
  member ws 12 (CStr.ascii "library_path") r.libraryPath <|
  member ws 16 (CStr.ascii "description") r.description <|
  str (ws 20) (CStr.ascii "disable_environment") <|
  punct (ws 21) .colon <| punct (ws 22) .openBrace <|
  str (ws 23) r.disableEnv <| punct (ws 24) .colon <| str (ws 25) r.disableValue <|
  punct (ws 26) .closeBrace <| punct (ws 27) .closeBrace <|
  punct (ws 28) .closeBrace (ws 29).bytes

/-- The text of a manifest, with white space before every token and at the end. -/
def manifestText (ws : Nat → Gap) (r : LayerRecord) : List UInt8 :=
  punct (ws 0) .openBrace <|
  member ws 1 (CStr.ascii "file_format_version") (CStr.ascii "1.0.0") <|
  str (ws 5) (CStr.ascii "layer") <| punct (ws 6) .colon <| punct (ws 7) .openBrace <|
  layerText ws r

/-! ## Reading a manifest -/

theorem copyString_escape {s : CStr} (hs : s.all isPrint = true) (outsz : Nat)
    (rest : List UInt8) : copyString outsz (escape s ++ 34 :: rest) = CStr.bounded outsz s := by
  rw [copyString, unquote_quoted, List.takeWhile_eq_self_iff]
  intro c hc
  have hprint : isPrint c = true := List.all_eq_true.mp hs c (List.mem_of_mem_take hc)
  rw [bne_iff_ne]
  rintro rfl
  contradiction

section

variable {w : CStr} (ws : Nat → Gap) (outsz : Nat) (rest : List UInt8)

/-- Behind a value stands a comma. -/
theorem stringValue_comma (gap : Gap) : stringValue outsz (punct gap .comma rest) = none := by
  rw [stringValue, expect_punct gap]
  rfl

theorem stringValue_str (gap gap' : Gap) {s : CStr} (hs : s.all isPrint = true) :
    stringValue outsz (punct gap .colon (str gap' s rest)) = some (CStr.bounded outsz s) := by
  rw [stringValue, expect_punct gap, Punct.byte, if_pos rfl, Option.bind_some, expect_str,
    Option.map_some, copyString_escape hs]

theorem firstKey_comma (gap : Gap) : firstKey outsz (punct gap .comma rest) = none := by
  rw [firstKey, expect_punct gap]
  rfl

theorem firstKey_object (gap gap' gap'' : Gap) {s : CStr} (hs : s.all isPrint = true) :
    firstKey outsz (punct gap .colon (punct gap' .openBrace (str gap'' s rest))) =
      some (CStr.bounded outsz s) := by
  rw [firstKey, expect_punct gap, Punct.byte, if_pos rfl, Option.bind_some,
    expect_punct gap', Punct.byte, if_pos rfl, Option.bind_some, expect_str, Option.map_some,
    copyString_escape hs]

/-- A member is passed with one occurrence behind its key, if that is searched for, and
one behind its value, if that is a decoy. -/
theorem occurrences_member (hw : IsWord w) (i : Nat) (key value : CStr) :
    occurrences (needle w) (member ws i key value rest) =
      (if Decoy w key then
        [punct (ws (i + 1)) .colon (str (ws (i + 2)) value (punct (ws (i + 3)) .comma rest))]
        else []) ++
      ((if Decoy w value then [punct (ws (i + 3)) .comma rest] else []) ++
        occurrences (needle w) rest) := by
  rw [member, occurrences_str hw, occurrences_str hw]

/-- A member that is not searched for leaves no string, even if its value is a decoy. -/
theorem findSome_member (hw : IsWord w) (i : Nat) {key : CStr} (hkey : ¬Decoy w key)
    (value : CStr) :
    (occurrences (needle w) (member ws i key value rest)).findSome? (stringValue outsz) =
      (occurrences (needle w) rest).findSome? (stringValue outsz) := by
  rw [occurrences_member ws rest hw, if_neg hkey, List.nil_append]
  split
  · rw [List.singleton_append, List.findSome?_cons_of_isNone]
    rw [stringValue_comma]
    rfl
  · rfl

/-- A member that is searched for gives its string. -/
theorem findSome_member_self (hw : IsWord w) (i : Nat) {value : CStr}
    (hvalue : value.all isPrint = true) :
    (occurrences (needle w) (member ws i w value rest)).findSome? (stringValue outsz) =
      some (CStr.bounded outsz value) := by
  rw [occurrences_member ws rest hw, if_pos (.inl rfl), List.singleton_append,
    List.findSome?_cons, stringValue_str _ _ _ _ hvalue]

/-- If only the first occurrence counts, a value that is a decoy ends the search. -/
theorem head_member (hw : IsWord w) (i : Nat) {key : CStr} (hkey : ¬Decoy w key) (value : CStr) :
    (occurrences (needle w) (member ws i key value rest)).head?.bind (firstKey outsz) =
      if Decoy w value then none
      else (occurrences (needle w) rest).head?.bind (firstKey outsz) := by
  rw [occurrences_member ws rest hw, if_neg hkey, List.nil_append]
  split
  · rw [List.singleton_append, List.head?_cons, Option.bind_some, firstKey_comma]
  · rfl

/-- The first occurrence is the key that is searched for. -/
theorem head_key (gap₁ gap₂ gap₃ gap₄ : Gap) (hw : IsWord w) {s : CStr}
    (hs : s.all isPrint = true) :
    (occurrences (needle w)
        (str gap₁ w (punct gap₂ .colon (punct gap₃ .openBrace (str gap₄ s rest))))).head?.bind
          (firstKey outsz) = some (CStr.bounded outsz s) := by
  rw [occurrences_str hw, if_pos (.inl rfl), List.singleton_append, List.head?_cons,
    Option.bind_some, firstKey_object _ _ _ _ _ hs]

end

theorem isWord_name : IsWord (CStr.ascii "name") :=
  ⟨by decide, List.all_eq_true.mp (by decide)⟩

theorem isWord_libraryPath : IsWord (CStr.ascii "library_path") :=
  ⟨by decide, List.all_eq_true.mp (by decide)⟩

theorem isWord_disableEnvironment : IsWord (CStr.ascii "disable_environment") :=
  ⟨by decide, List.all_eq_true.mp (by decide)⟩

section

variable (ws : Nat → Gap) (r : LayerRecord) (outsz : Nat)

/-- A key that none of the fixed strings in front hits is searched for in the layer
object. -/
theorem occurrences_manifestText {w : CStr} (hw : IsWord w)
    (hfront : ∀ s ∈ [CStr.ascii "file_format_version", CStr.ascii "1.0.0", CStr.ascii "layer"],
      ¬Decoy w s) :
    occurrences (needle w) (manifestText ws r) = occurrences (needle w) (layerText ws r) := by
  simp only [List.forall_mem_cons] at hfront
  obtain ⟨hkey, hvalue, hlayer, -⟩ := hfront
  rw [manifestText, occurrences_punct, occurrences_member _ _ hw, if_neg hkey, if_neg hvalue,
    occurrences_str hw, if_neg hlayer, occurrences_punct]
  rfl

theorem jsonExtractString_name :
    jsonExtractString (manifestText ws r) (CStr.ascii "name") outsz =
      some (CStr.bounded outsz r.name) := by
  have hw := isWord_name
  rw [jsonExtractString, if_neg (by decide), occurrences_manifestText ws r hw (by decide),
    layerText, findSome_member_self _ _ _ hw _ r.name_print]

theorem jsonExtractString_libraryPath :
    jsonExtractString (manifestText ws r) (CStr.ascii "library_path") outsz =
      some (CStr.bounded outsz r.libraryPath) := by
  have hw := isWord_libraryPath
  rw [jsonExtractString, if_neg (by decide), occurrences_manifestText ws r hw (by decide),
    layerText, findSome_member _ _ _ hw _ (by decide),
    findSome_member_self _ _ _ hw _ r.libraryPath_print]

/-- The disable variable is read unless a string in front of it is a decoy. -/
theorem jsonExtractDisableEnv_manifest :
    jsonExtractDisableEnv (manifestText ws r) outsz =
      if ∃ s ∈ [r.name, r.libraryPath, r.description], Decoy (CStr.ascii "disable_environment") s
      then none else some (CStr.bounded outsz r.disableEnv) := by
  have hw := isWord_disableEnvironment
  rw [jsonExtractDisableEnv, occurrences_manifestText ws r hw (by decide), layerText,
    head_member _ _ _ hw _ (by decide), head_member _ _ _ hw _ (by decide),
    head_member _ _ _ hw _ (by decide), head_key _ _ _ _ _ _ hw r.disableEnv_print]
  by_cases hname : Decoy (CStr.ascii "disable_environment") r.name
  · simp [hname]
  · by_cases hpath : Decoy (CStr.ascii "disable_environment") r.libraryPath
    · simp [hpath]
    · simp [hname, hpath]

/-- A manifest gives back its record, each string cut to 255 bytes, exactly when no string
in front of the disable variable is a decoy of its key. -/
theorem manifest_round_trip_iff :
    (jsonExtractString (manifestText ws r) (CStr.ascii "name") acManifestStrLen =
        some (r.name.take 255) ∧
      jsonExtractString (manifestText ws r) (CStr.ascii "library_path") acManifestStrLen =
        some (r.libraryPath.take 255) ∧
      jsonExtractDisableEnv (manifestText ws r) acManifestStrLen =
        some (r.disableEnv.take 255)) ↔
      ∀ s ∈ [r.name, r.libraryPath, r.description],
        ¬Decoy (CStr.ascii "disable_environment") s := by
  have hname : jsonExtractString (manifestText ws r) (CStr.ascii "name") acManifestStrLen =
      some (r.name.take 255) := jsonExtractString_name ws r acManifestStrLen
  have hpath : jsonExtractString (manifestText ws r) (CStr.ascii "library_path")
      acManifestStrLen = some (r.libraryPath.take 255) :=
    jsonExtractString_libraryPath ws r acManifestStrLen
  rw [and_iff_right hname, and_iff_right hpath, jsonExtractDisableEnv_manifest]
  constructor
  · intro hread s hs hdecoy
    rw [if_pos ⟨s, hs, hdecoy⟩] at hread
    contradiction
  · intro hall
    rw [if_neg]
    · rfl
    · rintro ⟨s, hs, hdecoy⟩
      exact hall s hs hdecoy

end

/-- A layer whose description is the key that follows. -/
def decoyRecord : LayerRecord where
  name := CStr.ascii "VK_LAYER_x"
  libraryPath := CStr.ascii "/x.so"
  description := CStr.ascii "disable_environment"
  disableEnv := CStr.ascii "NO_X"
  disableValue := CStr.ascii "1"
  name_print := by decide
  libraryPath_print := by decide
  description_print := by decide
  disableEnv_print := by decide
  disableValue_print := by decide

/-- One space. -/
def spaceGap : Gap where
  bytes := [32]
  spaces := List.forall_mem_singleton.mpr rfl

/-- With one space before every token, its disable variable is not found. -/
theorem decoy_description_hides_variable :
    (manifestText (fun _ => spaceGap) decoyRecord).length < 64 * 1024 ∧
      jsonExtractDisableEnv (manifestText (fun _ => spaceGap) decoyRecord) acManifestStrLen =
        none := by
  decide +kernel

end Anticheat
