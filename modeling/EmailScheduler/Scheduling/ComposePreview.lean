import EmailScheduler.Foundation.Utf8
import EmailScheduler.Scheduling.LeadFormats

/-!
# The preview of a lead file

`previewLeadFile` of the compose form, in `components/ComposeModal.tsx`, and the text files for
which it shows the numbers of `parseLeadFile`.

Both sides split a text into the same values and accept the same addresses. They count duplicates
differently: the preview puts whole addresses in lower case, the parser only their domains. So the
preview finds fewer valid addresses exactly where two of them differ in the case of their local
parts (`preview_agrees_iff`).
-/

set_option autoImplicit false

namespace EmailScheduler

open Foundation

/-- What the preview calls besides the address check: `Papa.parse`, with its rows and the codes of
its errors, and `toLocaleString`, which depends on the language of the browser. -/
structure PreviewLibraries where
  parseCsv : String → List (List String) × List String
  toLocaleString : Int → String

structure LeadPreview where
  detected : Nat
  valid : Nat
  invalid : Nat
  duplicate : Nat
deriving DecidableEq, Repr

/-- A text without one byte order mark. -/
def withoutMark (chars : List Char) : List Char :=
  if chars.head? = some (Char.ofNat 65279) then chars.tail else chars

/-- `file.text()`. -/
def fileText (buffer : ByteArray) : String := .ofList (withoutMark (decodeText buffer).toList)

/-- `file.name.toLowerCase().endsWith(".csv")`. -/
def isCsvName (name : String) : Bool := ['.', 'c', 's', 'v'].isSuffixOf (toLowerCase name).toList

variable (browser : PreviewLibraries) (lib : Libraries)

/-- `values`, or the message of the error. -/
def previewValues (name text : String) : Except String (List String) :=
  if isCsvName name then
    let (rows, errors) := browser.parseCsv text
    if errors.any fun code => code != "UndetectableDelimiter" then
      .error "The CSV preview could not be parsed"
    else
      let first := rows.head?.getD []
      let emailColumn := first.findIdx? fun value => toLowerCase (trim value) == "email"
      let start := if emailColumn.isSome then 1 else 0
      let column := emailColumn.getD 0
      if emailColumn.isNone && rows.any fun row => row.length != 1 then
        .error "A multi-column CSV needs an email header"
      else .ok ((rows.drop start).map fun row => row.getD column "")
  else
    .ok (((splitLines text.toList).flatMap fun line => (line.splitOn ',').map String.ofList).filter
      fun value => decide (0 < utf16Length (trim value)))

/-- The variables of the loop. -/
structure PreviewProgress where
  seen : List String := []
  valid : Nat := 0
  invalid : Nat := 0
  duplicate : Nat := 0
deriving DecidableEq, Repr

/-- One round of the loop. -/
def previewValue (progress : PreviewProgress) (value : String) : PreviewProgress :=
  let email := trim value
  if !emailSchema lib email then { progress with invalid := progress.invalid + 1 }
  else if progress.seen.contains (toLowerCase email) then
    { progress with duplicate := progress.duplicate + 1 }
  else
    { progress with
      seen := toLowerCase email :: progress.seen
      valid := progress.valid + 1 }

/-- `previewLeadFile`, on the file that is uploaded. -/
def previewLeadFile (file : LeadFile) (maxLeads : Int) : Except String LeadPreview := do
  let values ← previewValues browser file.originalname (fileText file.buffer)
  if maxLeads < values.length then
    throw ("The file exceeds the " ++ browser.toLocaleString maxLeads ++ " lead limit")
  let progress := values.foldl (previewValue lib) {}
  return ⟨values.length, progress.valid, progress.invalid, progress.duplicate⟩

/-! ## The loop -/

/-- The accepted addresses, in order. -/
def addresses (values : List String) : List String := (values.map trim).filter (emailSchema lib)

/-- The other values. -/
def rejected (values : List String) : List String :=
  (values.map trim).filter fun email => !emailSchema lib email

/-- The variables of the loop after these values. -/
def previewAfter (values : List String) : PreviewProgress where
  seen := ((addresses lib values).map toLowerCase).eraseDups.reverse
  valid := ((addresses lib values).map toLowerCase).eraseDups.length
  invalid := (rejected lib values).length
  duplicate := (addresses lib values).length -
    ((addresses lib values).map toLowerCase).eraseDups.length

variable {browser lib}

theorem addresses_concat (values : List String) {value : String}
    (h : emailSchema lib (trim value) = true) :
    addresses lib (values ++ [value]) = addresses lib values ++ [trim value] ∧
      rejected lib (values ++ [value]) = rejected lib values := by
  simp [addresses, rejected, h]

theorem rejected_concat (values : List String) {value : String}
    (h : emailSchema lib (trim value) = false) :
    addresses lib (values ++ [value]) = addresses lib values ∧
      rejected lib (values ++ [value]) = rejected lib values ++ [trim value] := by
  simp [addresses, rejected, h]

/-- One round. -/
theorem previewValue_previewAfter (values : List String) (value : String) :
    previewValue lib (previewAfter lib values) value = previewAfter lib (values ++ [value]) := by
  have hle := length_eraseDups_le ((addresses lib values).map toLowerCase)
  rw [List.length_map] at hle
  unfold previewValue previewAfter
  dsimp only
  cases haccepted : emailSchema lib (trim value) with
  | false =>
      obtain ⟨haddresses, hrejected⟩ := rejected_concat values haccepted
      rw [haddresses, hrejected, List.length_append, List.length_singleton]
      rfl
  | true =>
      obtain ⟨haddresses, hrejected⟩ := addresses_concat values haccepted
      rw [haddresses, hrejected, List.map_append, List.map_singleton, eraseDups_concat]
      by_cases hseen : toLowerCase (trim value) ∈ (addresses lib values).map toLowerCase
      · have hcontains : (((addresses lib values).map toLowerCase).eraseDups.reverse).contains
            (toLowerCase (trim value)) = true := by
          rw [List.contains_iff_mem, List.mem_reverse, List.mem_eraseDups]
          exact hseen
        rw [hcontains, if_pos hseen, List.append_nil, List.length_append, List.length_singleton,
          Nat.sub_add_comm hle]
        rfl
      · have hcontains : (((addresses lib values).map toLowerCase).eraseDups.reverse).contains
            (toLowerCase (trim value)) = false := by
          rw [Bool.eq_false_iff, Ne, List.contains_iff_mem, List.mem_reverse, List.mem_eraseDups]
          exact hseen
        rw [hcontains, if_neg hseen, List.reverse_append, List.length_append, List.length_append,
          List.length_singleton, List.length_singleton, Nat.add_sub_add_right]
        rfl

/-- **The loop in closed form**, by induction from the end of the values. -/
theorem foldl_previewValue (values : List String) :
    values.foldl (previewValue lib) {} = previewAfter lib values := by
  induction values using List.reverseRecOn with
  | nil => rfl
  | append_singleton values value ih =>
      rw [List.foldl_concat, ih]
      exact previewValue_previewAfter values value

/-! ## The parser, in the same terms -/

/-- `z.email()` accepts no control character. -/
def RejectsControls (lib : Libraries) : Prop :=
  ∀ email, lib.isEmail email = true → ∀ c ∈ email.toList, isControl c = false

/-- The lead of an accepted address. -/
def leadOf (email : String) : ParsedLead := ⟨lowerDomain email, lowerDomain email⟩

theorem normalizeEmail_of_accepted (hlib : RejectsControls lib) (value : String) :
    normalizeEmail lib value =
      if emailSchema lib (trim value) then some (leadOf (trim value)) else none := by
  cases haccepted : emailSchema lib (trim value) with
  | false => simp [normalizeEmail, haccepted]
  | true =>
      have hemail : lib.isEmail (trim value) = true := (Bool.and_eq_true_iff.1 haccepted).1
      have hcontrol : (trim value).toList.any isControl = false := by
        rw [List.any_eq_false]
        intro c hc
        rw [hlib _ hemail c hc]
        exact Bool.false_ne_true
      simp [normalizeEmail, haccepted, hcontrol, leadOf]

/-- The valid candidates are the accepted addresses, and the invalid ones the others. -/
theorem validLeads_addresses (hlib : RejectsControls lib) (candidates : List Candidate) :
    validLeads lib candidates = (addresses lib (candidates.map Candidate.value)).map leadOf ∧
      (candidates.filter (isInvalid lib)).length =
        (rejected lib (candidates.map Candidate.value)).length := by
  induction candidates with
  | nil => exact ⟨rfl, rfl⟩
  | cons candidate candidates ih =>
      obtain ⟨hleads, hinvalid⟩ := ih
      unfold validLeads addresses rejected at *
      have hvalue := normalizeEmail_of_accepted hlib candidate.value
      cases haccepted : emailSchema lib (trim candidate.value) with
      | false =>
          rw [haccepted] at hvalue
          simp [isInvalid, hvalue, haccepted, hleads, hinvalid]
      | true =>
          rw [haccepted] at hvalue
          simp [isInvalid, hvalue, haccepted, hleads, hinvalid]

/-! ## The file -/

/-- A byte order mark is white space, so it makes no difference at the beginning of a text. -/
theorem trimmed_textValues_mark (chars : List Char) :
    (textValues (.ofList (Char.ofNat 65279 :: chars))).map trim =
      (textValues (.ofList chars)).map trim := by
  obtain ⟨line, lines, hlines⟩ := List.exists_cons_of_ne_nil (splitLines_ne_nil chars)
  have hfields : line.splitOn ',' ≠ [] := List.splitOnP_ne_nil _ _
  obtain ⟨field, fields, hfields⟩ := List.exists_cons_of_ne_nil hfields
  have hmark : splitLines (Char.ofNat 65279 :: chars) = (Char.ofNat 65279 :: line) :: lines := by
    rw [splitLines_cons (by decide) (by decide), hlines, List.modifyHead_cons]
  have hfirst : (Char.ofNat 65279 :: line).splitOn ',' = (Char.ofNat 65279 :: field) :: fields := by
    have hcons := List.splitOnP_cons_eq_if_modifyHead (p := (· == ',')) (Char.ofNat 65279) line
    rw [if_neg (by decide)] at hcons
    rw [List.splitOn, hcons]
    rw [List.splitOn] at hfields
    rw [hfields, List.modifyHead_cons]
  have htrim : trim (.ofList (Char.ofNat 65279 :: field)) = trim (.ofList field) := by
    unfold trim
    rw [String.toList_ofList, String.toList_ofList, List.dropWhile_cons, if_pos (by decide)]
  unfold textValues
  rw [String.toList_ofList, String.toList_ofList, hmark, hlines,
    List.flatMap_cons, List.flatMap_cons,
    hfirst, hfields, List.map_cons, List.map_cons, List.cons_append, List.cons_append,
    List.filter_cons, List.filter_cons, htrim]
  split
  · rw [List.map_cons, List.map_cons, htrim]
  · rfl

/-- The preview and the parser read the same values from a text, up to white space. -/
theorem trimmed_textValues_fileText {buffer : ByteArray} {text content : String}
    (hvalid : String.fromUTF8? buffer = some text) (hdecode : decodeUtf8 buffer = .ok content) :
    (textValues (fileText buffer)).map trim = (textValues content).map trim := by
  have hcontent : content = .ofList (withoutMark (withoutMark text.toList)) := by
    unfold decodeUtf8 at hdecode
    rw [hvalid] at hdecode
    exact (Except.ok.inj hdecode).symm
  unfold fileText
  rw [decodeText_of_valid hvalid, hcontent]
  generalize withoutMark text.toList = chars
  cases chars with
  | nil => rfl
  | cons c chars =>
      by_cases hmark : c = Char.ofNat 65279
      · have hremoved : withoutMark (c :: chars) = chars := if_pos (by rw [hmark]; rfl)
        rw [hremoved, hmark]
        exact trimmed_textValues_mark chars
      · have hkept : withoutMark (c :: chars) = c :: chars :=
          if_neg fun heq => hmark (Option.some.inj heq)
        rw [hkept]

/-- A name that does not end in a slash ends like its last part. -/
theorem getLast?_basename {name : String} {c : Char} (h : name.toList.getLast? = some c)
    (hslash : c ≠ '/') : (basename name).toList.getLast? = some c := by
  obtain ⟨before, hname⟩ := List.getLast?_eq_some_iff.1 h
  unfold basename
  rw [hname, String.toList_ofList, List.reverse_append, List.reverse_singleton,
    List.singleton_append,
    List.dropWhile_cons, if_neg (by simpa using hslash), List.takeWhile_cons,
    if_pos (by simpa using hslash), List.reverse_cons, List.getLast?_concat]

/-- An extension that is not empty ends like the last part of the path. -/
theorem getLast?_extname {name : String} (h : extname name ≠ "") :
    (extname name).toList.getLast? = (basename name).toList.getLast? := by
  unfold extname at h ⊢
  dsimp only at h ⊢
  split at h
  next => exact absurd rfl h
  next => exact absurd rfl h
  next i _ heq =>
    split at h
    next => exact absurd rfl h
    next hdots =>
      rw [if_neg hdots, String.toList_ofList, List.getLast?_drop, if_neg]
      intro hle
      rw [List.drop_eq_nil_of_le hle] at h
      exact h rfl

/-- The name of a text file does not end in `.csv`. -/
theorem not_isCsvName_of_txt {name : String} (h : toLowerCase (extname name) = ".txt") :
    isCsvName name = false := by
  rw [Bool.eq_false_iff]
  intro hcsv
  unfold isCsvName at hcsv
  rw [toLowerCase, String.toList_ofList, List.isSuffixOf_iff_suffix] at hcsv
  -- The last character of the name is a `v` or a `V`, so it is the last one of the extension.
  have hlast : (name.toList.map Char.toLower).getLast? = some 'v' := by
    obtain ⟨before, hname⟩ := hcsv
    rw [← hname, List.getLast?_append]
    rfl
  rw [List.getLast?_map, Option.map_eq_some_iff] at hlast
  obtain ⟨c, hc, hv⟩ := hlast
  have hslash : c ≠ '/' := by
    rintro rfl
    revert hv
    decide
  have hsome : extname name ≠ "" := by
    intro hempty
    rw [hempty] at h
    revert h
    decide
  have hext := getLast?_extname hsome
  rw [getLast?_basename hc hslash] at hext
  have htxt : (toLowerCase (extname name)).toList.getLast? = some 't' := by
    rw [h]
    decide
  rw [toLowerCase, String.toList_ofList, List.getLast?_map, hext, Option.map_some, hv] at htxt
  revert htxt
  decide

/-! ## Where the numbers agree -/

theorem toLowerCase_eq_iff {a b : String} :
    toLowerCase a = toLowerCase b ↔ SameUpToCase a.toList b.toList := by
  rw [toLowerCase, toLowerCase, String.ofList_inj]
  rfl

/-- An address in lower case is its local part and its domain in lower case. -/
theorem map_toLower_address {a : String} (h : '@' ∈ a.toList) :
    a.toList.map Char.toLower = (addressParts a).1.map Char.toLower ++
      '@' :: (addressParts a).2.map Char.toLower := by
  have hparts := congrArg String.toList (eq_of_at_mem h).1
  rw [String.toList_ofList] at hparts
  conv_lhs => rw [hparts]
  rw [List.map_append, List.map_cons]
  rfl

section Addresses

variable {a b : String}

/-- Addresses with one normal form are equal in lower case. -/
theorem toLowerCase_eq_of_leadOf (ha : '@' ∈ a.toList) (hb : '@' ∈ b.toList)
    (h : leadOf a = leadOf b) : toLowerCase a = toLowerCase b := by
  obtain ⟨hlocal, hdomain⟩ := (lowerDomain_inj_iff ha hb).1 (congrArg ParsedLead.email h)
  rw [toLowerCase_eq_iff, SameUpToCase, map_toLower_address ha, map_toLower_address hb,
    hlocal, hdomain]

/-- Addresses that are equal in lower case have one normal form if their local parts are equal. -/
theorem leadOf_eq_iff (ha : '@' ∈ a.toList) (hb : '@' ∈ b.toList)
    (h : SameUpToCase a.toList b.toList) :
    leadOf a = leadOf b ↔ (addressParts a).1 = (addressParts b).1 := by
  rw [leadOf, leadOf, ParsedLead.mk.injEq, and_self, lowerDomain_inj_iff ha hb]
  constructor
  · rintro ⟨hlocal, -⟩
    exact hlocal
  · intro hlocal
    rw [SameUpToCase, map_toLower_address ha, map_toLower_address hb, hlocal] at h
    exact ⟨hlocal, (List.cons.inj (List.append_cancel_left h)).2⟩

end Addresses

/-- The preview shows the numbers of the parser. -/
structure PreviewAgrees (preview : LeadPreview) (result : LeadParseResult) : Prop where
  detected : preview.detected = result.totalRows
  valid : preview.valid = result.leads.length
  invalid : preview.invalid = result.invalidCount
  duplicate : preview.duplicate = result.duplicateCount

/-- Valid addresses of a text that are equal in lower case have equal local parts. -/
def LocalPartsAgree (lib : Libraries) (content : String) : Prop :=
  ∀ v ∈ textValues content, ∀ w ∈ textValues content,
    normalizeEmail lib v ≠ none → normalizeEmail lib w ≠ none →
      SameUpToCase (trim v).toList (trim w).toList →
        (addressParts (trim v)).1 = (addressParts (trim w)).1

/-- The accepted addresses of a text are those of the values with a normal form. -/
theorem mem_addresses_textValues (hcontrol : RejectsControls lib) {content a : String} :
    a ∈ addresses lib (textValues content) ↔
      ∃ v ∈ textValues content, normalizeEmail lib v ≠ none ∧ trim v = a := by
  rw [addresses, List.mem_filter]
  constructor
  · rintro ⟨hmap, haccepted⟩
    obtain ⟨v, hv, rfl⟩ := List.mem_map.1 hmap
    refine ⟨v, hv, ?_, rfl⟩
    rw [normalizeEmail_of_accepted hcontrol, if_pos haccepted]
    exact Option.some_ne_none _
  · rintro ⟨v, hv, hsome, rfl⟩
    refine ⟨List.mem_map_of_mem hv, ?_⟩
    rw [normalizeEmail_of_accepted hcontrol] at hsome
    by_contra hnot
    exact hsome (if_neg hnot)

theorem at_mem_of_mem_addresses (hlib : AddressSchema lib) {values : List String} {a : String}
    (h : a ∈ addresses lib values) : '@' ∈ a.toList :=
  hlib.hasAt a (Bool.and_eq_true_iff.1 (List.mem_filter.1 h).2).1

/-- Local parts agree where the addresses that the preview takes for one are one to the parser. -/
theorem localPartsAgree_iff (hlib : AddressSchema lib) (hcontrol : RejectsControls lib)
    {content : String} :
    (∀ a ∈ addresses lib (textValues content), ∀ b ∈ addresses lib (textValues content),
        toLowerCase a = toLowerCase b → leadOf a = leadOf b) ↔ LocalPartsAgree lib content := by
  constructor
  · intro h v hv w hw hvsome hwsome hsame
    have hv' := (mem_addresses_textValues hcontrol).2 ⟨v, hv, hvsome, rfl⟩
    have hw' := (mem_addresses_textValues hcontrol).2 ⟨w, hw, hwsome, rfl⟩
    exact (leadOf_eq_iff (at_mem_of_mem_addresses hlib hv')
      (at_mem_of_mem_addresses hlib hw') hsame).1
      (h _ hv' _ hw' (toLowerCase_eq_iff.2 hsame))
  · intro h a ha b hb hsame
    rw [toLowerCase_eq_iff] at hsame
    rw [leadOf_eq_iff (at_mem_of_mem_addresses hlib ha) (at_mem_of_mem_addresses hlib hb) hsame]
    obtain ⟨v, hv, hvsome, rfl⟩ := (mem_addresses_textValues hcontrol).1 ha
    obtain ⟨w, hw, hwsome, rfl⟩ := (mem_addresses_textValues hcontrol).1 hb
    exact h v hv w hw hvsome hwsome hsame

/-- What the preview and the parser count in the same values. -/
theorem previewAgrees_iff (hlib : AddressSchema lib) (hcontrol : RejectsControls lib)
    {values : List String} {content : String}
    (hvalues : values.map trim = (textValues content).map trim) :
    PreviewAgrees ⟨values.length, (previewAfter lib values).valid,
      (previewAfter lib values).invalid,
        (previewAfter lib values).duplicate⟩ (parseCandidates lib (textCandidates content)) ↔
      LocalPartsAgree lib content := by
  have hlength := congrArg List.length hvalues
  rw [List.length_map, List.length_map] at hlength
  have haddresses : addresses lib values = addresses lib (textValues content) := by
    rw [addresses, addresses, hvalues]
  have hrejected : rejected lib values = rejected lib (textValues content) := by
    rw [rejected, rejected, hvalues]
  obtain ⟨hleads, hinvalid⟩ := validLeads_addresses hcontrol (textCandidates content)
  rw [values_textCandidates] at hleads hinvalid
  have htotal : (textCandidates content).length = (textValues content).length := by
    rw [← values_textCandidates, List.length_map]
  -- There are as many different addresses in lower case as leads.
  have hcount := length_eraseDups_map_eq_iff (f := toLowerCase) (g := leadOf)
    (l := addresses lib (textValues content)) fun a ha b hb =>
      toLowerCase_eq_of_leadOf (at_mem_of_mem_addresses hlib ha) (at_mem_of_mem_addresses hlib hb)
  rw [← localPartsAgree_iff hlib hcontrol, ← hcount, parseCandidates_eq, hleads]
  unfold previewAfter
  rw [haddresses, hrejected]
  constructor
  · rintro ⟨-, hvalid, -, -⟩
    exact hvalid
  · intro hvalid
    refine ⟨hlength.trans htotal.symm, hvalid, hinvalid.symm, ?_⟩
    dsimp only
    rw [hvalid, List.length_map]

/-- A supported text file with valid UTF-8 and at most `maxLeads` candidates. -/
structure TextUpload (file : LeadFile) (maxLeads : Int) (content : String) : Prop where
  supported : isSupported file = true
  txt : toLowerCase (extname file.originalname) = ".txt"
  decoded : decodeUtf8 file.buffer = .ok content
  withinMax : ((textCandidates content).length : Int) ≤ maxLeads

variable {file : LeadFile} {maxLeads : Int} {content : String}

/-- The values that the preview takes from a text file. -/
theorem previewValues_of_txt (h : TextUpload file maxLeads content) :
    previewValues browser file.originalname (fileText file.buffer) =
      .ok (textValues (fileText file.buffer)) := by
  unfold previewValues
  rw [not_isCsvName_of_txt h.txt, if_neg Bool.false_ne_true]
  rfl

/-- They are the values of the parser, up to white space. -/
theorem trimmed_textValues_of_txt (h : TextUpload file maxLeads content) :
    (textValues (fileText file.buffer)).map trim = (textValues content).map trim := by
  have hdecoded := h.decoded
  cases htext : String.fromUTF8? file.buffer with
  | none =>
      unfold decodeUtf8 at hdecoded
      rw [htext] at hdecoded
      exact nomatch hdecoded
  | some text => exact trimmed_textValues_fileText htext hdecoded

/-- The numbers of the preview. -/
theorem previewLeadFile_of_txt (h : TextUpload file maxLeads content) :
    previewLeadFile browser lib file maxLeads =
      .ok ⟨(textValues (fileText file.buffer)).length,
        (previewAfter lib (textValues (fileText file.buffer))).valid,
        (previewAfter lib (textValues (fileText file.buffer))).invalid,
        (previewAfter lib (textValues (fileText file.buffer))).duplicate⟩ := by
  have hlength : (textValues (fileText file.buffer)).length = (textCandidates content).length := by
    have hmap := congrArg List.length (trimmed_textValues_of_txt h)
    rw [List.length_map, List.length_map] at hmap
    rw [hmap, ← values_textCandidates content, List.length_map]
  have hmax : ¬ maxLeads < ((textValues (fileText file.buffer)).length : Int) := by
    rw [hlength]
    exact Int.not_lt.2 h.withinMax
  unfold previewLeadFile
  rw [previewValues_of_txt h, ← foldl_previewValue]
  dsimp only [bind, Except.bind]
  rw [if_neg hmax]
  rfl

/-- **The preview agrees with the parser exactly where local parts agree.** -/
theorem preview_agrees_iff (browser : PreviewLibraries) (lib : Libraries) (hlib : AddressSchema lib)
    (hcontrol : RejectsControls lib) (file : LeadFile) (maxLeads : Int) (content : String)
    (hfile : TextUpload file maxLeads content) :
    ∃ preview result, previewLeadFile browser lib file maxLeads = .ok preview ∧
      parseLeadFile lib file maxLeads = .ok result ∧
      (PreviewAgrees preview result ↔ LocalPartsAgree lib content) :=
  ⟨_, _, previewLeadFile_of_txt hfile,
    parseLeadFile_of_candidates hfile.supported hfile.decoded (fileCandidates_of_txt hfile.txt)
      hfile.withinMax,
    previewAgrees_iff hlib hcontrol (trimmed_textValues_of_txt hfile)⟩

/-! ## Two files -/

/-- Library functions that accept the addresses of `plainLibraries` without control characters. -/
def printableLibraries : Libraries where
  isEmail text := plainLibraries.isEmail text && text.toList.all fun c => !isControl c
  parseCsv _ := some []

theorem isEmail_of_printable {email : String} (h : printableLibraries.isEmail email = true) :
    plainLibraries.isEmail email = true :=
  (Bool.and_eq_true_iff.1 h).1

theorem addressSchema_printableLibraries : AddressSchema printableLibraries where
  ascii email h := addressSchema_plainLibraries.ascii email (isEmail_of_printable h)
  hasAt email h := addressSchema_plainLibraries.hasAt email (isEmail_of_printable h)
  plain email h := addressSchema_plainLibraries.plain email (isEmail_of_printable h)
  domainCase localPart domain domain' hat hsame := by
    have hall : ∀ chars : List Char, (chars.all fun c => !isControl c) =
        ((chars.map Char.toLower).all fun c => !isControl c) := by
      intro chars
      rw [List.all_map]
      congr 1
      funext c
      rw [Function.comp_apply, isControl_toLower]
    dsimp only [printableLibraries]
    rw [addressSchema_plainLibraries.domainCase localPart domain domain' hat hsame,
      String.toList_ofList, String.toList_ofList, List.all_append, List.all_append, List.all_cons,
      List.all_cons, hall domain, hall domain', hsame]

theorem rejectsControls_printableLibraries : RejectsControls printableLibraries := by
  intro email h c hc
  have hall := List.all_eq_true.1 (Bool.and_eq_true_iff.1 h).2 c hc
  rwa [Bool.not_eq_true'] at hall

/-- A browser that finds no rows and shows a number in decimal. -/
def plainBrowser : PreviewLibraries := ⟨fun _ => ([], []), fun n => toString n⟩

/-- The content, uploaded as a text file. -/
theorem textUpload_txtFile {content : String} {maxLeads : Int}
    (hmark : content.toList.head? ≠ some (Char.ofNat 65279))
    (hmax : ((textCandidates content).length : Int) ≤ maxLeads) :
    TextUpload (txtFile content) maxLeads content where
  supported := (sameUpload content).txtSupported
  txt := (sameUpload content).txtName
  decoded := decodeUtf8_toUTF8 hmark
  withinMax := hmax

/-- Two spellings of one domain, and an invalid candidate. -/
theorem preview_agrees_iff_of_domains :
    ∃ preview result,
      previewLeadFile plainBrowser printableLibraries (txtFile "Ada@x.co, Ada@X.co\nbad") 10 =
        .ok preview ∧
      parseLeadFile printableLibraries (txtFile "Ada@x.co, Ada@X.co\nbad") 10 = .ok result ∧
      (PreviewAgrees preview result ↔
        LocalPartsAgree printableLibraries "Ada@x.co, Ada@X.co\nbad") :=
  preview_agrees_iff plainBrowser printableLibraries addressSchema_printableLibraries
    rejectsControls_printableLibraries _ 10 _
    (textUpload_txtFile (by decide +kernel) (by decide +kernel))

/-- Two spellings of one local part: the preview shows one valid address, the parser has two. -/
theorem preview_agrees_fails :
    ¬ ∀ (browser : PreviewLibraries) (lib : Libraries), AddressSchema lib → RejectsControls lib →
      ∀ (file : LeadFile) (maxLeads : Int) (content : String), TextUpload file maxLeads content →
        ∃ preview result, previewLeadFile browser lib file maxLeads = .ok preview ∧
          parseLeadFile lib file maxLeads = .ok result ∧ PreviewAgrees preview result := by
  intro h
  have hfile : TextUpload (txtFile "Ada@x.co\nada@x.co") 10 "Ada@x.co\nada@x.co" :=
    textUpload_txtFile (by decide +kernel) (by decide +kernel)
  obtain ⟨preview, result, hpreview, hresult, hagrees⟩ := h plainBrowser printableLibraries
    addressSchema_printableLibraries rejectsControls_printableLibraries _ _ _ hfile
  rw [previewLeadFile_of_txt hfile] at hpreview
  rw [parseLeadFile_of_candidates hfile.supported hfile.decoded (fileCandidates_of_txt hfile.txt)
    hfile.withinMax] at hresult
  cases hpreview
  cases hresult
  have hlocal := (previewAgrees_iff addressSchema_printableLibraries
    rejectsControls_printableLibraries (trimmed_textValues_of_txt hfile)).1 hagrees
  have hparts := hlocal "Ada@x.co" (by decide +kernel) "ada@x.co" (by decide +kernel)
    (by decide +kernel) (by decide +kernel) (toLowerCase_eq_iff.1 (by decide +kernel))
  revert hparts
  decide +kernel

end EmailScheduler
