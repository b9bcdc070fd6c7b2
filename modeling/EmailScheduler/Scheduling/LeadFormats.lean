import Mathlib.Data.Bool.AllAny
import EmailScheduler.Scheduling.LeadPartition

/-!
# One address to a line, as CSV and as text

The same content under the name of a CSV file and of a text file. Both give the same candidates, up
to the rows: `textCandidates` counts lines, `csvCandidates` counts the records that are left when
`csv-parse` has dropped the blank lines. So the results differ exactly if a blank line comes before
one of the invalid lines that are listed (`csv_agrees_iff`).
-/

set_option autoImplicit false

namespace EmailScheduler

open Foundation

/-! ## The content -/

/-- ASCII lines, ended by a line feed or a carriage return and a line feed, without commas and
quotes. -/
structure PlainLines (content : String) : Prop where
  ascii : ∀ c ∈ content.toList, c.toNat < 128
  noComma : ',' ∉ content.toList
  noQuote : '"' ∉ content.toList
  noLoneReturn : ∀ line ∈ splitLines content.toList, '\r' ∉ line

/-- Lines of which none is the header of a column of addresses. -/
structure OneAddressPerLine (content : String) : Prop extends PlainLines content where
  noHeader : ∀ line ∈ splitLines content.toList, toLowerCase (trim (.ofList line)) ≠ "email"

/-- A line without text. -/
def isBlank (line : List Char) : Bool := (trim (.ofList line)).toList.isEmpty

/-- What `csv-parse` makes of such lines with the options of `csvCandidates`: one record with one
trimmed field for every line that is not blank, in order. -/
def ParsesLines (lib : Libraries) (content : String) : Prop :=
  lib.parseCsv content = some (((splitLines content.toList).filter fun line => !isBlank line).map
    fun line => [trim (.ofList line)])

/-- The candidates of a text after `n` lines: every line is counted. -/
def numberLines (n : Nat) : List (List Char) → List Candidate
  | [] => []
  | line :: lines =>
      if isBlank line then numberLines (n + 1) lines
      else ⟨n + 1, .ofList line⟩ :: numberLines (n + 1) lines

/-- The candidates of a CSV file after `k` records: blank lines are not counted. -/
def numberRecords (k : Nat) : List (List Char) → List Candidate
  | [] => []
  | line :: lines =>
      if isBlank line then numberRecords k lines
      else ⟨k + 1, trim (.ofList line)⟩ :: numberRecords (k + 1) lines

section Numbering

variable {n k : Nat} {line : List Char} {lines : List (List Char)}

theorem numberLines_blank (h : isBlank line = true) :
    numberLines n (line :: lines) = numberLines (n + 1) lines :=
  if_pos h

theorem numberLines_cons (h : ¬ isBlank line = true) :
    numberLines n (line :: lines) = ⟨n + 1, .ofList line⟩ :: numberLines (n + 1) lines :=
  if_neg h

theorem numberRecords_blank (h : isBlank line = true) :
    numberRecords k (line :: lines) = numberRecords k lines :=
  if_pos h

theorem numberRecords_cons (h : ¬ isBlank line = true) :
    numberRecords k (line :: lines) =
      ⟨k + 1, trim (.ofList line)⟩ :: numberRecords (k + 1) lines :=
  if_neg h

end Numbering

theorem isBlank_iff {line : List Char} :
    isBlank line = true ↔ utf16Length (trim (.ofList line)) = 0 := by
  rw [utf16Length_eq_zero_iff, isBlank, List.isEmpty_iff]

/-! ## The candidates -/

theorem mem_of_mem_splitLines {chars line : List Char} (hline : line ∈ splitLines chars) {c : Char}
    (hc : c ∈ line) : c ∈ chars := by
  fun_induction splitLines chars generalizing line with
  | case1 =>
      rw [List.mem_singleton.1 hline] at hc
      cases hc
  | case2 rest ih =>
      rcases List.mem_cons.1 hline with rfl | hline
      · cases hc
      · exact List.mem_cons_of_mem _ (List.mem_cons_of_mem _ (ih hline hc))
  | case3 rest ih =>
      rcases List.mem_cons.1 hline with rfl | hline
      · cases hc
      · exact List.mem_cons_of_mem _ (ih hline hc)
  | case4 d rest _ _ hnone ih => exact absurd hnone (splitLines_ne_nil rest)
  | case5 d rest _ _ first lines hlines ih =>
      rw [hlines] at ih
      rcases List.mem_cons.1 hline with rfl | hline
      · rcases List.mem_cons.1 hc with rfl | hc
        · exact List.mem_cons_self
        · exact List.mem_cons_of_mem _ (ih List.mem_cons_self hc)
      · exact List.mem_cons_of_mem _ (ih (List.mem_cons_of_mem _ hline) hc)

/-- Lines without commas have one candidate each, or none if they are blank. -/
theorem flatten_mapIdx_lines {lines : List (List Char)} (hcomma : ∀ line ∈ lines, ',' ∉ line)
    (n : Nat) :
    (lines.mapIdx fun lineIndex line =>
      ((line.splitOn ',').map String.ofList).filterMap fun value =>
        if 0 < utf16Length (trim value) then some (Candidate.mk (n + lineIndex + 1) value)
        else none).flatten = numberLines n lines := by
  induction lines generalizing n with
  | nil => rfl
  | cons line lines ih =>
      have hrest := ih (fun l hl => hcomma l (List.mem_cons_of_mem line hl)) (n + 1)
      have hindex : ∀ i, n + (i + 1) + 1 = n + 1 + i + 1 := fun i => by omega
      rw [List.mapIdx_cons, List.flatten_cons, splitOn_of_not_mem (hcomma line List.mem_cons_self)]
      simp only [hindex, hrest]
      by_cases hblank : isBlank line = true
      · rw [numberLines_blank hblank]
        simp [isBlank_iff.1 hblank]
      · have hlength : 0 < utf16Length (trim (.ofList line)) := by
          have hne := mt isBlank_iff.2 hblank
          omega
        rw [numberLines_cons hblank]
        simp [hlength]

theorem textCandidates_eq {content : String} (h : PlainLines content) :
    textCandidates content = numberLines 0 (splitLines content.toList) := by
  have hcomma : ∀ line ∈ splitLines content.toList, ',' ∉ line :=
    fun line hline hc => h.noComma (mem_of_mem_splitLines hline hc)
  rw [← flatten_mapIdx_lines hcomma 0]
  simp only [textCandidates, Nat.zero_add]

/-- The records are the lines that are not blank. -/
theorem mapIdx_records (lines : List (List Char)) (k : Nat) :
    ((lines.filter fun line => !isBlank line).map fun line => [trim (.ofList line)]).mapIdx
        (fun index row => Candidate.mk (k + index + 1) (row.getD 0 "")) =
          numberRecords k lines := by
  induction lines generalizing k with
  | nil => rfl
  | cons line lines ih =>
      by_cases hblank : isBlank line = true
      · rw [List.filter_cons_of_neg (by simp [hblank]), numberRecords_blank hblank, ih]
      · have hindex : ∀ i, k + (i + 1) + 1 = k + 1 + i + 1 := fun i => by omega
        rw [List.filter_cons_of_pos (by simp [hblank]), numberRecords_cons hblank, List.map_cons,
          List.mapIdx_cons, ← ih (k + 1)]
        simp only [hindex]
        rfl

theorem csvCandidates_eq {lib : Libraries} {content : String} (hlib : ParsesLines lib content)
    (h : OneAddressPerLine content) :
    csvCandidates lib content = .ok (numberRecords 0 (splitLines content.toList)) := by
  rw [← mapIdx_records]
  unfold csvCandidates
  rw [show lib.parseCsv content = _ from hlib]
  cases hrecords : ((splitLines content.toList).filter fun line => !isBlank line).map
      fun line => [trim (.ofList line)] with
  | nil => rfl
  | cons firstRow rest =>
      have hfields : ∀ row ∈ firstRow :: rest, ∃ line ∈ splitLines content.toList,
          row = [trim (.ofList line)] := by
        intro row hrow
        rw [← hrecords] at hrow
        obtain ⟨line, hline, rfl⟩ := List.mem_map.1 hrow
        exact ⟨line, List.mem_of_mem_filter hline, rfl⟩
      have hheader : firstRow.findIdx?
        (fun value => toLowerCase (trim value) == "email") = none := by
        obtain ⟨line, hline, rfl⟩ := hfields firstRow List.mem_cons_self
        have hne := h.noHeader line hline
        rw [← trim_trim] at hne
        simpa using hne
      have hsingle : ((firstRow :: rest).any fun row => row.length != 1) = false := by
        rw [List.any_eq_false]
        intro row hrow
        obtain ⟨line, -, rfl⟩ := hfields row hrow
        simp
      dsimp only
      rw [hheader, hsingle]
      simp

/-! ## Where the rows agree -/

/-- The line is not blank and holds no address. -/
def isInvalidLine (lib : Libraries) (line : List Char) : Bool :=
  !isBlank line && (normalizeEmail lib (.ofList line)).isNone

/-- Before each of the first `m` invalid lines there is no blank line, and the count was the `same`
at the start. -/
def LinedUp (lib : Libraries) (m : Nat) (same : Prop) (lines : List (List Char)) : Prop :=
  ∀ before line after, lines = before ++ line :: after → isInvalidLine lib line = true →
    (before.filter (isInvalidLine lib)).length < m → same ∧ ∀ l ∈ before, isBlank l = false

section LinedUp

variable {lib : Libraries} {m : Nat} {same : Prop} {line : List Char} {lines : List (List Char)}

theorem linedUp_nil : LinedUp lib m same [] := by
  intro before line after hsplit
  simp at hsplit

theorem linedUp_zero : LinedUp lib 0 same lines := fun _ _ _ _ _ hcount => absurd hcount (by omega)

/-- After a blank line the counts differ. -/
theorem linedUp_blank (h : isBlank line = true) :
    LinedUp lib m same (line :: lines) ↔ LinedUp lib m False lines := by
  have hvalid : isInvalidLine lib line = false := by simp [isInvalidLine, h]
  constructor
  · intro hlined before next after hsplit hinvalid hcount
    have hall := (hlined (line :: before) next after (by rw [hsplit]; rfl) hinvalid
      (by simpa [hvalid] using hcount)).2 line List.mem_cons_self
    rw [h] at hall
    cases hall
  · intro hlined before next after hsplit hinvalid hcount
    rcases List.cons_eq_append_iff.1 hsplit with ⟨-, hcons⟩ | ⟨before, rfl, hrest⟩
    · cases hcons
      rw [hvalid] at hinvalid
      cases hinvalid
    · exact (hlined before next after hrest hinvalid (by simpa [hvalid] using hcount)).1.elim

/-- A line with an address keeps the counts as they are. -/
theorem linedUp_valid (hblank : isBlank line = false) (hvalid : isInvalidLine lib line = false) :
    LinedUp lib m same (line :: lines) ↔ LinedUp lib m same lines := by
  constructor
  · intro hlined before next after hsplit hinvalid hcount
    obtain ⟨hsame, hbefore⟩ := hlined (line :: before) next after (by rw [hsplit]; rfl) hinvalid
      (by simpa [hvalid] using hcount)
    exact ⟨hsame, fun l hl => hbefore l (List.mem_cons_of_mem line hl)⟩
  · intro hlined before next after hsplit hinvalid hcount
    rcases List.cons_eq_append_iff.1 hsplit with ⟨-, hcons⟩ | ⟨before, rfl, hrest⟩
    · cases hcons
      rw [hvalid] at hinvalid
      cases hinvalid
    · obtain ⟨hsame, hbefore⟩ := hlined before next after hrest hinvalid
        (by simpa [hvalid] using hcount)
      exact ⟨hsame, List.forall_mem_cons.2 ⟨hblank, hbefore⟩⟩

/-- An invalid line shows whether the counts are the same. -/
theorem linedUp_invalid (hinvalid : isInvalidLine lib line = true) :
    LinedUp lib (m + 1) same (line :: lines) ↔ same ∧ LinedUp lib m same lines := by
  have hblank : isBlank line = false := by
    have hboth := hinvalid
    simp only [isInvalidLine, Bool.and_eq_true, Bool.not_eq_true'] at hboth
    exact hboth.1
  constructor
  · intro hlined
    refine ⟨(hlined [] line lines rfl hinvalid (Nat.succ_pos m)).1, ?_⟩
    intro before next after hsplit hnext hcount
    obtain ⟨hsame, hbefore⟩ := hlined (line :: before) next after (by rw [hsplit]; rfl) hnext
      (by simpa [hinvalid] using hcount)
    exact ⟨hsame, fun l hl => hbefore l (List.mem_cons_of_mem line hl)⟩
  · rintro ⟨hsame, hlined⟩ before next after hsplit hnext hcount
    rcases List.cons_eq_append_iff.1 hsplit with ⟨rfl, -⟩ | ⟨before, rfl, hrest⟩
    · exact ⟨hsame, by simp⟩
    · obtain ⟨-, hbefore⟩ := hlined before next after hrest hnext
        (by simpa [hinvalid] using hcount)
      exact ⟨hsame, List.forall_mem_cons.2 ⟨hblank, hbefore⟩⟩

end LinedUp

variable {lib : Libraries}

/-- The details of the first `m` invalid candidates. -/
def details (lib : Libraries) (m : Nat) (candidates : List Candidate) : List InvalidLead :=
  ((candidates.filter (isInvalid lib)).take m).map invalidLead

/-- **Where the details agree**: the counts of lines and of records agree at each of them. -/
theorem details_eq_iff (lib : Libraries) (lines : List (List Char)) (m : Nat) {n k : Nat}
    (hle : k ≤ n) :
    details lib m (numberLines n lines) = details lib m (numberRecords k lines) ↔
      LinedUp lib m (n = k) lines := by
  induction lines generalizing m n k with
  | nil => exact ⟨fun _ => linedUp_nil, fun _ => rfl⟩
  | cons line lines ih =>
      by_cases hblank : isBlank line = true
      · -- The lines go on, the records do not.
        have hne : (n + 1 = k) = False := eq_false (by omega)
        rw [numberLines_blank hblank, numberRecords_blank hblank, ih m (by omega),
          linedUp_blank hblank, hne]
      · rw [numberLines_cons hblank, numberRecords_cons hblank]
        have hsucc : (n + 1 = k + 1) = (n = k) := by simp
        have hrest := fun m => ih m (n := n + 1) (k := k + 1) (by omega)
        rw [hsucc] at hrest
        rw [Bool.not_eq_true] at hblank
        cases hline : isInvalidLine lib line with
        | false =>
            have hvalid : (normalizeEmail lib (.ofList line)).isNone = false := by
              simpa [isInvalidLine, hblank] using hline
            rw [linedUp_valid hblank hline, ← hrest m]
            simp [details, isInvalid, normalizeEmail_trim, hvalid]
        | true =>
            have hinvalid : (normalizeEmail lib (.ofList line)).isNone = true := by
              simpa [isInvalidLine, hblank] using hline
            cases m with
            | zero => simp [details, linedUp_zero]
            | succ m =>
                rw [linedUp_invalid hline, ← hrest m]
                simp [details, isInvalid, invalidLead, normalizeEmail_trim, hinvalid, trim_trim]

/-! ## Where the results agree -/

/-- The trimmed values of the candidates. -/
def trimmedValues (candidates : List Candidate) : List String :=
  candidates.map fun candidate => trim candidate.value

/-- Lines and records have the same values. -/
theorem trimmedValues_eq (lines : List (List Char)) (n k : Nat) :
    trimmedValues (numberLines n lines) = trimmedValues (numberRecords k lines) := by
  induction lines generalizing n k with
  | nil => rfl
  | cons line lines ih =>
      by_cases hblank : isBlank line = true
      · rw [numberLines_blank hblank, numberRecords_blank hblank]
        exact ih (n + 1) k
      · rw [numberLines_cons hblank, numberRecords_cons hblank]
        simp only [trimmedValues, List.map_cons, trim_trim, List.cons.injEq, true_and]
        exact ih (n + 1) (k + 1)

/-- Candidates with the same values have the same result, but for the details. -/
theorem parseCandidates_eq_iff (lib : Libraries) {a b : List Candidate}
    (h : trimmedValues a = trimmedValues b) :
    parseCandidates lib a = parseCandidates lib b ↔
      details lib invalidDetailLimit a = details lib invalidDetailLimit b := by
  have hlength : a.length = b.length := by
    have hmaps := congrArg List.length h
    rwa [trimmedValues, trimmedValues, List.length_map, List.length_map] at hmaps
  have hleads : ∀ candidates, validLeads lib candidates =
      (trimmedValues candidates).filterMap (normalizeEmail lib) := by
    intro candidates
    rw [validLeads, trimmedValues, List.filterMap_map]
    simp only [Function.comp_def, normalizeEmail_trim]
  have hinvalid : ∀ candidates, (candidates.filter (isInvalid lib)).length =
      ((trimmedValues candidates).filter fun value => (normalizeEmail lib value).isNone).length := by
    intro candidates
    rw [trimmedValues, List.filter_map, List.length_map]
    simp only [Function.comp_def, normalizeEmail_trim]
    rfl
  rw [parseCandidates_eq, parseCandidates_eq, hleads, hleads, hinvalid, hinvalid, h, hlength,
    LeadParseResult.mk.injEq]
  exact ⟨fun heq => heq.2.2.2.2, fun heq => ⟨rfl, rfl, rfl, rfl, heq⟩⟩

/-- A detail names the line that it shows. -/
def NamesItsLine (content : String) (detail : InvalidLead) : Prop :=
  ∃ i line, (splitLines content.toList)[i]? = some line ∧ detail.row = i + 1 ∧
    detail.value = .ofList (takeUnits invalidValueLimit (trim (.ofList line)).toList)

/-- In a text file every candidate is numbered by its line. -/
theorem mem_numberLines {lines : List (List Char)} {n : Nat} {candidate : Candidate}
    (h : candidate ∈ numberLines n lines) :
    ∃ i line, lines[i]? = some line ∧ candidate = ⟨n + i + 1, .ofList line⟩ := by
  induction lines generalizing n with
  | nil => cases h
  | cons line lines ih =>
      have hrest : candidate ∈ numberLines (n + 1) lines →
          ∃ i l, (line :: lines)[i]? = some l ∧ candidate = ⟨n + i + 1, .ofList l⟩ := by
        intro hmem
        obtain ⟨i, l, hl, rfl⟩ := ih hmem
        refine ⟨i + 1, l, hl, ?_⟩
        rw [Nat.add_right_comm n 1 i]
        rfl
      by_cases hblank : isBlank line = true
      · rw [numberLines_blank hblank] at h
        exact hrest h
      · rw [numberLines_cons hblank, List.mem_cons] at h
        rcases h with rfl | h
        · exact ⟨0, line, rfl, rfl⟩
        · exact hrest h

/-- The details of a text file name their lines. -/
theorem namesItsLine_of_mem_details {content : String} {m : Nat} {detail : InvalidLead}
    (h : detail ∈ details lib m (numberLines 0 (splitLines content.toList))) :
    NamesItsLine content detail := by
  obtain ⟨candidate, hcandidate, rfl⟩ := List.mem_map.1 h
  obtain ⟨i, line, hline, rfl⟩ :=
    mem_numberLines (List.mem_of_mem_filter (List.mem_of_mem_take hcandidate))
  exact ⟨i, line, hline, by rw [Nat.zero_add]; rfl, rfl⟩

/-- The content under the name of a CSV file and of a text file. -/
structure SameUpload (content : String) (csv txt : LeadFile) : Prop where
  csvSupported : isSupported csv = true
  csvName : toLowerCase (extname csv.originalname) = ".csv"
  csvBuffer : csv.buffer = content.toUTF8
  txtSupported : isSupported txt = true
  txtName : toLowerCase (extname txt.originalname) = ".txt"
  txtBuffer : txt.buffer = content.toUTF8

/-- Both files are parsed in the same way, and the details name the lines of the upload. -/
def CsvAgrees (lib : Libraries) (content : String) (csv txt : LeadFile) (maxLeads : Int) : Prop :=
  parseLeadFile lib csv maxLeads = parseLeadFile lib txt maxLeads ∧
    ∀ result, parseLeadFile lib csv maxLeads = .ok result →
      ∀ detail ∈ result.invalidRows, NamesItsLine content detail

theorem length_numberLines (lines : List (List Char)) (n : Nat) :
    (numberLines n lines).length = (lines.filter fun line => !isBlank line).length := by
  induction lines generalizing n with
  | nil => rfl
  | cons line lines ih =>
      by_cases hblank : isBlank line = true
      · rw [numberLines_blank hblank, List.filter_cons_of_neg (by simp [hblank]), ih]
      · rw [numberLines_cons hblank, List.filter_cons_of_pos (by simp [hblank]), List.length_cons,
          List.length_cons, ih]

/-- An ASCII text is read back from its bytes. -/
theorem decodeUtf8_of_ascii {content : String} (h : PlainLines content) :
    decodeUtf8 content.toUTF8 = .ok content := by
  apply decodeUtf8_toUTF8
  intro hmark
  have hascii := h.ascii _ (List.mem_of_head? hmark)
  revert hascii
  decide

/-- The two results, or the same error. -/
theorem parse_sameUpload {content : String} (hlib : ParsesLines lib content)
    (hcontent : OneAddressPerLine content) {csv txt : LeadFile}
    (hfiles : SameUpload content csv txt)
    (maxLeads : Int) :
    parseLeadFile lib csv maxLeads =
        parseWithin lib maxLeads (numberRecords 0 (splitLines content.toList)) ∧
      parseLeadFile lib txt maxLeads =
        parseWithin lib maxLeads (numberLines 0 (splitLines content.toList)) := by
  have hdecode := decodeUtf8_of_ascii hcontent.toPlainLines
  constructor
  · rw [parseLeadFile_of_supported hfiles.csvSupported, hfiles.csvBuffer, hdecode]
    dsimp only [Except.bind]
    rw [fileCandidates, if_pos hfiles.csvName, csvCandidates_eq hlib hcontent]
  · rw [parseLeadFile_of_supported hfiles.txtSupported, hfiles.txtBuffer, hdecode]
    dsimp only [Except.bind]
    rw [fileCandidates_of_txt hfiles.txtName, textCandidates_eq hcontent.toPlainLines]

/-- **Where a CSV file and a text file agree.** The same lines under both names have the same
result, with the numbers of the lines, exactly if the file has too many addresses for either or no
blank line comes before one of the first 25 invalid lines. -/
theorem csv_agrees_iff (lib : Libraries) (content : String) (hlib : ParsesLines lib content)
    (hcontent : OneAddressPerLine content) (csv txt : LeadFile)
    (hfiles : SameUpload content csv txt) (maxLeads : Int) :
    CsvAgrees lib content csv txt maxLeads ↔
      maxLeads < ((splitLines content.toList).filter fun line => !isBlank line).length ∨
        LinedUp lib invalidDetailLimit True (splitLines content.toList) := by
  obtain ⟨hcsv, htxt⟩ := parse_sameUpload hlib hcontent hfiles maxLeads
  have hvalues := trimmedValues_eq (splitLines content.toList) 0 0
  have hresults := parseCandidates_eq_iff lib hvalues
  have hdetails := details_eq_iff lib (splitLines content.toList) invalidDetailLimit
    (Nat.le_refl 0)
  have hlength : (numberRecords 0 (splitLines content.toList)).length =
      (numberLines 0 (splitLines content.toList)).length := by
    have hmaps := congrArg List.length hvalues
    rw [trimmedValues, trimmedValues, List.length_map, List.length_map] at hmaps
    exact hmaps.symm
  rw [eq_self] at hdetails
  unfold CsvAgrees
  rw [hcsv, htxt, ← length_numberLines _ 0]
  unfold parseWithin
  rw [hlength]
  by_cases hmany : maxLeads < (numberLines 0 (splitLines content.toList)).length
  · rw [if_pos hmany, if_pos hmany]
    exact ⟨fun _ => Or.inl hmany, fun _ => ⟨rfl, fun result hok => nomatch hok⟩⟩
  · rw [if_neg hmany, if_neg hmany]
    constructor
    · rintro ⟨hsame, -⟩
      exact Or.inr (hdetails.1 (hresults.1 (Except.ok.inj hsame).symm))
    · rintro (h | hlined)
      · exact absurd h hmany
      · have hsame := hresults.2 (hdetails.2 hlined)
        refine ⟨congrArg Except.ok hsame.symm, ?_⟩
        intro result hok detail hdetail
        cases hok
        rw [← hsame, parseCandidates_eq] at hdetail
        exact namesItsLine_of_mem_details hdetail

/-! ## Two files -/

/-- Library functions that parse lines, and accept the addresses of `plainLibraries`. -/
def lineLibraries : Libraries where
  isEmail := plainLibraries.isEmail
  parseCsv content := some (((splitLines content.toList).filter fun line => !isBlank line).map
    fun line => [trim (.ofList line)])

theorem parsesLines_lineLibraries (content : String) : ParsesLines lineLibraries content := rfl

/-- The content as a CSV file. -/
def csvFile (content : String) : LeadFile := ⟨content.toUTF8, "leads.csv", "text/csv"⟩

/-- The content as a text file. -/
def txtFile (content : String) : LeadFile := ⟨content.toUTF8, "leads.txt", "text/plain"⟩

theorem sameUpload (content : String) : SameUpload content (csvFile content) (txtFile content) where
  csvSupported := by
    dsimp only [isSupported, csvFile]
    decide +kernel
  csvName := by
    dsimp only [csvFile]
    decide +kernel
  csvBuffer := rfl
  txtSupported := by
    dsimp only [isSupported, txtFile]
    decide +kernel
  txtName := by
    dsimp only [txtFile]
    decide +kernel
  txtBuffer := rfl

/-- A blank line after the invalid line: both files show it in row 1. -/
theorem csv_agrees_iff_of_blankAfter :
    CsvAgrees lineLibraries "bad\n\na@b.co\r\n" (csvFile "bad\n\na@b.co\r\n")
      (txtFile "bad\n\na@b.co\r\n") 10 := by
  have hcontent : OneAddressPerLine "bad\n\na@b.co\r\n" :=
    ⟨⟨List.all_iff_forall_prop.1 (by decide), by decide, by decide, by decide⟩, by decide⟩
  have hdetails := details_eq_iff lineLibraries
    (splitLines "bad\n\na@b.co\r\n".toList) invalidDetailLimit (Nat.le_refl 0)
  rw [eq_self] at hdetails
  exact (csv_agrees_iff lineLibraries _ (parsesLines_lineLibraries _) hcontent _ _
    (sameUpload _) 10).2
    (Or.inr (hdetails.1 (by decide +kernel)))

/-- A blank line before the invalid line: the CSV file shows row 1, the text file row 2. -/
theorem csv_agrees_fails : ¬ ∀ (lib : Libraries) (content : String), ParsesLines lib content →
    OneAddressPerLine content → ∀ csv txt : LeadFile, SameUpload content csv txt →
      ∀ maxLeads : Int, CsvAgrees lib content csv txt maxLeads := by
  intro h
  have hcontent : OneAddressPerLine "\nbad" :=
    ⟨⟨List.all_iff_forall_prop.1 (by decide), by decide, by decide, by decide⟩, by decide⟩
  have hlib := parsesLines_lineLibraries "\nbad"
  have hsame := (h lineLibraries _ hlib hcontent _ _ (sameUpload _) 10).1
  obtain ⟨hcsv, htxt⟩ := parse_sameUpload hlib hcontent (sameUpload _) 10
  rw [hcsv, htxt] at hsame
  revert hsame
  decide +kernel

end EmailScheduler
