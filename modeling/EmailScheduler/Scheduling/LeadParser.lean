import EmailScheduler.Foundation.Utf16
import EmailScheduler.Scheduling.Statements

/-!
# Lead files

`email/lead-parser.ts`: the normalization of one address, the candidates of a text or CSV file, and
the loop that sorts candidates into leads, invalid rows and duplicates.

The address check of `zod` and the CSV parser are third-party code and are arguments. The string
operations of the language are defined here as the source uses them. Only ASCII letters change in
`toLowerCase`: the source applies it to the domain of an accepted address, and to texts that it
compares with `email`, `.csv` and `.txt`.
-/

set_option autoImplicit false

namespace EmailScheduler

open Foundation

/-- The third-party functions that request handling calls. -/
structure Libraries where
  /-- `z.email()` accepts the text. -/
  isEmail : String → Bool
  /-- `parse` of `csv-parse` with the options of `csvCandidates`; it may throw. -/
  parseCsv : String → Option (List (List String))

/-! ## Strings -/

/-- White space and line terminators. -/
def isWhiteSpace (c : Char) : Bool :=
  let n := c.toNat
  (decide (9 ≤ n) && decide (n ≤ 13)) || (decide (8192 ≤ n) && decide (n ≤ 8202)) ||
    [32, 160, 5760, 8232, 8233, 8239, 8287, 12288, 65279].contains n

/-- `String.prototype.trim`. -/
def trim (text : String) : String :=
  .ofList ((text.toList.dropWhile isWhiteSpace).reverse.dropWhile isWhiteSpace).reverse

/-- `toLowerCase`, for ASCII. -/
def toLowerCase (text : String) : String := .ofList (text.toList.map Char.toLower)

/-- `lastIndexOf`. -/
def lastIndexOf (c : Char) (chars : List Char) : Option Nat :=
  (chars.reverse.idxOf? c).map fun i => chars.length - 1 - i

/-- `basename` of `node:path`: the last part of the path, without slashes at its end. -/
def basename (path : String) : String :=
  .ofList ((path.toList.reverse.dropWhile (· == '/')).takeWhile (· != '/')).reverse

/-- `extname` of `node:path`: from the last dot of the last part, unless the dot is its first
character or the part is `..`. -/
def extname (path : String) : String :=
  let chars := (basename path).toList
  match lastIndexOf '.' chars with
  | none | some 0 => ""
  | some i => if chars = ['.', '.'] then "" else .ofList (chars.drop i)

/-! ## One address -/

/-- `emailSchema`. -/
def emailSchema (lib : Libraries) (email : String) : Bool :=
  lib.isEmail email && decide (utf16Length email ≤ 320)

/-- A control character. -/
def isControl (c : Char) : Bool := decide (c.toNat ≤ 31) || decide (c.toNat = 127)

/-- `${localPart}@${domain}`, with the letters of the domain in lower case. Without an `@` the
index is -1, and `slice` counts it from the end. -/
def lowerDomain (email : String) : String :=
  let chars := email.toList
  let (localPart, domain) := match lastIndexOf '@' chars with
    | some separator => (chars.take separator, chars.drop (separator + 1))
    | none => (chars.dropLast, chars)
  .ofList (localPart ++ '@' :: domain.map Char.toLower)

/-- `normalizeEmail`. -/
def normalizeEmail (lib : Libraries) (value : String) : Option ParsedLead :=
  let email := trim value
  if email.toList.any isControl || !emailSchema lib email then none
  else some ⟨lowerDomain email, lowerDomain email⟩

/-- Both fields of a lead hold the normalized address. -/
theorem normalizedEmail_of_normalizeEmail {lib : Libraries} {value : String} {lead : ParsedLead}
    (h : normalizeEmail lib value = some lead) : lead.normalizedEmail = lead.email := by
  simp only [normalizeEmail, Option.ite_none_left_eq_some, Option.some.injEq] at h
  rw [← h.2]

/-! ## Candidates -/

/-- A `LeadFileError`. -/
structure LeadFileError where
  code : String
  message : String
deriving DecidableEq, Repr

structure Candidate where
  row : Nat
  value : String
deriving DecidableEq, Repr

/-- `decodeUtf8`. The decoder removes one byte order mark, and `replace` another. -/
def decodeUtf8 (buffer : ByteArray) : Except LeadFileError String :=
  match String.fromUTF8? buffer with
  | none => .error ⟨"INVALID_FILE", "The leads file must contain valid UTF-8 text"⟩
  | some text =>
      let withoutMark := fun chars : List Char =>
        if chars.head? = some (Char.ofNat 65279) then chars.tail else chars
      .ok (.ofList (withoutMark (withoutMark text.toList)))

/-- `csvCandidates`. -/
def csvCandidates (lib : Libraries) (content : String) : Except LeadFileError (List Candidate) :=
  match lib.parseCsv content with
  | none => .error ⟨"INVALID_FILE", "The CSV file could not be parsed"⟩
  | some [] => .ok []
  | some (firstRow :: rest) =>
      let rows := firstRow :: rest
      let emailColumn := firstRow.findIdx? fun value => toLowerCase (trim value) == "email"
      if emailColumn.isNone && rows.any fun row => row.length != 1 then
        .error ⟨"INVALID_FILE", "A multi-column CSV file must contain an email header"⟩
      else
        let columnIndex := emailColumn.getD 0
        let startIndex := if emailColumn.isSome then 1 else 0
        .ok ((rows.drop startIndex).mapIdx fun index row =>
          ⟨index + startIndex + 1, row.getD columnIndex ""⟩)

/-- `split(/\r?\n/u)`. -/
def splitLines : List Char → List (List Char)
  | [] => [[]]
  | '\r' :: '\n' :: rest => [] :: splitLines rest
  | '\n' :: rest => [] :: splitLines rest
  | c :: rest =>
      match splitLines rest with
      | [] => [[c]]
      | line :: lines => (c :: line) :: lines

/-- `textCandidates`. -/
def textCandidates (content : String) : List Candidate :=
  ((splitLines content.toList).mapIdx fun lineIndex line =>
    ((line.splitOn ',').map String.ofList).filterMap fun value =>
      if 0 < utf16Length (trim value) then some ⟨lineIndex + 1, value⟩ else none).flatten

/-! ## The file -/

def supportedMimeTypes : List String :=
  ["application/csv", "application/octet-stream", "application/vnd.ms-excel", "text/csv",
    "text/plain"]

def invalidDetailLimit : Nat := 25

def invalidValueLimit : Nat := 120

/-- The variables of the loop of `parseLeadFile`. -/
structure ParseProgress where
  leads : List ParsedLead := []
  invalidRows : List InvalidLead := []
  seen : List String := []
  invalidCount : Nat := 0
  duplicateCount : Nat := 0
deriving DecidableEq, Repr

/-- One round of the loop. -/
def parseCandidate (lib : Libraries) (progress : ParseProgress) (candidate : Candidate) :
    ParseProgress :=
  match normalizeEmail lib candidate.value with
  | none =>
      { progress with
        invalidCount := progress.invalidCount + 1
        invalidRows :=
          if progress.invalidRows.length < invalidDetailLimit then
            progress.invalidRows ++ [⟨candidate.row,
              .ofList (takeUnits invalidValueLimit (trim candidate.value).toList)⟩]
          else progress.invalidRows }
  | some parsed =>
      if progress.seen.contains parsed.normalizedEmail then
        { progress with duplicateCount := progress.duplicateCount + 1 }
      else
        { progress with
          seen := parsed.normalizedEmail :: progress.seen
          leads := progress.leads ++ [parsed] }

/-- What the loop knows after `count` candidates. -/
structure ParseInv (progress : ParseProgress) (count : Nat) : Prop where
  total : progress.leads.length + progress.invalidCount + progress.duplicateCount = count
  seen : ∀ email, email ∈ progress.seen ↔ email ∈ progress.leads.map ParsedLead.normalizedEmail
  distinct : (progress.leads.map ParsedLead.normalizedEmail).Nodup
  details : progress.invalidRows.length = min invalidDetailLimit progress.invalidCount

/-- One round keeps the invariant. -/
theorem ParseInv.parseCandidate {lib : Libraries} {progress : ParseProgress} {count : Nat}
    (h : ParseInv progress count) (candidate : Candidate) :
    ParseInv (parseCandidate lib progress candidate) (count + 1) := by
  have htotal := h.total
  unfold EmailScheduler.parseCandidate
  split
  · -- An invalid candidate is counted, and listed while there is room.
    refine ⟨?_, h.seen, h.distinct, ?_⟩
    · dsimp only
      omega
    · have hdetails := h.details
      dsimp only
      split_ifs with hroom
      · rw [List.length_append, List.length_singleton]
        omega
      · omega
  next parsed _ =>
    by_cases hseen : parsed.normalizedEmail ∈ progress.seen
    · -- A duplicate is only counted.
      rw [if_pos (List.contains_iff_mem.2 hseen)]
      refine ⟨?_, h.seen, h.distinct, h.details⟩
      dsimp only
      omega
    · -- A new lead joins the leads and the addresses seen.
      rw [if_neg fun hcontains => hseen (List.contains_iff_mem.1 hcontains)]
      refine ⟨?_, ?_, ?_, h.details⟩
      · dsimp only
        rw [List.length_append, List.length_singleton]
        omega
      · intro email
        simp only [List.mem_cons, List.map_append, List.mem_append, List.map_cons, List.map_nil,
          List.not_mem_nil, or_false, h.seen email]
        exact Or.comm
      · rw [List.map_append, List.nodup_append]
        refine ⟨h.distinct, List.nodup_singleton _, ?_⟩
        intro a ha b hb heq
        rw [List.map_singleton, List.mem_singleton] at hb
        apply hseen
        rw [h.seen, ← hb, ← heq]
        exact ha

/-- The whole loop keeps the invariant. -/
theorem ParseInv.foldl (lib : Libraries) {progress : ParseProgress} {count : Nat}
    (h : ParseInv progress count) (candidates : List Candidate) :
    ParseInv (candidates.foldl (EmailScheduler.parseCandidate lib) progress)
      (count + candidates.length) := by
  induction candidates generalizing progress count with
  | nil => exact h
  | cons candidate candidates ih =>
      rw [List.foldl_cons, List.length_cons, ← Nat.add_assoc, Nat.add_right_comm]
      exact ih (h.parseCandidate candidate)

/-- The result for the candidates of a file. -/
def parseCandidates (lib : Libraries) (candidates : List Candidate) : LeadParseResult :=
  let progress := candidates.foldl (parseCandidate lib) {}
  { leads := progress.leads
    totalRows := candidates.length
    invalidCount := progress.invalidCount
    duplicateCount := progress.duplicateCount
    invalidRows := progress.invalidRows }

/-- **Each candidate is a lead, invalid or a duplicate**, and no two leads have one address. -/
theorem parseCandidates_partition (lib : Libraries) (candidates : List Candidate) :
    let result := parseCandidates lib candidates
    result.leads.length + result.invalidCount + result.duplicateCount = result.totalRows ∧
      (result.leads.map ParsedLead.normalizedEmail).Nodup ∧
      result.invalidRows.length = min invalidDetailLimit result.invalidCount := by
  have hstart : ParseInv {} 0 := ⟨rfl, by simp, List.nodup_nil, rfl⟩
  have hend := hstart.foldl lib candidates
  rw [Nat.zero_add] at hend
  exact ⟨hend.total, hend.distinct, hend.details⟩

/-- `Express.Multer.File`. -/
structure LeadFile where
  buffer : ByteArray
  originalname : String
  mimetype : String

/-- `parseLeadFile`. -/
def parseLeadFile (lib : Libraries) (file : LeadFile) (maxLeads : Int) :
    Except LeadFileError LeadParseResult := do
  let extension := toLowerCase (extname file.originalname)
  if !supportedMimeTypes.contains file.mimetype || (extension != ".csv" && extension != ".txt") then
    throw ⟨"UNSUPPORTED_FILE", "Only CSV and text lead files are supported"⟩
  let content ← decodeUtf8 file.buffer
  let candidates ← if extension = ".csv" then csvCandidates lib content
    else pure (textCandidates content)
  if maxLeads < candidates.length then
    throw ⟨"TOO_MANY_LEADS",
      "The leads file exceeds the configured maximum of " ++ toString maxLeads ++ " rows"⟩
  return parseCandidates lib candidates

/-! ## What is parsed -/

/-- A file of a supported type and name. -/
def isSupported (file : LeadFile) : Bool :=
  supportedMimeTypes.contains file.mimetype &&
    (toLowerCase (extname file.originalname) == ".csv" ||
      toLowerCase (extname file.originalname) == ".txt")

/-- The candidates of a file with this name. -/
def fileCandidates (lib : Libraries) (originalname content : String) :
    Except LeadFileError (List Candidate) :=
  if toLowerCase (extname originalname) = ".csv" then csvCandidates lib content
  else .ok (textCandidates content)

/-- The result for these candidates, if they are within the maximum. -/
def parseWithin (lib : Libraries) (maxLeads : Int) (candidates : List Candidate) :
    Except LeadFileError LeadParseResult :=
  if maxLeads < candidates.length then
    .error ⟨"TOO_MANY_LEADS",
      "The leads file exceeds the configured maximum of " ++ toString maxLeads ++ " rows"⟩
  else .ok (parseCandidates lib candidates)

theorem parseLeadFile_of_supported {lib : Libraries} {file : LeadFile} {maxLeads : Int}
    (h : isSupported file = true) : parseLeadFile lib file maxLeads =
      (decodeUtf8 file.buffer).bind fun content =>
        (fileCandidates lib file.originalname content).bind (parseWithin lib maxLeads) := by
  have hcheck : (!supportedMimeTypes.contains file.mimetype ||
      (toLowerCase (extname file.originalname) != ".csv" &&
        toLowerCase (extname file.originalname) != ".txt")) = !isSupported file := by
    rw [isSupported, Bool.not_and, Bool.not_or]
    rfl
  unfold parseLeadFile fileCandidates parseWithin
  simp only [hcheck, h, Bool.not_true, Bool.false_eq_true, if_false, bind, Except.bind, pure,
    Except.pure, throw, throwThe, MonadExceptOf.throw]
  cases decodeUtf8 file.buffer with
  | error e => rfl
  | ok content =>
      by_cases hcsv : toLowerCase (extname file.originalname) = ".csv"
      · simp only [if_pos hcsv]
      · simp only [if_neg hcsv]

theorem isSupported_of_parseLeadFile {lib : Libraries} {file : LeadFile} {maxLeads : Int}
    {result : LeadParseResult} (h : parseLeadFile lib file maxLeads = .ok result) :
    isSupported file = true := by
  by_contra hunsupported
  have hcheck : (!supportedMimeTypes.contains file.mimetype ||
      (toLowerCase (extname file.originalname) != ".csv" &&
        toLowerCase (extname file.originalname) != ".txt")) = true := by
    rw [isSupported, Bool.not_eq_true] at hunsupported
    rw [← Bool.not_eq_false', Bool.not_or, Bool.not_and]
    simpa [bne] using hunsupported
  unfold parseLeadFile at h
  simp only [hcheck, if_true] at h
  cases h

/-- **A file that is parsed** is UTF-8 text of a supported type, its candidates are within the
maximum, and the result is theirs. -/
theorem parseLeadFile_eq_ok {lib : Libraries} {file : LeadFile} {maxLeads : Int}
    {result : LeadParseResult} (h : parseLeadFile lib file maxLeads = .ok result) :
    ∃ content candidates, decodeUtf8 file.buffer = .ok content ∧
      fileCandidates lib file.originalname content = .ok candidates ∧
      (candidates.length : Int) ≤ maxLeads ∧ result = parseCandidates lib candidates := by
  rw [parseLeadFile_of_supported (isSupported_of_parseLeadFile h)] at h
  cases hdecode : decodeUtf8 file.buffer with
  | error e =>
      rw [hdecode] at h
      cases h
  | ok content =>
      rw [hdecode] at h
      dsimp only [Except.bind] at h
      cases hcandidates : fileCandidates lib file.originalname content with
      | error e =>
          rw [hcandidates] at h
          cases h
      | ok candidates =>
          rw [hcandidates] at h
          dsimp only [parseWithin] at h
          split_ifs at h with hmany
          cases h
          exact ⟨content, candidates, rfl, hcandidates, Int.not_lt.1 hmany, rfl⟩

end EmailScheduler
