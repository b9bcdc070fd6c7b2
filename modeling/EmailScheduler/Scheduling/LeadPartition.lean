import EmailScheduler.Scheduling.Address
import EmailScheduler.Foundation.Distinct

/-!
# What lead parsing does to a file

The loop of `parseLeadFile` in closed form (`foldl_parseCandidate`): after any number of candidates
its variables are functions of the candidates seen so far, by induction from the end of the list.

`leadPartition` is the theorem on whole files. It ends with a round trip: the leads, written one
to a line, are parsed to the same leads, because a normal form is its own normal form and the lines
of a text are read back from it (`splitLines_intercalate`).
-/

set_option autoImplicit false

namespace EmailScheduler

open Foundation

/-! ## The loop -/

section Loop

variable (lib : Libraries) (candidates : List Candidate)

/-- The candidate has no normal form. -/
def isInvalid (candidate : Candidate) : Bool := (normalizeEmail lib candidate.value).isNone

/-- The detail that is kept of an invalid candidate. -/
def invalidLead (candidate : Candidate) : InvalidLead :=
  ⟨candidate.row, .ofList (takeUnits invalidValueLimit (trim candidate.value).toList)⟩

/-- The normal forms of the valid candidates, in order. -/
def validLeads : List ParsedLead :=
  candidates.filterMap fun candidate => normalizeEmail lib candidate.value

/-- The variables of the loop after these candidates. -/
def progressAfter : ParseProgress where
  leads := (validLeads lib candidates).eraseDups
  invalidRows := ((candidates.filter (isInvalid lib)).take invalidDetailLimit).map invalidLead
  seen := ((validLeads lib candidates).eraseDups.map ParsedLead.normalizedEmail).reverse
  invalidCount := (candidates.filter (isInvalid lib)).length
  duplicateCount :=
    (validLeads lib candidates).length - (validLeads lib candidates).eraseDups.length

end Loop

variable {lib : Libraries} {candidates : List Candidate} {candidate : Candidate}

/-- Two leads with one address are one lead. -/
theorem eq_of_normalizedEmail {a b : ParsedLead} {v w : String}
    (ha : normalizeEmail lib v = some a) (hb : normalizeEmail lib w = some b)
    (h : a.normalizedEmail = b.normalizedEmail) : a = b := by
  have hae := normalizedEmail_of_normalizeEmail ha
  have hbe := normalizedEmail_of_normalizeEmail hb
  rcases a with ⟨email, normalized⟩
  rcases b with ⟨email', normalized'⟩
  dsimp only at hae hbe h
  rw [← hae, ← hbe, h]

/-- So the addresses seen decide whether a lead is new. -/
theorem contains_seen_iff (candidates : List Candidate) {parsed : ParsedLead} {value : String}
    (h : normalizeEmail lib value = some parsed) :
    (progressAfter lib candidates).seen.contains parsed.normalizedEmail = true ↔
      parsed ∈ validLeads lib candidates := by
  rw [progressAfter, List.contains_iff_mem, List.mem_reverse, List.mem_map]
  constructor
  · rintro ⟨lead, hlead, haddress⟩
    rw [List.mem_eraseDups] at hlead
    obtain ⟨other, -, hother⟩ := List.mem_filterMap.1 hlead
    rw [← eq_of_normalizedEmail hother h haddress]
    exact hlead
  · intro hmem
    exact ⟨parsed, List.mem_eraseDups.2 hmem, rfl⟩

/-- A round with an invalid candidate. -/
theorem progressAfter_invalid (h : normalizeEmail lib candidate.value = none) :
    parseCandidate lib (progressAfter lib candidates) candidate =
      progressAfter lib (candidates ++ [candidate]) := by
  have hvalid : validLeads lib (candidates ++ [candidate]) = validLeads lib candidates := by
    simp [validLeads, h]
  have hfilter : (candidates ++ [candidate]).filter (isInvalid lib) =
      candidates.filter (isInvalid lib) ++ [candidate] := by
    simp [isInvalid, h]
  unfold parseCandidate
  rw [h]
  unfold progressAfter
  rw [hvalid, hfilter]
  dsimp only
  have hlength : (((candidates.filter (isInvalid lib)).take invalidDetailLimit).map
      invalidLead).length = min invalidDetailLimit (candidates.filter (isInvalid lib)).length := by
    rw [List.length_map, List.length_take]
  rw [ParseProgress.mk.injEq]
  refine ⟨rfl, ?_, rfl, ?_, rfl⟩
  · rw [hlength]
    split
    next hroom =>
      -- There is room, so none of the details so far was cut off.
      have hall : (candidates.filter (isInvalid lib)).length < invalidDetailLimit := by omega
      rw [List.take_of_length_le (by omega), List.take_of_length_le (by simp; omega),
        List.map_append]
      rfl
    next hfull => rw [List.take_append_of_le_length (by omega)]
  · rw [List.length_append, List.length_singleton]

/-- A round with a valid candidate. -/
theorem progressAfter_valid {parsed : ParsedLead}
    (h : normalizeEmail lib candidate.value = some parsed) :
    parseCandidate lib (progressAfter lib candidates) candidate =
      progressAfter lib (candidates ++ [candidate]) := by
  have hvalid : validLeads lib (candidates ++ [candidate]) =
      validLeads lib candidates ++ [parsed] := by
    simp [validLeads, h]
  have hfilter : (candidates ++ [candidate]).filter (isInvalid lib) =
      candidates.filter (isInvalid lib) := by
    simp [isInvalid, h]
  have hle := length_eraseDups_le (validLeads lib candidates)
  have hseen := contains_seen_iff candidates h
  unfold parseCandidate
  rw [h]
  dsimp only
  by_cases hmem : parsed ∈ validLeads lib candidates
  · rw [if_pos (hseen.2 hmem)]
    unfold progressAfter
    rw [hvalid, hfilter, eraseDups_concat, if_pos hmem, List.append_nil]
    rw [ParseProgress.mk.injEq]
    refine ⟨rfl, rfl, rfl, rfl, ?_⟩
    rw [List.length_append, List.length_singleton]
    dsimp only
    omega
  · rw [if_neg fun hcontains => hmem (hseen.1 hcontains)]
    unfold progressAfter
    rw [hvalid, hfilter, eraseDups_concat, if_neg hmem]
    rw [ParseProgress.mk.injEq]
    refine ⟨rfl, rfl, ?_, rfl, ?_⟩
    · rw [List.map_append, List.reverse_append]
      rfl
    · rw [List.length_append, List.length_append, List.length_singleton]
      dsimp only
      omega

/-- **The loop in closed form.** -/
theorem foldl_parseCandidate (lib : Libraries) (candidates : List Candidate) :
    candidates.foldl (parseCandidate lib) {} = progressAfter lib candidates := by
  induction candidates using List.reverseRecOn with
  | nil => rfl
  | append_singleton candidates candidate ih =>
      rw [List.foldl_append, ih, List.foldl_cons, List.foldl_nil]
      cases h : normalizeEmail lib candidate.value with
      | none => exact progressAfter_invalid h
      | some parsed => exact progressAfter_valid h

/-- The result in closed form. -/
theorem parseCandidates_eq (lib : Libraries) (candidates : List Candidate) :
    parseCandidates lib candidates = {
      leads := (validLeads lib candidates).eraseDups
      totalRows := candidates.length
      invalidCount := (candidates.filter (isInvalid lib)).length
      duplicateCount :=
        (validLeads lib candidates).length - (validLeads lib candidates).eraseDups.length
      invalidRows :=
        ((candidates.filter (isInvalid lib)).take invalidDetailLimit).map invalidLead } := by
  unfold parseCandidates
  rw [foldl_parseCandidate]
  rfl

/-! ## Lines -/

theorem splitLines_ne_nil (chars : List Char) : splitLines chars ≠ [] := by
  fun_induction splitLines chars with
  | case1 => simp
  | case2 => simp
  | case3 => simp
  | case4 => simp
  | case5 => simp

/-- A character that ends no line belongs to the first line. -/
theorem splitLines_cons {c : Char} (hn : c ≠ '\n') (hr : c ≠ '\r') (rest : List Char) :
    splitLines (c :: rest) = (splitLines rest).modifyHead (c :: ·) := by
  have hsome := splitLines_ne_nil rest
  rw [splitLines.eq_def]
  split
  next heq => cases heq
  next heq =>
    cases heq
    exact absurd rfl hr
  next heq =>
    cases heq
    exact absurd rfl hn
  next heq =>
    cases heq
    cases hlines : splitLines rest with
    | nil => exact absurd hlines hsome
    | cons line lines => rfl

/-- A text that ends no line. -/
def WithoutLineEnd (line : List Char) : Prop := ∀ c ∈ line, c ≠ '\n' ∧ c ≠ '\r'

theorem splitLines_append {line : List Char} (h : WithoutLineEnd line) (rest : List Char) :
    splitLines (line ++ rest) = (splitLines rest).modifyHead (line ++ ·) := by
  induction line with
  | nil =>
      cases hlines : splitLines rest with
      | nil => exact absurd hlines (splitLines_ne_nil rest)
      | cons first lines =>
          rw [List.nil_append, hlines]
          rfl
  | cons c line ih =>
      obtain ⟨hn, hr⟩ := h c List.mem_cons_self
      rw [List.cons_append, splitLines_cons hn hr, ih fun d hd => h d (List.mem_cons_of_mem c hd)]
      cases splitLines rest with
      | nil => rfl
      | cons first lines => rfl

theorem splitLines_newline (rest : List Char) :
    splitLines ('\n' :: rest) = [] :: splitLines rest := by
  simp [splitLines]

/-- **Lines that are put together are read back.** -/
theorem splitLines_intercalate {lines : List (List Char)} (hsome : lines ≠ [])
    (h : ∀ line ∈ lines, WithoutLineEnd line) :
    splitLines (['\n'].intercalate lines) = lines := by
  induction lines with
  | nil => exact absurd rfl hsome
  | cons line lines ih =>
      have hline := h line List.mem_cons_self
      cases lines with
      | nil =>
          have hlast := splitLines_append hline []
          rw [List.append_nil] at hlast
          rw [List.intercalate_singleton, hlast]
          simp [splitLines]
      | cons next lines =>
          rw [List.intercalate_cons_cons, List.append_assoc, splitLines_append hline,
            List.singleton_append, splitLines_newline,
            ih (by simp) fun l hl => h l (List.mem_cons_of_mem line hl)]
          simp

/-! ## Candidates of a text -/

/-- The parts of a text between line ends and commas that are not blank. -/
def textValues (content : String) : List String :=
  ((splitLines content.toList).flatMap fun line => (line.splitOn ',').map String.ofList).filter
    fun value => decide (0 < utf16Length (trim value))

/-- They are the values of the candidates. -/
theorem values_textCandidates (content : String) :
    (textCandidates content).map Candidate.value = textValues content := by
  have hline : ∀ (row : Nat) (values : List String),
      (values.filterMap fun value =>
        if 0 < utf16Length (trim value) then some (Candidate.mk row value) else none).map
          Candidate.value = values.filter fun value => decide (0 < utf16Length (trim value)) := by
    intro row values
    induction values with
    | nil => rfl
    | cons value values ih =>
        by_cases hsome : 0 < utf16Length (trim value)
        · simp [hsome, ih]
        · simp [hsome, ih]
  unfold textCandidates textValues
  rw [List.map_flatten, List.filter_flatMap, List.flatMap_def]
  congr 1
  apply List.ext_getElem
  · simp
  · intro i hi hi'
    rw [List.getElem_map, List.getElem_mapIdx, List.getElem_map]
    exact hline _ _

theorem validLeads_eq (lib : Libraries) (candidates : List Candidate) :
    validLeads lib candidates =
      (candidates.map Candidate.value).filterMap (normalizeEmail lib) := by
  rw [validLeads, List.filterMap_map, Function.comp_def]

/-- Addresses, one to a line. -/
def addressLines (emails : List String) : String :=
  .ofList (['\n'].intercalate (emails.map String.toList))

theorem IsPlainAddress.withoutLineEnd {email : String} (h : IsPlainAddress email) :
    WithoutLineEnd email.toList := by
  intro c hc
  have hplain := (h.2 c hc).2
  constructor
  · rintro rfl
    revert hplain
    decide
  · rintro rfl
    revert hplain
    decide

theorem splitOn_of_not_mem {c : Char} {line : List Char} (h : c ∉ line) :
    line.splitOn c = [line] := by
  have hsplit : [c].intercalate [line] = line := List.intercalate_singleton
  have hline : ∀ l ∈ [line], c ∉ l := by simpa using h
  rw [← hsplit, List.splitOn_intercalate c hline (by simp), hsplit]

theorem textValues_of_plain {emails : List String} (h : ∀ email ∈ emails, IsPlainAddress email) :
    ((emails.map String.toList).flatMap fun line =>
      (line.splitOn ',').map String.ofList).filter
        (fun value => decide (0 < utf16Length (trim value))) = emails := by
  induction emails with
  | nil => rfl
  | cons email emails ih =>
      obtain ⟨hsome, hplain⟩ := h email List.mem_cons_self
      have hcomma : ',' ∉ email.toList := fun hc => (hplain ',' hc).1 rfl
      have hlength : 0 < utf16Length (trim email) := by
        rw [trim_of_plain fun c hc => (hplain c hc).2, Nat.pos_iff_ne_zero, Ne,
          utf16Length_eq_zero_iff]
        exact hsome
      rw [List.map_cons, List.flatMap_cons, splitOn_of_not_mem hcomma, List.filter_append,
        ih fun e he => h e (List.mem_cons_of_mem email he)]
      simp [hlength]

/-- **Plain addresses are read back** from the text of their lines. -/
theorem textValues_addressLines {emails : List String}
    (h : ∀ email ∈ emails, IsPlainAddress email) : textValues (addressLines emails) = emails := by
  unfold textValues addressLines
  rw [String.toList_ofList]
  cases emails with
  | nil => simp [splitLines, trim, utf16Length]
  | cons email emails =>
      rw [splitLines_intercalate (by simp)]
      · exact textValues_of_plain h
      · intro line hline
        obtain ⟨address, haddress, rfl⟩ := List.mem_map.1 hline
        exact (h address haddress).withoutLineEnd

/-! ## Files -/

/-- A text is read back from its bytes, unless it begins with a byte order mark. -/
theorem decodeUtf8_toUTF8 {text : String} (h : text.toList.head? ≠ some (Char.ofNat 65279)) :
    decodeUtf8 text.toUTF8 = .ok text := by
  have hbytes : String.fromUTF8? text.toUTF8 = some text := dif_pos text.isValidUTF8
  unfold decodeUtf8
  rw [hbytes]
  dsimp only
  rw [if_neg h, if_neg h, String.ofList_toList]

theorem decodeUtf8_addressLines {emails : List String}
    (h : ∀ email ∈ emails, IsPlainAddress email) :
    decodeUtf8 (addressLines emails).toUTF8 = .ok (addressLines emails) := by
  apply decodeUtf8_toUTF8
  rw [addressLines, String.toList_ofList]
  cases emails with
  | nil => simp
  | cons email emails =>
      obtain ⟨hsome, hplain⟩ := h email List.mem_cons_self
      cases hchars : email.toList with
      | nil => exact absurd hchars hsome
      | cons c chars =>
          -- A byte order mark counts as white space.
          have hfirst := (hplain c (by simp [hchars])).2
          have hhead : (['\n'].intercalate ((email :: emails).map String.toList)).head? =
            some c := by
            cases emails with
            | nil => simp [hchars]
            | cons next emails => simp [hchars, List.intercalate_cons_cons]
          rw [hhead]
          intro hmark
          rw [Option.some.injEq] at hmark
          rw [hmark] at hfirst
          revert hfirst
          decide

variable {file : LeadFile} {maxLeads : Int} {content : String}

/-- Parsing a supported file whose content and candidates are known. -/
theorem parseLeadFile_of_candidates (hsupported : isSupported file = true)
    (hdecode : decodeUtf8 file.buffer = .ok content)
    (hcandidates : fileCandidates lib file.originalname content = .ok candidates)
    (hmax : (candidates.length : Int) ≤ maxLeads) :
    parseLeadFile lib file maxLeads = .ok (parseCandidates lib candidates) := by
  rw [parseLeadFile_of_supported hsupported, hdecode]
  dsimp only [Except.bind]
  rw [hcandidates]
  dsimp only [parseWithin]
  rw [if_neg (Int.not_lt.2 hmax)]

/-- The candidates of a text file. -/
theorem fileCandidates_of_txt (htxt : toLowerCase (extname file.originalname) = ".txt") :
    fileCandidates lib file.originalname content = .ok (textCandidates content) := by
  unfold fileCandidates
  rw [htxt, if_neg (by decide)]

/-- Leads without duplicates, written one to a line, are parsed to themselves. -/
theorem parse_addressLines (hlib : AddressSchema lib) {leads : List ParsedLead}
    (hnodup : leads.Nodup) (hleads : ∀ lead ∈ leads, ∃ value, normalizeEmail lib value = some lead)
    (hmax : (leads.length : Int) ≤ maxLeads) (hsupported : isSupported file = true)
    (htxt : toLowerCase (extname file.originalname) = ".txt")
    (hbuffer : file.buffer = (addressLines (leads.map ParsedLead.email)).toUTF8) :
    parseLeadFile lib file maxLeads = .ok ⟨leads, leads.length, 0, 0, []⟩ := by
  have hself : ∀ lead ∈ leads,
      normalizeEmail lib lead.email = some lead ∧ IsPlainAddress lead.email := by
    intro lead hlead
    obtain ⟨value, hvalue⟩ := hleads lead hlead
    exact normalizeEmail_self hlib hvalue
  have hplain : ∀ email ∈ leads.map ParsedLead.email, IsPlainAddress email := by
    intro email hemail
    obtain ⟨lead, hlead, rfl⟩ := List.mem_map.1 hemail
    exact (hself lead hlead).2
  have hvalues := (values_textCandidates (addressLines (leads.map ParsedLead.email))).trans
    (textValues_addressLines hplain)
  have hlength : (textCandidates (addressLines (leads.map ParsedLead.email))).length =
      leads.length := by
    rw [← List.length_map Candidate.value, hvalues, List.length_map]
  have hvalid : validLeads lib (textCandidates (addressLines (leads.map ParsedLead.email))) =
      leads := by
    rw [validLeads_eq, hvalues, List.filterMap_map]
    refine (List.filterMap_congr ?_).trans List.filterMap_some
    intro lead hlead
    rw [Function.comp_apply, (hself lead hlead).1]
  have hinvalid : (textCandidates (addressLines (leads.map ParsedLead.email))).filter
      (isInvalid lib) = [] := by
    rw [List.filter_eq_nil_iff]
    intro candidate hcandidate
    have hmem : candidate.value ∈ leads.map ParsedLead.email := by
      rw [← hvalues]
      exact List.mem_map_of_mem hcandidate
    obtain ⟨lead, hlead, hvalue⟩ := List.mem_map.1 hmem
    simp [isInvalid, ← hvalue, (hself lead hlead).1]
  rw [parseLeadFile_of_candidates hsupported (hbuffer ▸ decodeUtf8_addressLines hplain)
    (fileCandidates_of_txt htxt) (by rw [hlength]; exact hmax), parseCandidates_eq,
    hvalid, hinvalid,
    hlength, eraseDups_of_nodup hnodup, Nat.sub_self, List.take_nil, List.map_nil, List.length_nil]

/-! ## The theorem -/

/-- What the result says about the candidates of a file. -/
structure LeadPartition (lib : Libraries) (candidates : List Candidate) (result : LeadParseResult) :
    Prop where
  leads : result.leads = (validLeads lib candidates).eraseDups
  distinct : (result.leads.map ParsedLead.normalizedEmail).Nodup
  totalRows : result.totalRows = candidates.length
  sum : result.leads.length + result.invalidCount + result.duplicateCount = result.totalRows
  merged : ∀ a ∈ candidates, ∀ b ∈ candidates, isInvalid lib a = false → isInvalid lib b = false →
    (normalizeEmail lib a.value = normalizeEmail lib b.value ↔
      (addressParts (trim a.value)).1 = (addressParts (trim b.value)).1 ∧
        SameUpToCase (addressParts (trim a.value)).2 (addressParts (trim b.value)).2)
  invalidCount : result.invalidCount = (candidates.filter (isInvalid lib)).length
  invalidRows : result.invalidRows =
    ((candidates.filter (isInvalid lib)).take (min 25 result.invalidCount)).map invalidLead

/-- Two valid candidates have one normal form if their local parts are equal and their domains are
equal up to the case of letters. -/
theorem normalizeEmail_eq_iff (hlib : AddressSchema lib) {v w : String}
    (hv : (normalizeEmail lib v).isNone = false) (hw : (normalizeEmail lib w).isNone = false) :
    normalizeEmail lib v = normalizeEmail lib w ↔
      (addressParts (trim v)).1 = (addressParts (trim w)).1 ∧
        SameUpToCase (addressParts (trim v)).2 (addressParts (trim w)).2 := by
  cases ha : normalizeEmail lib v with
  | none =>
      rw [ha] at hv
      cases hv
  | some a =>
      cases hb : normalizeEmail lib w with
      | none =>
          rw [hb] at hw
          cases hw
      | some b =>
          obtain ⟨-, hva, -, rfl⟩ := normalizeEmail_eq_some_iff.1 ha
          obtain ⟨-, hwb, -, rfl⟩ := normalizeEmail_eq_some_iff.1 hb
          rw [← lowerDomain_inj_iff (hlib.hasAt _ hva) (hlib.hasAt _ hwb), Option.some.injEq,
            ParsedLead.mk.injEq, and_self]

theorem leadPartition_parseCandidates (hlib : AddressSchema lib) (candidates : List Candidate) :
    LeadPartition lib candidates (parseCandidates lib candidates) := by
  obtain ⟨hsum, hdistinct, -⟩ := parseCandidates_partition lib candidates
  have hresult := parseCandidates_eq lib candidates
  refine ⟨?_, hdistinct, rfl, hsum, ?_, ?_, ?_⟩
  · rw [hresult]
  · intro a _ b _ ha hb
    exact normalizeEmail_eq_iff hlib ha hb
  · rw [hresult]
  · rw [hresult]
    dsimp only [invalidDetailLimit]
    rw [List.take_eq_take_min]

/-- **Lead parsing partitions the file.** A supported file with any candidates within the maximum is
parsed. The leads are the normal forms of the valid candidates, each kept where it occurs first; the
counts add up; and the details are those of the first 25 invalid candidates. The addresses of the
leads, written one to a line into a text file, are parsed to the same leads. -/
theorem leadPartition (lib : Libraries) (hlib : AddressSchema lib) (file : LeadFile)
    (maxLeads : Int)
    (content : String) (candidates : List Candidate) (hsupported : isSupported file = true)
    (hdecode : decodeUtf8 file.buffer = .ok content)
    (hcandidates : fileCandidates lib file.originalname content = .ok candidates)
    (hmax : (candidates.length : Int) ≤ maxLeads) :
    ∃ result, parseLeadFile lib file maxLeads = .ok result ∧ LeadPartition lib candidates result ∧
      ∀ again : LeadFile, isSupported again = true →
        toLowerCase (extname again.originalname) = ".txt" →
        again.buffer = (addressLines (result.leads.map ParsedLead.email)).toUTF8 →
        parseLeadFile lib again maxLeads = .ok ⟨result.leads, result.leads.length, 0, 0, []⟩ := by
  have hpartition := leadPartition_parseCandidates hlib candidates
  refine ⟨parseCandidates lib candidates,
    parseLeadFile_of_candidates hsupported hdecode hcandidates hmax, hpartition, ?_⟩
  intro again hagain htxt hbuffer
  apply parse_addressLines hlib _ _ _ hagain htxt hbuffer
  · rw [hpartition.leads]
    exact nodup_eraseDups _
  · intro lead hlead
    rw [hpartition.leads, List.mem_eraseDups] at hlead
    obtain ⟨candidate, -, hvalue⟩ := List.mem_filterMap.1 hlead
    exact ⟨candidate.value, hvalue⟩
  · have hsum := hpartition.sum
    have htotal := hpartition.totalRows
    omega

/-- Library functions for runs on addresses: a character is refused by itself, and an `@` is
required. -/
def plainLibraries : Libraries where
  isEmail text := text.toList.contains '@' && text.toList.all fun c =>
    decide (c.toNat < 128) && c != ',' && !isWhiteSpace c
  parseCsv _ := some []

theorem addressSchema_plainLibraries : AddressSchema plainLibraries where
  ascii email h c hc := by
    simp only [plainLibraries, Bool.and_eq_true, List.all_eq_true, decide_eq_true_eq] at h
    exact (h.2 c hc).1.1
  hasAt email h := by
    simp only [plainLibraries, Bool.and_eq_true, List.contains_iff_mem] at h
    exact h.1
  plain email h c hc := by
    simp only [plainLibraries, Bool.and_eq_true, List.all_eq_true, bne_iff_ne,
      Bool.not_eq_true'] at h
    exact ⟨(h.2 c hc).1.2, (h.2 c hc).2⟩
  domainCase localPart domain domain' _ hsame := by
    have hchar : ∀ c : Char, (decide (c.toNat < 128) && c != ',' && !isWhiteSpace c) =
        (decide (c.toLower.toNat < 128) && c.toLower != ',' && !isWhiteSpace c.toLower) := by
      intro c
      rw [isWhiteSpace_toLower]
      rcases toLower_cases c with hsame | ⟨hlow, hhigh, hlower⟩
      · rw [hsame]
      · have hcomma : ∀ d : Char, 65 ≤ d.toNat → (d != ',') = true := by
          intro d hd
          rw [bne_iff_ne]
          rintro rfl
          revert hd
          decide
        rw [hcomma c hlow, hcomma c.toLower (by omega), decide_eq_true (by omega),
          decide_eq_true (by omega)]
    have hall : ∀ chars : List Char,
        (chars.all fun c => decide (c.toNat < 128) && c != ',' && !isWhiteSpace c) =
          ((chars.map Char.toLower).all fun c =>
            decide (c.toNat < 128) && c != ',' && !isWhiteSpace c) := by
      intro chars
      rw [List.all_map]
      congr 1
      exact funext hchar
    simp only [plainLibraries, String.toList_ofList, List.all_append, List.all_cons]
    rw [hall domain, hall domain', hsame]
    simp

/-- Two leads, a duplicate in another case of the domain, and an invalid candidate. -/
def mixedContent : String := "x@b.co\nA@b.co, A@B.co\nbad"

def mixedFile : LeadFile := ⟨mixedContent.toUTF8, "leads.txt", "text/plain"⟩

theorem leadPartition_of_mixedFile :
    ((parseCandidates plainLibraries (textCandidates mixedContent)).leads.map ParsedLead.email =
        ["x@b.co", "A@b.co"]) ∧
      ∃ result, parseLeadFile plainLibraries mixedFile 10 = .ok result ∧
        LeadPartition plainLibraries (textCandidates mixedContent) result ∧
        ∀ again : LeadFile, isSupported again = true →
          toLowerCase (extname again.originalname) = ".txt" →
          again.buffer = (addressLines (result.leads.map ParsedLead.email)).toUTF8 →
          parseLeadFile plainLibraries again 10 =
            .ok ⟨result.leads, result.leads.length, 0, 0, []⟩ := by
  have hdecode : decodeUtf8 mixedFile.buffer = .ok mixedContent :=
    decodeUtf8_toUTF8 (by decide +kernel)
  have htxt : toLowerCase (extname mixedFile.originalname) = ".txt" := by decide +kernel
  have hsupported : isSupported mixedFile = true := by decide +kernel
  have hmax : ((textCandidates mixedContent).length : Int) ≤ 10 := by decide +kernel
  refine ⟨by decide +kernel, ?_⟩
  exact leadPartition plainLibraries addressSchema_plainLibraries mixedFile 10 mixedContent _
    hsupported hdecode (fileCandidates_of_txt htxt) hmax

end EmailScheduler
