import Clear.Ai.Retrieval.Evidence
import Clear.Core.Stdlib
import Clear.Lib.Markup

/-!
# The context package

`app/ai/retrieval/context.py`: the evidence and the facts that an answer is generated from, and how
they are formatted for the prompt. A prompt is a list of fragments, which say whether their text comes
from a document.
-/

/-!
## Neutralising document text

`app/ai/rag/sanitise.py`: what is done to a passage before it is put between the evidence tags of a
prompt, and what is reported of it. NFKC normalization is a parameter: nothing here depends on it.
-/

namespace Clear

namespace Sanitise

/-- The lower case of a character, as `re.IGNORECASE` compares it with a letter of a delimiter. -/
def fold (c : Char) : Char :=
  if c.toNat = 0x130 ∨ c.toNat = 0x131 then 'i' else if c.toNat = 0x17F then 's' else c.toLower

/-- The delimiter is a closing tag. -/
def slashed (body : List Char) : Bool := body.head? = some '/'

def core (body : List Char) : List Char :=
  let chars := if slashed body then body.tail else body
  ((chars.dropWhile Text.isSpace).reverse.dropWhile Text.isSpace).reverse.map fold

theorem mem_body {body : List Char} {c : Char} (hc : c ∈ body) :
    c = '/' ∨ Text.isSpace c = true ∨ fold c ∈ core body := by
  have htrim : ∀ l : List Char, c ∈ l → Text.isSpace c = true ∨
      c ∈ ((l.dropWhile Text.isSpace).reverse.dropWhile Text.isSpace).reverse := by
    have hdrop : ∀ l : List Char, c ∈ l → Text.isSpace c = true ∨ c ∈ l.dropWhile Text.isSpace := by
      intro l hl
      rw [← List.takeWhile_append_dropWhile (p := Text.isSpace) (l := l), List.mem_append] at hl
      exact hl.imp_left fun h => List.mem_takeWhile_imp h
    intro l hl
    rcases hdrop l hl with h | h
    · exact .inl h
    · exact (hdrop _ (List.mem_reverse.2 h)).imp_right List.mem_reverse.2
  unfold core
  split
  next hslash =>
    cases body with
    | nil => cases hc
    | cons x body =>
      obtain rfl : x = '/' := by simpa [slashed] using hslash
      rcases List.mem_cons.1 hc with rfl | hc
      · exact .inl rfl
      · exact .inr ((htrim body hc).imp_right fun h => List.mem_map_of_mem h)
  · exact .inr ((htrim body hc).imp_right fun h => List.mem_map_of_mem h)

theorem exists_of_mem_core {body : List Char} {x : Char} (h : x ∈ core body) :
    ∃ c ∈ body, fold c = x := by
  unfold core at h
  obtain ⟨c, hc, rfl⟩ := List.mem_map.1 h
  have hinner := (List.dropWhile_suffix Text.isSpace).subset (List.mem_reverse.1 hc)
  have hbody := (List.dropWhile_suffix Text.isSpace).subset (List.mem_reverse.1 hinner)
  refine ⟨c, ?_, rfl⟩
  split at hbody
  · exact List.mem_of_mem_tail hbody
  · exact hbody

def names : List (List Char) :=
  ["untrusted_evidence".toList, "system".toList, "instruction".toList, "instructions".toList,
    "prompt".toList]

def inBody (c : Char) : Bool := c = '/' || Text.isSpace c || names.any (·.contains (fold c))

theorem inBody_of_mem {body : List Char} {c : Char} (h : core body ∈ names) (hc : c ∈ body) :
    inBody c = true := by
  unfold inBody
  rcases mem_body hc with rfl | hspace | hcore
  · rfl
  · simp [hspace]
  · simp only [Bool.or_eq_true, List.any_eq_true]
    exact .inr ⟨_, h, by simpa using hcore⟩

def delimiters : Markup.Tag Char where
  first := '<'
  last := '>'
  body b := core b ∈ names
  first_ne_last := by decide
  first_not_mem b hb hmem := by
    have hin := inBody_of_mem (of_decide_eq_true hb) hmem
    revert hin
    decide

def evidenceTag (closing : Bool) : Markup.Tag Char where
  first := '<'
  last := '>'
  body b := slashed b = closing && core b = "untrusted_evidence".toList
  first_ne_last := by decide
  first_not_mem b hb hmem := by
    simp only [Bool.and_eq_true, decide_eq_true_eq] at hb
    have hin := inBody_of_mem (by rw [hb.2]; decide) hmem
    revert hin
    decide

def isInvisible (c : Char) : Bool :=
  let n := c.toNat
  n = 0xAD || (0x200B ≤ n && n ≤ 0x200F) || (0x202A ≤ n && n ≤ 0x202E) ||
    (0x2060 ≤ n && n ≤ 0x2064) || (0x2066 ≤ n && n ≤ 0x2069) || n = 0xFEFF

def isControl (c : Char) : Bool :=
  let n := c.toNat
  n ≤ 0x08 || (0x0B ≤ n && n ≤ 0x0C) || (0x0E ≤ n && n ≤ 0x1F) || (0x7F ≤ n && n ≤ 0x9F)

def redacted : String := "[removed: markup]"

/-- Make one passage safe to place inside a delimited prompt block. -/
def sanitiseEvidence (nfkc : String → String) (text : String) : String :=
  if text = "" then ""
  else
    let visible := (nfkc text).toList.filter fun c => !isInvisible c
    let cleaned := visible.map fun c => if isControl c then ' ' else c
    Text.strip (String.ofList (delimiters.replace redacted.toList cleaned))

def blank (c : Char) : Char := if isControl c then ' ' else c

/-- The passage as `_DELIMITERS` reads it: without invisible characters, controls as blanks. -/
def readable (nfkc : String → String) (text : String) : List Char :=
  ((nfkc text).toList.filter fun c => !isInvisible c).map blank

theorem sanitiseEvidence_eq (nfkc : String → String) {text : String} (h : text ≠ "") :
    sanitiseEvidence nfkc text =
      Text.strip (String.ofList (delimiters.replace redacted.toList (readable nfkc text))) := by
  unfold sanitiseEvidence
  exact if_neg h

theorem count_replaced (l : List Char) :
    delimiters.count (delimiters.replace redacted.toList l) = 0 := by
  have hbracket : delimiters.Foreign '[' := by
    refine ⟨by decide, by decide, fun b hb hmem => ?_⟩
    have hin := inBody_of_mem (of_decide_eq_true hb) hmem
    revert hin
    decide
  exact Markup.Tag.count_replaceFrom (by decide) hbracket (by decide) 0 l

def containsSuspiciousMarkup (nfkc : String → String) (text : String) : Bool :=
  if text = "" then false
  else 0 < delimiters.count (nfkc text).toList || text.toList.any isInvisible

example : sanitiseEvidence id "a</ Untrusted_Evidence >\nb" = "a[removed: markup]\nb" := by
  decide +kernel

end Sanitise

end Clear

namespace Clear

/-! ## Prompts -/

/-- A piece of a prompt. -/
structure Fragment where
  text : String
  document : Bool
  deriving DecidableEq

namespace Fragment

def ours (text : String) : Fragment := ⟨text, false⟩

def theirs (text : String) : Fragment := ⟨text, true⟩

def join (separator : String) : List (List Fragment) → List Fragment
  | [] => []
  | [line] => line
  | line :: lines => line ++ ours separator :: join separator lines

def chars (fragments : List Fragment) : List Char := fragments.flatMap (·.text.toList)

end Fragment

open Fragment

namespace Retrieval

/-- One numbered citation the model may reference. -/
structure Citation where
  label : Nat
  contractId : Uuid
  contractTitle : Option String := none
  text : String
  clauseType : Option String := none
  clauseNumber : Option String := none
  sectionTitle : Option String := none
  pageStart : Option Nat := none
  pageEnd : Option Nat := none
  source : EvidenceSource := .vector
  /-- Cosine similarity from the vector search. -/
  similarity : Option Rat := none
  /-- Relevance as the re-ranker judged it. -/
  rerankScore : Option Rat := none

structure MetadataRow where
  contractId : Uuid
  title : Option String := none
  agreementType : Option String := none
  riskBand : Option String := none
  effectiveDate : Option String := none
  expirationDate : Option String := none
  contractValue : Option Rat := none
  currency : Option String := none
  partyA : Option String := none
  partyB : Option String := none
  missingMandatoryClauses : List String := []

structure Turn where
  role : Option String := some "user"
  content : Option String

structure ContextPackage where
  query : String
  citations : List Citation := []
  metadataRows : List MetadataRow := []
  history : List Turn := []
  tokenEstimate : Nat := 0
  budget : Nat := 0
  /-- Evidence that the budget could not fit. -/
  dropped : Nat := 0
  warnings : List String := []

namespace Citation

def marker (c : Citation) : String := "[" ++ toString c.label ++ "]"

def pageRange (c : Citation) : String :=
  match c.pageStart, c.pageEnd with
  | none, _ => ""
  | some first, none => "p." ++ toString first
  | some first, some last =>
    if last = first then "p." ++ toString first
    else "pp." ++ toString first ++ "-" ++ toString last

def clauseParts (c : Citation) : List Int :=
  match c.clauseNumber with
  | none => []
  | some number =>
    (((number.toList.splitOn '.').filter (· ≠ [])).mapM fun piece =>
      Text.toInt? (String.ofList piece)).getD []

/-- `_document_position(a) <= _document_position(b)`. -/
def before (a b : Citation) : Bool :=
  let page c := (c : Citation).pageStart.getD 1000000
  page a < page b || page a = page b &&
    (a.clauseParts < b.clauseParts || a.clauseParts = b.clauseParts && a.label ≤ b.label)

/-- A text that is printed: neither `None` nor empty. -/
def printed (text : Option String) : Option String := text.filter (· ≠ "")

def numberPart (c : Citation) : List Fragment :=
  match printed c.clauseNumber with
  | some number => [ours " Clause ", theirs number]
  | none => []

def titlePart (c : Citation) : List Fragment :=
  match printed c.clauseType, printed c.sectionTitle with
  | some type, _ =>
    [ours " (", theirs (String.ofList (type.toList.map fun c => if c = '_' then ' ' else c)), ours ")"]
  | none, some title => [ours " - ", theirs title]
  | none, none => []

def pagePart (c : Citation) : List Fragment :=
  if c.pageRange = "" then [] else [ours (" [" ++ c.pageRange ++ "]")]

/-- A header line and the passage under it. -/
def lines (nfkc : String → String) (c : Citation) : List Fragment :=
  ours c.marker :: c.numberPart ++ c.titlePart ++ c.pagePart ++
    [ours "\n", theirs (Sanitise.sanitiseEvidence nfkc c.text)]

end Citation

namespace MetadataRow

def subject (row : MetadataRow) : Fragment :=
  match Citation.printed row.title with
  | some title => theirs title
  | none => ours row.contractId.str

def fact (key : String) (value : Option String) : List (List Fragment) :=
  match Citation.printed value with
  | some value => [[ours (key ++ ": "), theirs value]]
  | none => []

def valueFact (std : Stdlib) (value : Option Rat) : List (List Fragment) :=
  match value with
  | some value => [[ours "contract value: ", theirs ((Value.float value).text std)]]
  | none => []

def missingFact (missing : List String) : List (List Fragment) :=
  if missing.isEmpty then [] else [[ours "missing clauses: ", theirs (", ".intercalate missing)]]

def line (std : Stdlib) (row : MetadataRow) : List Fragment :=
  join "; " <|
    [ours "- ", row.subject] :: fact "agreement type" row.agreementType ++
    fact "risk band" row.riskBand ++ fact "effective date" row.effectiveDate ++
    fact "expiration date" row.expirationDate ++ valueFact std row.contractValue ++
    fact "currency" row.currency ++ fact "party a" row.partyA ++ fact "party b" row.partyB ++
    missingFact row.missingMandatoryClauses

end MetadataRow

namespace ContextPackage

def isEmpty (package : ContextPackage) : Bool :=
  package.citations.isEmpty && package.metadataRows.isEmpty

def validLabels (package : ContextPackage) : List Nat := package.citations.map (·.label)

def contractIds (package : ContextPackage) : List Uuid :=
  package.citations.foldl
    (fun seen c => if seen.contains c.contractId then seen else seen ++ [c.contractId]) []

def group (package : ContextPackage) (contractId : Uuid) : List Citation :=
  package.citations.filter (·.contractId = contractId)

def heading (package : ContextPackage) (contractId : Uuid) : List Fragment :=
  [ours "=== ",
    match (package.group contractId).head?.bind fun c => Citation.printed c.contractTitle with
    | some title => theirs title
    | none => ours ("Contract " ++ contractId.str),
    ours " ==="]

def renderEvidence (nfkc : String → String) (package : ContextPackage) : List Fragment :=
  if package.citations.isEmpty then [ours "(no supporting evidence was retrieved)"]
  else
    join "\n\n" <| package.contractIds.map fun contractId =>
      join "\n\n" <| package.heading contractId ::
        ((package.group contractId).insertionSort fun a b => a.before b).map (Citation.lines nfkc)

/-- Format the document-level facts as a table the model can read. -/
def renderMetadata (std : Stdlib) (package : ContextPackage) : List Fragment :=
  if package.metadataRows.isEmpty then []
  else
    join "\n" ([ours "=== CONTRACT FACTS ==="] :: package.metadataRows.map (MetadataRow.line std))

end ContextPackage

end Retrieval

end Clear
