import Std.Data.TreeMap
import Sociogram.Yaml.Folding

/-!
The tokens of a YAML text.

Indentation opens and closes blocks, and a colon makes a key of what stands before
it on its line. What might become a key is entered in the list of tokens as a
candidate; once its colon is found the candidate is confirmed, and the candidates
that were never confirmed are left out in the end.
-/

namespace Sociogram.Yaml

inductive Token where
  /-- A line that names the version of YAML. -/
  | versionLine
  | documentStart
  | documentEnd
  | blockSequenceStart
  | blockMappingStart
  | blockEnd
  | flowSequenceStart
  | flowSequenceEnd
  | flowMappingStart
  | flowMappingEnd
  | blockEntry
  | flowEntry
  | key
  | value
  | scalar (quoted : Bool) (text : String)
deriving DecidableEq

/-- A token, or a place where a key may turn out to begin. -/
inductive Entry where
  | token (token : Token)
  | candidate (number : Nat)

structure Candidate where
  number : Nat
  /-- A required key begins at the column of its block. -/
  required : Bool
  line : Nat
  index : Nat
  column : Nat

structure Scan where
  cursor : Cursor
  /-- The entries so far, the last one first. -/
  entries : List Entry
  /-- The confirmed candidates, each with whether it opens a block mapping. -/
  confirmed : Std.TreeMap Nat Bool
  candidateCount : Nat
  /-- The column of the block, or `-1` outside of all blocks. -/
  indent : Int
  /-- The columns of the blocks around it. -/
  outerIndents : List Int
  /-- The candidate outside of flow collections, or within the innermost one. -/
  candidate : Option Candidate
  /-- The candidates around the innermost flow collection, one for each level. -/
  outerCandidates : List (Option Candidate)
  /-- Whether a key may begin here. -/
  keyAllowed : Bool

namespace Scan

def start (characters : List Char) : Scan where
  cursor := .start characters
  entries := []
  confirmed := {}
  candidateCount := 0
  indent := -1
  outerIndents := []
  candidate := none
  outerCandidates := []
  keyAllowed := true

def inFlow (scan : Scan) : Bool := !scan.outerCandidates.isEmpty

def emit (scan : Scan) (token : Token) : Scan :=
  { scan with entries := .token token :: scan.entries }

def advance (scan : Scan) (count : Nat) : Scan :=
  { scan with cursor := scan.cursor.advance count }

/-! ## Blocks -/

def closeBlocks (scan : Scan) (column : Int) : Scan :=
  if scan.inFlow then scan
  else go scan.outerIndents scan
where
  go : List Int → Scan → Scan
    | [], scan => scan
    | outer :: outers, scan =>
        if column < scan.indent then
          go outers { scan.emit .blockEnd with indent := outer, outerIndents := outers }
        else scan

def opensBlock (scan : Scan) (column : Nat) : Bool :=
  !scan.inFlow && decide (scan.indent < column)

def indentTo (scan : Scan) (column : Nat) : Scan :=
  { scan with indent := column, outerIndents := scan.indent :: scan.outerIndents }

def openBlock (scan : Scan) (column : Nat) (token : Token) : Scan :=
  if scan.opensBlock column then (scan.indentTo column).emit token else scan

/-! ## Candidates -/

def dropCandidate (scan : Scan) : Option Scan :=
  match scan.candidate with
  | some candidate => if candidate.required then none else some { scan with candidate := none }
  | none => some scan

def saveCandidate (scan : Scan) : Option Scan :=
  if scan.keyAllowed then do
    let scan ← scan.dropCandidate
    let number := scan.candidateCount
    let candidate : Candidate := {
      number := number
      required := !scan.inFlow && scan.indent == scan.cursor.column
      line := scan.cursor.line
      index := scan.cursor.index
      column := scan.cursor.column }
    return { scan with
      candidate := some candidate
      candidateCount := number + 1
      entries := .candidate number :: scan.entries }
  else some scan

/-- A key is on one line with its colon and not longer than 1024 bytes. -/
def isStale (cursor : Cursor) (candidate : Candidate) : Bool :=
  candidate.line < cursor.line || candidate.index + 1024 < cursor.index

def refresh (cursor : Cursor) (candidate : Option Candidate) : Option (Option Candidate) :=
  match candidate with
  | some candidate =>
      if isStale cursor candidate then
        if candidate.required then none else some none
      else some (some candidate)
  | none => some none

def dropStale (scan : Scan) : Option Scan := do
  let candidate ← refresh scan.cursor scan.candidate
  let outerCandidates ← scan.outerCandidates.mapM (refresh scan.cursor)
  return { scan with candidate := candidate, outerCandidates := outerCandidates }

/-! ## Tokens of one kind -/

/-- Go past blanks, comments and line breaks. A key may begin on the next line. A byte
order mark may begin any line, and takes a column there. -/
def skipGap (fuel : Nat) (scan : Scan) : Scan :=
  go fuel scan.keyAllowed scan.cursor
where
  go : Nat → Bool → Cursor → Scan
    | 0, keyAllowed, cursor => { scan with keyAllowed := keyAllowed, cursor := cursor }
    | fuel + 1, keyAllowed, cursor =>
        let stop : Scan := { scan with keyAllowed := keyAllowed, cursor := cursor }
        match cursor.rest with
        | [] => stop
        | ' ' :: _ => go fuel keyAllowed (cursor.advance 1)
        | '\t' :: _ =>
            if scan.inFlow || !keyAllowed then go fuel keyAllowed (cursor.advance 1) else stop
        | '#' :: _ => go fuel keyAllowed cursor.skipComment
        | '\ufeff' :: _ =>
            if cursor.column == 0 then go fuel keyAllowed (cursor.advance 1) else stop
        | character :: _ =>
            if isBreak character then go fuel (keyAllowed || !scan.inFlow) cursor.nextLine
            else stop

def versionNumber? (characters : List Char) : Option (Nat × List Char) := do
  let digits := characters.takeWhile Char.isDigit
  let number ← Digits.natural? 10 digits
  if digits.length ≤ 9 then return (number, characters.dropWhile Char.isDigit) else none

def afterVersion? (characters : List Char) : Option (List Char) :=
  match versionNumber? characters with
  | some (1, '.' :: afterPoint) =>
      match versionNumber? afterPoint with
      | some (1, rest) => some rest
      | some (2, rest) => some rest
      | _ => none
  | _ => none

def scanVersionLine (scan : Scan) : Option Scan := do
  let scan ← (scan.closeBlocks (-1)).dropCandidate
  let afterName ←
    match scan.cursor.rest with
    | '%' :: 'Y' :: 'A' :: 'M' :: 'L' :: rest => if rest.head?.any isBlank then some rest else none
    | _ => none
  let afterVersion ← afterVersion? (afterName.dropWhile isBlank)
  let rest := afterVersion.dropWhile isBlank
  let atEnd := scan.cursor.advance (scan.cursor.rest.length - rest.length)
  let cursor := if rest.head? == some '#' then atEnd.skipComment else atEnd
  match cursor.rest with
  | [] => return { scan.emit .versionLine with cursor := cursor, keyAllowed := false }
  | character :: _ =>
      if isBreak character then
        return { scan.emit .versionLine with cursor := cursor.nextLine, keyAllowed := false }
      else none

def scanDocumentMark (scan : Scan) (token : Token) : Option Scan := do
  let scan ← (scan.closeBlocks (-1)).dropCandidate
  return { (scan.advance 3).emit token with keyAllowed := false }

def openFlow (scan : Scan) (token : Token) : Option Scan := do
  let scan ← scan.saveCandidate
  return { (scan.advance 1).emit token with
    candidate := none
    outerCandidates := scan.candidate :: scan.outerCandidates
    keyAllowed := true }

def closeFlow (scan : Scan) (token : Token) : Option Scan := do
  let scan ← scan.dropCandidate
  let closed :=
    match scan.outerCandidates with
    | [] => scan
    | candidate :: outer => { scan with candidate := candidate, outerCandidates := outer }
  return { (closed.advance 1).emit token with keyAllowed := false }

def scanFlowEntry (scan : Scan) : Option Scan := do
  let scan ← scan.dropCandidate
  return { (scan.advance 1).emit .flowEntry with keyAllowed := true }

def scanBlockEntry (scan : Scan) : Option Scan :=
  if !scan.inFlow && !scan.keyAllowed then none
  else do
    let scan ← (scan.openBlock scan.cursor.column .blockSequenceStart).dropCandidate
    return { (scan.advance 1).emit .blockEntry with keyAllowed := true }

def scanKey (scan : Scan) : Option Scan :=
  if !scan.inFlow && !scan.keyAllowed then none
  else do
    let scan ← (scan.openBlock scan.cursor.column .blockMappingStart).dropCandidate
    return { (scan.advance 1).emit .key with keyAllowed := !scan.inFlow }

/-- A colon confirms the candidate before it, or else stands where a key is left
out. -/
def scanValue (scan : Scan) : Option Scan :=
  match scan.candidate with
  | some candidate =>
      let opens := scan.opensBlock candidate.column
      let opened := if opens then scan.indentTo candidate.column else scan
      some { (opened.advance 1).emit .value with
        confirmed := scan.confirmed.insert candidate.number opens
        candidate := none
        keyAllowed := false }
  | none =>
      if !scan.inFlow && !scan.keyAllowed then none
      else
        let opened := scan.openBlock scan.cursor.column .blockMappingStart
        some { (opened.advance 1).emit .value with keyAllowed := !scan.inFlow }

def scanQuotedScalar (fuel : Nat) (scan : Scan) (double : Bool) : Option Scan := do
  let scan ← scan.saveCandidate
  let (characters, after) ← scanQuoted double fuel [] (scan.cursor.advance 1)
  return { scan.emit (.scalar true (String.ofList characters.reverse)) with
    cursor := after
    keyAllowed := false }

def scanPlainScalar (fuel : Nat) (scan : Scan) : Option Scan := do
  let scan ← scan.saveCandidate
  let (characters, passedBreak, after) ←
    scanPlain scan.inFlow (scan.indent + 1) fuel [] (.blanks []) scan.cursor
  return { scan.emit (.scalar false (String.ofList characters.reverse)) with
    cursor := after
    keyAllowed := passedBreak }

/-! ## All tokens -/

def isIndicator (character : Char) : Bool :=
  "-?:,[]\x7b\x7d#&*!|>'\"%@\x60".toList.contains character

def startsPlain (scan : Scan) (character : Char) (rest : List Char) : Bool :=
  !(isBlank character || isBreak character || isIndicator character) ||
    (character == '-' && !rest.head?.any isBlank) ||
    (!scan.inFlow && (character == '?' || character == ':') && !atGap rest)

def finish (scan : Scan) : Option Scan := (scan.closeBlocks (-1)).dropCandidate

/-- Scan the token that begins with a character. Anchors, tags and block scalars are
refused. The fuel is greater than the number of characters left. -/
def scanToken (fuel : Nat) (scan : Scan) (character : Char) (rest : List Char) :
    Option Scan :=
  if scan.cursor.column == 0 && character == '%' then scan.scanVersionLine
  else if scan.cursor.column == 0 && atMark '-' scan.cursor.rest then
    scan.scanDocumentMark .documentStart
  else if scan.cursor.column == 0 && atMark '.' scan.cursor.rest then
    scan.scanDocumentMark .documentEnd
  else
    match character with
    | '[' => scan.openFlow .flowSequenceStart
    | '\x7b' => scan.openFlow .flowMappingStart
    | ']' => scan.closeFlow .flowSequenceEnd
    | '\x7d' => scan.closeFlow .flowMappingEnd
    | ',' => scan.scanFlowEntry
    | '\'' => scan.scanQuotedScalar fuel false
    | '\"' => scan.scanQuotedScalar fuel true
    | _ =>
        if character == '-' && atGap rest then scan.scanBlockEntry
        else if character == '?' && (scan.inFlow || atGap rest) then scan.scanKey
        else if character == ':' && (scan.inFlow || atGap rest) then scan.scanValue
        else if scan.startsPlain character rest then scan.scanPlainScalar fuel
        else none

def scanAll : Nat → Scan → Option Scan
  | 0, _ => none
  | fuel + 1, scan => do
      let fresh ← (scan.skipGap fuel).dropStale
      let scan := fresh.closeBlocks fresh.cursor.column
      match scan.cursor.rest with
      | [] => scan.finish
      | character :: rest =>
          let next ← scan.scanToken (fuel + 1) character rest
          scanAll fuel next

/-- The tokens in their order. A confirmed candidate is a key, and before it the
beginning of a block mapping if it opens one. -/
def tokens (scan : Scan) : List Token :=
  scan.entries.reverse.flatMap fun entry =>
    match entry with
    | .token token => [token]
    | .candidate number =>
        match scan.confirmed[number]? with
        | some true => [.blockMappingStart, .key]
        | some false => [.key]
        | none => []

end Scan

def tokenize? (text : String) : Option (List Token) := do
  let characters := text.toList
  if characters.all isAllowed then
    let scan ← Scan.scanAll (characters.length + 1) (Scan.start characters)
    return scan.tokens
  else none

end Sociogram.Yaml
