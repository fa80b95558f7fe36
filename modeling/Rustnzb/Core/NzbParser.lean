import Mathlib.Data.List.Destutter
import Mathlib.Data.List.DropRight
import Mathlib.Tactic

/-!
# Parsing an NZB

`parse_nzb` goes over the events of an XML reader, a library that is not modelled: a document is the
list of its events. Unicode normalisation is a parameter. What the log is told, the checks on the
first bytes of a document and the ids of files are left out.
-/

namespace Rustnzb.Core

/-! ## File names -/

def isWhitespace (char : Char) : Bool :=
  let code := char.toNat
  (9 ≤ code && code ≤ 13) || code = 0x20 || code = 0x85 || code = 0xA0 || code = 0x1680 ||
    (0x2000 ≤ code && code ≤ 0x200A) || code = 0x2028 || code = 0x2029 || code = 0x202F ||
    code = 0x205F || code = 0x3000

def isControl (char : Char) : Bool :=
  char.toNat < 0x20 || (0x7F ≤ char.toNat && char.toNat < 0xA0)

def isBidiOrInvisibleControl (char : Char) : Bool :=
  let code := char.toNat
  (0x202A ≤ code && code ≤ 0x202E) || (0x2066 ≤ code && code ≤ 0x2069) || code = 0x200E ||
    code = 0x200F || code = 0x061C || code = 0x200B || code = 0xFEFF

/-- The characters `sanitize_filename` takes out of a name. -/
def isStripped (char : Char) : Bool :=
  char ∈ ['<', '>', ':', '"', '|', '?', '*'] || isControl char || isBidiOrInvisibleControl char ||
    char = '\\'

def trim (text : List Char) : List Char :=
  (text.dropWhile isWhitespace).rdropWhile isWhitespace

/-- What is left of a name without the stripped characters, white space at its ends and then dots
at its end. -/
def trimmedName (name : List Char) : List Char :=
  (trim (name.filter fun char => !isStripped char)).rdropWhile (· = '.')

def sanitizeFilename (nfc : List Char → List Char) (name : List Char) : List Char :=
  let trimmed := trimmedName (nfc name)
  if trimmed = [] then "unnamed".toList else trimmed

def quotedFilename (subject : List Char) : Option (List Char) :=
  match subject.dropWhile (· ≠ '"') with
  | [] => none
  | _ :: rest => if '"' ∈ rest then some (rest.takeWhile (· ≠ '"')) else none

def filenameBeforeParen (subject : List Char) : Option (List Char) :=
  if '(' ∈ subject then
    let beforeParen := trim (subject.rdropWhile (· ≠ '(')).dropLast
    let candidate := beforeParen.rtakeWhile (· ≠ ' ')
    if ' ' ∈ beforeParen ∧ '.' ∈ candidate then some candidate
    else if '.' ∈ beforeParen then some beforeParen
    else none
  else none

def extractFilename (subject : List Char) : List Char :=
  match quotedFilename subject with
  | some name => name
  | none => (filenameBeforeParen subject).getD subject

/-! ## Events -/

/-- An attribute: its value decoded and normalised, unless that fails, and its bytes as text. -/
structure Attribute where
  key : String
  decoded : Option String
  lossy : String
  deriving DecidableEq

inductive Event where
  | start (localName : String) (attributes : List Attribute)
  | finish (localName : String)
  | text (text : String)
  | cdata (text : String)
  | generalRef (name : String)
  | error (message : String)
  | other
  deriving DecidableEq

inductive NzbError where
  | invalidNzb (message : String)
  | parseError (message : String)
  deriving DecidableEq

structure Segment where
  number : ℕ
  bytes : ℕ
  messageId : String
  deriving DecidableEq

structure NzbFile where
  filename : String
  bytes : ℕ
  isPar2 : Bool
  groups : List String
  articles : List Segment
  deriving DecidableEq

structure NzbJob where
  files : List NzbFile
  totalBytes : ℕ
  fileCount : ℕ
  articleCount : ℕ
  password : Option String
  deriving DecidableEq

/-- A decimal number with an optional plus sign, below `bound`. -/
def parseUnsigned (bound : ℕ) (text : String) : Option ℕ :=
  let digits := match text.toList with
    | '+' :: rest => rest
    | chars => chars
  if digits ≠ [] ∧ digits.all Char.isDigit then
    let value := digits.foldl (fun acc digit => acc * 10 + (digit.toNat - 48)) 0
    if value < bound then some value else none
  else none

def hexDigit (char : Char) : Option ℕ :=
  if char.isDigit then some (char.toNat - 48)
  else if 'a' ≤ char ∧ char ≤ 'f' then some (char.toNat - 87)
  else if 'A' ≤ char ∧ char ≤ 'F' then some (char.toNat - 55)
  else none

/-- `u32::from_str_radix` to the base 16. -/
def parseHex (digits : List Char) : Option ℕ :=
  let digits := match digits with
    | '+' :: rest => rest
    | chars => chars
  if digits = [] then none
  else
    (digits.mapM hexDigit).bind fun values =>
      let value := values.foldl (fun acc digit => acc * 16 + digit) 0
      if value < 2 ^ 32 then some value else none

def charFromU32 (code : ℕ) : Option Char :=
  if code.isValidChar then some (Char.ofNat code) else none

def resolveCharRef (name : String) : Option Char :=
  match name.toList with
  | '#' :: 'x' :: hex | '#' :: 'X' :: hex => (parseHex hex).bind charFromU32
  | '#' :: digits => (parseUnsigned (2 ^ 32) (String.ofList digits)).bind charFromU32
  | _ => none

def resolvePredefinedEntity (name : String) : Option String :=
  match name with
  | "lt" => some "<"
  | "gt" => some ">"
  | "amp" => some "&"
  | "apos" => some "'"
  | "quot" => some "\""
  | _ => none

/-! ## PAR2 names -/

def rfind (needle text : List Char) : Option ℕ :=
  (List.range (text.length + 1)).reverse.find? fun start => needle.isPrefixOf (text.drop start)

/-- The set, the first block and the number of blocks that a PAR2 file name tells of. -/
def parsePar2Filename (filename : List Char) : Option (List Char) × Option ℕ × Option ℕ :=
  if ".par2".toList.isSuffixOf (filename.map Char.toLower) then
    let withoutExt := filename.take (filename.length - 5)
    let volume := (rfind ".vol".toList (withoutExt.map Char.toLower)).bind fun volPos =>
      let volPart := withoutExt.drop (volPos + 4)
      let volText := volPart.takeWhile fun char => char ≠ '+' && char ≠ '-'
      match volPart.dropWhile fun char => char ≠ '+' && char ≠ '-' with
      | [] => none
      | _ :: blocksText =>
          if volText ≠ [] ∧ blocksText ≠ [] ∧ volText.all Char.isDigit ∧
              blocksText.all Char.isDigit then
            match parseUnsigned (2 ^ 32) (String.ofList volText),
                parseUnsigned (2 ^ 32) (String.ofList blocksText) with
            | some vol, some blocks => some (withoutExt.take volPos, vol, blocks)
            | _, _ => none
          else none
    match volume with
    | some (setName, vol, blocks) => (some setName, some vol, some blocks)
    | none => (some withoutExt, none, none)
  else (none, none, none)

example : parsePar2Filename "a.vol003+04.PAR2".toList = (some "a".toList, some 3, some 4) := by
  decide

/-! ## The loop -/

structure ParserState where
  files : List NzbFile
  currentFile : Option String
  currentGroups : List String
  currentSegments : List Segment
  inGroups : Bool
  inSegments : Bool
  metaPassword : Option String
  readingPasswordMeta : Bool
  textBuf : String

def ParserState.init : ParserState where
  files := []
  currentFile := none
  currentGroups := []
  currentSegments := []
  inGroups := false
  inSegments := false
  metaPassword := none
  readingPasswordMeta := false
  textBuf := ""

def lastAttribute (attributes : List Attribute) (key : String) : Option Attribute :=
  attributes.reverse.find? fun entry => entry.key = key

def subjectOf (attributes : List Attribute) : String :=
  (lastAttribute attributes "subject").elim "" fun entry => entry.decoded.getD entry.lossy

def trimString (text : String) : String := String.ofList (trim text.toList)

/-- The segments of a file: the malformed ones dropped, sorted stably by number, the first of each
number. -/
def validSegments (segments : List Segment) : List Segment :=
  ((segments.filter fun segment =>
    0 < segment.number && 0 < segment.bytes && segment.messageId ≠ "").insertionSort
      fun first second => first.number ≤ second.number).destutter
        fun first second => first.number ≠ second.number

section Loop

variable (nfc : List Char → List Char)

def buildFile (subject : String) (groups : List String) (segments : List Segment) : NzbFile :=
  let filename := sanitizeFilename nfc (extractFilename subject.toList)
  let articles := validSegments segments
  { filename := String.ofList filename
    bytes := (articles.map Segment.bytes).sum % 2 ^ 64
    isPar2 := ".par2".toList.isSuffixOf (filename.map Char.toLower)
    groups := groups
    articles := articles }

def onStart (state : ParserState) (localName : String) (attributes : List Attribute) :
    ParserState :=
  match localName with
  | "file" =>
      { state with
        textBuf := "", currentFile := some (subjectOf attributes), currentGroups := [],
        currentSegments := [] }
  | "groups" => { state with inGroups := true }
  | "group" => { state with textBuf := "" }
  | "segments" => { state with inSegments := true }
  | "segment" =>
      let number := (lastAttribute attributes "number").elim 0 fun entry =>
        (parseUnsigned (2 ^ 32) entry.lossy).getD 0
      let bytes := (lastAttribute attributes "bytes").elim 0 fun entry =>
        (parseUnsigned (2 ^ 64) entry.lossy).getD 0
      { state with
        textBuf := ""
        currentSegments :=
          state.currentSegments ++ [{ number := number, bytes := bytes, messageId := "" }] }
  | "meta" =>
      { state with
        textBuf := ""
        readingPasswordMeta := state.readingPasswordMeta || attributes.any fun entry =>
          entry.key = "type" && entry.lossy = "password" }
  | _ => state

def onFinish (state : ParserState) (localName : String) : ParserState :=
  match localName with
  | "file" =>
      match state.currentFile with
      | none => state
      | some subject =>
          { state with
            currentFile := none
            files := state.files ++
              [buildFile nfc subject state.currentGroups state.currentSegments]
            currentSegments := [] }
  | "groups" => { state with inGroups := false }
  | "group" =>
      let group := trimString state.textBuf
      { state with
        textBuf := ""
        currentGroups :=
          if state.inGroups && group ≠ "" then state.currentGroups ++ [group]
          else state.currentGroups }
  | "segments" => { state with inSegments := false }
  | "segment" =>
      { state with
        textBuf := ""
        currentSegments :=
          if state.inSegments then
            state.currentSegments.modifyLast fun segment =>
              { segment with messageId := trimString state.textBuf }
          else state.currentSegments }
  | "meta" =>
      { state with
        textBuf := ""
        readingPasswordMeta := false
        metaPassword :=
          if state.readingPasswordMeta then some (trimString state.textBuf)
          else state.metaPassword }
  | _ => state

def referenceText (name : String) : String :=
  match resolveCharRef name with
  | some char => char.toString
  | none => (resolvePredefinedEntity name).getD ("&" ++ name ++ ";")

def parseEvents (state : ParserState) : List Event → Except NzbError ParserState
  | [] => .ok state
  | .error message :: _ => .error (.parseError ("XML error: " ++ message))
  | .start localName attributes :: rest => parseEvents (onStart state localName attributes) rest
  | .finish localName :: rest => parseEvents (onFinish nfc state localName) rest
  | .text text :: rest | .cdata text :: rest =>
      parseEvents { state with textBuf := state.textBuf ++ text } rest
  | .generalRef name :: rest =>
      parseEvents { state with textBuf := state.textBuf ++ referenceText name } rest
  | .other :: rest => parseEvents state rest

def parseNzb (events : List Event) : Except NzbError NzbJob :=
  match parseEvents nfc ParserState.init events with
  | .error e => .error e
  | .ok state =>
      if state.files = [] then .error (.invalidNzb "No files found in NZB")
      else
        .ok {
          files := state.files
          totalBytes := (state.files.map NzbFile.bytes).sum % 2 ^ 64
          fileCount := state.files.length
          articleCount := (state.files.map fun file => file.articles.length).sum
          password := state.metaPassword }

theorem onStart_spec (state : ParserState) (localName : String) (attributes : List Attribute) :
    (onStart state localName attributes).files = state.files ∧
      (onStart state localName attributes).currentFile =
        if localName = "file" then some (subjectOf attributes) else state.currentFile := by
  simp only [onStart]
  split <;> simp_all

theorem onFinish_spec (state : ParserState) (localName : String) :
    (onFinish nfc state localName).currentFile =
        (if localName = "file" then none else state.currentFile) ∧
      (onFinish nfc state localName).files = state.files ++
        if localName = "file" then
          state.currentFile.toList.map fun subject =>
            buildFile nfc subject state.currentGroups state.currentSegments
        else [] := by
  simp only [onFinish]
  split
  · rcases open_ : state.currentFile with _ | subject <;> simp [open_]
  all_goals simp_all

theorem forall_files_parseEvents {holds : NzbFile → Prop}
    (built : ∀ subject groups segments, holds (buildFile nfc subject groups segments))
    (events : List Event) {state after : ParserState}
    (parsed : parseEvents nfc state events = .ok after)
    (before : ∀ file ∈ state.files, holds file) :
    ∀ file ∈ after.files, holds file := by
  induction events generalizing state with
  | nil =>
      cases parsed
      exact before
  | cons event rest ih =>
      cases event with
      | error message => simp [parseEvents] at parsed
      | start localName attributes =>
          apply ih parsed
          rw [(onStart_spec state localName attributes).1]
          exact before
      | finish localName =>
          apply ih parsed
          rw [(onFinish_spec nfc state localName).2]
          intro file mem
          rcases List.mem_append.mp mem with old | new
          · exact before file old
          · split at new
            · rcases List.mem_map.mp new with ⟨subject, -, rfl⟩
              exact built subject _ _
            · simp at new
      | text text =>
          rw [parseEvents] at parsed
          exact ih parsed before
      | cdata text =>
          rw [parseEvents] at parsed
          exact ih parsed before
      | generalRef name =>
          rw [parseEvents] at parsed
          exact ih parsed before
      | other =>
          rw [parseEvents] at parsed
          exact ih parsed before

theorem ascending_validSegments (segments : List Segment) :
    (validSegments segments).Pairwise fun first second => first.number < second.number := by
  have distinct : (validSegments segments).IsChain fun first second =>
      first.number ≠ second.number := List.isChain_destutter _ _
  have sorted : (validSegments segments).Pairwise fun first second =>
      first.number ≤ second.number := by
    apply List.Pairwise.sublist (List.destutter_sublist _ _)
    exact List.pairwise_insertionSort (fun first second : Segment => first.number ≤ second.number) _
  have ascending : (validSegments segments).IsChain fun first second =>
      first.number < second.number := by
    rw [List.isChain_iff_getElem] at distinct ⊢
    intro i inside
    have le := List.pairwise_iff_getElem.mp sorted i (i + 1)
      (Nat.lt_of_succ_lt inside) inside i.lt_succ_self
    exact lt_of_le_of_ne le (distinct i inside)
  have _ : IsTrans Segment fun first second => first.number < second.number :=
    ⟨fun _ _ _ => Nat.lt_trans⟩
  exact List.isChain_iff_pairwise.mp ascending

theorem nodup_numbers_parseNzb {events : List Event} {job : NzbJob}
    (accepted : parseNzb nfc events = .ok job) :
    ∀ file ∈ job.files, (file.articles.map Segment.number).Nodup := by
  simp only [parseNzb] at accepted
  split at accepted
  · simp at accepted
  next state parsed =>
    split at accepted
    · simp at accepted
    · cases accepted
      let numbered (file : NzbFile) : Prop := (file.articles.map Segment.number).Nodup
      have built : ∀ subject groups segments,
          numbered (buildFile nfc subject groups segments) := by
        intro subject groups segments
        exact (List.pairwise_map.mpr (ascending_validSegments segments)).imp Nat.ne_of_lt
      exact forall_files_parseEvents nfc built events parsed (by simp [ParserState.init])

end Loop

end Rustnzb.Core
