import Rustnzb.Core.NzbParser
import Rustnzb.Lib.Path

/-!
# Where the files of an NZB are written

The name of a file is taken from its subject and joined to the work directory of the job. A slash in
it is kept, so the name is a path of its own, and may lead out.
-/

namespace Rustnzb.Core

open Lib (Below Confined StaysDown components join resolve)

/-- The path of a file, as it is registered with the assembler and as it is read back to verify
slices. -/
def outputPath (workDir : List Char) (filename : String) : List Char :=
  join workDir filename.toList

/-- The file lies strictly below the work directory, and so does whatever its name passes. -/
def Inside (cwd : List (List Char)) (workDir : List Char) (filename : String) : Prop :=
  Below (resolve cwd workDir) (resolve cwd (outputPath workDir filename)) ∧
    ∀ visited, visited ≠ [] → visited <+: components filename.toList →
      Below (resolve cwd workDir) (Lib.walk (resolve cwd workDir) visited)

theorem inside_iff {cwd : List (List Char)} {workDir : List Char} {filename : String} :
    Inside cwd workDir filename ↔ StaysDown 0 (components filename.toList) := by
  rw [← Lib.confined_iff_staysDown (resolve cwd workDir), Inside, outputPath,
    Lib.resolve_join]
  constructor
  · rintro ⟨path, down⟩
    refine ⟨?_, down⟩
    intro none
    simp only [none, Lib.walk, List.foldl_nil] at path
    exact path.2 rfl
  · rintro ⟨some, down⟩
    exact ⟨down _ some List.prefix_rfl, down⟩

/-! ## The name in a subject -/

def Unquoted (subject : List Char) : Prop := subject.count '"' < 2

inductive Names : List Char → List Char → Prop where
  | quoted (front name rest : List Char) (first : '"' ∉ front) (second : '"' ∉ name) :
      Names (front ++ '"' :: name ++ '"' :: rest) name
  | word (inner rest front name : List Char) (unquoted : Unquoted (inner ++ '(' :: rest))
      (last : '(' ∉ rest) (words : trim inner = front ++ ' ' :: name) (isWord : ' ' ∉ name)
      (dotted : '.' ∈ name) : Names (inner ++ '(' :: rest) name
  | dotted (inner rest : List Char) (unquoted : Unquoted (inner ++ '(' :: rest))
      (last : '(' ∉ rest) (dotted : '.' ∈ trim inner)
      (noWord : ∀ front name, trim inner = front ++ ' ' :: name → ' ' ∉ name → '.' ∉ name) :
      Names (inner ++ '(' :: rest) (trim inner)
  | whole (subject : List Char) (unquoted : Unquoted subject)
      (plain : ∀ inner rest, subject = inner ++ '(' :: rest → '(' ∉ rest → '.' ∉ trim inner) :
      Names subject subject

section Names

variable {subject name : List Char}

variable {front rest : List Char}

theorem dropWhile_ne_append {char : Char} (first : char ∉ front) :
    (front ++ char :: rest).dropWhile (· ≠ char) = char :: rest := by
  rw [List.dropWhile_append_of_pos, List.dropWhile_cons_of_neg (by simp)]
  intro other mem
  simpa using fun same : other = char => first (same ▸ mem)

theorem takeWhile_ne_append {char : Char} (first : char ∉ front) :
    (front ++ char :: rest).takeWhile (· ≠ char) = front := by
  rw [List.takeWhile_append_of_pos, List.takeWhile_cons_of_neg (by simp), List.append_nil]
  intro other mem
  simpa using fun same : other = char => first (same ▸ mem)

theorem rdropWhile_ne_append {char : Char} (last : char ∉ rest) :
    ((front ++ char :: rest).rdropWhile (· ≠ char)).dropLast = front := by
  have reversed : (front ++ char :: rest).reverse = rest.reverse ++ char :: front.reverse := by
    simp
  rw [List.rdropWhile, reversed, dropWhile_ne_append (by simpa using last)]
  simp

theorem rtakeWhile_ne_append {char : Char} (last : char ∉ rest) :
    (front ++ char :: rest).rtakeWhile (· ≠ char) = rest := by
  have reversed : (front ++ char :: rest).reverse = rest.reverse ++ char :: front.reverse := by
    simp
  rw [List.rtakeWhile, reversed, takeWhile_ne_append (by simpa using last)]
  simp

theorem exists_last {char : Char} {text : List Char} (mem : char ∈ text) :
    ∃ front rest, text = front ++ char :: rest ∧ char ∉ rest := by
  rcases List.eq_append_cons_of_mem (List.mem_reverse.mpr mem) with ⟨front, rest, same, first⟩
  refine ⟨rest.reverse, front.reverse, ?_, by simpa using first⟩
  rw [← List.reverse_reverse text, same]
  simp

theorem quotedFilename_append (first : '"' ∉ front) (second : '"' ∉ name) :
    quotedFilename (front ++ '"' :: name ++ '"' :: rest) = some name := by
  rw [List.append_assoc, List.cons_append, quotedFilename, dropWhile_ne_append first]
  simp only [List.mem_append, List.mem_cons, true_or, or_true, if_true]
  rw [takeWhile_ne_append second]

theorem quoted_or_unquoted (subject : List Char) :
    (∃ front name rest, subject = front ++ '"' :: name ++ '"' :: rest ∧ '"' ∉ front ∧ '"' ∉ name) ∨
      Unquoted subject ∧ quotedFilename subject = none := by
  by_cases one : '"' ∈ subject
  · rcases List.eq_append_cons_of_mem one with ⟨front, rest, rfl, first⟩
    by_cases two : '"' ∈ rest
    · rcases List.eq_append_cons_of_mem two with ⟨name, rest, rfl, second⟩
      exact .inl ⟨front, name, rest, by simp, first, second⟩
    · right
      constructor
      · simp [Unquoted, List.count_append, List.count_eq_zero_of_not_mem first,
          List.count_eq_zero_of_not_mem two]
      · rw [quotedFilename, dropWhile_ne_append first]
        simp [two]
  · right
    constructor
    · simp [Unquoted, List.count_eq_zero_of_not_mem one]
    · have none : subject.dropWhile (· ≠ '"') = [] := by
        rw [List.dropWhile_eq_nil_iff]
        intro other mem
        simpa using fun same : other = '"' => one (same ▸ mem)
      rw [quotedFilename, none]

theorem quotedFilename_of_unquoted (unquoted : Unquoted subject) :
    quotedFilename subject = none := by
  rcases quoted_or_unquoted subject with ⟨front, name, rest, rfl, _, _⟩ | ⟨_, none⟩
  · simp only [Unquoted, List.count_append, List.count_cons_self] at unquoted
    omega
  · exact none

theorem filenameBeforeParen_append {inner : List Char} (last : '(' ∉ rest) :
    filenameBeforeParen (inner ++ '(' :: rest) =
      if ' ' ∈ trim inner ∧ '.' ∈ (trim inner).rtakeWhile (· ≠ ' ') then
        some ((trim inner).rtakeWhile (· ≠ ' '))
      else if '.' ∈ trim inner then some (trim inner)
      else none := by
  have paren : '(' ∈ inner ++ '(' :: rest := by simp
  simp only [filenameBeforeParen, paren, if_true, rdropWhile_ne_append last]

theorem eq_extractFilename (names : Names subject name) : extractFilename subject = name := by
  cases names with
  | quoted front _ rest first second =>
      rw [extractFilename, quotedFilename_append first second]
  | word inner rest front _ unquoted last words isWord dotted =>
      rw [extractFilename, quotedFilename_of_unquoted unquoted, filenameBeforeParen_append last,
        words, rtakeWhile_ne_append isWord, if_pos ⟨by simp, dotted⟩]
      rfl
  | dotted inner rest unquoted last dotted noWord =>
      have notWord : ¬(' ' ∈ trim inner ∧ '.' ∈ (trim inner).rtakeWhile (· ≠ ' ')) := by
        rintro ⟨space, dot⟩
        rcases exists_last space with ⟨front, word, words, isWord⟩
        rw [words, rtakeWhile_ne_append isWord] at dot
        exact noWord front word words isWord dot
      rw [extractFilename, quotedFilename_of_unquoted unquoted, filenameBeforeParen_append last,
        if_neg notWord, if_pos dotted]
      rfl
  | whole _ unquoted plain =>
      rw [extractFilename, quotedFilename_of_unquoted unquoted]
      by_cases paren : '(' ∈ subject
      · rcases exists_last paren with ⟨inner, rest, same, last⟩
        have noDot := plain inner rest same last
        have noWord : ¬(' ' ∈ trim inner ∧ '.' ∈ (trim inner).rtakeWhile (· ≠ ' ')) := fun word =>
          noDot ((List.rtakeWhile_suffix _ _).subset word.2)
        rw [same, filenameBeforeParen_append last, if_neg noWord, if_neg noDot]
        rfl
      · simp [filenameBeforeParen, paren]

theorem names_extractFilename (subject : List Char) : Names subject (extractFilename subject) := by
  rcases quoted_or_unquoted subject with ⟨front, name, rest, rfl, first, second⟩ | ⟨unquoted, _⟩
  · have names := Names.quoted front name rest first second
    rwa [eq_extractFilename names]
  · have exists_names : ∃ name, Names subject name := by
      by_cases paren : '(' ∈ subject
      · rcases exists_last paren with ⟨inner, rest, rfl, last⟩
        by_cases dot : '.' ∈ trim inner
        · by_cases word : ∃ front name, trim inner = front ++ ' ' :: name ∧ ' ' ∉ name ∧ '.' ∈ name
          · rcases word with ⟨front, name, words, isWord, dotted⟩
            exact ⟨name, .word inner rest front name unquoted last words isWord dotted⟩
          · refine ⟨_, .dotted inner rest unquoted last dot ?_⟩
            intro front name words isWord dotted
            exact word ⟨front, name, words, isWord, dotted⟩
        · refine ⟨_, .whole _ unquoted ?_⟩
          intro inner' rest' same last'
          have sameInner : inner = inner' := by
            have before := congrArg (fun text => (text.rdropWhile (· ≠ '(')).dropLast) same
            simpa only [rdropWhile_ne_append last, rdropWhile_ne_append last'] using before
          rwa [← sameInner]
      · refine ⟨_, .whole _ unquoted ?_⟩
        rintro inner rest rfl
        simp at paren
    rcases exists_names with ⟨name, names⟩
    rwa [eq_extractFilename names]

end Names

/-! ## Documents -/

def fileSubjects : Option String → List Event → List String
  | _, [] => []
  | current, .start localName attributes :: rest =>
      if localName = "file" then fileSubjects (some (subjectOf attributes)) rest
      else fileSubjects current rest
  | current, .finish localName :: rest =>
      if localName = "file" then current.toList ++ fileSubjects none rest
      else fileSubjects current rest
  | current, _ :: rest => fileSubjects current rest

section Documents

variable (nfc : List Char → List Char)

/-- The name a subject gives, without what is stripped and trimmed, is empty or leads down: it is
not absolute, and each beginning of it has more directories than steps up. -/
def SafeSubject (subject : String) : Prop :=
  ∃ name, Names subject.toList name ∧
    (trimmedName (nfc name) = [] ∨ StaysDown 0 (components (trimmedName (nfc name))))

theorem inside_buildFile_iff {cwd : List (List Char)} {workDir : List Char} {subject : String}
    {groups : List String} {segments : List Segment} :
    Inside cwd workDir (buildFile nfc subject groups segments).filename ↔
      SafeSubject nfc subject := by
  have named : SafeSubject nfc subject ↔
      trimmedName (nfc (extractFilename subject.toList)) = [] ∨
        StaysDown 0 (components (trimmedName (nfc (extractFilename subject.toList)))) := by
    constructor
    · rintro ⟨name, names, safe⟩
      rwa [eq_extractFilename names]
    · exact fun safe => ⟨_, names_extractFilename _, safe⟩
  rw [named, inside_iff]
  simp only [buildFile, String.toList_ofList, sanitizeFilename]
  split
  next empty =>
    have oneName : components "unnamed".toList = [.name "unnamed".toList] := by decide
    rw [oneName]
    simp [empty, StaysDown]
  next some => simp only [some, false_or]

theorem inside_parseEvents_iff (cwd : List (List Char)) (workDir : List Char) (events : List Event)
    {state after : ParserState} (parsed : parseEvents nfc state events = .ok after) :
    (∀ file ∈ after.files, Inside cwd workDir file.filename) ↔
      (∀ file ∈ state.files, Inside cwd workDir file.filename) ∧
        ∀ subject ∈ fileSubjects state.currentFile events, SafeSubject nfc subject := by
  induction events generalizing state with
  | nil =>
      cases parsed
      simp [fileSubjects]
  | cons event rest ih =>
      cases event with
      | error message => simp [parseEvents] at parsed
      | start localName attributes =>
          rcases onStart_spec state localName attributes with ⟨files, current⟩
          have later := ih parsed
          rw [files, current] at later
          rw [later, fileSubjects]
          split <;> rfl
      | finish localName =>
          rcases onFinish_spec nfc state localName with ⟨current, files⟩
          have later := ih parsed
          rw [files, current] at later
          rw [later, fileSubjects]
          split
          next => 
            cases state.currentFile <;> simp [inside_buildFile_iff, and_assoc, or_imp, forall_and]
          · simp
      | text text =>
          rw [parseEvents] at parsed
          have later := ih parsed
          exact later
      | cdata text =>
          rw [parseEvents] at parsed
          have later := ih parsed
          exact later
      | generalRef name =>
          rw [parseEvents] at parsed
          have later := ih parsed
          exact later
      | other =>
          rw [parseEvents] at parsed
          have later := ih parsed
          exact later

theorem inside_iff_safeSubjects (cwd : List (List Char)) (workDir : List Char)
    (events : List Event) {job : NzbJob} (accepted : parseNzb nfc events = .ok job) :
    (∀ file ∈ job.files, Inside cwd workDir file.filename) ↔
      ∀ subject ∈ fileSubjects none events, SafeSubject nfc subject := by
  simp only [parseNzb] at accepted
  split at accepted
  · simp at accepted
  next state parsed =>
    split at accepted
    · simp at accepted
    · cases accepted
      have files := inside_parseEvents_iff nfc cwd workDir events parsed
      simpa [ParserState.init] using files

end Documents

def oneFile (subject : String) : List Event :=
  [.start "file" [{ key := "subject", decoded := some subject, lossy := subject }],
    .start "segments" [],
    .start "segment" [{ key := "number", decoded := some "1", lossy := "1" },
      { key := "bytes", decoded := some "4", lossy := "4" }],
    .text "a@b", .finish "segment", .finish "segments", .finish "file"]

def oneFileJob (filename : String) : NzbJob where
  files := [{
    filename := filename
    bytes := 4
    isPar2 := false
    groups := []
    articles := [{ number := 1, bytes := 4, messageId := "a@b" }] }]
  totalBytes := 4
  fileCount := 1
  articleCount := 1
  password := none

/-- A file in a directory of its own is inside. -/
theorem inside_of_nested : Inside [] "/work".toList "a/b.rar" := by
  have parsed : parseNzb id (oneFile "\"a/b.rar\"") = .ok (oneFileJob "a/b.rar") := rfl
  have inside := (inside_iff_safeSubjects id [] "/work".toList _ parsed).mpr ?_
  · have first := inside _ List.mem_cons_self
    exact first
  intro subject mem
  have subjects : fileSubjects none (oneFile "\"a/b.rar\"") = ["\"a/b.rar\""] := rfl
  rw [subjects, List.mem_singleton] at mem
  subst mem
  have names : Names "\"a/b.rar\"".toList "a/b.rar".toList :=
    .quoted [] "a/b.rar".toList [] (by decide) (by decide)
  have parts : components (trimmedName "a/b.rar".toList) =
      [.name "a".toList, .name "b.rar".toList] := by decide
  refine ⟨_, names, .inr ?_⟩
  rw [id, parts]
  simp [StaysDown]

/-- A name with a slash at its start replaces the work directory. -/
theorem not_inside_of_absolute : ¬∀ (nfc : List Char → List Char) (cwd : List (List Char))
    (workDir : List Char) (events : List Event) (job : NzbJob), parseNzb nfc events = .ok job →
    ∀ file ∈ job.files, Inside cwd workDir file.filename := by
  intro inside
  have parsed : parseNzb id (oneFile "\"/etc/passwd\"") = .ok (oneFileJob "/etc/passwd") := rfl
  have absolute := inside id [] "/work".toList _ _ parsed _ List.mem_cons_self
  have parts : components "/etc/passwd".toList =
      [.root, .name "etc".toList, .name "passwd".toList] := by decide
  rw [inside_iff, parts] at absolute
  exact absolute

end Rustnzb.Core
