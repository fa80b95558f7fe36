import Mathlib.Data.List.ModifyLast
import Rustnzb.Core.NzbParser
import Rustnzb.Lib.FirstOfKey

/-!
# What an NZB declares

The events of a well-nested document are the tags and the text of a forest of elements. The forest
says which files it declares, and `parse_nzb` builds these files as long as each element whose end
reads a flag or the text buffer finds there what it has put there itself.
-/

namespace Rustnzb.Core

/-! ## Documents -/

/-- What stands between tags. A tag that closes itself is an event of its own, and among `other`. -/
inductive Fragment where
  | text (content : String)
  | cdata (content : String)
  | generalRef (name : String)
  | other
  deriving DecidableEq

namespace Fragment

def event : Fragment → Event
  | .text content => .text content
  | .cdata content => .cdata content
  | .generalRef name => .generalRef name
  | .other => .other

def content : Fragment → String
  | .text content => content
  | .cdata content => content
  | .generalRef name => referenceText name
  | .other => ""

end Fragment

/-- Elements and fragments in the order of a document: the first one and the rest. -/
inductive Forest where
  | empty
  | element (localName : String) (attributes : List Attribute) (inner rest : Forest)
  | fragment (first : Fragment) (rest : Forest)

namespace Forest

def events : Forest → List Event
  | .empty => []
  | .element localName attributes inner rest =>
      .start localName attributes :: (inner.events ++ .finish localName :: rest.events)
  | .fragment first rest => first.event :: rest.events

/-! ## What a document declares -/

def ownsText (localName : String) : Bool :=
  localName ∈ ["file", "group", "segment", "meta"]

def ownText : Forest → String
  | .empty => ""
  | .element localName _ inner rest =>
      (if ownsText localName then "" else inner.ownText) ++ rest.ownText
  | .fragment first rest => first.content ++ rest.ownText

/-- The groups of a file: the texts of the `group` elements inside `groups`. -/
def groups (inGroups : Bool) : Forest → List String
  | .empty => []
  | .element localName _ inner rest =>
      (match localName with
      | "file" => []
      | "groups" => inner.groups true
      | "group" =>
          let own := trimString inner.ownText
          (if inGroups && own ≠ "" then [own] else []) ++ inner.groups inGroups
      | _ => inner.groups inGroups) ++ rest.groups inGroups
  | .fragment _ rest => rest.groups inGroups

def segmentOf (attributes : List Attribute) (messageId : String) : Segment where
  number := (lastAttribute attributes "number").elim 0 fun entry =>
    (parseUnsigned (2 ^ 32) entry.lossy).getD 0
  bytes := (lastAttribute attributes "bytes").elim 0 fun entry =>
    (parseUnsigned (2 ^ 64) entry.lossy).getD 0
  messageId := messageId

def segments (inSegments : Bool) : Forest → List Segment
  | .empty => []
  | .element localName attributes inner rest =>
      (match localName with
      | "file" => []
      | "segments" => inner.segments true
      | "segment" =>
          (if inSegments then [segmentOf attributes (trimString inner.ownText)] else []) ++
            inner.segments inSegments
      | _ => inner.segments inSegments) ++ rest.segments inSegments
  | .fragment _ rest => rest.segments inSegments

structure Declared where
  subject : String
  groups : List String
  segments : List Segment

def files : Forest → List Declared
  | .empty => []
  | .element localName attributes inner rest =>
      inner.files ++ (if localName = "file" then
        [⟨subjectOf attributes, inner.groups false, inner.segments false⟩] else []) ++ rest.files
  | .fragment _ rest => rest.files

def isPassword (attributes : List Attribute) : Bool :=
  attributes.any fun entry => entry.key = "type" && entry.lossy = "password"

def ownPassword (localName : String) (attributes : List Attribute) (text : String) :
    Option String :=
  if localName = "meta" && isPassword attributes then some (trimString text) else none

/-- The text of the last `meta` element of the type `password`. -/
def password : Forest → Option String
  | .empty => none
  | .element localName attributes inner rest =>
      rest.password.or ((ownPassword localName attributes inner.ownText).or inner.password)
  | .fragment _ rest => rest.password

/-! ## Elements that share a flag or the text buffer -/

/-- No element takes the text buffer. -/
def isPlain : Forest → Bool
  | .empty => true
  | .element localName _ inner rest => !ownsText localName && inner.isPlain && rest.isPlain
  | .fragment _ rest => rest.isPlain

/-- No element clears the flag of `list`. -/
def keepsFlag (list : String) : Forest → Bool
  | .empty => true
  | .element localName _ inner rest =>
      localName ≠ list && inner.keepsFlag list && rest.keepsFlag list
  | .fragment _ rest => rest.keepsFlag list

/-- Inside which lists an element is, or `in_groups` and `in_segments` of the parser. -/
structure Flags where
  groups : Bool
  segments : Bool

namespace Flags

def init : Flags where
  groups := false
  segments := false

def start (flags : Flags) (localName : String) : Flags where
  groups := localName = "groups" || flags.groups
  segments := localName = "segments" || flags.segments

def after (flags : Flags) (document : Forest) : Flags where
  groups := flags.groups && document.keepsFlag "groups"
  segments := flags.segments && document.keepsFlag "segments"

end Flags

/-- Inside which lists of the file around it an element of `localName` is. -/
def inside (lists : Option Flags) (localName : String) : Option Flags :=
  if localName = "file" then some .init
  else lists.map fun own => own.start localName

/-- What the end of an element reads is its own: `lists` are those of the file that it is in,
`flags` those of the parser. -/
def ReadsOwn (lists : Option Flags) (flags : Flags) (localName : String)
    (attributes : List Attribute) (inner : Forest) : Prop :=
  match localName with
  | "file" => lists = none
  | "group" => ∀ own ∈ lists, flags.groups = own.groups ∧ (own.groups = true → inner.isPlain)
  | "segment" =>
      ∀ own ∈ lists, flags.segments = own.segments ∧ (own.segments = true → inner.isPlain)
  | "meta" => isPassword attributes = true → inner.isPlain
  | _ => True

def Separate (lists : Option Flags) (flags : Flags) : Forest → Prop
  | .empty => True
  | .element localName attributes inner rest =>
      ReadsOwn lists ((flags.start localName).after inner) localName attributes inner ∧
        inner.Separate (inside lists localName) (flags.start localName) ∧
          rest.Separate lists (flags.after (.element localName attributes inner .empty))
  | .fragment _ rest => rest.Separate lists flags

end Forest

/-! ## The loop over a document -/

section Walk

variable (nfc : List Char → List Char)

def onFragment (state : ParserState) (fragment : Fragment) : ParserState :=
  { state with textBuf := state.textBuf ++ fragment.content }

def walk (state : ParserState) : Forest → ParserState
  | .empty => state
  | .element localName attributes inner rest =>
      walk (onFinish nfc (walk (onStart state localName attributes) inner) localName) rest
  | .fragment first rest => walk (onFragment state first) rest

theorem parseEvents_append (document : Forest) (state : ParserState) (rest : List Event) :
    parseEvents nfc state (document.events ++ rest) =
      parseEvents nfc (walk nfc state document) rest := by
  induction document generalizing state rest with
  | empty => rfl
  | element localName attributes inner after inner_ih after_ih =>
      rw [Forest.events, List.cons_append, parseEvents, List.append_assoc, inner_ih,
        List.cons_append, parseEvents, after_ih, walk]
  | fragment first after after_ih =>
      rw [walk, ← after_ih]
      cases first with
      | other => simp [Forest.events, Fragment.event, parseEvents, onFragment, Fragment.content]
      | _ => rfl

theorem parseEvents_events (document : Forest) :
    parseEvents nfc ParserState.init document.events =
      .ok (walk nfc ParserState.init document) := by
  have parsed := parseEvents_append nfc document ParserState.init []
  rwa [List.append_nil] at parsed

end Walk

def handled : List String := ["file", "groups", "group", "segments", "segment", "meta"]

variable {localName : String}

theorem onStart_of_not_handled (unhandled : localName ∉ handled) (state : ParserState)
    (attributes : List Attribute) : onStart state localName attributes = state := by
  simp only [handled, List.mem_cons, List.not_mem_nil, or_false, not_or] at unhandled
  unfold onStart
  split <;> simp_all

theorem onFinish_of_not_handled (nfc : List Char → List Char) (unhandled : localName ∉ handled)
    (state : ParserState) : onFinish nfc state localName = state := by
  simp only [handled, List.mem_cons, List.not_mem_nil, or_false, not_or] at unhandled
  unfold onFinish
  split <;> simp_all

def Flagged (flags : Forest.Flags) (state : ParserState) : Prop :=
  state.inGroups = flags.groups ∧ state.inSegments = flags.segments

variable {lists : Option Forest.Flags} {own flags : Forest.Flags} {state : ParserState}

theorem flagged_start (flagged : Flagged flags state) (localName : String)
    (attributes : List Attribute) :
    Flagged (flags.start localName) (onStart state localName attributes) := by
  rcases flagged with ⟨inGroups, inSegments⟩
  unfold onStart
  split <;> simp_all [Flagged, Forest.Flags.start]

theorem flagged_finish (nfc : List Char → List Char) (attributes : List Attribute) {inner : Forest}
    (flagged : Flagged ((flags.start localName).after inner) state) :
    Flagged (flags.after (.element localName attributes inner .empty))
      (onFinish nfc state localName) := by
  rcases flagged with ⟨inGroups, inSegments⟩
  unfold onFinish
  split
  · cases state.currentFile <;>
      simp_all [Flagged, Forest.Flags.start, Forest.Flags.after, Forest.keepsFlag]
  all_goals simp_all [Flagged, Forest.Flags.start, Forest.Flags.after, Forest.keepsFlag]

/-- The flags of the parser depend on the names of the elements alone. -/
theorem flagged_walk (nfc : List Char → List Char) (document : Forest)
    (flagged : Flagged flags state) : Flagged (flags.after document) (walk nfc state document) := by
  induction document generalizing state flags with
  | empty => simpa [walk, Forest.Flags.after, Forest.keepsFlag] using flagged
  | element localName attributes inner after inner_ih after_ih =>
      have finished := flagged_finish nfc attributes
        (inner_ih (flagged_start flagged localName attributes))
      simpa [Forest.Flags.after, Forest.keepsFlag, Bool.and_assoc, walk] using after_ih finished
  | fragment first after after_ih => exact after_ih flagged

theorem name_cases (localName : String) :
    localName = "file" ∨ localName = "groups" ∨ localName = "group" ∨ localName = "segments" ∨
      localName = "segment" ∨ localName = "meta" ∨ localName ∉ handled := by
  by_cases mem : localName ∈ handled
  · simp only [handled, List.mem_cons, List.not_mem_nil, or_false] at mem
    tauto
  · tauto

theorem isPlain_element {attributes : List Attribute} {inner rest : Forest}
    (plain : (Forest.element localName attributes inner rest).isPlain) :
    (localName = "groups" ∨ localName = "segments" ∨ localName ∉ handled) ∧ inner.isPlain ∧
      rest.isPlain := by
  simp only [Forest.isPlain, Forest.ownsText, Bool.and_eq_true, Bool.not_eq_true',
    decide_eq_false_iff_not, List.mem_cons, List.not_mem_nil, or_false, not_or] at plain
  rcases plain with ⟨⟨⟨noFile, noGroup, noSegment, noMeta⟩, inner⟩, rest⟩
  have cases := name_cases localName
  exact ⟨by tauto, inner, rest⟩

/-- Where no element takes the text buffer nothing happens but that the text is gathered and flags
are cleared. -/
theorem walk_of_isPlain (nfc : List Char → List Char) (document : Forest) (plain : document.isPlain)
    (state : ParserState) : walk nfc state document = { state with
      textBuf := state.textBuf ++ document.ownText
      inGroups := state.inGroups && document.keepsFlag "groups"
      inSegments := state.inSegments && document.keepsFlag "segments" } := by
  induction document generalizing state with
  | empty => simp [walk, Forest.ownText, Forest.keepsFlag]
  | element localName attributes inner after inner_ih after_ih =>
      rcases isPlain_element plain with ⟨name, innerPlain, afterPlain⟩
      rw [walk, inner_ih innerPlain, after_ih afterPlain]
      rcases name with rfl | rfl | unhandled
      · simp [onStart, onFinish, Forest.ownText, Forest.ownsText, Forest.keepsFlag,
          String.append_assoc, Bool.and_assoc]
      · simp [onStart, onFinish, Forest.ownText, Forest.ownsText, Forest.keepsFlag,
          String.append_assoc, Bool.and_assoc]
      · rw [onStart_of_not_handled unhandled, onFinish_of_not_handled nfc unhandled]
        simp only [handled, List.mem_cons, List.not_mem_nil, or_false, not_or] at unhandled
        simp [Forest.ownText, Forest.ownsText, Forest.keepsFlag, unhandled, String.append_assoc,
          Bool.and_assoc]
  | fragment first after after_ih =>
      rw [walk, after_ih plain]
      simp [onFragment, Forest.ownText, Forest.keepsFlag, String.append_assoc]

theorem declares_nothing (document : Forest) (plain : document.isPlain) (flag : Bool) :
    document.groups flag = [] ∧ document.segments flag = [] ∧ document.password = none := by
  induction document generalizing flag with
  | empty => exact ⟨rfl, rfl, rfl⟩
  | element localName attributes inner after inner_ih after_ih =>
      rcases isPlain_element plain with ⟨name, innerPlain, afterPlain⟩
      have innerNone := inner_ih innerPlain
      rcases after_ih afterPlain flag with ⟨groups, segments, password⟩
      have noMeta : localName ≠ "meta" := by
        rintro rfl
        simp [handled] at name
      refine ⟨?_, ?_, ?_⟩
      · unfold Forest.groups
        rw [groups, List.append_nil]
        split
        · rfl
        · exact (innerNone true).1
        · simp [handled] at name
        · exact (innerNone flag).1
      · unfold Forest.segments
        rw [segments, List.append_nil]
        split
        · rfl
        · exact (innerNone true).2.1
        · simp [handled] at name
        · exact (innerNone flag).2.1
      · rw [Forest.password, password, (innerNone flag).2.2, Forest.ownPassword, if_neg]
        · rfl
        · simp [noMeta]
  | fragment first after after_ih => exact after_ih plain flag

theorem password_onStart (isMeta : localName ≠ "meta") (state : ParserState)
    (attributes : List Attribute) :
    (onStart state localName attributes).readingPasswordMeta = state.readingPasswordMeta ∧
      (onStart state localName attributes).metaPassword = state.metaPassword := by
  unfold onStart
  split <;> simp_all

theorem password_onFinish (nfc : List Char → List Char) (isMeta : localName ≠ "meta")
    (state : ParserState) :
    (onFinish nfc state localName).readingPasswordMeta = state.readingPasswordMeta ∧
      (onFinish nfc state localName).metaPassword = state.metaPassword := by
  unfold onFinish
  split
  · cases state.currentFile <;> exact ⟨rfl, rfl⟩
  all_goals simp_all

theorem password_walk (nfc : List Char → List Char) (document : Forest)
    (separate : document.Separate lists flags) (idle : state.readingPasswordMeta = false) :
    (walk nfc state document).readingPasswordMeta = false ∧
      (walk nfc state document).metaPassword = document.password.or state.metaPassword := by
  induction document generalizing state lists flags with
  | empty => exact ⟨idle, rfl⟩
  | element localName attributes inner after inner_ih after_ih =>
      rcases separate with ⟨reads, inner_sep, after_sep⟩
      rw [walk]
      suffices between :
          (onFinish nfc (walk nfc (onStart state localName attributes) inner)
            localName).readingPasswordMeta = false ∧
          (onFinish nfc (walk nfc (onStart state localName attributes) inner)
            localName).metaPassword =
              ((Forest.ownPassword localName attributes inner.ownText).or inner.password).or
                state.metaPassword by
        rcases after_ih after_sep between.1 with ⟨reading, password⟩
        refine ⟨reading, ?_⟩
        rw [password, between.2, Forest.password, ← Option.or_assoc]
      by_cases isMeta : localName = "meta"
      · subst isMeta
        by_cases isPassword : Forest.isPassword attributes = true
        · have plain := reads isPassword
          rw [walk_of_isPlain nfc inner plain, (declares_nothing inner plain false).2.2,
            Option.or_none]
          have started : (onStart state "meta" attributes).readingPasswordMeta = true := by
            rw [onStart, ← isPassword, idle]
            rfl
          simp only [onFinish, started, if_true, Forest.ownPassword, isPassword, decide_true,
            Bool.and_self, true_and, Option.some_or]
          rw [onStart, String.empty_append]
        · have started : (onStart state "meta" attributes).readingPasswordMeta = false := by
            rw [onStart, ← Bool.eq_false_iff.mpr isPassword, idle]
            rfl
          rcases inner_ih inner_sep started with ⟨reading, password⟩
          simp only [onFinish, reading, Bool.false_eq_true, if_false, password,
            Forest.ownPassword, isPassword, Bool.and_false, true_and]
          rfl
      · have start := password_onStart isMeta state attributes
        rcases inner_ih inner_sep (start.1.trans idle) with ⟨reading, password⟩
        rw [(password_onFinish nfc isMeta _).1, (password_onFinish nfc isMeta _).2, reading,
          password, start.2, Forest.ownPassword, if_neg (by simp [isMeta])]
        exact ⟨rfl, rfl⟩
  | fragment first after after_ih => exact after_ih separate idle

/-! ## Inside a file -/

/-- What `parse_nzb` keeps of a segment: a number, a size and a message id. -/
def Segment.isValid (segment : Segment) : Bool :=
  0 < segment.number && 0 < segment.bytes && segment.messageId ≠ ""

theorem validSegments_congr {first second : List Segment}
    (same : first.filter Segment.isValid = second.filter Segment.isValid) :
    validSegments first = validSegments second := by
  have unfolded (segments : List Segment) : validSegments segments =
      Lib.firstOfKey Segment.number (segments.filter Segment.isValid) := rfl
  rw [unfolded, unfolded, same]

theorem groups_element (flag : Bool) (localName : String) (attributes : List Attribute)
    (inner rest : Forest) :
    (Forest.element localName attributes inner rest).groups flag =
      (Forest.element localName attributes inner .empty).groups flag ++ rest.groups flag := by
  have nothing : Forest.empty.groups flag = [] := rfl
  conv_lhs => unfold Forest.groups
  conv_rhs => arg 1; unfold Forest.groups
  rw [nothing, List.append_nil]

theorem segments_element (flag : Bool) (localName : String) (attributes : List Attribute)
    (inner rest : Forest) :
    (Forest.element localName attributes inner rest).segments flag =
      (Forest.element localName attributes inner .empty).segments flag ++ rest.segments flag := by
  have nothing : Forest.empty.segments flag = [] := rfl
  conv_lhs => unfold Forest.segments
  conv_rhs => arg 1; unfold Forest.segments
  rw [nothing, List.append_nil]

/-- What a part of a file adds to the groups and the segments, of which only valid ones count. -/
structure Gathers (own : Forest.Flags) (state : ParserState) (document : Forest)
    (after : ParserState) : Prop where
  currentFile : after.currentFile = state.currentFile
  files : after.files = state.files
  groups : after.currentGroups = state.currentGroups ++ document.groups own.groups
  segments : after.currentSegments.filter Segment.isValid =
    state.currentSegments.filter Segment.isValid ++
      (document.segments own.segments).filter Segment.isValid

theorem gathers_element (nfc : List Char → List Char) {attributes : List Attribute} {inner : Forest}
    (flagged : Flagged flags state)
    (reads : Forest.ReadsOwn (some own) ((flags.start localName).after inner) localName attributes
      inner) (content : Gathers (own.start localName) (onStart state localName attributes) inner
      (walk nfc (onStart state localName attributes) inner)) :
    Gathers own state (.element localName attributes inner .empty)
      (onFinish nfc (walk nfc (onStart state localName attributes) inner) localName) := by
  have finished := flagged_walk nfc inner (flagged_start flagged localName attributes)
  rcases name_cases localName with rfl | rfl | rfl | rfl | rfl | rfl | unhandled
  · nomatch reads
  · rcases content with ⟨currentFile, files, groups, segments⟩
    refine ⟨currentFile, files, ?_, ?_⟩
    · simpa [Forest.groups, Forest.Flags.start, onStart, onFinish] using groups
    · simpa [Forest.segments, Forest.Flags.start, onStart, onFinish] using segments
  · rcases reads own rfl with ⟨flag, plain⟩
    rw [← finished.1] at flag
    rcases content with ⟨currentFile, files, groups, segments⟩
    refine ⟨currentFile, files, ?_, ?_⟩
    · simp only [onFinish, flag, groups, Forest.groups]
      by_cases listed : own.groups = true
      · rw [walk_of_isPlain nfc inner (plain listed)]
        have nothing := declares_nothing inner (plain listed)
        simp only [onStart, listed, (nothing _).1, String.empty_append, List.append_nil]
        split <;> simp
      · simp [listed, onStart, Forest.Flags.start]
    · simpa [Forest.segments, Forest.Flags.start, onStart, onFinish] using segments
  · rcases content with ⟨currentFile, files, groups, segments⟩
    refine ⟨currentFile, files, ?_, ?_⟩
    · simpa [Forest.groups, Forest.Flags.start, onStart, onFinish] using groups
    · simpa [Forest.segments, Forest.Flags.start, onStart, onFinish] using segments
  · rcases reads own rfl with ⟨flag, plain⟩
    rw [← finished.2] at flag
    rcases content with ⟨currentFile, files, groups, segments⟩
    refine ⟨currentFile, files, ?_, ?_⟩
    · simpa [Forest.groups, Forest.Flags.start, onStart, onFinish] using groups
    · simp only [onFinish, flag, Forest.segments]
      by_cases listed : own.segments = true
      · rw [walk_of_isPlain nfc inner (plain listed)]
        have nothing := declares_nothing inner (plain listed)
        simp only [onStart, listed, (nothing _).2.1, String.empty_append, List.append_nil]
        simp [Forest.segmentOf, List.modifyLast_concat]
      · have unlisted : own.segments = false := Bool.eq_false_iff.mpr listed
        simp only [unlisted, Bool.false_eq_true, if_false, segments, List.nil_append,
          List.append_nil]
        simp [onStart, Forest.Flags.start, Segment.isValid, unlisted]
  · rcases content with ⟨currentFile, files, groups, segments⟩
    refine ⟨currentFile, files, ?_, ?_⟩
    · simpa [Forest.groups, Forest.Flags.start, onStart, onFinish] using groups
    · simpa [Forest.segments, Forest.Flags.start, onStart, onFinish] using segments
  · rw [onStart_of_not_handled unhandled] at content ⊢
    rw [onFinish_of_not_handled nfc unhandled]
    simp only [handled, List.mem_cons, List.not_mem_nil, or_false, not_or] at unhandled
    refine ⟨content.currentFile, content.files, ?_, ?_⟩
    · rw [content.groups]
      unfold Forest.groups
      split <;> simp_all [Forest.groups, Forest.Flags.start]
    · rw [content.segments]
      unfold Forest.segments
      split <;> simp_all [Forest.segments, Forest.Flags.start]

theorem gathers_walk (nfc : List Char → List Char) (document : Forest)
    (separate : document.Separate (some own) flags) (flagged : Flagged flags state) :
    Gathers own state document (walk nfc state document) := by
  induction document generalizing state own flags with
  | empty => exact ⟨rfl, rfl, by simp [walk, Forest.groups], by simp [walk, Forest.segments]⟩
  | element localName attributes inner after inner_ih after_ih =>
      rcases separate with ⟨reads, inner_sep, after_sep⟩
      have started := flagged_start flagged localName attributes
      have finished := flagged_finish nfc attributes (flagged_walk nfc inner started)
      have noFile : localName ≠ "file" := by
        rintro rfl
        nomatch reads
      rw [Forest.inside, if_neg noFile] at inner_sep
      have one := gathers_element nfc flagged reads (inner_ih inner_sep started)
      have rest := after_ih after_sep finished
      rw [walk]
      refine ⟨rest.currentFile.trans one.currentFile, rest.files.trans one.files, ?_, ?_⟩
      · rw [rest.groups, one.groups, groups_element _ localName attributes inner after,
          List.append_assoc]
      · rw [rest.segments, one.segments, segments_element _ localName attributes inner after,
          List.filter_append, List.append_assoc]
  | fragment first after after_ih =>
      have gathered : Gathers own (onFragment state first) after
          (walk nfc (onFragment state first) after) := after_ih separate flagged
      exact ⟨gathered.currentFile, gathered.files, gathered.groups, gathered.segments⟩

/-! ## Files of a document -/

theorem files_of_inside (document : Forest) (separate : document.Separate (some own) flags) :
    document.files = [] := by
  induction document generalizing own flags with
  | empty => rfl
  | element localName attributes inner after inner_ih after_ih =>
      rcases separate with ⟨reads, inner_sep, after_sep⟩
      have noFile : localName ≠ "file" := by
        rintro rfl
        nomatch reads
      rw [Forest.inside, if_neg noFile] at inner_sep
      rw [Forest.files, inner_ih inner_sep, if_neg noFile, after_ih after_sep]
      rfl
  | fragment first after after_ih => exact after_ih separate

variable (nfc : List Char → List Char)

def fileOf (declared : Forest.Declared) : NzbFile :=
  buildFile nfc declared.subject declared.groups declared.segments

theorem files_walk (document : Forest) (separate : document.Separate none flags)
    (flagged : Flagged flags state) (closed : state.currentFile = none) :
    (walk nfc state document).currentFile = none ∧
      (walk nfc state document).files = state.files ++ document.files.map (fileOf nfc) := by
  induction document generalizing state flags with
  | empty => exact ⟨closed, by simp [walk, Forest.files]⟩
  | element localName attributes inner after inner_ih after_ih =>
      rcases separate with ⟨-, inner_sep, after_sep⟩
      have started := flagged_start flagged localName attributes
      have finished := flagged_finish nfc attributes (flagged_walk nfc inner started)
      have start := onStart_spec state localName attributes
      have finish := onFinish_spec nfc (walk nfc (onStart state localName attributes) inner)
        localName
      by_cases isFile : localName = "file"
      · subst isFile
        rw [Forest.inside, if_pos rfl] at inner_sep
        have gathered := gathers_walk nfc inner inner_sep started
        have built : buildFile nfc (subjectOf attributes)
            (walk nfc (onStart state "file" attributes) inner).currentGroups
            (walk nfc (onStart state "file" attributes) inner).currentSegments =
              fileOf nfc ⟨subjectOf attributes, inner.groups false, inner.segments false⟩ := by
          have valid := validSegments_congr (gathered.segments.trans (List.nil_append _))
          have same : (walk nfc (onStart state "file" attributes) inner).currentGroups =
            inner.groups false := gathered.groups.trans (List.nil_append _)
          rw [fileOf, buildFile, buildFile, same, valid]
          rfl
        rcases after_ih after_sep finished (finish.1.trans (if_pos rfl)) with ⟨last, rest⟩
        refine ⟨last, ?_⟩
        rw [walk, rest, finish.2, if_pos rfl, gathered.currentFile, gathered.files, start.1,
          start.2,
          if_pos rfl, Forest.files, files_of_inside inner inner_sep, if_pos rfl]
        simp [built]
      · rw [Forest.inside, if_neg isFile] at inner_sep
        rw [if_neg isFile] at start finish
        rcases inner_ih inner_sep started (start.2.trans closed) with ⟨still, inside⟩
        rcases after_ih after_sep finished (finish.1.trans still) with ⟨last, rest⟩
        refine ⟨last, ?_⟩
        rw [walk, rest, finish.2, if_neg isFile, inside, start.1, Forest.files, if_neg isFile]
        simp
  | fragment first after after_ih => exact after_ih separate flagged closed

/-! ## The job of a document -/

/-- What is to be built for a file element: of its valid segments the first of each number. -/
structure FileRight (declared : Forest.Declared) (file : NzbFile) : Prop where
  filename : file.filename =
    String.ofList (sanitizeFilename nfc (extractFilename declared.subject.toList))
  groups : file.groups = declared.groups
  ascending : file.articles.Pairwise fun first second => first.number < second.number
  articles : ∀ segment, segment ∈ file.articles ↔
    declared.segments.find? (fun other => other.isValid && other.number = segment.number) =
      some segment
  bytes : file.bytes = (file.articles.map Segment.bytes).sum

structure DocumentRight (document : Forest) (job : NzbJob) : Prop where
  files : List.Forall₂ (FileRight nfc) document.files job.files
  totalBytes : job.totalBytes =
    (job.files.map fun file => (file.articles.map Segment.bytes).sum).sum
  fileCount : job.fileCount = job.files.length
  articleCount : job.articleCount = (job.files.map fun file => file.articles.length).sum
  password : job.password = document.password

def Forest.bytes (document : Forest) : ℕ :=
  (document.files.map fun declared =>
    ((validSegments declared.segments).map Segment.bytes).sum).sum

theorem mem_validSegments {segments : List Segment} {segment : Segment} :
    segment ∈ validSegments segments ↔
      segments.find? (fun other => other.isValid && other.number = segment.number) =
        some segment := by
  have unfolded : validSegments segments =
      Lib.firstOfKey Segment.number (segments.filter Segment.isValid) := rfl
  rw [unfolded, Lib.mem_firstOfKey, List.find?_filter]
  simp only [Bool.decide_and, Bool.decide_eq_true]

theorem articles_eq {declared : Forest.Declared} {file : NzbFile}
    (right : FileRight nfc declared file) : file.articles = validSegments declared.segments := by
  have ascending := ascending_validSegments declared.segments
  have perm : file.articles.Perm (validSegments declared.segments) := by
    rw [List.perm_ext_iff_of_nodup]
    · intro segment
      rw [right.articles, mem_validSegments]
    · exact right.ascending.imp fun lt eq => absurd (eq ▸ lt) (lt_irrefl _)
    · exact ascending.imp fun lt eq => absurd (eq ▸ lt) (lt_irrefl _)
  refine perm.eq_of_pairwise (fun first second _ _ before after => ?_) right.ascending ascending
  exact absurd after (lt_asymm before)

theorem bytes_eq_of_right {declared : List Forest.Declared} {files : List NzbFile}
    (right : List.Forall₂ (FileRight nfc) declared files) :
    (files.map fun file => (file.articles.map Segment.bytes).sum).sum =
      (declared.map fun declared =>
        ((validSegments declared.segments).map Segment.bytes).sum).sum := by
  induction right with
  | nil => rfl
  | cons head _ ih => rw [List.map_cons, List.map_cons, List.sum_cons, List.sum_cons, ih,
      articles_eq nfc head]

theorem fileRight_fileOf {declared : Forest.Declared}
    (fits : ((validSegments declared.segments).map Segment.bytes).sum < 2 ^ 64) :
    FileRight nfc declared (fileOf nfc declared) where
  filename := rfl
  groups := rfl
  ascending := ascending_validSegments declared.segments
  articles _ := mem_validSegments
  bytes := Nat.mod_eq_of_lt fits

/-- The job is what a document declares where every end reads its own flags and text and the sizes
fit; where they do not fit it is something else. -/
theorem parseNzb_right (document : Forest) {job : NzbJob}
    (accepted : parseNzb nfc document.events = .ok job) :
    (document.Separate none .init ∧ document.bytes < 2 ^ 64 → DocumentRight nfc document job) ∧
      (DocumentRight nfc document job → document.bytes < 2 ^ 64) := by
  rw [parseNzb, parseEvents_events] at accepted
  simp only at accepted
  split at accepted
  · simp at accepted
  · cases accepted
    constructor
    · rintro ⟨separate, fits⟩
      have flagged : Flagged .init ParserState.init := ⟨rfl, rfl⟩
      have files := (files_walk nfc document separate flagged rfl).2
      have idle : ParserState.init.readingPasswordMeta = false := rfl
      have password := (password_walk nfc document separate idle).2
      rw [show ParserState.init.files = [] from rfl, List.nil_append] at files
      rw [show ParserState.init.metaPassword = none from rfl, Option.or_none] at password
      have each : ∀ declared ∈ document.files, FileRight nfc declared (fileOf nfc declared) := by
        intro declared mem
        apply fileRight_fileOf
        refine lt_of_le_of_lt ?_ fits
        exact List.single_le_sum (by simp) _ (List.mem_map_of_mem mem)
      have right : List.Forall₂ (FileRight nfc) document.files
          (walk nfc ParserState.init document).files := by
        rw [files, List.forall₂_map_right_iff, List.forall₂_same]
        exact each
      refine ⟨right, ?_, rfl, rfl, password⟩
      have sizes : (walk nfc ParserState.init document).files.map NzbFile.bytes =
          (walk nfc ParserState.init document).files.map fun file =>
            (file.articles.map Segment.bytes).sum := by
        apply List.map_congr_left
        intro file mem
        rw [files] at mem
        rcases List.mem_map.mp mem with ⟨declared, declared_mem, rfl⟩
        exact (each declared declared_mem).bytes
      simp only [sizes]
      rw [bytes_eq_of_right nfc right]
      exact Nat.mod_eq_of_lt fits
    · intro right
      rw [Forest.bytes, ← bytes_eq_of_right nfc right.files, ← right.totalBytes]
      exact Nat.mod_lt _ (by decide)

def fileElement (segments rest : Forest) : Forest :=
  .element "file" [⟨"subject", some "\"a.bin\"", "\"a.bin\""⟩]
    (.element "groups" [] (.element "group" [] (.fragment (.text "alt.b") .empty) .empty)
      (.element "segments" [] segments .empty)) rest

def oneSegment (number bytes messageId : String) (rest : Forest) : Forest :=
  .element "segment" [⟨"bytes", some bytes, bytes⟩, ⟨"number", some number, number⟩]
    (.fragment (.text messageId) .empty) rest

/-- The first file is inside groups of no file, with numbers out of order, one of them twice. -/
def twoFiles : Forest :=
  .element "nzb" [] (.element "groups" []
    (fileElement (oneSegment "2" "5" "a@b" (oneSegment "1" "7" "c@d"
      (oneSegment "2" "9" "e@f" .empty))) .empty)
    (fileElement (oneSegment "3" "4" "g@h" .empty) .empty)) .empty

theorem parseNzb_right_twoFiles : ∃ job, parseNzb id twoFiles.events = .ok job ∧
    DocumentRight id twoFiles job := by
  cases parsed : parseNzb id twoFiles.events with
  | error e =>
      have accepted : (parseNzb id twoFiles.events).isOk := by decide
      rw [parsed] at accepted
      simp [Except.isOk, Except.toBool] at accepted
  | ok job =>
      refine ⟨job, rfl, (parseNzb_right id _ parsed).1 ⟨?_, by decide⟩⟩
      simp [twoFiles, fileElement, oneSegment, Forest.Separate, Forest.ReadsOwn, Forest.inside,
        Forest.Flags.init, Forest.Flags.start, Forest.Flags.after, Forest.keepsFlag, Forest.isPlain]

def twoHalves : Forest :=
  .element "nzb" [] (fileElement (oneSegment "1" "9223372036854775808" "a@b"
    (oneSegment "2" "9223372036854775808" "c@d" .empty)) .empty) .empty

/-- The sum of two halves of the range is 0. -/
theorem not_right_twoHalves : ¬∀ nfc (document : Forest) job,
    parseNzb nfc document.events = .ok job → DocumentRight nfc document job := by
  intro right
  have wraps : (parseNzb id twoHalves.events).toOption.map (fun job => (job.totalBytes,
      (job.files.map fun file => (file.articles.map Segment.bytes).sum).sum)) =
        some (0, 2 ^ 64) := by
    decide
  cases parsed : parseNzb id twoHalves.events with
  | error e =>
      rw [parsed] at wraps
      simp [Except.toOption] at wraps
  | ok job =>
      rw [parsed] at wraps
      simp only [Except.toOption, Option.map_some, Option.some.injEq, Prod.mk.injEq] at wraps
      have total := (right id twoHalves job parsed).totalBytes
      rw [wraps.1, wraps.2] at total
      exact absurd total (by decide)

end Rustnzb.Core
