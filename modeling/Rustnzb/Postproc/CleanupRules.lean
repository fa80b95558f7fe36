import Mathlib.Data.Bool.AllAny
import Rustnzb.Core.NzbParser
import Rustnzb.Lib.Glob
import Rustnzb.Postproc.Extract

/-!
# The cleanup rules

`wildcard_match` compares a pattern with a path or a name byte by byte and goes back to the last
star of the pattern. A byte of the value is first compared as it is, so that a star of the value
uses up a star of the pattern.
-/

namespace Rustnzb.Postproc

open Decode (Bytes)
open Lib.Glob (Matches Plainly Agree)

def star : UInt8 := 0x2A
def question : UInt8 := 0x3F

structure Cursor where
  patternIndex : ℕ
  valueIndex : ℕ
  star : Option ℕ
  starValue : ℕ
  behind : starValue ≤ valueIndex

def agrees (pattern value : Bytes) (cursor : Cursor) : Bool :=
  pattern[cursor.patternIndex]?.any fun expected =>
    value[cursor.valueIndex]? = some expected || expected = question

theorem inPattern_of_agrees {pattern value : Bytes} {cursor : Cursor}
    (agreed : agrees pattern value cursor = true) : cursor.patternIndex < pattern.length := by
  rw [agrees, Option.any_eq_true] at agreed
  rcases agreed with ⟨expected, found, -⟩
  exact (List.getElem?_eq_some_iff.mp found).1

def skipStars (pattern : Bytes) (index : ℕ) : ℕ :=
  index + ((pattern.drop index).takeWhile (· = star)).length

def wildcardLoop (pattern value : Bytes) (cursor : Cursor) : Bool :=
  if _inside : cursor.valueIndex < value.length then
    if agrees pattern value cursor then
      wildcardLoop pattern value
        { cursor with
          patternIndex := cursor.patternIndex + 1
          valueIndex := cursor.valueIndex + 1
          behind := cursor.behind.trans (Nat.le_succ _) }
    else if pattern[cursor.patternIndex]? = some star then
      wildcardLoop pattern value
        { cursor with
          patternIndex := cursor.patternIndex + 1
          star := some cursor.patternIndex
          starValue := cursor.valueIndex
          behind := le_rfl }
    else
      match cursor.star with
      | some starIndex =>
          wildcardLoop pattern value
            { cursor with
              patternIndex := starIndex + 1
              valueIndex := cursor.starValue + 1
              starValue := cursor.starValue + 1
              behind := le_rfl }
      | none => false
  else skipStars pattern cursor.patternIndex = pattern.length
termination_by (value.length - cursor.starValue, pattern.length - cursor.patternIndex)
decreasing_by
  · next agreed =>
      have inPattern : cursor.patternIndex < pattern.length := inPattern_of_agrees agreed
      exact Prod.Lex.right _ (by omega)
  · next isStar =>
      have inPattern : cursor.patternIndex < pattern.length :=
        (List.getElem?_eq_some_iff.mp isStar).1
      have behind := cursor.behind
      rw [Prod.lex_def]
      dsimp only
      omega
  · have behind := cursor.behind
    exact Prod.Lex.left _ _ (by omega)

def wildcardMatch (pattern value : Bytes) : Bool :=
  wildcardLoop pattern value
    { patternIndex := 0, valueIndex := 0, star := none, starValue := 0, behind := le_rfl }

def bytesOf (text : Name) : Bytes := text.flatMap String.utf8EncodeChar

def slashed (text : Name) : Name := text.map fun char => if char = '\\' then '/' else char

def relativePath (file : FileAt) : Name := slashed (List.intercalate ['/'] file.path)

def normalizedExtensions (unwanted : List Name) : List Name :=
  (unwanted.map fun extension =>
    let extension := lowercase (Core.trim extension)
    if extension.head? = some '.' then extension else '.' :: extension).filter
      fun extension => 1 < extension.length

def normalizedPatterns (patterns : List Name) : List Name :=
  (patterns.map fun pattern => lowercase (slashed pattern)).filter fun pattern => pattern ≠ []

def hasUnwantedExtension (unwanted : List Name) (file : FileAt) : Bool :=
  (normalizedExtensions unwanted).any fun extension => extension.isSuffixOf (lowercase file.name)

def ruled (patterns unwanted : List Name) (_ : Root) (file : FileAt) : Bool :=
  hasUnwantedExtension unwanted file ||
    (normalizedPatterns patterns).any fun pattern =>
      wildcardMatch (bytesOf pattern) (bytesOf (lowercase (relativePath file))) ||
        wildcardMatch (bytesOf pattern) (bytesOf (lowercase file.name))

/-! ## What is wanted -/

/-- `relation` between a configured pattern and the path or the name of the file. -/
def SomePattern (relation : Bytes → Bytes → Prop) (patterns : List Name) (file : FileAt) : Prop :=
  ∃ pattern ∈ normalizedPatterns patterns,
    relation (bytesOf pattern) (bytesOf (lowercase (relativePath file))) ∨
      relation (bytesOf pattern) (bytesOf (lowercase file.name))

def RemovedAnyway (lower : Lowercase) (unwanted : List Name) (extracted : List (Root × List Name))
    (deleteArchives : Bool) (trees : Trees) (root : Root) (file : FileAt) : Prop :=
  (root, file) ∈ runCleanupStage lower (ruled [] unwanted) extracted deleteArchives trees

/-- Besides the files that are removed anyway, those that match a pattern are, and no others. -/
def RemovesMatching (lower : Lowercase) (patterns unwanted : List Name)
    (extracted : List (Root × List Name)) (deleteArchives : Bool) (trees : Trees) : Prop :=
  ∀ root, ∀ file ∈ (trees.get root).files,
    (root, file) ∈ runCleanupStage lower (ruled patterns unwanted) extracted deleteArchives trees ↔
      RemovedAnyway lower unwanted extracted deleteArchives trees root file ∨
        SomePattern (Matches star question) patterns file

/-! ## What the loop decides -/

def Reached (pattern value : Bytes) (cursor : Cursor) : Prop :=
  cursor.patternIndex ≤ pattern.length ∧ ∀ starIndex, cursor.star = some starIndex →
    starIndex < pattern.length ∧ ∃ run matched, Agree question run matched ∧
      pattern.drop (starIndex + 1) = run ++ pattern.drop cursor.patternIndex ∧
      value.drop cursor.starValue = matched ++ value.drop cursor.valueIndex

/-- What comes after the last star is found where it is tried, or later. -/
def Accepts (pattern value : Bytes) (cursor : Cursor) : Prop :=
  match cursor.star with
  | some starIndex => ∃ left, left <:+ value.drop cursor.starValue ∧
      Plainly star question (pattern.drop (starIndex + 1)) left
  | none => Plainly star question (pattern.drop cursor.patternIndex)
      (value.drop cursor.valueIndex)

theorem skipStars_eq_length_iff {pattern : Bytes} {index : ℕ} (inside : index ≤ pattern.length) :
    skipStars pattern index = pattern.length ↔ ∀ symbol ∈ pattern.drop index, symbol = star := by
  have length : (pattern.drop index).length = pattern.length - index := List.length_drop
  rw [skipStars]
  constructor
  · intro whole
    have self : (pattern.drop index).takeWhile (· = star) = pattern.drop index := by
      apply (List.takeWhile_prefix _).eq_of_length
      omega
    intro symbol mem
    simpa using List.takeWhile_eq_self_iff.mp self symbol mem
  · intro stars
    have self : (pattern.drop index).takeWhile (· = star) = pattern.drop index := by
      rw [List.takeWhile_eq_self_iff]
      simpa using stars
    rw [self]
    omega

variable {pattern value : Bytes} {cursor : Cursor}

theorem drop_of_agrees (inside : cursor.valueIndex < value.length)
    (agreed : agrees pattern value cursor = true) :
    ∃ expected symbol, (expected = symbol ∨ expected = question) ∧
      pattern.drop cursor.patternIndex = expected :: pattern.drop (cursor.patternIndex + 1) ∧
      value.drop cursor.valueIndex = symbol :: value.drop (cursor.valueIndex + 1) := by
  have inPattern := inPattern_of_agrees agreed
  refine ⟨_, _, ?_, List.drop_eq_getElem_cons inPattern, List.drop_eq_getElem_cons inside⟩
  rw [agrees, List.getElem?_eq_getElem inPattern, List.getElem?_eq_getElem inside] at agreed
  simp only [Option.any_some, Option.some.injEq, Bool.or_eq_true, decide_eq_true_eq] at agreed
  exact agreed.imp_left Eq.symm

theorem not_plainly_of_disagrees (inside : cursor.valueIndex < value.length)
    (disagreed : ¬agrees pattern value cursor = true)
    (notStar : ¬pattern[cursor.patternIndex]? = some star) :
    ¬Plainly star question (pattern.drop cursor.patternIndex) (value.drop cursor.valueIndex) := by
  rw [List.drop_eq_getElem_cons inside]
  by_cases inPattern : cursor.patternIndex < pattern.length
  · rw [agrees, List.getElem?_eq_getElem inPattern, List.getElem?_eq_getElem inside] at disagreed
    rw [List.getElem?_eq_getElem inPattern] at notStar
    simp only [Option.any_some, Option.some.injEq, Bool.or_eq_true, decide_eq_true_eq,
      not_or] at disagreed notStar
    rw [List.drop_eq_getElem_cons inPattern]
    exact Lib.Glob.not_plainly_cons ⟨Ne.symm disagreed.1, disagreed.2, notStar⟩
  · rw [List.drop_eq_nil_of_le (Nat.not_lt.mp inPattern)]
    intro plainly
    cases plainly

theorem head?_of_disagrees (inside : cursor.valueIndex < value.length)
    (disagreed : ¬agrees pattern value cursor = true)
    (isStar : pattern[cursor.patternIndex]? = some star) :
    (value.drop cursor.valueIndex).head? ≠ some star := by
  rw [agrees, isStar, List.getElem?_eq_getElem inside] at disagreed
  simp only [Option.any_some, Option.some.injEq, Bool.or_eq_true, decide_eq_true_eq,
    not_or] at disagreed
  rw [List.drop_eq_getElem_cons inside, List.head?_cons]
  exact fun first => disagreed.1 (Option.some_inj.mp first)

theorem star_ne_question : star ≠ question := by decide

theorem wildcardLoop_iff (reached : Reached pattern value cursor) :
    wildcardLoop pattern value cursor = true ↔ Accepts pattern value cursor := by
  induction cursor using wildcardLoop.induct pattern value with
  | case1 cursor inside agreed ih =>
      rcases drop_of_agrees inside agreed with ⟨expected, symbol, agrees, atPattern, atValue⟩
      rw [wildcardLoop, dif_pos inside, if_pos agreed, ih]
      · unfold Accepts
        cases cursor.star with
        | none =>
            dsimp only
            rw [atPattern, atValue, Lib.Glob.plainly_cons_iff star_ne_question agrees]
        | some starIndex => rfl
      · refine ⟨inPattern_of_agrees agreed, fun starIndex isSome => ?_⟩
        rcases reached.2 starIndex isSome with ⟨inPattern', run, matched, agree, ofPattern, ofValue⟩
        refine ⟨inPattern', run ++ [expected], matched ++ [symbol], ?_, ?_, ?_⟩
        · exact List.rel_append agree (.cons agrees .nil)
        · rw [ofPattern, atPattern, List.append_assoc, List.singleton_append]
        · rw [ofValue, atValue, List.append_assoc, List.singleton_append]
  | case2 cursor inside disagreed isStar ih =>
      have inPattern : cursor.patternIndex < pattern.length :=
        (List.getElem?_eq_some_iff.mp isStar).1
      have begins := head?_of_disagrees inside disagreed isStar
      have atPattern : pattern.drop cursor.patternIndex =
          star :: pattern.drop (cursor.patternIndex + 1) := by
        rw [List.drop_eq_getElem_cons inPattern, (List.getElem?_eq_some_iff.mp isStar).2]
      rw [wildcardLoop, dif_pos inside, if_neg disagreed, if_pos isStar, ih]
      · unfold Accepts
        dsimp only
        rw [← Lib.Glob.plainly_star_iff begins, ← atPattern]
        cases isSome : cursor.star with
        | none => rfl
        | some starIndex =>
            rcases reached.2 starIndex isSome with
              ⟨inPattern', run, matched, agree, ofPattern, ofValue⟩
            constructor
            · intro plainly
              refine ⟨_, List.suffix_rfl, ?_⟩
              rw [ofPattern, ofValue]
              exact (Lib.Glob.plainly_append_iff star_ne_question agree).mpr plainly
            · -- Whatever begins later finds the star no earlier.
              rintro ⟨left, isSuffix, plainly⟩
              rw [ofValue] at isSuffix
              rw [ofPattern] at plainly
              rcases Lib.Glob.suffix_of_agree star_ne_question agree isSuffix plainly with
                ⟨later, isLater, plainly⟩
              rw [atPattern] at plainly ⊢
              rcases Lib.Glob.suffix_of_plainly_star plainly with ⟨rest, isRest, plainly⟩
              exact (Lib.Glob.plainly_star_iff begins).mpr ⟨rest, isRest.trans isLater, plainly⟩
      · refine ⟨inPattern, fun starIndex isSome => ?_⟩
        rw [← Option.some_inj.mp isSome]
        exact ⟨inPattern, [], [], .nil, rfl, rfl⟩
  | case3 cursor inside disagreed notStar starIndex isSome ih =>
      rcases reached.2 starIndex isSome with ⟨inPattern', run, matched, agree, ofPattern, ofValue⟩
      have inValue : cursor.starValue < value.length := Nat.lt_of_le_of_lt cursor.behind inside
      have atValue := List.drop_eq_getElem_cons inValue
      have fails : ¬Plainly star question (pattern.drop (starIndex + 1))
          (value.drop cursor.starValue) := by
        rw [ofPattern, ofValue, Lib.Glob.plainly_append_iff star_ne_question agree]
        exact not_plainly_of_disagrees inside disagreed notStar
      rw [wildcardLoop, dif_pos inside, if_neg disagreed, if_neg notStar]
      simp only [isSome] at ih ⊢
      rw [ih]
      · unfold Accepts
        simp only [isSome]
        constructor
        · rintro ⟨left, isSuffix, plainly⟩
          refine ⟨left, ?_, plainly⟩
          rw [atValue]
          exact isSuffix.trans (List.suffix_cons _ _)
        · rintro ⟨left, isSuffix, plainly⟩
          rw [atValue] at isSuffix
          rcases List.suffix_cons_iff.mp isSuffix with rfl | isSuffix
          · rw [← atValue] at plainly
            exact absurd plainly fails
          · exact ⟨left, isSuffix, plainly⟩
      · refine ⟨inPattern', fun starIndex' isSome' => ?_⟩
        rw [← Option.some_inj.mp isSome']
        exact ⟨inPattern', [], [], .nil, rfl, rfl⟩
  | case4 cursor inside disagreed notStar isNone =>
      rw [wildcardLoop, dif_pos inside, if_neg disagreed, if_neg notStar, Accepts]
      simp only [isNone, Bool.false_eq_true, false_iff]
      exact not_plainly_of_disagrees inside disagreed notStar
  | case5 cursor outside =>
      have none : value.drop cursor.valueIndex = [] :=
        List.drop_eq_nil_of_le (Nat.not_lt.mp outside)
      rw [wildcardLoop, dif_neg outside, decide_eq_true_eq, skipStars_eq_length_iff reached.1,
        ← @Lib.Glob.plainly_nil_iff _ star question, Accepts]
      cases isSome : cursor.star with
      | none =>
          dsimp only
          rw [none]
      | some starIndex =>
          rcases reached.2 starIndex isSome with
            ⟨inPattern', run, matched, agree, ofPattern, ofValue⟩
          dsimp only
          rw [none] at ofValue
          rw [ofPattern, ofValue]
          constructor
          · intro plainly
            exact ⟨_, List.suffix_rfl,
              (Lib.Glob.plainly_append_iff star_ne_question agree).mpr plainly⟩
          · rintro ⟨left, isSuffix, plainly⟩
            rcases Lib.Glob.suffix_of_agree star_ne_question agree isSuffix plainly with
              ⟨rest, isRest, plainly⟩
            rwa [List.suffix_nil.mp isRest] at plainly

theorem wildcardMatch_iff (pattern value : Bytes) :
    wildcardMatch pattern value = true ↔ Plainly star question pattern value := by
  rw [wildcardMatch, wildcardLoop_iff]
  · rfl
  · refine ⟨Nat.zero_le _, fun starIndex isSome => ?_⟩
    cases isSome

/-! ## What is removed -/

theorem ruled_iff {patterns unwanted : List Name} {root : Root} {file : FileAt} :
    ruled patterns unwanted root file = true ↔
      hasUnwantedExtension unwanted file = true ∨
        SomePattern (Plainly star question) patterns file := by
  rw [ruled, Bool.or_eq_true, List.any_eq_true]
  simp only [Bool.or_eq_true, wildcardMatch_iff]
  rfl

variable {lower : Lowercase} {patterns unwanted : List Name} {extracted : List (Root × List Name)}
  {deleteArchives : Bool} {trees : Trees}

theorem mem_flatMap_ruled_iff {rule : Root → FileAt → Bool} {root : Root} {file : FileAt}
    (mem : file ∈ (trees.get root).files) :
    ((root, file) ∈ [Root.job, Root.output].flatMap fun root =>
      ((trees.get root).files.filter (rule root)).map fun file => (root, file)) ↔
        rule root file = true := by
  simp only [List.mem_flatMap, List.mem_map, List.mem_filter, Prod.mk.injEq]
  constructor
  · rintro ⟨_, -, _, ⟨-, isRuled⟩, rfl, rfl⟩
    exact isRuled
  · intro isRuled
    have known : root ∈ [Root.job, Root.output] := by cases root <;> simp
    exact ⟨root, known, file, ⟨mem, isRuled⟩, rfl, rfl⟩

theorem not_somePattern_nil {relation : Bytes → Bytes → Prop} {file : FileAt} :
    ¬SomePattern relation [] file := by
  rintro ⟨pattern, mem, -⟩
  simp [normalizedPatterns] at mem

theorem mem_runCleanupStage_iff {root : Root} {file : FileAt}
    (mem : file ∈ (trees.get root).files) :
    (root, file) ∈ runCleanupStage lower (ruled patterns unwanted) extracted deleteArchives trees ↔
      RemovedAnyway lower unwanted extracted deleteArchives trees root file ∨
        SomePattern (Plainly star question) patterns file := by
  rw [RemovedAnyway, runCleanupStage, runCleanupStage, List.mem_append, List.mem_append,
    mem_flatMap_ruled_iff mem, mem_flatMap_ruled_iff mem, ruled_iff, ruled_iff, or_assoc,
    or_iff_left not_somePattern_nil]

/-- Exactly when a pattern is the glob it is written as, and when the cleanup keeps to the
patterns. -/
theorem wildcardMatch_exact_iff (lower : Lowercase) (pattern value : Bytes)
    (patterns unwanted : List Name) (extracted : List (Root × List Name)) (deleteArchives : Bool)
    (trees : Trees) :
    ((wildcardMatch pattern value = true ↔ Matches star question pattern value) ↔
      (Matches star question pattern value → Plainly star question pattern value)) ∧
    (star ∉ value →
      (wildcardMatch pattern value = true ↔ Matches star question pattern value)) ∧
    (RemovesMatching lower patterns unwanted extracted deleteArchives trees ↔
      ∀ root, ∀ file ∈ (trees.get root).files,
        ¬RemovedAnyway lower unwanted extracted deleteArchives trees root file →
          SomePattern (Matches star question) patterns file →
            SomePattern (Plainly star question) patterns file) := by
  refine ⟨?_, ?_, ?_⟩
  · rw [wildcardMatch_iff]
    exact ⟨Iff.mpr, fun plainly => ⟨Plainly.matches, plainly⟩⟩
  · intro absent
    rw [wildcardMatch_iff]
    exact ⟨Plainly.matches, fun isMatch => isMatch.plainly absent⟩
  · have weaker : ∀ file, SomePattern (Plainly star question) patterns file →
        SomePattern (Matches star question) patterns file := by
      rintro file ⟨pattern, mem, either⟩
      exact ⟨pattern, mem, either.imp Plainly.matches Plainly.matches⟩
    apply forall_congr'
    intro root
    apply forall₂_congr
    intro file mem
    rw [mem_runCleanupStage_iff mem]
    constructor
    · intro same stays isMatch
      exact (same.mpr (.inr isMatch)).resolve_left stays
    · intro plain
      constructor
      · exact Or.imp_right (weaker file)
      · rintro (anyway | isMatch)
        · exact .inl anyway
        · by_cases anyway : RemovedAnyway lower unwanted extracted deleteArchives trees root file
          · exact .inl anyway
          · exact .inr (plain anyway isMatch)

/-- A star at the beginning of a name uses up the star of the pattern. -/
theorem not_wildcardMatch_star :
    ¬(wildcardMatch (bytesOf "*.nfo".toList) (bytesOf "*x.nfo".toList) = true ↔
      Matches star question (bytesOf "*.nfo".toList) (bytesOf "*x.nfo".toList)) := by
  have pattern : bytesOf "*.nfo".toList = star :: bytesOf ".nfo".toList := by decide
  have value : bytesOf "*x.nfo".toList = bytesOf "*x".toList ++ bytesOf ".nfo".toList := by
    decide
  have rest : bytesOf "*x".toList ++ bytesOf ".nfo".toList = star :: bytesOf "x.nfo".toList := by
    decide
  have isMatch : Matches star question (bytesOf "*.nfo".toList) (bytesOf "*x.nfo".toList) := by
    rw [pattern, value]
    exact .star _ (Lib.Glob.matches_self (List.all_iff_forall_prop.mp (by decide)))
  intro exact
  have plainly := (wildcardMatch_iff _ _).mp (exact.mpr isMatch)
  rw [pattern, value, rest, Lib.Glob.plainly_cons_iff star_ne_question (.inl rfl)] at plainly
  have dot : bytesOf ".nfo".toList = 0x2E :: bytesOf "nfo".toList := by decide
  have letter : bytesOf "x.nfo".toList = 0x78 :: bytesOf ".nfo".toList := by decide
  rw [letter, dot] at plainly
  exact Lib.Glob.not_plainly_cons (by decide) plainly

end Rustnzb.Postproc
