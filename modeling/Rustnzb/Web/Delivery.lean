import Rustnzb.Core.SafePaths

/-!
# Delivering a completed job

`move_to_history` moves the regular files of the work directory to the output directory and removes
the work directory if nothing is left in it. Each rename, copy and removal may fail, and a copy that
fails may have truncated the file it was about to replace. Names are those of the system, which need
not be text; `to_string_lossy` and the way back are parameters. A link to a directory leads out of
both directories.
-/

namespace Rustnzb.Web.Delivery

variable {OsName Content : Type*} [DecidableEq OsName]

inductive Node (Content : Type*) where
  | file (content : Content)
  | dir
  | symlink (toDir : Bool)
  | special
  deriving DecidableEq

/-- What is at each path of the output directory, its own path included. -/
abbrev Output (OsName Content : Type*) := List OsName → Option (Node Content)

inductive WorkKind (Content : Type*) where
  | file (content : Content)
  | dir (contents : List Content)
  | symlink
  | special
  deriving DecidableEq

structure WorkEntry (OsName Content : Type*) where
  fileName : OsName
  kind : WorkKind Content
  deriving DecidableEq

def WorkEntry.contents (entry : WorkEntry OsName Content) : List Content :=
  match entry.kind with
  | .file content => [content]
  | .dir contents => contents
  | _ => []

structure Names (OsName : Type*) where
  toStringLossy : OsName → List Char
  ofString : List Char → OsName

/-- Where a path below the output directory is found. -/
inductive Place (OsName : Type*) where
  | inside (path : List OsName)
  | elsewhere
  deriving DecidableEq

/-- Resolve the components behind a directory. Without a directory on the way there is no place. -/
def resolve (output : Output OsName Content) (dir : List OsName) :
    List OsName → Option (Place OsName)
  | [] => some (.inside dir)
  | name :: rest =>
      match output dir with
      | some .dir => resolve output (dir ++ [name]) rest
      | some (.symlink true) => some .elsewhere
      | _ => none

/-- What the system makes of the attempt to move a file. -/
inductive Outcome (Content : Type*) where
  /-- The entry cannot be read, or the rename and the copy fail without a trace. -/
  | failed
  | renamed
  | copied (removed : Bool)
  | copyFailed (left : Content)

/-- Where `move_to_history` tries to move an entry: a regular file with a safe name, to a place that
holds no link. Nothing can be moved onto a directory. -/
def target (names : Names OsName) (output : Output OsName Content)
    (entry : WorkEntry OsName Content) : Option (Place OsName) :=
  match entry.kind with
  | .file _ =>
      (Core.safeJoin (names.toStringLossy entry.fileName)).bind fun components =>
        match resolve output [] (components.map names.ofString) with
        | some (.inside path) =>
            match output path with
            | some (.symlink _) | some .dir => none
            | _ => some (.inside path)
        | place => place
  | _ => none

def Output.set (output : Output OsName Content) (path : List OsName) (content : Content) :
    Output OsName Content :=
  fun other => if other = path then some (.file content) else output other

def moveEntry (names : Names OsName) (output : Output OsName Content)
    (entry : WorkEntry OsName Content) (outcome : Outcome Content) :
    Option (WorkEntry OsName Content) × Output OsName Content :=
  match entry.kind, target names output entry with
  | .file content, some place =>
      let written (content : Content) : Output OsName Content :=
        match place with
        | .inside path => Output.set output path content
        | .elsewhere => output
      match outcome with
      | .failed => (some entry, output)
      | .renamed => (none, written content)
      | .copied removed => (if removed then none else some entry, written content)
      | .copyFailed left => (some entry, written left)
  | _, _ => (some entry, output)

def moveAll (names : Names OsName) (output : Output OsName Content) :
    List (WorkEntry OsName Content × Outcome Content) →
      List (WorkEntry OsName Content) × Output OsName Content
  | [] => ([], output)
  | (entry, outcome) :: rest =>
      let moved := moveEntry names output entry outcome
      let later := moveAll names moved.2 rest
      (moved.1.toList ++ later.1, later.2)

def cleanup (left : List (WorkEntry OsName Content)) (readable removable : Bool) : Bool :=
  readable && left.isEmpty && removable

/-! ## What survives -/

def Present (left : List (WorkEntry OsName Content)) (output : Output OsName Content)
    (content : Content) : Prop :=
  (∃ entry ∈ left, content ∈ entry.contents) ∨ ∃ path, output path = some (.file content)

variable (names : Names OsName)

/-- A content is that of an entry that stays, of a file in whose place no entry is put, or of the
last entry that is put in its place. -/
def Survives (entries : List (WorkEntry OsName Content)) (output : Output OsName Content)
    (content : Content) : Prop :=
  (∃ entry ∈ entries, target names output entry = none ∧ content ∈ entry.contents) ∨
    (∃ path, output path = some (.file content) ∧
      ∀ entry ∈ entries, target names output entry ≠ some (.inside path)) ∨
    ∃ before entry after path, entries = before ++ entry :: after ∧
      target names output entry = some (.inside path) ∧ content ∈ entry.contents ∧
      ∀ later ∈ after, target names output later ≠ some (.inside path)

/-- A place where a file may be put: nothing, a file or something special. -/
def Free (node : Option (Node Content)) : Prop :=
  node ≠ some .dir ∧ ∀ toDir, node ≠ some (.symlink toDir)

theorem resolve_set {output : Output OsName Content} {path : List OsName} {content : Content}
    (free : Free (output path)) (dir components : List OsName) :
    resolve (output.set path content) dir components = resolve output dir components := by
  induction components generalizing dir with
  | nil => rfl
  | cons name rest ih =>
      by_cases same : dir = path
      · subst same
        rcases free with ⟨noDir, noLink⟩
        simp only [resolve, Output.set, if_true]
        split <;> simp_all
      · simp only [resolve, Output.set, same, if_false]
        split
        · exact ih (dir ++ [name])
        · rfl
        · rfl

theorem target_set {output : Output OsName Content} {path : List OsName} {content : Content}
    (free : Free (output path)) (entry : WorkEntry OsName Content) :
    target names (output.set path content) entry = target names output entry := by
  unfold target
  split
  · cases Core.safeJoin (names.toStringLossy entry.fileName) with
    | none => rfl
    | some components =>
        simp only [Option.bind_some, resolve_set free]
        split
        next other _ =>
          by_cases same : other = path
          · subst same
            rcases free with ⟨noDir, noLink⟩
            simp only [Output.set, if_true]
          · simp only [Output.set, same, if_false]
        · rfl
  · rfl

omit [DecidableEq OsName] in
theorem free_of_target {output : Output OsName Content} {entry : WorkEntry OsName Content}
    {path : List OsName} (aimed : target names output entry = some (.inside path)) :
    Free (output path) := by
  unfold target at aimed
  split at aimed
  · rcases Option.bind_eq_some_iff.mp aimed with ⟨components, -, aimed⟩
    split at aimed
    next other _ =>
      split at aimed
      · simp at aimed
      · simp at aimed
      next noLink noDir =>
        cases aimed
        exact ⟨noDir, noLink⟩
    next place notInside =>
      exact absurd aimed (notInside path)
  · simp at aimed

omit [DecidableEq OsName] in
theorem kind_of_target {output : Output OsName Content} {entry : WorkEntry OsName Content}
    {place : Place OsName} (aimed : target names output entry = some place) :
    ∃ content, entry.kind = .file content := by
  unfold target at aimed
  split at aimed
  next content isFile => exact ⟨content, isFile⟩
  · simp at aimed

section Step

variable {names} {output : Output OsName Content} {entry : WorkEntry OsName Content}
  {rest : List (WorkEntry OsName Content)} {content : Content}

theorem moveEntry_of_stays (stays : target names output entry = none)
    (outcome : Outcome Content) : moveEntry names output entry outcome = (some entry, output) := by
  unfold moveEntry
  rw [stays]
  split <;> simp_all

theorem moveEntry_output (names : Names OsName) (output : Output OsName Content)
    (entry : WorkEntry OsName Content) (outcome : Outcome Content) :
    (moveEntry names output entry outcome).2 = output ∨
      ∃ path written, target names output entry = some (.inside path) ∧
        (moveEntry names output entry outcome).2 = output.set path written := by
  cases aimed : target names output entry with
  | none =>
      rw [moveEntry_of_stays aimed]
      exact .inl rfl
  | some place =>
      rcases kind_of_target names aimed with ⟨own, isFile⟩
      cases place with
      | elsewhere => cases outcome <;> exact .inl (by simp [moveEntry, isFile, aimed])
      | inside path =>
          cases outcome with
          | failed => exact .inl (by simp [moveEntry, isFile, aimed])
          | renamed => exact .inr ⟨path, own, rfl, by simp [moveEntry, isFile, aimed]⟩
          | copied removed => exact .inr ⟨path, own, rfl, by simp [moveEntry, isFile, aimed]⟩
          | copyFailed left => exact .inr ⟨path, left, rfl, by simp [moveEntry, isFile, aimed]⟩

theorem target_moveEntry (names : Names OsName) (output : Output OsName Content)
    (entry : WorkEntry OsName Content) (outcome : Outcome Content)
    (other : WorkEntry OsName Content) :
    target names (moveEntry names output entry outcome).2 other = target names output other := by
  rcases moveEntry_output names output entry outcome with
    same | ⟨path, written, aimed, set⟩
  · rw [same]
  · rw [set, target_set names (free_of_target names aimed)]

theorem kept_of_target {path : List OsName}
    (aimed : target names output entry = some (.inside path))
    (mem : content ∈ entry.contents) (outcome : Outcome Content) :
    (∃ left ∈ (moveEntry names output entry outcome).1, content ∈ left.contents) ∨
      (moveEntry names output entry outcome).2 path = some (.file content) := by
  rcases kind_of_target names aimed with ⟨own, isFile⟩
  have eq : content = own := by simpa [WorkEntry.contents, isFile] using mem
  subst eq
  cases outcome with
  | failed => exact .inl ⟨entry, by simp [moveEntry, isFile, aimed], mem⟩
  | renamed => exact .inr (by simp [moveEntry, isFile, aimed, Output.set])
  | copied removed => exact .inr (by simp [moveEntry, isFile, aimed, Output.set])
  | copyFailed left => exact .inl ⟨entry, by simp [moveEntry, isFile, aimed], mem⟩

theorem survives_step (outcome : Outcome Content)
    (survives : Survives names (entry :: rest) output content) :
    (∃ left ∈ (moveEntry names output entry outcome).1, content ∈ left.contents) ∨
      Survives names rest (moveEntry names output entry outcome).2 content := by
  have targets := target_moveEntry names output entry outcome
  rcases survives with ⟨other, mem, stays, inside⟩ | ⟨path, there, free⟩ |
    ⟨before, last, after, path, split, aimed, inside, free⟩
  · rcases List.mem_cons.mp mem with rfl | mem
    · rw [moveEntry_of_stays stays]
      exact .inl ⟨other, rfl, inside⟩
    · exact .inr (.inl ⟨other, mem, (targets other).trans stays, inside⟩)
  · have free_rest : ∀ other ∈ rest,
        target names (moveEntry names output entry outcome).2 other ≠ some (.inside path) := by
      intro other mem
      rw [targets]
      exact free other (List.mem_cons_of_mem entry mem)
    refine .inr (.inr (.inl ⟨path, ?_, free_rest⟩))
    rcases moveEntry_output names output entry outcome with
      same | ⟨own, written, aimed, set⟩
    · rw [same, there]
    · have differs : path ≠ own := by
        rintro rfl
        exact free entry List.mem_cons_self aimed
      rw [set, Output.set, if_neg differs, there]
  · rcases before with _ | ⟨first, before⟩
    · rw [List.nil_append, List.cons.injEq] at split
      rcases split with ⟨rfl, rfl⟩
      rcases kept_of_target aimed inside outcome with kept | placed
      · exact .inl kept
      · refine .inr (.inr (.inl ⟨path, placed, ?_⟩))
        intro later mem
        rw [targets]
        exact free later mem
    · rw [List.cons_append, List.cons.injEq] at split
      rcases split with ⟨rfl, rfl⟩
      refine .inr
        (.inr (.inr ⟨before, last, after, path, rfl, (targets last).trans aimed, inside, ?_⟩))
      intro later mem
      rw [targets]
      exact free later mem

theorem survives_of_renamed
    (after : (∃ left ∈ (moveEntry names output entry .renamed).1, content ∈ left.contents) ∨
      Survives names rest (moveEntry names output entry .renamed).2 content) :
    Survives names (entry :: rest) output content := by
  have targets := target_moveEntry names output entry .renamed
  cases aimed : target names output entry with
  | none =>
      rw [moveEntry_of_stays aimed] at after
      rcases after with ⟨left, mem, inside⟩ | ⟨other, mem, stays, inside⟩ | ⟨path, there, free⟩ |
        ⟨before, last, after, path, rfl, placed, inside, free⟩
      · rw [Option.mem_some] at mem
        subst mem
        exact .inl ⟨entry, List.mem_cons_self, aimed, inside⟩
      · exact .inl ⟨other, List.mem_cons_of_mem entry mem, stays, inside⟩
      · refine .inr (.inl ⟨path, there, List.forall_mem_cons.mpr ⟨?_, free⟩⟩)
        rw [aimed]
        exact nofun
      · exact .inr (.inr ⟨entry :: before, last, after, path, rfl, placed, inside, free⟩)
  | some place =>
      rcases kind_of_target names aimed with ⟨own, isFile⟩
      have gone : (moveEntry names output entry .renamed).1 = none := by
        simp [moveEntry, isFile, aimed]
      rw [gone] at after
      simp only [Option.not_mem_none, false_and, exists_false, false_or] at after
      rcases after with ⟨other, mem, stays, inside⟩ | ⟨path, there, free⟩ |
        ⟨before, last, after, path, rfl, placed, inside, free⟩
      · rw [targets] at stays
        exact .inl ⟨other, List.mem_cons_of_mem entry mem, stays, inside⟩
      · simp only [targets] at free
        by_cases here : place = .inside path
        · subst here
          have eq : content = own := by
            simpa [moveEntry, isFile, aimed, Output.set, eq_comm] using there
          refine .inr (.inr ⟨[], entry, rest, path, rfl, aimed, ?_, free⟩)
          simp [WorkEntry.contents, isFile, eq]
        · have there' : output path = some (.file content) := by
            cases place with
            | elsewhere => simpa [moveEntry, isFile, aimed] using there
            | inside other =>
                have differs : path ≠ other := by
                  rintro rfl
                  exact here rfl
                simpa [moveEntry, isFile, aimed, Output.set, differs] using there
          refine .inr (.inl ⟨path, there', List.forall_mem_cons.mpr ⟨?_, free⟩⟩)
          rw [aimed]
          exact fun eq => here (Option.some.inj eq)
      · rw [targets] at placed
        simp only [targets] at free
        exact .inr (.inr ⟨entry :: before, last, after, path, rfl, placed, inside, free⟩)

end Step

variable {names}

theorem present_moveAll {entries : List (WorkEntry OsName Content × Outcome Content)}
    {output : Output OsName Content} {content : Content}
    (survives : Survives names (entries.map Prod.fst) output content) :
    Present (moveAll names output entries).1 (moveAll names output entries).2 content := by
  induction entries generalizing output with
  | nil =>
      rcases survives with
        ⟨entry, mem, -⟩ | ⟨path, there, -⟩ | ⟨before, last, after, path, split, -⟩
      · simp at mem
      · exact .inr ⟨path, there⟩
      · simp at split
  | cons pair rest ih =>
      rcases pair with ⟨entry, outcome⟩
      rcases survives_step outcome survives with ⟨left, mem, inside⟩ | later
      · refine .inl ⟨left, ?_, inside⟩
        rw [moveAll, List.mem_append, Option.mem_toList]
        exact .inl mem
      · rcases ih later with ⟨left, mem, inside⟩ | placed
        · refine .inl ⟨left, ?_, inside⟩
          rw [moveAll, List.mem_append]
          exact .inr mem
        · exact .inr placed

theorem survives_of_present {entries : List (WorkEntry OsName Content)}
    {output : Output OsName Content} {content : Content}
    (present : Present (moveAll names output (entries.map fun entry => (entry, .renamed))).1
      (moveAll names output (entries.map fun entry => (entry, .renamed))).2 content) :
    Survives names entries output content := by
  induction entries generalizing output with
  | nil =>
      rcases present with ⟨left, mem, -⟩ | ⟨path, there⟩
      · simp [moveAll] at mem
      · exact .inr (.inl ⟨path, there, by simp⟩)
  | cons entry rest ih =>
      apply survives_of_renamed
      rcases present with ⟨left, mem, inside⟩ | placed
      · rw [List.map_cons, moveAll, List.mem_append, Option.mem_toList] at mem
        rcases mem with mem | mem
        · exact .inl ⟨left, mem, inside⟩
        · exact .inr (ih (.inl ⟨left, mem, inside⟩))
      · exact .inr (ih (.inr placed))

/-- Nothing is lost, whatever fails: each content is still in one of the directories, and the work
directory is removed only when it is empty. -/
def Delivers (names : Names OsName) (entries : List (WorkEntry OsName Content))
    (output : Output OsName Content) : Prop :=
  ∀ outcomes : List (Outcome Content), outcomes.length = entries.length →
    let moved := moveAll names output (entries.zip outcomes)
    (∀ content, Present entries output content → Present moved.1 moved.2 content) ∧
      ∀ readable removable, cleanup moved.1 readable removable = true → moved.1 = []

/-- Nothing is lost exactly where each content is also that of a file that nothing replaces. -/
theorem delivers_iff (names : Names OsName) (entries : List (WorkEntry OsName Content))
    (output : Output OsName Content) :
    Delivers names entries output ↔
      ∀ content, Present entries output content → Survives names entries output content := by
  constructor
  · intro delivers content present
    have renamed := delivers (entries.map fun _ => .renamed) (by simp)
    have zip : entries.zip (entries.map fun _ => .renamed) =
        entries.map fun entry => (entry, (.renamed : Outcome Content)) := by
      conv_lhs => rw [← List.map_id entries]
      rw [List.map_map, List.zip_map']
      rfl
    rw [zip] at renamed
    exact survives_of_present (renamed.1 content present)
  · intro survives outcomes len
    refine ⟨?_, ?_⟩
    · intro content present
      apply present_moveAll
      rw [List.map_fst_zip (by omega)]
      exact survives content present
    · intro readable removable removed
      simp only [cleanup, Bool.and_eq_true, List.isEmpty_iff] at removed
      exact removed.1.2

def textNames : Names (List Char) where
  toStringLossy := id
  ofString := id

/-- The output directory has the file that the download is to deliver already. -/
def onlyReadme : Output (List Char) ℕ
  | [] => some .dir
  | path => if path = ["readme.txt".toList] then some (.file 1) else none

theorem moveAll_renamed {names : Names OsName} {output : Output OsName Content}
    {entry : WorkEntry OsName Content} {content : Content} {path : List OsName}
    (isFile : entry.kind = .file content)
    (aimed : target names output entry = some (.inside path)) :
    moveAll names output [(entry, .renamed)] = ([], output.set path content) := by
  simp [moveAll, moveEntry, isFile, aimed]

def newReadme : WorkEntry (List Char) ℕ where
  fileName := "readme.txt".toList
  kind := .file 2

/-- A file of the work directory replaces the one of its name. -/
theorem not_delivers_readme : ¬∀ (names : Names (List Char))
    (entries : List (WorkEntry (List Char) ℕ)) (output : Output (List Char) ℕ),
      Delivers names entries output := by
  intro delivers
  have kept := (delivers textNames [newReadme] onlyReadme [.renamed] rfl).1 1
    (.inr ⟨["readme.txt".toList], by decide⟩)
  have aimed : target textNames onlyReadme newReadme =
      some (.inside ["readme.txt".toList]) := by
    decide
  change Present (moveAll textNames onlyReadme [(newReadme, .renamed)]).1
    (moveAll textNames onlyReadme [(newReadme, .renamed)]).2 1 at kept
  rw [moveAll_renamed rfl aimed] at kept
  rcases kept with ⟨entry, mem, -⟩ | ⟨path, there⟩
  · simp at mem
  · change (if path = ["readme.txt".toList] then some (.file 2) else onlyReadme path) =
      some (.file 1) at there
    split at there
    · simp at there
    next other =>
      unfold onlyReadme at there
      split at there
      · simp at there
      · rw [if_neg other] at there
        simp at there

end Rustnzb.Web.Delivery
