import Mathlib.Tactic

/-!
# The parts of a URL

The generic syntax of RFC 3986, as far as delimiters go: a fragment behind the first `#`, a query
behind the first `?` before it, an authority between the first `://` before both and the next `/`,
and in the authority a userinfo up to its last `@`. Every text is the rendering of its parts.
-/

namespace Rustnzb.Lib

section Split

variable {α : Type*} [DecidableEq α] {separator : α} {text head tail : List α}

/-- What stands before and behind the first separator. -/
def splitOnce (separator : α) : List α → Option (List α × List α)
  | [] => none
  | char :: rest =>
      if char = separator then some ([], rest)
      else (splitOnce separator rest).map fun pieces => (char :: pieces.1, pieces.2)

/-- What stands before and behind the last separator. -/
def rsplitOnce (separator : α) : List α → Option (List α × List α)
  | [] => none
  | char :: rest =>
      match rsplitOnce separator rest with
      | some pieces => some (char :: pieces.1, pieces.2)
      | none => if char = separator then some ([], rest) else none

theorem splitOnce_eq_none : splitOnce separator text = none ↔ separator ∉ text := by
  induction text with
  | nil => simp [splitOnce]
  | cons char rest ih =>
      simp only [splitOnce, List.mem_cons, not_or, ← ih]
      split
      next same => simp [same]
      next other => simp [Ne.symm other]

theorem splitOnce_append (absent : separator ∉ head) :
    splitOnce separator (head ++ separator :: tail) = some (head, tail) := by
  induction head with
  | nil => simp [splitOnce]
  | cons char rest ih =>
      simp only [List.mem_cons, not_or] at absent
      simp [splitOnce, Ne.symm absent.1, ih absent.2]

theorem of_splitOnce (split : splitOnce separator text = some (head, tail)) :
    text = head ++ separator :: tail ∧ separator ∉ head := by
  induction text generalizing head with
  | nil => cases split
  | cons char rest ih =>
      simp only [splitOnce] at split
      split at split
      next same =>
        cases split
        exact ⟨by simp [same], List.not_mem_nil⟩
      next other =>
        rcases Option.map_eq_some_iff.mp split with ⟨⟨front, back⟩, found, pair⟩
        cases pair
        rcases ih found with ⟨rebuilt, absent⟩
        exact ⟨by simp [rebuilt], by simp [absent, Ne.symm other]⟩

theorem splitOnce_append_front (absent : separator ∉ head) (text : List α) :
    splitOnce separator (head ++ text) =
      (splitOnce separator text).map fun pieces => (head ++ pieces.1, pieces.2) := by
  cases found : splitOnce separator text with
  | none =>
      rw [splitOnce_eq_none] at found
      rw [Option.map_none, splitOnce_eq_none, List.mem_append, not_or]
      exact ⟨absent, found⟩
  | some pieces =>
      rcases of_splitOnce found with ⟨rfl, notBefore⟩
      rw [← List.append_assoc, splitOnce_append (by simp [absent, notBefore])]
      rfl

theorem rsplitOnce_eq_none : rsplitOnce separator text = none ↔ separator ∉ text := by
  induction text with
  | nil => simp [rsplitOnce]
  | cons char rest ih =>
      simp only [rsplitOnce, List.mem_cons, not_or, ← ih]
      cases rsplitOnce separator rest with
      | none => simp [eq_comm]
      | some pieces => simp

theorem rsplitOnce_append (absent : separator ∉ tail) :
    rsplitOnce separator (head ++ separator :: tail) = some (head, tail) := by
  induction head with
  | nil => simp [rsplitOnce, rsplitOnce_eq_none.mpr absent]
  | cons char rest ih => simp [rsplitOnce, ih]

theorem of_rsplitOnce (split : rsplitOnce separator text = some (head, tail)) :
    text = head ++ separator :: tail ∧ separator ∉ tail := by
  induction text generalizing head with
  | nil => cases split
  | cons char rest ih =>
      simp only [rsplitOnce] at split
      split at split
      next pieces found =>
        cases split
        rcases ih found with ⟨rebuilt, absent⟩
        exact ⟨by rw [rebuilt, List.cons_append], absent⟩
      next none =>
        split at split
        next same =>
          cases split
          exact ⟨by simp [same], rsplitOnce_eq_none.mp none⟩
        · cases split

end Split

section TakeWhile

variable {α : Type*} [DecidableEq α] {stop : α} {front back : List α}

theorem takeWhile_append_of_notMem (absent : stop ∉ front) :
    (front ++ back).takeWhile (· ≠ stop) = front ++ back.takeWhile (· ≠ stop) :=
  List.takeWhile_append_of_pos fun char here => by
    simpa using fun same : char = stop => absent (same ▸ here)

theorem dropWhile_append_of_notMem (absent : stop ∉ front) :
    (front ++ back).dropWhile (· ≠ stop) = back.dropWhile (· ≠ stop) :=
  List.dropWhile_append_of_pos fun char here => by
    simpa using fun same : char = stop => absent (same ▸ here)

theorem takeWhile_of_notMem (absent : stop ∉ front) : front.takeWhile (· ≠ stop) = front := by
  have kept : (front ++ []).takeWhile (· ≠ stop) = front ++ [].takeWhile (· ≠ stop) :=
    takeWhile_append_of_notMem absent
  simpa using kept

theorem dropWhile_of_notMem (absent : stop ∉ front) : front.dropWhile (· ≠ stop) = [] := by
  have dropped : (front ++ []).dropWhile (· ≠ stop) = [].dropWhile (· ≠ stop) :=
    dropWhile_append_of_notMem absent
  simpa using dropped

theorem notMem_takeWhile (text : List α) : stop ∉ text.takeWhile (· ≠ stop) := by
  intro here
  have kept := List.all_eq_true.mp List.all_takeWhile _ here
  simp at kept

/-- Empty, or begins with the character. -/
def Begins (stop : α) (text : List α) : Prop :=
  text = [] ∨ text.head? = some stop

theorem begins_dropWhile (text : List α) : Begins stop (text.dropWhile (· ≠ stop)) := by
  have first := List.head?_dropWhile_not (· ≠ stop) text
  cases remaining : text.dropWhile (· ≠ stop) with
  | nil => exact .inl rfl
  | cons char rest =>
      rw [remaining] at first
      exact .inr (by simpa using first)

theorem takeWhile_of_begins (begins : Begins stop back) :
    back.takeWhile (· ≠ stop) = [] ∧ back.dropWhile (· ≠ stop) = back := by
  rcases begins with rfl | first
  · exact ⟨rfl, rfl⟩
  · cases back with
    | nil => cases first
    | cons char rest =>
        cases first
        simp

end TakeWhile

/-! ## Scheme -/

/-- A text up to and with its first `://`, and what follows. -/
def splitScheme : List Char → Option (List Char × List Char)
  | [] => none
  | char :: rest =>
      if [':', '/', '/'] <+: char :: rest then some ([':', '/', '/'], rest.drop 2)
      else (splitScheme rest).map fun pieces => (char :: pieces.1, pieces.2)

section Scheme

variable {text scheme rest : List Char}

theorem append_of_splitScheme (split : splitScheme text = some (scheme, rest)) :
    text = scheme ++ rest := by
  fun_induction splitScheme text generalizing scheme with
  | case1 => cases split
  | case2 char after mark =>
      cases split
      rcases mark with ⟨back, whole⟩
      rw [← whole]
      cases whole
      rfl
  | case3 char after plain ih =>
      rcases Option.map_eq_some_iff.mp split with ⟨⟨front, back⟩, found, pair⟩
      cases pair
      rw [ih found, List.cons_append]

theorem mark_of_splitScheme (split : splitScheme text = some (scheme, rest)) :
    [':', '/', '/'] <:+ scheme := by
  fun_induction splitScheme text generalizing scheme with
  | case1 => cases split
  | case2 =>
      cases split
      exact List.suffix_rfl
  | case3 char after plain ih =>
      rcases Option.map_eq_some_iff.mp split with ⟨⟨front, back⟩, found, pair⟩
      cases pair
      exact (ih found).trans (List.suffix_cons _ _)

/-- What follows the first `://` does not matter for where it is. -/
theorem splitScheme_append (split : splitScheme text = some (scheme, rest)) (other : List Char) :
    splitScheme (scheme ++ other) = some (scheme, other) := by
  fun_induction splitScheme text generalizing scheme with
  | case1 => cases split
  | case2 =>
      cases split
      simp [splitScheme]
  | case3 char after plain ih =>
      rcases Option.map_eq_some_iff.mp split with ⟨⟨front, back⟩, found, pair⟩
      cases pair
      have long : 3 ≤ front.length := (mark_of_splitScheme found).length_le
      have still : ¬[':', '/', '/'] <+: char :: (front ++ other) := by
        intro mark
        have inFront : [':', '/', '/'] <+: char :: front :=
          List.prefix_of_prefix_length_le mark (List.prefix_append (char :: front) other)
            (by simp only [List.length_cons, List.length_nil]; omega)
        refine plain (inFront.trans ?_)
        rw [append_of_splitScheme found]
        exact List.prefix_append (char :: front) back
      rw [List.cons_append, splitScheme, if_neg still, ih found]
      rfl

/-- A character that is not of `://` separates two searches for it. -/
theorem splitScheme_separator {separator : Char} (noColon : separator ≠ ':')
    (noSlash : separator ≠ '/') (none : splitScheme text = none) (other : List Char) :
    splitScheme (text ++ separator :: other) =
      (splitScheme other).map fun pieces => (text ++ separator :: pieces.1, pieces.2) := by
  induction text with
  | nil =>
      have still : ¬[':', '/', '/'] <+: separator :: other := by
        rintro ⟨back, whole⟩
        cases whole
        exact noColon rfl
      simp [splitScheme, still]
  | cons char after ih =>
      simp only [splitScheme] at none
      split at none
      · cases none
      next plain =>
        have still : ¬[':', '/', '/'] <+: char :: (after ++ separator :: other) := by
          intro mark
          rcases List.prefix_or_prefix_of_prefix mark
              (List.prefix_append (char :: after) (separator :: other)) with inside | longer
          · exact plain inside
          · rcases longer with ⟨more, whole⟩
            rcases mark with ⟨back, rebuilt⟩
            rw [← whole, List.append_assoc, ← List.cons_append,
              List.append_cancel_left_eq] at rebuilt
            cases more with
            | nil => exact plain ⟨[], by rw [← whole]; simp⟩
            | cons first others =>
                have first_eq : first = separator := by
                  simp only [List.cons_append, List.cons.injEq] at rebuilt
                  exact rebuilt.1
                have here : separator ∈ [':', '/', '/'] := by
                  rw [← whole, ← first_eq]
                  simp
                simp [noColon, noSlash] at here
        rw [List.cons_append, splitScheme, if_neg still, ih (Option.map_eq_none_iff.mp none)]
        simp [Function.comp_def]

end Scheme

/-! ## Parts -/

structure Authority where
  scheme : List Char
  userinfo : Option (List Char)
  host : List Char
  deriving DecidableEq

structure Url where
  authority : Option Authority
  path : List Char
  query : Option (List Char)
  fragment : Option (List Char)
  deriving DecidableEq

/-- A part behind its delimiter, if it is there. -/
def part (delimiter : Char) : Option (List Char) → List Char
  | none => []
  | some text => delimiter :: text

def userinfoPart : Option (List Char) → List Char
  | none => []
  | some login => login ++ ['@']

namespace Authority

def parse (scheme text : List Char) : Authority :=
  match rsplitOnce '@' text with
  | none => ⟨scheme, none, text⟩
  | some (login, host) => ⟨scheme, some login, host⟩

/-- What stands behind the scheme. -/
def tail (authority : Authority) : List Char :=
  userinfoPart authority.userinfo ++ authority.host

structure WellFormed (authority : Authority) : Prop where
  scheme : splitScheme authority.scheme = some (authority.scheme, [])
  plain : ∀ char ∈ authority.scheme, char ≠ '?' ∧ char ≠ '#'
  delimited : ∀ char ∈ authority.tail, char ≠ '/' ∧ char ≠ '?' ∧ char ≠ '#'
  host : '@' ∉ authority.host

/-- Another login without a delimiter keeps an authority well formed. -/
theorem WellFormed.relogin {authority : Authority} (formed : authority.WellFormed)
    {login : List Char} (plain : ∀ char ∈ login, char ≠ '/' ∧ char ≠ '?' ∧ char ≠ '#') :
    WellFormed { authority with userinfo := some login } := by
  refine ⟨formed.scheme, formed.plain, ?_, formed.host⟩
  intro char inside
  simp only [tail, userinfoPart, List.mem_append, List.mem_singleton] at inside
  rcases inside with (inLogin | rfl) | inHost
  · exact plain char inLogin
  · decide
  · exact formed.delimited char (List.mem_append_right _ inHost)

theorem tail_parse (scheme text : List Char) : (parse scheme text).tail = text := by
  unfold parse
  split
  · rfl
  next split => simp [tail, userinfoPart, (of_rsplitOnce split).1]

theorem scheme_parse (scheme text : List Char) : (parse scheme text).scheme = scheme := by
  unfold parse
  split <;> rfl

theorem parse_tail {authority : Authority} (wellFormed : authority.WellFormed) :
    parse authority.scheme authority.tail = authority := by
  rcases authority with ⟨scheme, userinfo, host⟩
  cases userinfo with
  | none => simp [parse, tail, userinfoPart, rsplitOnce_eq_none.mpr wellFormed.host]
  | some login => simp [parse, tail, userinfoPart, rsplitOnce_append wellFormed.host]

end Authority

namespace Url

/-- The parts of a text before its query and fragment. -/
def parseBase (base : List Char) (query fragment : Option (List Char)) : Url :=
  match splitScheme base with
  | none => ⟨none, base, query, fragment⟩
  | some (scheme, rest) =>
      ⟨some (Authority.parse scheme (rest.takeWhile (· ≠ '/'))), rest.dropWhile (· ≠ '/'), query,
        fragment⟩

def parseQuery (text : List Char) (fragment : Option (List Char)) : Url :=
  match splitOnce '?' text with
  | none => parseBase text none fragment
  | some (base, query) => parseBase base (some query) fragment

def parse (text : List Char) : Url :=
  match splitOnce '#' text with
  | none => parseQuery text none
  | some (front, fragment) => parseQuery front (some fragment)

/-- The query and the fragment. -/
def tail (url : Url) : List Char :=
  part '?' url.query ++ part '#' url.fragment

/-- What stands before the query and the fragment. -/
def base (url : Url) : List Char :=
  match url.authority with
  | none => url.path
  | some authority => authority.scheme ++ authority.tail ++ url.path

def render (url : Url) : List Char :=
  url.base ++ url.tail

structure WellFormed (url : Url) : Prop where
  authority : ∀ authority, url.authority = some authority →
    authority.WellFormed ∧ Begins '/' url.path
  plain : url.authority = none → splitScheme url.path = none
  path : ∀ char ∈ url.path, char ≠ '?' ∧ char ≠ '#'
  query : ∀ query, url.query = some query → '#' ∉ query

/-! ### A text is the rendering of its parts -/

theorem base_parseBase (base : List Char) (query fragment : Option (List Char)) :
    (parseBase base query fragment).base = base := by
  unfold parseBase
  split
  · rfl
  next scheme rest split =>
    simp only [Url.base, Authority.scheme_parse, Authority.tail_parse, List.append_assoc,
      List.takeWhile_append_dropWhile]
    exact (append_of_splitScheme split).symm

@[simp]
theorem query_parseBase (base : List Char) (query fragment : Option (List Char)) :
    (parseBase base query fragment).query = query := by
  unfold parseBase
  split <;> rfl

@[simp]
theorem fragment_parseBase (base : List Char) (query fragment : Option (List Char)) :
    (parseBase base query fragment).fragment = fragment := by
  unfold parseBase
  split <;> rfl

theorem tail_parseBase (base : List Char) (query fragment : Option (List Char)) :
    (parseBase base query fragment).tail = part '?' query ++ part '#' fragment := by
  rw [tail, query_parseBase, fragment_parseBase]

theorem render_parseBase (base : List Char) (query fragment : Option (List Char)) :
    (parseBase base query fragment).render = base ++ (part '?' query ++ part '#' fragment) := by
  rw [render, base_parseBase, tail_parseBase]

theorem render_parseQuery (text : List Char) (fragment : Option (List Char)) :
    (parseQuery text fragment).render = text ++ part '#' fragment := by
  unfold parseQuery
  split
  · rw [render_parseBase, part, List.nil_append]
  next base query split => simp [render_parseBase, part, (of_splitOnce split).1]

theorem render_parse (text : List Char) : (parse text).render = text := by
  unfold parse
  split
  · rw [render_parseQuery, part, List.append_nil]
  next front fragment split => rw [render_parseQuery, part, ← (of_splitOnce split).1]

theorem wellFormed_parseBase {base : List Char} {query : Option (List Char)}
    (fragment : Option (List Char)) (plain : ∀ char ∈ base, char ≠ '?' ∧ char ≠ '#')
    (noHash : ∀ text, query = some text → '#' ∉ text) :
    (parseBase base query fragment).WellFormed := by
  unfold parseBase
  split
  next none => exact ⟨fun _ here => (nomatch here), fun _ => none, plain, noHash⟩
  next scheme rest split =>
    have whole := append_of_splitScheme split
    have inBase : ∀ char ∈ rest, char ≠ '?' ∧ char ≠ '#' := fun char here =>
      plain char (by rw [whole]; exact List.mem_append_right _ here)
    refine ⟨?_, fun none => (nomatch none), ?_, noHash⟩
    · rintro _ ⟨⟩
      refine ⟨⟨?_, ?_, ?_, ?_⟩, ?_⟩
      · rw [Authority.scheme_parse]
        simpa using splitScheme_append split []
      · rw [Authority.scheme_parse]
        exact fun char here => plain char (by rw [whole]; exact List.mem_append_left _ here)
      · rw [Authority.tail_parse]
        intro char here
        refine ⟨?_, inBase char ((List.takeWhile_prefix _).subset here)⟩
        rintro rfl
        exact notMem_takeWhile rest here
      · unfold Authority.parse
        split
        next none => exact rsplitOnce_eq_none.mp none
        next split => exact (of_rsplitOnce split).2
      · exact begins_dropWhile rest
    · exact fun char here => inBase char ((List.dropWhile_suffix _).subset here)

theorem wellFormed_parseQuery {text : List Char} (fragment : Option (List Char))
    (plain : '#' ∉ text) : (parseQuery text fragment).WellFormed := by
  have ne_of_mem : ∀ char ∈ text, char ≠ '#' := by
    rintro char here rfl
    exact plain here
  unfold parseQuery
  split
  next none =>
    refine wellFormed_parseBase _ (fun char here => ⟨?_, ne_of_mem char here⟩) (by simp)
    rintro rfl
    exact splitOnce_eq_none.mp none here
  next base query split =>
    rcases of_splitOnce split with ⟨rfl, absent⟩
    refine wellFormed_parseBase _ (fun char here => ⟨?_, ?_⟩) ?_
    · rintro rfl
      exact absent here
    · exact ne_of_mem char (List.mem_append_left _ here)
    · rintro _ ⟨⟩ here
      exact plain (List.mem_append_right _ (List.mem_cons_of_mem _ here))

theorem wellFormed_parse (text : List Char) : (parse text).WellFormed := by
  unfold parse
  split
  next none => exact wellFormed_parseQuery _ (splitOnce_eq_none.mp none)
  next front fragment split => exact wellFormed_parseQuery _ (of_splitOnce split).2

/-! ### Well-formed parts are those of their rendering -/

section Render

variable {url : Url}

theorem WellFormed.relogin (wellFormed : url.WellFormed) {login : List Char}
    (plain : ∀ char ∈ login, char ≠ '/' ∧ char ≠ '?' ∧ char ≠ '#') :
    WellFormed { url with
      authority := url.authority.map fun authority =>
        { authority with userinfo := authority.userinfo.map fun _ => login } } := by
  refine ⟨?_, fun none => wellFormed.plain (Option.map_eq_none_iff.mp none), wellFormed.path,
    wellFormed.query⟩
  intro changed found
  rcases Option.map_eq_some_iff.mp found with ⟨⟨scheme, userinfo, host⟩, here, rfl⟩
  rcases wellFormed.authority _ here with ⟨formed, begins⟩
  refine ⟨?_, begins⟩
  cases userinfo with
  | none => exact formed
  | some _ => exact formed.relogin plain

theorem WellFormed.base_plain (wellFormed : url.WellFormed) :
    ∀ char ∈ url.base, char ≠ '?' ∧ char ≠ '#' := by
  intro char here
  unfold Url.base at here
  split at here
  · exact wellFormed.path char here
  next authority found =>
    have formed := (wellFormed.authority _ found).1
    simp only [List.mem_append] at here
    rcases here with (inScheme | inTail) | inPath
    · exact formed.plain char inScheme
    · exact (formed.delimited char inTail).2
    · exact wellFormed.path char inPath

theorem parseBase_base (wellFormed : url.WellFormed) :
    parseBase url.base url.query url.fragment = url := by
  rcases url with ⟨_ | authority, path, query, fragment⟩
  · simp [parseBase, base, wellFormed.plain rfl]
  · rcases wellFormed.authority _ rfl with ⟨formed, begins⟩
    have absent : '/' ∉ authority.tail := fun here => (formed.delimited _ here).1 rfl
    have split := splitScheme_append formed.scheme (authority.tail ++ path)
    rw [← List.append_assoc] at split
    simp only [parseBase, base, split, takeWhile_append_of_notMem absent,
      dropWhile_append_of_notMem absent, takeWhile_of_begins begins, List.append_nil,
      Authority.parse_tail formed]

theorem parse_render (wellFormed : url.WellFormed) : parse url.render = url := by
  have noQuery : '?' ∉ url.base := fun here => (wellFormed.base_plain _ here).1 rfl
  have noHash : '#' ∉ url.base ++ part '?' url.query := by
    rw [List.mem_append]
    rintro (inBase | inQuery)
    · exact (wellFormed.base_plain _ inBase).2 rfl
    · cases found : url.query with
      | none => simp [found, part] at inQuery
      | some query =>
          rw [found, part, List.mem_cons] at inQuery
          exact inQuery.elim (by decide) (wellFormed.query _ found)
  have whole := parseBase_base wellFormed
  have front : parseQuery (url.base ++ part '?' url.query) url.fragment = url := by
    cases found : url.query with
    | none =>
        rw [found] at whole
        rw [part, List.append_nil, parseQuery, splitOnce_eq_none.mpr noQuery]
        exact whole
    | some query =>
        rw [found] at whole
        rw [part, parseQuery, splitOnce_append noQuery]
        exact whole
  rw [render, tail, ← List.append_assoc]
  cases found : url.fragment with
  | none =>
      rw [found] at front
      rw [part, List.append_nil, parse, splitOnce_eq_none.mpr noHash]
      exact front
  | some fragment =>
      rw [found] at front
      rw [part, parse, splitOnce_append noHash]
      exact front

end Render

/-- A text in front of the first `?` and `#` stays in front of the query and the fragment. -/
theorem parse_append {front : List Char} (plain : ∀ char ∈ front, char ≠ '?' ∧ char ≠ '#')
    (text : List Char) :
    parse (front ++ text) =
      parseBase (front ++ (parse text).base) (parse text).query (parse text).fragment := by
  have noQuery : '?' ∉ front := fun here => (plain _ here).1 rfl
  have noHash : '#' ∉ front := fun here => (plain _ here).2 rfl
  have behind : ∀ (text : List Char) (fragment : Option (List Char)),
      parseQuery (front ++ text) fragment =
        parseBase (front ++ (parseQuery text fragment).base) (parseQuery text fragment).query
          (parseQuery text fragment).fragment := by
    intro text fragment
    simp only [parseQuery, splitOnce_append_front noQuery]
    cases splitOnce '?' text <;> simp [base_parseBase]
  simp only [parse, splitOnce_append_front noHash]
  cases splitOnce '#' text with
  | none => exact behind text none
  | some pieces => exact behind pieces.1 (some pieces.2)

theorem length_tail_le (url : Url) : url.tail.length ≤ url.render.length := by
  simp [render]

end Url

end Rustnzb.Lib
