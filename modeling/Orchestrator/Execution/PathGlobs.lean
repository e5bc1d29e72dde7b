import Orchestrator.Execution.DiffPolicy

/-! # Path globs

A glob is compiled to the source of a regular expression (`globToRegExp` of
`execution/diff-policy.ts`), which is matched against the code units of a path. What a glob
means is said in terms of characters. The two differ on paths with a line terminator, which
`.` does not match, and on paths with a character of two code units, of which `[^/]` matches
one.
-/

namespace Orchestrator

open Kit

/-! ## The source of the pattern -/

/-- What `/[.+^${}()|[\]\\]/` matches. -/
def isEscaped (character : Char) : Bool :=
  ['.', '+', '^', '$', '\x7b', '\x7d', '(', ')', '|', '[', ']', '\\'].contains character

/-- `character.replace(/[.+^${}()|[\]\\]/g, '\\$&')`. -/
def escapeCharacter (character : Char) : List Char :=
  if isEscaped character then ['\\', character] else [character]

/-- `(?:.*/)?`. -/
def segmentsSource : List Char := ['(', '?', ':', '.', '*', '/', ')', '?']

/-- `.*`. -/
def restSource : List Char := ['.', '*']

/-- `[^/]`. -/
def oneSource : List Char := ['[', '^', '/', ']']

/-- `[^/]*`. -/
def starSource : List Char := ['[', '^', '/', ']', '*']

def globSource : List Char → List Char
  | '*' :: '*' :: '/' :: glob => segmentsSource ++ globSource glob
  | '*' :: '*' :: glob => restSource ++ globSource glob
  | '*' :: glob => starSource ++ globSource glob
  | '?' :: glob => oneSource ++ globSource glob
  | character :: glob => escapeCharacter character ++ globSource glob
  | [] => []

/-! ## Reading a pattern -/

/-- The characters that do not stand for themselves in a pattern. -/
def isSyntaxCharacter (character : Char) : Bool :=
  ['^', '$', '\\', '.', '*', '+', '?', '(', ')', '[', ']', '\x7b', '\x7d', '|'].contains character

/-- The term at the head of a pattern, and its length. -/
def termAt (source : List Char) : Option (Nat × GlobToken) :=
  if segmentsSource.isPrefixOf source then some (segmentsSource.length, .segments)
  else if starSource.isPrefixOf source then some (starSource.length, .star)
  else if oneSource.isPrefixOf source then some (oneSource.length, .one)
  else if restSource.isPrefixOf source then some (restSource.length, .rest)
  else
    match source with
    | [] => none
    | character :: source =>
        if character = '\\' then
          source.head?.bind fun escaped =>
            if isSyntaxCharacter escaped then some (2, .text escaped) else none
        else if isSyntaxCharacter character then none
        else some (1, .text character)

/-- A quantifier of the term before it. -/
def isQuantified : List Char → Bool
  | [] => false
  | character :: _ => ['*', '+', '?', '\x7b'].contains character

/-- The terms of a pattern up to its `$`; `skip` characters belong to the last term. Nothing is
read from a pattern with another construct. -/
def readTerms : Nat → List Char → Option (List GlobToken)
  | _, [] => none
  | skip + 1, _ :: source => readTerms skip source
  | 0, character :: source =>
      if character :: source = ['$'] then some []
      else
        match termAt (character :: source) with
        | none => none
        | some (length, term) =>
            if isQuantified ((character :: source).drop length) then none
            else (readTerms (length - 1) source).map (term :: ·)

/-- `new RegExp(source)`, for an anchored source. -/
def readPattern : List Char → Option (List GlobToken)
  | '^' :: source => readTerms 0 source
  | _ => none

/-- `globToRegExp(glob)`, as it is understood. -/
def globToRegExp (glob : String) : Option (List GlobToken) :=
  readPattern ('^' :: globSource glob.toList ++ ['$'])

/-- `globToRegExp(glob).test(path)`. -/
def testGlob (glob path : String) : Bool :=
  match globToRegExp glob with
  | none => false
  | some terms => matchTokens terms (utf16 path.toList)

theorem readTerms_skip (skip : Nat) (source : List Char) :
    readTerms skip source = readTerms 0 (source.drop skip) := by
  induction skip generalizing source with
  | zero => rfl
  | succ skip ih =>
      cases source with
      | nil => rfl
      | cons character source => exact ih source

/-- One term is read. -/
theorem readTerms_term {text rest : List Char} {term : GlobToken}
    (hterm : termAt (text ++ rest) = some (text.length, term)) (hne : text ≠ [])
    (hopen : text ≠ ['$']) (hrest : isQuantified rest = false) :
    readTerms 0 (text ++ rest) = (readTerms 0 rest).map (term :: ·) := by
  cases text with
  | nil => exact absurd rfl hne
  | cons character text =>
      have hnotEnd : character :: (text ++ rest) ≠ ['$'] := by
        intro hend
        rcases List.cons.inj hend with ⟨rfl, hnil⟩
        rw [(List.append_eq_nil_iff.mp hnil).1] at hopen
        exact hopen rfl
      rw [List.cons_append] at hterm
      rw [List.cons_append, readTerms, if_neg hnotEnd, hterm]
      dsimp only
      rw [← List.cons_append, List.drop_left, hrest, if_neg Bool.false_ne_true, readTerms_skip,
        List.length_cons, Nat.add_sub_cancel, List.drop_left]

/-- What a glob does not escape stands for itself. -/
theorem not_isSyntaxCharacter {character : Char} (hstar : character ≠ '*') (hone : character ≠ '?')
    (hescaped : ¬ isEscaped character = true) :
    isSyntaxCharacter character = false := by
  unfold isEscaped at hescaped
  unfold isSyntaxCharacter
  simp at hescaped ⊢
  tauto

theorem isSyntaxCharacter_of_escaped {character : Char}
    (hescaped : isEscaped character = true) : isSyntaxCharacter character = true := by
  unfold isEscaped at hescaped
  unfold isSyntaxCharacter
  simp at hescaped ⊢
  tauto

/-- What stands behind a term is never a quantifier. -/
theorem isQuantified_source (glob : List Char) :
    isQuantified (globSource glob ++ ['$']) = false := by
  fun_cases globSource glob with
  | case1 glob => rfl
  | case2 glob _ => rfl
  | case3 glob _ => rfl
  | case4 glob => rfl
  | case5 character glob _ _ hstar hone =>
      unfold escapeCharacter
      split_ifs with hescaped
      · rfl
      · have hplain := not_isSyntaxCharacter hstar hone hescaped
        unfold isSyntaxCharacter at hplain
        simp [isQuantified] at hplain ⊢
        tauto
  | case6 => rfl

/-- A character of the glob is read as itself. -/
theorem termAt_escapeCharacter {character : Char} (hstar : character ≠ '*')
    (hone : character ≠ '?') (rest : List Char) :
    termAt (escapeCharacter character ++ rest) =
      some ((escapeCharacter character).length, .text character) := by
  unfold escapeCharacter
  split_ifs with hescaped
  · have hsyntax := isSyntaxCharacter_of_escaped hescaped
    have hread : termAt ('\\' :: character :: rest) =
        if isSyntaxCharacter character then some (2, .text character) else none := rfl
    rw [List.cons_append, List.singleton_append, hread, if_pos hsyntax]
    rfl
  · have hplain := not_isSyntaxCharacter hstar hone hescaped
    unfold termAt
    have hgroup : character ≠ '(' := by
      rintro rfl
      exact absurd hplain (by decide)
    have hclass : character ≠ '[' := by
      rintro rfl
      exact absurd hplain (by decide)
    have hdot : character ≠ '.' := by
      rintro rfl
      exact absurd hplain (by decide)
    have hescape : character ≠ '\\' := by
      rintro rfl
      exact absurd hplain (by decide)
    simp [segmentsSource, starSource, oneSource, restSource, List.isPrefixOf, hgroup.symm,
      hclass.symm, hdot.symm, hescape, hplain]

theorem escapeCharacter_ne_nil (character : Char) : escapeCharacter character ≠ [] := by
  unfold escapeCharacter
  split_ifs
  · exact List.cons_ne_nil _ _
  · exact List.cons_ne_nil _ _

/-- No character of a glob ends the pattern. -/
theorem escapeCharacter_ne_end (character : Char) : escapeCharacter character ≠ ['$'] := by
  unfold escapeCharacter
  split_ifs with hescaped
  · intro hend
    cases hend
  · intro hend
    cases hend
    exact hescaped (by decide)

/-- `[^/]` stands alone if no star follows. -/
theorem termAt_oneSource {rest : List Char} (h : isQuantified rest = false) :
    termAt (oneSource ++ rest) = some (oneSource.length, .one) := by
  cases rest with
  | nil => rfl
  | cons character rest =>
      have hstar : '*' ≠ character := by
        rintro rfl
        have hquantified : isQuantified ('*' :: rest) = true := rfl
        rw [hquantified] at h
        cases h
      have hnone : starSource.isPrefixOf (oneSource ++ character :: rest) = false := by
        simp [starSource, oneSource, List.isPrefixOf, hstar]
      unfold termAt
      rw [hnone]
      rfl

/-- The pattern of a glob is read as the tokens of the glob. -/
theorem readTerms_globSource (glob : List Char) :
    readTerms 0 (globSource glob ++ ['$']) = some (globTokens glob) := by
  -- One case for each piece that the compiler writes.
  induction glob using globSource.induct with
  | case1 glob ih =>
      have hterm : termAt (segmentsSource ++ (globSource glob ++ ['$'])) =
          some (segmentsSource.length, .segments) := rfl
      rw [globSource, List.append_assoc, readTerms_term hterm (by decide) (by decide)
        (isQuantified_source glob), ih]
      rfl
  | case2 glob hslash ih =>
      have hterm : termAt (restSource ++ (globSource glob ++ ['$'])) =
          some (restSource.length, .rest) := rfl
      rw [globSource.eq_2 glob hslash, List.append_assoc, readTerms_term hterm (by decide)
        (by decide) (isQuantified_source glob), ih, globTokens.eq_2 glob hslash]
      rfl
  | case3 glob hsegments hrest ih =>
      have hterm : termAt (starSource ++ (globSource glob ++ ['$'])) =
          some (starSource.length, .star) := rfl
      rw [globSource.eq_3 glob hsegments hrest, List.append_assoc, readTerms_term hterm (by decide)
        (by decide) (isQuantified_source glob), ih, globTokens.eq_3 glob hsegments hrest]
      rfl
  | case4 glob ih =>
      have hquantified := isQuantified_source glob
      have hterm : termAt (oneSource ++ (globSource glob ++ ['$'])) =
          some (oneSource.length, .one) := termAt_oneSource hquantified
      rw [globSource, List.append_assoc, readTerms_term hterm (by decide) (by decide)
        hquantified, ih]
      rfl
  | case5 character glob hsegments hrest hstar hone ih =>
      have hterm := termAt_escapeCharacter hstar hone (globSource glob ++ ['$'])
      rw [globSource.eq_5 character glob hsegments hrest hstar hone, List.append_assoc,
        readTerms_term hterm (escapeCharacter_ne_nil character) (escapeCharacter_ne_end character)
        (isQuantified_source glob), ih,
        globTokens.eq_5 character glob hsegments hrest hstar hone]
      rfl
  | case6 => rfl

/-- The compiled glob is its tokens. -/
theorem globToRegExp_eq (glob : String) : globToRegExp glob = some (globTokens glob.toList) :=
  readTerms_globSource glob.toList

theorem testGlob_eq (glob path : String) :
    testGlob glob path = matchTokens (globTokens glob.toList) (utf16 path.toList) := by
  unfold testGlob
  rw [globToRegExp_eq]

theorem matchesAnyGlob_iff (path : String) (globs : List String) :
    matchesAnyGlob path globs = true ↔ ∃ glob ∈ globs, testGlob glob path = true := by
  unfold matchesAnyGlob
  rw [List.any_eq_true]
  constructor
  · rintro ⟨glob, hmem, hmatch⟩
    exact ⟨glob, hmem, (testGlob_eq glob path).trans hmatch⟩
  · rintro ⟨glob, hmem, hmatch⟩
    exact ⟨glob, hmem, (testGlob_eq glob path).symm.trans hmatch⟩

/-! ## The meaning of a glob -/

/-- The path matches the terms of a glob: `**/` nothing or any text that ends in `/`, another
`**` any text, `*` any text without `/`, `?` one character other than `/`, and every other
character itself. -/
def GlobMatches : List GlobToken → List Char → Prop
  | [], path => path = []
  | .text character :: terms, path => ∃ rest, path = character :: rest ∧ GlobMatches terms rest
  | .one :: terms, path =>
      ∃ character rest, path = character :: rest ∧ character ≠ '/' ∧ GlobMatches terms rest
  | .star :: terms, path =>
      ∃ text rest, path = text ++ rest ∧ '/' ∉ text ∧ GlobMatches terms rest
  | .rest :: terms, path => ∃ text rest, path = text ++ rest ∧ GlobMatches terms rest
  | .segments :: terms, path =>
      GlobMatches terms path ∨
        ∃ text rest, path = text ++ '/' :: rest ∧ GlobMatches terms rest

/-- The path matches the glob. -/
def Matches (glob path : String) : Prop := GlobMatches (globTokens glob.toList) path.toList

/-! ## Units and characters -/

theorem mem_skips {allowed : Nat → Bool} {path left : List Nat} :
    left ∈ skips allowed path ↔
      ∃ skipped, path = skipped ++ left ∧ ∀ unit ∈ skipped, allowed unit = true := by
  -- Induction on the path: each unit is skipped or the skip ends before it.
  induction path with
  | nil =>
      constructor
      · intro hmem
        rcases List.mem_singleton.mp hmem with rfl
        exact ⟨[], rfl, fun _ h => nomatch h⟩
      · rintro ⟨skipped, hpath, _⟩
        rw [(List.append_eq_nil_iff.mp hpath.symm).2]
        exact List.mem_cons_self
  | cons unit path ih =>
      constructor
      · intro hmem
        rcases List.mem_cons.mp hmem with rfl | hrest
        · exact ⟨[], rfl, fun _ h => nomatch h⟩
        · split_ifs at hrest with hallowed
          · rcases ih.mp hrest with ⟨skipped, rfl, hall⟩
            refine ⟨unit :: skipped, rfl, ?_⟩
            intro other hother
            rcases List.mem_cons.mp hother with rfl | hother
            · exact hallowed
            · exact hall other hother
          · cases hrest
      · rintro ⟨skipped, hpath, hall⟩
        cases skipped with
        | nil =>
            rw [List.nil_append] at hpath
            rw [← hpath]
            exact List.mem_cons_self
        | cons first skipped =>
            rcases List.cons.inj hpath with ⟨rfl, rfl⟩
            have hallowed := hall unit List.mem_cons_self
            have hrest : left ∈ skips allowed (skipped ++ left) :=
              ih.mpr ⟨skipped, rfl, fun other hother => hall other (List.mem_cons_of_mem _ hother)⟩
            refine List.mem_cons_of_mem _ ?_
            rw [if_pos hallowed]
            exact hrest

/-- What `*` and `**` match, one way for both. -/
theorem any_skips {allowed : Nat → Bool} {path : List Nat} {matched : List Nat → Bool} :
    (skips allowed path).any matched = true ↔ ∃ skipped left, path = skipped ++ left ∧
      (∀ unit ∈ skipped, allowed unit = true) ∧ matched left = true := by
  rw [List.any_eq_true]
  constructor
  · rintro ⟨left, hmem, hmatched⟩
    rcases mem_skips.mp hmem with ⟨skipped, hpath, hall⟩
    exact ⟨skipped, left, hpath, hall, hmatched⟩
  · rintro ⟨skipped, left, hpath, hall, hmatched⟩
    exact ⟨left, mem_skips.mpr ⟨skipped, hpath, hall⟩, hmatched⟩

theorem isSegmentUnit_utf16 {text : List Char} :
    (∀ unit ∈ utf16 text, isSegmentUnit unit = true) ↔ '/' ∉ text := by
  have hslash : '/'.toNat ∈ utf16 text ↔ '/' ∈ text := toNat_mem_utf16 (by decide)
  unfold isSegmentUnit
  constructor
  · intro hall hmem
    exact of_decide_eq_true (hall _ (hslash.mpr hmem)) rfl
  · intro hnone unit hunit
    refine decide_eq_true ?_
    rintro rfl
    exact hnone (hslash.mp hunit)

/-- The units that `.` does not match are those of the line terminators. -/
theorem isLineUnit_eq_false {unit : Nat} : isLineUnit unit = false ↔
    ∃ character, isLineTerminator character = true ∧ character.toNat < 0x10000 ∧
      unit = character.toNat := by
  unfold isLineUnit isLineTerminator
  constructor
  · intro hunit
    simp only [Bool.not_eq_false', Bool.or_eq_true, decide_eq_true_eq] at hunit
    rcases hunit with ((rfl | rfl) | rfl) | rfl
    · exact ⟨'\n', by decide, by decide, rfl⟩
    · exact ⟨'\r', by decide, by decide, rfl⟩
    · exact ⟨'\u2028', by decide, by decide, rfl⟩
    · exact ⟨'\u2029', by decide, by decide, rfl⟩
  · rintro ⟨character, hterminator, _, rfl⟩
    simp only [Bool.or_eq_true, decide_eq_true_eq] at hterminator
    rcases hterminator with ((rfl | rfl) | rfl) | rfl
    · decide
    · decide
    · decide
    · decide

theorem lineTerminator_small {character : Char} (h : isLineTerminator character = true) :
    character.toNat < 0x10000 := by
  unfold isLineTerminator at h
  simp only [Bool.or_eq_true, decide_eq_true_eq] at h
  rcases h with ((rfl | rfl) | rfl) | rfl
  · decide
  · decide
  · decide
  · decide

theorem isLineUnit_utf16 {text : List Char} :
    (∀ unit ∈ utf16 text, isLineUnit unit = true) ↔
      ∀ character ∈ text, isLineTerminator character = false := by
  constructor
  · intro hall character hmem
    by_contra hterminator
    have htrue : isLineTerminator character = true := by simpa using hterminator
    have hsmall := lineTerminator_small htrue
    have hunit := hall _ ((toNat_mem_utf16 hsmall).mpr hmem)
    rw [isLineUnit_eq_false.mpr ⟨character, htrue, hsmall, rfl⟩] at hunit
    cases hunit
  · intro hall unit hmem
    by_contra hunit
    have hfalse : isLineUnit unit = false := by simpa using hunit
    rcases isLineUnit_eq_false.mp hfalse with ⟨character, htrue, hsmall, rfl⟩
    rw [hall character ((toNat_mem_utf16 hsmall).mp hmem)] at htrue
    cases htrue

/-! ## From the meaning to the match -/

/-- A path that the glob has the terms to pass: `.` passes no line terminator, and `[^/]` one
unit. -/
structure Passable (terms : List GlobToken) (path : List Char) : Prop where
  lines : (∀ character ∈ path, isLineTerminator character = false) ∨
    (GlobToken.rest ∉ terms ∧ GlobToken.segments ∉ terms)
  units : (∀ character ∈ path, character.toNat < 0x10000) ∨ GlobToken.one ∉ terms

namespace Passable

variable {term : GlobToken} {terms : List GlobToken} {path rest : List Char}

theorem tail (h : Passable (term :: terms) path) (hrest : ∀ character ∈ rest, character ∈ path) :
    Passable terms rest := by
  constructor
  · rcases h.lines with hpath | ⟨hnoRest, hnoSegments⟩
    · exact Or.inl fun character hmem => hpath character (hrest character hmem)
    · exact Or.inr ⟨fun hmem => hnoRest (List.mem_cons_of_mem _ hmem),
        fun hmem => hnoSegments (List.mem_cons_of_mem _ hmem)⟩
  · rcases h.units with hpath | hnone
    · exact Or.inl fun character hmem => hpath character (hrest character hmem)
    · exact Or.inr fun hmem => hnone (List.mem_cons_of_mem _ hmem)

theorem noTerminator (h : Passable (term :: terms) path)
    (hterm : term = .rest ∨ term = .segments) :
    ∀ character ∈ path, isLineTerminator character = false := by
  rcases h.lines with hpath | ⟨hnoRest, hnoSegments⟩
  · exact hpath
  · rcases hterm with rfl | rfl
    · exact absurd List.mem_cons_self hnoRest
    · exact absurd List.mem_cons_self hnoSegments

theorem narrow (h : Passable (.one :: terms) path) :
    ∀ character ∈ path, character.toNat < 0x10000 := by
  rcases h.units with hpath | hnone
  · exact hpath
  · exact absurd List.mem_cons_self hnone

theorem behind (h : Passable (term :: terms) path) :
    (∀ character ∈ path, character.toNat < 0x10000) ∨ GlobToken.one ∉ terms := by
  rcases h.units with hpath | hnone
  · exact Or.inl hpath
  · exact Or.inr fun hmem => hnone (List.mem_cons_of_mem _ hmem)

end Passable

theorem utf16Units_of_small {character : Char} (h : character.toNat < 0x10000) :
    utf16Units character = [character.toNat] := if_pos h

/-- What the glob means is matched. -/
theorem matchTokens_of_globMatches {terms : List GlobToken} {path : List Char}
    (hpassable : Passable terms path) (h : GlobMatches terms path) :
    matchTokens terms (utf16 path) = true := by
  induction terms generalizing path with
  | nil =>
      rw [show path = [] from h]
      rfl
  | cons term terms ih =>
      cases term with
      | text character =>
          rcases h with ⟨rest, rfl, hrest⟩
          have hmatch := ih (hpassable.tail fun _ hmem => List.mem_cons_of_mem _ hmem) hrest
          have hbegins : (utf16Units character).isPrefixOf (utf16 (character :: rest)) = true :=
            List.isPrefixOf_iff_prefix.mpr ⟨utf16 rest, rfl⟩
          rw [matchTokens, hbegins, Bool.true_and, utf16_cons, List.drop_left]
          exact hmatch
      | one =>
          rcases h with ⟨character, rest, rfl, hslash, hrest⟩
          have hmatch := ih (hpassable.tail fun _ hmem => List.mem_cons_of_mem _ hmem) hrest
          have hunits := utf16Units_of_small (hpassable.narrow character List.mem_cons_self)
          have hsegment : isSegmentUnit character.toNat = true := by
            refine decide_eq_true ?_
            intro hsame
            exact hslash (Char.toNat_inj.mp hsame)
          rw [utf16_cons, hunits]
          exact Bool.and_eq_true_iff.mpr ⟨hsegment, hmatch⟩
      | star =>
          rcases h with ⟨text, rest, rfl, hslash, hrest⟩
          have hmatch := ih (hpassable.tail fun _ hmem => List.mem_append_right _ hmem) hrest
          exact any_skips.mpr
            ⟨utf16 text, utf16 rest, utf16_append text rest, isSegmentUnit_utf16.mpr hslash, hmatch⟩
      | rest =>
          rcases h with ⟨text, rest, rfl, hrest⟩
          have hmatch := ih (hpassable.tail fun _ hmem => List.mem_append_right _ hmem) hrest
          have hlines := hpassable.noTerminator (Or.inl rfl)
          refine any_skips.mpr ⟨utf16 text, utf16 rest, utf16_append text rest, ?_, hmatch⟩
          exact isLineUnit_utf16.mpr fun character hmem =>
            hlines character (List.mem_append_left _ hmem)
      | segments =>
          -- Either no segment is skipped or the skipped text ends before a slash.
          refine Bool.or_eq_true_iff.mpr ?_
          rcases h with hhere | ⟨text, rest, rfl, hrest⟩
          · exact Or.inl (ih (hpassable.tail fun _ hmem => hmem) hhere)
          · right
            have hmem : ∀ character ∈ rest, character ∈ text ++ '/' :: rest := by
              intro character hmem
              exact List.mem_append_right _ (List.mem_cons_of_mem _ hmem)
            have hmatch := ih (hpassable.tail hmem) hrest
            have hlines := hpassable.noTerminator (Or.inr rfl)
            refine any_skips.mpr
              ⟨utf16 text, '/'.toNat :: utf16 rest, utf16_append text ('/' :: rest), ?_, ?_⟩
            · exact isLineUnit_utf16.mpr fun character hmem =>
                hlines character (List.mem_append_left _ hmem)
            · exact Bool.and_eq_true_iff.mpr ⟨decide_eq_true rfl, hmatch⟩

/-! ## From the match to the meaning -/

/-- `[^/]` and `.` pass a high surrogate. -/
theorem isSegmentUnit_of_isHigh {unit : Nat} (h : IsHigh unit) : isSegmentUnit unit = true := by
  refine decide_eq_true ?_
  rintro rfl
  exact absurd h.1 (by decide)

theorem isLineUnit_of_isHigh {unit : Nat} (h : IsHigh unit) : isLineUnit unit = true := by
  by_contra hunit
  have hfalse : isLineUnit unit = false := by simpa using hunit
  rcases isLineUnit_eq_false.mp hfalse with ⟨character, _, hsmall, rfl⟩
  rcases utf16Units_cases character with ⟨_, _, hhigh, _⟩ | ⟨hlarge, _⟩
  · exact hhigh h
  · omega

/-- A wildcard that may skip a low surrogate may skip the whole character. -/
theorem any_skips_extend {allowed : Nat → Bool} {high low : Nat} {left : List Nat}
    {matched : List Nat → Bool} (hallowed : allowed high = true)
    (hmatched : matched (low :: left) = true → matched (high :: low :: left) = true)
    (h : (skips allowed (low :: left)).any matched = true) :
    (skips allowed (high :: low :: left)).any matched = true := by
  rcases any_skips.mp h with ⟨skipped, rest, hsplit, hall, hrest⟩
  cases skipped with
  | nil =>
      rw [List.nil_append] at hsplit
      rw [← hsplit] at hrest
      exact any_skips.mpr ⟨[], high :: low :: left, rfl, fun _ hmem => (nomatch hmem),
        hmatched hrest⟩
  | cons first skipped =>
      refine any_skips.mpr ⟨high :: first :: skipped, rest, congrArg (high :: ·) hsplit, ?_, hrest⟩
      intro unit hmem
      rcases List.mem_cons.mp hmem with rfl | hmem
      · exact hallowed
      · exact hall unit hmem

/-- Without `?`, a match that begins within a character is one that begins before it. -/
theorem matchTokens_extend {terms : List GlobToken} (hone : GlobToken.one ∉ terms)
    {high low : Nat} (hhigh : IsHigh high) (hlow : IsLow low) {left : List Nat}
    (h : matchTokens terms (low :: left) = true) :
    matchTokens terms (high :: low :: left) = true := by
  induction terms with
  | nil => cases h
  | cons term terms ih =>
      have hextend := ih fun hmem => hone (List.mem_cons_of_mem _ hmem)
      cases term with
      | text character =>
          -- The units of a character begin with no low surrogate.
          have hbegins := List.isPrefixOf_iff_prefix.mp (Bool.and_eq_true_iff.mp h).1
          rcases utf16Units_cases character with ⟨_, hunits, _, hnotLow⟩ |
            ⟨_, high', low', hunits, hhigh', _, _⟩
          · rw [hunits] at hbegins
            rw [(List.cons_prefix_cons.mp hbegins).1] at hnotLow
            exact absurd hlow hnotLow
          · rw [hunits] at hbegins
            rw [(List.cons_prefix_cons.mp hbegins).1] at hhigh'
            unfold IsHigh at hhigh'
            unfold IsLow at hlow
            omega
      | one => exact absurd List.mem_cons_self hone
      | star => exact any_skips_extend (isSegmentUnit_of_isHigh hhigh) hextend h
      | rest => exact any_skips_extend (isLineUnit_of_isHigh hhigh) hextend h
      | segments =>
          rcases Bool.or_eq_true_iff.mp h with hhere | hbelow
          · exact Bool.or_eq_true_iff.mpr (Or.inl (hextend hhere))
          · refine Bool.or_eq_true_iff.mpr (Or.inr ?_)
            refine any_skips_extend (isLineUnit_of_isHigh hhigh) ?_ hbelow
            intro hslash
            -- A low surrogate is no slash.
            rw [of_decide_eq_true (Bool.and_eq_true_iff.mp hslash).1] at hlow
            exact absurd hlow.1 (by decide)

/-- What is left of a path behind a wildcard is left of it behind some of its characters. -/
theorem exists_left {terms : List GlobToken} {path : List Char}
    (hnarrow : (∀ character ∈ path, character.toNat < 0x10000) ∨ GlobToken.one ∉ terms)
    {skipped left : List Nat} (hsplit : utf16 path = skipped ++ left)
    (hmatch : matchTokens terms left = true) :
    ∃ text rest, path = text ++ rest ∧ (∀ unit ∈ utf16 text, unit ∈ skipped) ∧
      matchTokens terms (utf16 rest) = true := by
  rcases split_utf16 hsplit with ⟨text, rest, hpath, rfl, rfl⟩ |
    ⟨text, character, rest, high, low, hpath, hunits, rfl, rfl⟩
  · exact ⟨text, rest, hpath, fun _ hmem => hmem, hmatch⟩
  · rcases surrogates_of_utf16Units hunits with ⟨hlarge, hhigh, hlow⟩
    have hone : GlobToken.one ∉ terms := by
      rcases hnarrow with hall | hnone
      · have hsmall := hall character (hpath ▸ List.mem_append_right _ List.mem_cons_self)
        omega
      · exact hnone
    refine ⟨text, character :: rest, hpath, ?_, ?_⟩
    · intro unit hmem
      exact List.mem_append_left _ hmem
    · rw [utf16_cons, hunits]
      exact matchTokens_extend hone hhigh hlow hmatch

/-- What is matched is what the glob means. -/
theorem globMatches_of_matchTokens {terms : List GlobToken} {path : List Char}
    (hpassable : Passable terms path) (h : matchTokens terms (utf16 path) = true) :
    GlobMatches terms path := by
  induction terms generalizing path with
  | nil =>
      cases path with
      | nil => rfl
      | cons character path =>
          have hnil : utf16 (character :: path) = [] := List.isEmpty_iff.mp h
          exact absurd (List.append_eq_nil_iff.mp hnil).1 (utf16Units_ne_nil character)
  | cons term terms ih =>
      cases term with
      | text character =>
          rcases Bool.and_eq_true_iff.mp h with ⟨hbegins, hmatch⟩
          rcases List.isPrefixOf_iff_prefix.mp hbegins with ⟨left, hleft⟩
          rcases begins_of_utf16 hleft.symm with ⟨rest, rfl, rfl⟩
          rw [utf16_cons, List.drop_left] at hmatch
          exact ⟨rest, rfl, ih (hpassable.tail fun _ hmem => List.mem_cons_of_mem _ hmem) hmatch⟩
      | one =>
          -- One unit is one character: no wide character may follow this token.
          cases path with
          | nil => cases h
          | cons character rest =>
              have hunits := utf16Units_of_small (hpassable.narrow character List.mem_cons_self)
              rw [utf16_cons, hunits] at h
              rcases Bool.and_eq_true_iff.mp h with ⟨hsegment, hmatch⟩
              refine ⟨character, rest, rfl, ?_, ?_⟩
              · rintro rfl
                exact absurd hsegment (by decide)
              · exact ih (hpassable.tail fun _ hmem => List.mem_cons_of_mem _ hmem) hmatch
      | star =>
          -- What is skipped ends at a character, not within one.
          rcases any_skips.mp h with ⟨skipped, left, hsplit, hall, hmatch⟩
          rcases exists_left hpassable.behind hsplit hmatch with ⟨text, rest, rfl, hskipped, hrest⟩
          refine ⟨text, rest, rfl, ?_, ?_⟩
          · exact isSegmentUnit_utf16.mp fun unit hmem => hall unit (hskipped unit hmem)
          · exact ih (hpassable.tail fun _ hmem => List.mem_append_right _ hmem) hrest
      | rest =>
          rcases any_skips.mp h with ⟨skipped, left, hsplit, _, hmatch⟩
          rcases exists_left hpassable.behind hsplit hmatch with ⟨text, rest, rfl, _, hrest⟩
          exact ⟨text, rest, rfl, ih (hpassable.tail fun _ hmem => List.mem_append_right _ hmem) hrest⟩
      | segments =>
          rcases Bool.or_eq_true_iff.mp h with hhere | hbelow
          · exact Or.inl (ih (hpassable.tail fun _ hmem => hmem) hhere)
          · right
            rcases any_skips.mp hbelow with ⟨skipped, left, hsplit, _, hmatch⟩
            cases left with
            | nil => cases hmatch
            | cons unit left =>
                rcases Bool.and_eq_true_iff.mp hmatch with ⟨hslash, hmatch⟩
                rcases of_decide_eq_true hslash with rfl
                rcases split_utf16 hsplit with ⟨text, behind, rfl, _, hbehind⟩ |
                  ⟨_, character, _, high, low, _, hunits, _, hlow⟩
                · rcases @begins_of_utf16 '/' _ _ hbehind.symm with ⟨rest, rfl, rfl⟩
                  refine ⟨text, rest, rfl, ih (hpassable.tail ?_) hmatch⟩
                  intro character hmem
                  exact List.mem_append_right _ (List.mem_cons_of_mem _ hmem)
                -- The slash would be the second half of a character.
                · rcases List.cons.inj hlow with ⟨rfl, _⟩
                  exact absurd (surrogates_of_utf16Units hunits).2.2.1 (by decide)

/-! ## Where the two differ -/

/-- The glob `**` passes no line terminator. -/
theorem not_testGlob_of_terminator {path : String} {character : Char}
    (hmem : character ∈ path.toList) (hterminator : isLineTerminator character = true) :
    testGlob "**" path = false ∧ Matches "**" path := by
  constructor
  · rw [testGlob_eq, ← Bool.not_eq_true]
    intro hmatch
    have hsame : matchTokens (globTokens "**".toList) (utf16 path.toList) =
        (skips isLineUnit (utf16 path.toList)).any (matchTokens []) := rfl
    rw [hsame] at hmatch
    rcases any_skips.mp hmatch with ⟨skipped, left, hsplit, hall, hleft⟩
    rw [List.isEmpty_iff.mp hleft, List.append_nil] at hsplit
    rw [← hsplit] at hall
    have hline := isLineUnit_utf16.mp hall character hmem
    rw [hline] at hterminator
    cases hterminator
  · exact ⟨path.toList, [], (List.append_nil _).symm, rfl⟩

/-- The glob that has a `?` for every character of the path but its slashes. -/
def shapeOf (path : List Char) : List Char :=
  path.map fun character => if character = '/' then '/' else '?'

theorem globTokens_shapeOf (path : List Char) : globTokens (shapeOf path) =
    path.map fun character => if character = '/' then .text '/' else .one := by
  induction path with
  | nil => rfl
  | cons character path ih =>
      unfold shapeOf at ih ⊢
      rw [List.map_cons, List.map_cons]
      split_ifs
      · have hslash : ∀ glob, globTokens ('/' :: glob) = .text '/' :: globTokens glob := fun _ => rfl
        rw [hslash, ih]
      · have hone : ∀ glob, globTokens ('?' :: glob) = .one :: globTokens glob := fun _ => rfl
        rw [hone, ih]

theorem globMatches_shapeOf (path : List Char) : GlobMatches (globTokens (shapeOf path)) path := by
  rw [globTokens_shapeOf]
  induction path with
  | nil => rfl
  | cons character path ih =>
      rw [List.map_cons]
      split_ifs with hslash
      · rw [hslash]
        exact ⟨path, rfl, ih⟩
      · exact ⟨character, path, rfl, hslash, ih⟩

/-- A match of the shape has one unit for each character. -/
theorem length_of_matchTokens_shapeOf {path : List Char} {units : List Nat}
    (h : matchTokens (globTokens (shapeOf path)) units = true) : units.length = path.length := by
  rw [globTokens_shapeOf] at h
  induction path generalizing units with
  | nil =>
      rw [List.isEmpty_iff.mp h]
      rfl
  | cons character path ih =>
      rw [List.map_cons] at h
      split_ifs at h
      · rcases Bool.and_eq_true_iff.mp h with ⟨hbegins, hmatch⟩
        rcases List.isPrefixOf_iff_prefix.mp hbegins with ⟨left, rfl⟩
        have hleft : left.length = path.length := ih hmatch
        have hslash : utf16Units '/' = ['/'.toNat] := rfl
        rw [hslash, List.singleton_append, List.length_cons, List.length_cons, hleft]
      · cases units with
        | nil => cases h
        | cons unit units =>
            rw [List.length_cons, List.length_cons, ih (Bool.and_eq_true_iff.mp h).2]

/-- The path has no line terminator, and no character of two code units. -/
def IsPlainPath (path : String) : Prop :=
  ∀ character ∈ path.toList, isLineTerminator character = false ∧ character.toNat < 0x10000

theorem testGlob_of_passable {glob path : String}
    (h : Passable (globTokens glob.toList) path.toList) :
    testGlob glob path = true ↔ Matches glob path := by
  rw [testGlob_eq]
  constructor
  · exact globMatches_of_matchTokens h
  · exact matchTokens_of_globMatches h

theorem IsPlainPath.passable {path : String} (h : IsPlainPath path) (terms : List GlobToken) :
    Passable terms path.toList where
  lines := Or.inl fun character hmem => (h character hmem).1
  units := Or.inl fun character hmem => (h character hmem).2

theorem isPlainPath_of_exact {path : String}
    (h : ∀ glob, testGlob glob path = true ↔ Matches glob path) : IsPlainPath path := by
  intro character hmem
  constructor
  · by_contra hterminator
    have htrue : isLineTerminator character = true := by simpa using hterminator
    rcases not_testGlob_of_terminator hmem htrue with ⟨hfails, hmatches⟩
    rw [(h "**").mpr hmatches] at hfails
    cases hfails
  · have hshape := (h (String.ofList (shapeOf path.toList))).mpr
    unfold Matches at hshape
    rw [testGlob_eq, String.toList_ofList] at hshape
    have hlength := length_of_matchTokens_shapeOf (hshape (globMatches_shapeOf path.toList))
    rw [length_utf16] at hlength
    exact small_of_utf16Length hlength character hmem

/-- A violation that is reported under a condition. -/
theorem exists_mem_guarded {condition : Prop} [Decidable condition] {violation : DiffViolation}
    {rule : DiffViolationRule} :
    (∃ found, found ∈ (if condition then [violation] else []) ∧ found.rule = rule) ↔
      condition ∧ violation.rule = rule := by
  split_ifs with hcondition
  · simp [hcondition]
  · simp [hcondition]

/-- The rules about protected and generated paths, on a plain path. -/
theorem IsPlainPath.violations {file : ChangedFile} (h : IsPlainPath file.path)
    (policy : DiffPolicy) (repository : String) :
    ((∃ violation ∈ fileViolations policy repository file, violation.rule = .forbiddenPath) ↔
        ∃ glob ∈ policy.forbiddenPaths, Matches glob file.path) ∧
      ((∃ violation ∈ fileViolations policy repository file, violation.rule = .generatedPath) ↔
        file.status ≠ "D" ∧ ∃ glob ∈ policy.generatedPaths, Matches glob file.path) := by
  have hglobs : ∀ globs, matchesAnyGlob file.path globs = true ↔
      ∃ glob ∈ globs, Matches glob file.path := by
    intro globs
    rw [matchesAnyGlob_iff]
    constructor
    · rintro ⟨glob, hmem, hmatch⟩
      exact ⟨glob, hmem, (testGlob_of_passable (h.passable _)).mp hmatch⟩
    · rintro ⟨glob, hmem, hmatch⟩
      exact ⟨glob, hmem, (testGlob_of_passable (h.passable _)).mpr hmatch⟩
  rw [← hglobs, ← hglobs]
  unfold fileViolations
  dsimp only
  simp only [List.mem_append, or_and_right, exists_or, exists_mem_guarded]
  constructor
  · simp
  · simp

/-- A path is matched against every glob as documented exactly if it is a plain one; on such a
path the path rules of the policy find what the globs mean. A glob without `**` and `?` is
right on every path. -/
theorem testGlob_documented (path : String) :
    ((∀ glob, testGlob glob path = true ↔ Matches glob path) ↔ IsPlainPath path) ∧
      (∀ glob : String, Passable (globTokens glob.toList) path.toList →
        (testGlob glob path = true ↔ Matches glob path)) ∧
      (IsPlainPath path → ∀ (policy : DiffPolicy) (repository : String) (file : ChangedFile),
        file.path = path →
        ((∃ violation ∈ fileViolations policy repository file,
            violation.rule = .forbiddenPath) ↔
          ∃ glob ∈ policy.forbiddenPaths, Matches glob path) ∧
        ((∃ violation ∈ fileViolations policy repository file,
            violation.rule = .generatedPath) ↔
          file.status ≠ "D" ∧ ∃ glob ∈ policy.generatedPaths, Matches glob path)) := by
  refine ⟨?_, ?_, ?_⟩
  · constructor
    · exact isPlainPath_of_exact
    · intro hplain glob
      exact testGlob_of_passable (hplain.passable _)
  · intro glob hpassable
    exact testGlob_of_passable hpassable
  · intro hplain policy repository file hpath
    rw [← hpath] at hplain ⊢
    exact hplain.violations policy repository

theorem testGlob_evaded : matchesAnyGlob "a\nb/.env" ["**/.env"] = false ∧
    Matches "**/.env" "a\nb/.env" := by
  constructor
  · decide +kernel
  · right
    exact ⟨"a\nb".toList, ".env".toList, rfl, _, rfl, _, rfl, _, rfl, _, rfl, rfl⟩

end Orchestrator
