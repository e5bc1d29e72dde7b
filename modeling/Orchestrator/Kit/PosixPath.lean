import Orchestrator.Kit.Occurrences

/-! # POSIX paths

Texts as paths: their segments, what `.`, `..` and empty segments do to them, and the normal
form of a path. A path without such segments is its own normal form, and behind any root it
stays below that root.
-/

namespace Kit

namespace PosixPath

abbrev Segment := List Char

/-- A segment that names an entry of a directory. -/
def IsPlain (segment : Segment) : Prop :=
  segment ≠ [] ∧ segment ≠ ['.'] ∧ segment ≠ ['.', '.']

def isAbsolute (path : List Char) : Bool := path.head? = some '/'

/-- One more segment on top of the ones so far, the last of which comes first. -/
def push (absolute : Bool) (stack : List Segment) (segment : Segment) : List Segment :=
  if segment = [] ∨ segment = ['.'] then stack
  else if segment = ['.', '.'] then
    match stack with
    | [] => if absolute then [] else [segment]
    | top :: rest => if top = ['.', '.'] then segment :: top :: rest else rest
  else segment :: stack

/-- The segments that are left when `.`, `..` and empty segments are resolved. -/
def segments (path : List Char) : List Segment :=
  ((path.splitOn '/').foldl (push (isAbsolute path)) []).reverse

/-- `posix.normalize(path)`. -/
def normalize (path : List Char) : List Char :=
  if path = [] then ['.']
  else
    let resolved := ['/'].intercalate (segments path)
    let trailing := if path.getLast? = some '/' then ['/'] else []
    if resolved = [] then
      if isAbsolute path then ['/'] else '.' :: trailing
    else (if isAbsolute path then ['/'] else []) ++ resolved ++ trailing

/-- `posix.join(...parts)`. -/
def join (parts : List (List Char)) : List Char :=
  normalize (['/'].intercalate (parts.filter (· ≠ [])))

/-- `path` is `root` or lies below it. -/
def Inside (root path : List Char) : Prop :=
  isAbsolute path = isAbsolute root ∧
    ∃ below, segments path = segments root ++ below ∧ ∀ segment ∈ below, IsPlain segment

/-! ## Resolving segments -/

theorem push_plain {segment : Segment} (h : IsPlain segment) (absolute : Bool)
    (stack : List Segment) : push absolute stack segment = segment :: stack := by
  unfold push
  have hkept : ¬ (segment = [] ∨ segment = ['.']) := by
    intro hskip
    rcases hskip with hempty | hdot
    · exact h.1 hempty
    · exact h.2.1 hdot
  rw [if_neg hkept, if_neg h.2.2]

/-- Segments that are plain or empty are kept but for the empty ones. -/
theorem foldl_push {names : List Segment} (h : ∀ segment ∈ names, segment = [] ∨ IsPlain segment)
    (absolute : Bool) (stack : List Segment) :
    names.foldl (push absolute) stack = (names.filter (· ≠ [])).reverse ++ stack := by
  induction names generalizing stack with
  | nil => simp
  | cons segment names ih =>
      have hrest : ∀ other ∈ names, other = [] ∨ IsPlain other :=
        fun other hmem => h other (List.mem_cons_of_mem _ hmem)
      rcases h segment List.mem_cons_self with hempty | hplain
      · subst hempty
        have hsame : push absolute stack [] = stack := by simp [push]
        rw [List.foldl_cons, hsame, ih hrest]
        simp
      · have hne : segment ≠ [] := hplain.1
        rw [List.foldl_cons, push_plain hplain, ih hrest]
        simp [hne]

/-- What is on the stack: steps back first, and none of them under a root. -/
def Resolved (absolute : Bool) (stack : List Segment) : Prop :=
  ∃ names steps, stack = names ++ List.replicate steps ['.', '.'] ∧
    (∀ segment ∈ names, IsPlain segment ∧ '/' ∉ segment) ∧ (absolute = true → steps = 0)

theorem resolved_push {absolute : Bool} {stack : List Segment} (h : Resolved absolute stack)
    {segment : Segment} (hslash : '/' ∉ segment) : Resolved absolute (push absolute stack segment) := by
  rcases h with ⟨names, steps, rfl, hnames, hsteps⟩
  unfold push
  by_cases hskip : segment = [] ∨ segment = ['.']
  · rw [if_pos hskip]
    exact ⟨names, steps, rfl, hnames, hsteps⟩
  · rw [if_neg hskip]
    by_cases hback : segment = ['.', '.']
    · rw [if_pos hback]
      -- A step back drops the last name, or adds a step behind no name.
      cases names with
      | nil =>
          cases steps with
          | zero =>
              cases absolute with
              | true => exact ⟨[], 0, rfl, hnames, fun _ => rfl⟩
              | false => exact ⟨[], 1, by simp [hback], hnames, by simp⟩
          | succ steps =>
              have hroot : absolute = false := by
                cases absolute with
                | true => exact absurd (hsteps rfl) (Nat.succ_ne_zero steps)
                | false => rfl
              refine ⟨[], steps + 2, ?_, hnames, by simp [hroot]⟩
              simp [List.replicate_succ, hback]
      | cons top names =>
          have htop : top ≠ ['.', '.'] := (hnames top List.mem_cons_self).1.2.2
          have hrest : ∀ other ∈ names, IsPlain other ∧ '/' ∉ other :=
            fun other hmem => hnames other (List.mem_cons_of_mem _ hmem)
          refine ⟨names, steps, ?_, hrest, hsteps⟩
          simp [htop]
    · rw [if_neg hback]
      have hplain : IsPlain segment :=
        ⟨fun hempty => hskip (Or.inl hempty), fun hdot => hskip (Or.inr hdot), hback⟩
      refine ⟨segment :: names, steps, rfl, ?_, hsteps⟩
      intro other hmem
      rcases List.mem_cons.mp hmem with rfl | hmem
      · exact ⟨hplain, hslash⟩
      · exact hnames other hmem

theorem resolved_foldl {absolute : Bool} {names : List Segment}
    (h : ∀ segment ∈ names, '/' ∉ segment) {stack : List Segment} (hstack : Resolved absolute stack) :
    Resolved absolute (names.foldl (push absolute) stack) := by
  induction names generalizing stack with
  | nil => exact hstack
  | cons segment names ih =>
      have hfirst : Resolved absolute (push absolute stack segment) :=
        resolved_push hstack (h segment List.mem_cons_self)
      exact ih (fun other hmem => h other (List.mem_cons_of_mem _ hmem)) hfirst

theorem resolved_segments (path : List Char) :
    ∃ steps names, segments path = List.replicate steps ['.', '.'] ++ names ∧
      (∀ segment ∈ names, IsPlain segment ∧ '/' ∉ segment) ∧
      (isAbsolute path = true → steps = 0) := by
  have hempty : Resolved (isAbsolute path) [] := ⟨[], 0, rfl, by simp, fun _ => rfl⟩
  have hparts : ∀ segment ∈ path.splitOn '/', '/' ∉ segment :=
    fun segment hmem => not_mem_of_mem_splitOn hmem
  rcases resolved_foldl hparts hempty with ⟨names, steps, hstack, hnames, hsteps⟩
  refine ⟨steps, names.reverse, ?_, ?_, hsteps⟩
  · unfold segments
    rw [hstack, List.reverse_append, List.reverse_replicate]
  · intro segment hmem
    exact hnames segment (List.mem_reverse.mp hmem)

/-- No segment that is left is empty or has a separator. -/
theorem ne_nil_of_mem_segments {path : List Char} {segment : Segment}
    (h : segment ∈ segments path) : segment ≠ [] ∧ '/' ∉ segment := by
  rcases resolved_segments path with ⟨steps, names, hsegments, hnames, _⟩
  rw [hsegments] at h
  rcases List.mem_append.mp h with hback | hname
  · rw [List.eq_of_mem_replicate hback]
    decide
  · exact ⟨(hnames segment hname).1.1, (hnames segment hname).2⟩

/-- Segments that are resolved stay as they are. -/
theorem foldl_push_resolved {absolute : Bool} {steps : Nat} {names : List Segment}
    (hnames : ∀ segment ∈ names, IsPlain segment) (hsteps : absolute = true → steps = 0) :
    (List.replicate steps ['.', '.'] ++ names).foldl (push absolute) [] =
      (List.replicate steps ['.', '.'] ++ names).reverse := by
  have hback : (List.replicate steps ['.', '.']).foldl (push absolute) [] =
      List.replicate steps ['.', '.'] := by
    cases absolute with
    | true => rw [hsteps rfl]; rfl
    | false =>
        clear hsteps
        induction steps with
        | zero => rfl
        | succ steps ih =>
            rw [List.replicate_succ', List.foldl_append, ih, ← List.replicate_succ']
            cases steps with
            | zero => rfl
            | succ steps => simp [push, List.replicate_succ]
  have hall : ∀ segment ∈ names, segment = [] ∨ IsPlain segment :=
    fun segment hmem => Or.inr (hnames segment hmem)
  have hkept : names.filter (· ≠ []) = names := by
    rw [List.filter_eq_self]
    intro segment hmem
    exact decide_eq_true (hnames segment hmem).1
  rw [List.foldl_append, hback, foldl_push hall, hkept, List.reverse_append,
    List.reverse_replicate]

/-! ## Normal forms -/

theorem nil_mem_splitOn_of_isAbsolute {path : List Char} (h : isAbsolute path = true) :
    [] ∈ path.splitOn '/' := by
  rcases path with _ | ⟨first, rest⟩
  · simp [isAbsolute] at h
  · have hfirst : first = '/' := by simpa [isAbsolute] using h
    have hsplit := List.splitOn_append_cons_self (a := '/') [] rest
    rw [List.nil_append] at hsplit
    rw [hfirst, hsplit]
    simp

theorem nil_mem_splitOn_of_getLast? {path : List Char} (h : path.getLast? = some '/') :
    [] ∈ path.splitOn '/' := by
  rcases List.getLast?_eq_some_iff.mp h with ⟨before, rfl⟩
  rw [List.splitOn_append_cons_self before []]
  simp

/-- The segments of a path of plain names. -/
theorem segments_of_plain {path : List Char}
    (h : ∀ segment ∈ path.splitOn '/', segment = [] ∨ IsPlain segment) :
    segments path = (path.splitOn '/').filter (· ≠ []) := by
  unfold segments
  rw [foldl_push h, List.append_nil, List.reverse_reverse]

theorem normalize_of_plain {path : List Char}
    (h : ∀ segment ∈ path.splitOn '/', IsPlain segment) : normalize path = path := by
  have hne : path ≠ [] := by
    intro hempty
    rw [hempty, List.splitOn_nil] at h
    exact (h [] List.mem_cons_self).1 rfl
  have hrelative : isAbsolute path = false := by
    cases habsolute : isAbsolute path with
    | false => rfl
    | true => exact absurd rfl (h [] (nil_mem_splitOn_of_isAbsolute habsolute)).1
  have hlast : path.getLast? ≠ some '/' :=
    fun hslash => (h [] (nil_mem_splitOn_of_getLast? hslash)).1 rfl
  have hkept : (path.splitOn '/').filter (· ≠ []) = path.splitOn '/' := by
    rw [List.filter_eq_self]
    intro segment hmem
    exact decide_eq_true (h segment hmem).1
  have hresolved : ['/'].intercalate (segments path) = path := by
    rw [segments_of_plain (fun segment hmem => Or.inr (h segment hmem)), hkept,
      List.intercalate_splitOn]
  simp [normalize, hne, hresolved, hrelative, hlast]

/-- A relative path in normal form that does not step back has plain segments only. -/
theorem plain_of_normalize {path : List Char} (hrelative : isAbsolute path = false)
    (hlast : path.getLast? ≠ some '/') (hnormal : normalize path = path) (hdot : path ≠ ['.'])
    (hback : path ≠ ['.', '.']) (hinside : ¬ ['.', '.', '/'] <+: path) :
    ∀ segment ∈ path.splitOn '/', IsPlain segment := by
  rcases resolved_segments path with ⟨steps, names, hsegments, hnames, _⟩
  have hne : path ≠ [] := by
    intro hempty
    rw [hempty] at hnormal
    simp [normalize] at hnormal
  -- The path is its resolved segments joined.
  have hresolved : segments path ≠ [] ∧ ['/'].intercalate (segments path) = path := by
    by_cases hnil : ['/'].intercalate (segments path) = []
    · have hsame : ['.'] = path := by
        simpa [normalize, hne, hnil, hrelative, hlast] using hnormal
      exact absurd hsame.symm hdot
    · have hsame : ['/'].intercalate (segments path) = path := by
        simpa [normalize, hne, hnil, hrelative, hlast] using hnormal
      refine ⟨?_, hsame⟩
      intro hempty
      rw [hempty] at hnil
      exact hnil rfl
  have hsplit : path.splitOn '/' = segments path := by
    have hslash : ∀ segment ∈ segments path, '/' ∉ segment :=
      fun segment hmem => (ne_nil_of_mem_segments hmem).2
    calc path.splitOn '/'
        = (['/'].intercalate (segments path)).splitOn '/' := by rw [hresolved.2]
      _ = segments path := List.splitOn_intercalate '/' hslash hresolved.1
  rw [hsplit, hsegments]
  -- A step back at the start would show in the text.
  cases steps with
  | zero =>
      intro segment hmem
      exact (hnames segment (by simpa using hmem)).1
  | succ steps =>
      exfalso
      have hpath : ['/'].intercalate (['.', '.'] :: (List.replicate steps ['.', '.'] ++ names)) =
          path := by
        rw [← hresolved.2, hsegments, List.replicate_succ, List.cons_append]
      cases hrest : List.replicate steps ['.', '.'] ++ names with
      | nil =>
          rw [hrest] at hpath
          exact hback hpath.symm
      | cons next more =>
          rw [hrest] at hpath
          have hstart : ['.', '.', '/'] <+: path := by
            rw [← hpath, List.intercalate_cons_cons]
            exact ⟨['/'].intercalate (next :: more), by simp⟩
          exact hinside hstart

/-! ## The normal form resolves to the same path -/

theorem isAbsolute_append {before after : List Char} (h : before ≠ []) :
    isAbsolute (before ++ after) = isAbsolute before := by
  cases before with
  | nil => exact absurd rfl h
  | cons first before => rfl

theorem splitOn_slash (after : List Char) : ('/' :: after).splitOn '/' = [] :: after.splitOn '/' := by
  have hsplit := List.splitOn_append_cons_self (a := '/') [] after
  rwa [List.nil_append, List.splitOn_nil, List.singleton_append] at hsplit

/-- Empty segments, such as in front of the first and behind the last separator, do not count. -/
theorem foldl_push_append_nil (absolute : Bool) (names : List Segment) (stack : List Segment) :
    (names ++ [[]]).foldl (push absolute) stack = names.foldl (push absolute) stack := by
  rw [List.foldl_append, List.foldl_cons, List.foldl_nil]
  simp [push]

theorem segments_append_slash {path : List Char} (hne : path ≠ []) :
    segments (path ++ ['/']) = segments path := by
  have hsplit : (path ++ ['/']).splitOn '/' = path.splitOn '/' ++ [[]] := by
    rw [List.splitOn_append_cons_self path [], List.splitOn_nil]
  unfold segments
  rw [hsplit, foldl_push_append_nil, isAbsolute_append hne]

/-- Resolving the segments that are read from a path. -/
theorem segments_eq {path : List Char} {names : List Segment} {absolute : Bool}
    (hsplit : path.splitOn '/' = names) (habsolute : isAbsolute path = absolute) :
    segments path = (names.foldl (push absolute) []).reverse := by
  unfold segments
  rw [hsplit, habsolute]

theorem isAbsolute_intercalate {segment : Segment} (hne : segment ≠ []) (hslash : '/' ∉ segment)
    (more : List Segment) : isAbsolute (['/'].intercalate (segment :: more)) = false := by
  have hfirst : isAbsolute segment = false := by
    cases habsolute : isAbsolute segment with
    | false => rfl
    | true => exact absurd (List.mem_of_head? (by simpa [isAbsolute] using habsolute)) hslash
  cases more with
  | nil => simpa using hfirst
  | cons next more => rw [List.intercalate_cons_cons, List.append_assoc, isAbsolute_append hne, hfirst]

/-- Resolved segments, put together again. -/
theorem segments_intercalate {absolute : Bool} {names : List Segment} (hne : names ≠ [])
    (hnames : ∀ segment ∈ names, segment ≠ [] ∧ '/' ∉ segment)
    (hstack : names.foldl (push absolute) [] = names.reverse) :
    isAbsolute ((if absolute then ['/'] else []) ++ ['/'].intercalate names) = absolute ∧
      segments ((if absolute then ['/'] else []) ++ ['/'].intercalate names) = names := by
  have hsplit : (['/'].intercalate names).splitOn '/' = names :=
    List.splitOn_intercalate '/' (fun segment hmem => (hnames segment hmem).2) hne
  cases absolute with
  | true =>
      have habsolute : isAbsolute ('/' :: ['/'].intercalate names) = true := by simp [isAbsolute]
      have hparts : ('/' :: ['/'].intercalate names).splitOn '/' = [] :: names := by
        rw [splitOn_slash, hsplit]
      refine ⟨habsolute, ?_⟩
      calc segments ('/' :: ['/'].intercalate names)
          = (([] :: names).foldl (push true) []).reverse := segments_eq hparts habsolute
        _ = (names.foldl (push true) []).reverse := rfl
        _ = names := by rw [hstack, List.reverse_reverse]
  | false =>
      have habsolute : isAbsolute (['/'].intercalate names) = false := by
        rcases List.exists_cons_of_ne_nil hne with ⟨segment, more, rfl⟩
        have hfirst := hnames segment List.mem_cons_self
        exact isAbsolute_intercalate hfirst.1 hfirst.2 more
      refine ⟨habsolute, ?_⟩
      calc segments (['/'].intercalate names)
          = (names.foldl (push false) []).reverse := segments_eq hsplit habsolute
        _ = names := by rw [hstack, List.reverse_reverse]

/-- The normal form of a path stands for the same place. -/
theorem segments_normalize (path : List Char) :
    isAbsolute (normalize path) = isAbsolute path ∧ segments (normalize path) = segments path := by
  by_cases hpath : path = []
  · subst hpath
    exact ⟨rfl, rfl⟩
  rcases resolved_segments path with ⟨steps, names, hsegments, hnames, hsteps⟩
  -- Resolving what is resolved changes nothing.
  have hstack : (segments path).foldl (push (isAbsolute path)) [] = (segments path).reverse := by
    rw [hsegments]
    exact foldl_push_resolved (fun segment hmem => (hnames segment hmem).1) hsteps
  have hfull : ∀ segment ∈ segments path, segment ≠ [] ∧ '/' ∉ segment :=
    fun segment hmem => ne_nil_of_mem_segments hmem
  by_cases hnone : segments path = []
  · unfold normalize
    rw [if_neg hpath]
    simp only [hnone]
    cases isAbsolute path with
    | true => exact ⟨rfl, rfl⟩
    | false =>
        by_cases hlast : path.getLast? = some '/'
        · simp only [hlast, if_true]
          exact ⟨rfl, rfl⟩
        · simp only [hlast, if_false]
          exact ⟨rfl, rfl⟩
  · have hresolved : ['/'].intercalate (segments path) ≠ [] := by
      intro hempty
      have hsplit := List.splitOn_intercalate '/' (fun segment hmem => (hfull segment hmem).2) hnone
      rw [hempty, List.splitOn_nil] at hsplit
      exact (hfull [] (hsplit ▸ List.mem_cons_self)).1 rfl
    have hsame := segments_intercalate hnone hfull hstack
    have hform : normalize path =
        ((if isAbsolute path then ['/'] else []) ++ ['/'].intercalate (segments path)) ++
          (if path.getLast? = some '/' then ['/'] else []) := by
      simp [normalize, hpath, hresolved]
    have hlead : (if isAbsolute path then ['/'] else []) ++ ['/'].intercalate (segments path) ≠ [] :=
      fun hempty => hresolved (List.append_eq_nil_iff.mp hempty).2
    rw [hform]
    by_cases hlast : path.getLast? = some '/'
    · rw [if_pos hlast, isAbsolute_append hlead, segments_append_slash hlead]
      exact hsame
    · rw [if_neg hlast, List.append_nil]
      exact hsame

/-! ## Behind a root -/

/-- A path of plain names, behind any root, is the root or lies below it. -/
theorem inside_join {path : List Char} (root : List Char)
    (hrelative : isAbsolute path = false)
    (hplain : ∀ segment ∈ path.splitOn '/', segment = [] ∨ IsPlain segment) :
    Inside root (join [root, path]) := by
  have hbelow : ∀ segment ∈ (path.splitOn '/').filter (· ≠ []), IsPlain segment := by
    intro segment hmem
    rcases List.mem_filter.mp hmem with ⟨hpart, hne⟩
    rcases hplain segment hpart with hempty | hsegment
    · exact absurd hempty (of_decide_eq_true hne)
    · exact hsegment
  unfold Inside join
  rw [(segments_normalize _).1, (segments_normalize _).2]
  -- An empty part leaves no separator behind.
  by_cases hroot : root = []
  · subst hroot
    have hjoined : ['/'].intercalate ([[], path].filter (· ≠ [])) = path := by
      by_cases hpath : path = []
      · simp [hpath]
      · simp [hpath]
    rw [hjoined]
    refine ⟨hrelative, (path.splitOn '/').filter (· ≠ []), ?_, hbelow⟩
    rw [segments_of_plain hplain]
    rfl
  · by_cases hpath : path = []
    · have hjoined : ['/'].intercalate ([root, path].filter (· ≠ [])) = root := by
        simp [hroot, hpath]
      rw [hjoined]
      exact ⟨rfl, [], by simp, by simp⟩
    · have hjoined : ['/'].intercalate ([root, path].filter (· ≠ [])) = root ++ '/' :: path := by
        simp [hroot, hpath, List.intercalate_cons_cons]
      have habsolute : isAbsolute (root ++ '/' :: path) = isAbsolute root := isAbsolute_append hroot
      have hsplit : (root ++ '/' :: path).splitOn '/' = root.splitOn '/' ++ path.splitOn '/' :=
        List.splitOn_append_cons_self root path
      rw [hjoined]
      refine ⟨habsolute, (path.splitOn '/').filter (· ≠ []), ?_, hbelow⟩
      rw [segments_eq hsplit habsolute, List.foldl_append, foldl_push hplain, List.reverse_append,
        List.reverse_reverse]
      rfl

end PosixPath

end Kit
