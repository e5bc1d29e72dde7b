import Mathlib.Data.List.TakeWhile
import Orchestrator.Execution.AgentResults

/-! # Repository paths

What `isSafeRepositoryPath` accepts, in terms of segments, and that an accepted path stays
below the repository, whatever its root is (`execution/agent-results.ts`).
-/

namespace Orchestrator

open Kit Kit.PosixPath

/-- A nonempty list of names between slashes, without steps back and without characters that
other systems read as separators. -/
def IsConfined (path : List Char) : Prop :=
  '\\' ∉ path ∧ '\x00' ∉ path ∧ isAbsolute path = false ∧
    ∃ names, names ≠ [] ∧ path = ['/'].intercalate names ∧
      ∀ segment ∈ names, '/' ∉ segment ∧ segment ≠ [] ∧ segment ≠ ['.'] ∧ segment ≠ ['.', '.']

theorem getLast?_withoutTrailingSlashes (path : List Char) :
    (withoutTrailingSlashes path).getLast? ≠ some '/' := by
  unfold withoutTrailingSlashes
  rw [List.getLast?_reverse]
  intro hlast
  have hkept := List.head?_dropWhile_not (· = '/') path.reverse
  rw [hlast] at hkept
  simp at hkept

/-- What is removed is slashes. -/
theorem exists_append_withoutTrailingSlashes (path : List Char) :
    ∃ count, path = withoutTrailingSlashes path ++ List.replicate count '/' := by
  refine ⟨(path.reverse.takeWhile (· = '/')).length, ?_⟩
  have hslashes : path.reverse.takeWhile (· = '/') =
      List.replicate (path.reverse.takeWhile (· = '/')).length '/' := by
    rw [List.eq_replicate_iff]
    refine ⟨rfl, ?_⟩
    intro character hmem
    simpa using List.mem_takeWhile_imp hmem
  have hparts := List.takeWhile_append_dropWhile (p := (· = '/')) (l := path.reverse)
  have hback := congrArg List.reverse hparts
  rw [List.reverse_append, List.reverse_reverse] at hback
  unfold withoutTrailingSlashes
  rw [← List.reverse_replicate, ← hslashes]
  exact hback.symm

theorem splitOn_append_slashes (path : List Char) (count : Nat) :
    (path ++ List.replicate count '/').splitOn '/' =
      path.splitOn '/' ++ List.replicate count [] := by
  induction count with
  | zero => simp
  | succ count ih =>
      rw [List.replicate_succ', ← List.append_assoc, List.splitOn_append_cons_self, ih,
        List.splitOn_nil, List.append_assoc, ← List.replicate_succ']

/-- The segments of a confined path. -/
theorem isConfined_iff {path : List Char} :
    IsConfined path ↔ '\\' ∉ path ∧ '\x00' ∉ path ∧ isAbsolute path = false ∧
      ∀ segment ∈ path.splitOn '/', IsPlain segment := by
  constructor
  · intro h
    rcases h with ⟨hbackslash, hnul, hrelative, names, hne, hpath, hnames⟩
    have hsplit : path.splitOn '/' = names := by
      rw [hpath]
      exact List.splitOn_intercalate '/' (fun segment hmem => (hnames segment hmem).1) hne
    refine ⟨hbackslash, hnul, hrelative, ?_⟩
    rw [hsplit]
    exact fun segment hmem => (hnames segment hmem).2
  · intro h
    rcases h with ⟨hbackslash, hnul, hrelative, hplain⟩
    refine ⟨hbackslash, hnul, hrelative, path.splitOn '/', List.splitOn_ne_nil _ _,
      (List.intercalate_splitOn '/').symm, ?_⟩
    intro segment hmem
    exact ⟨not_mem_of_mem_splitOn hmem, hplain segment hmem⟩

theorem isSafeRepositoryPath_iff {path : String} :
    isSafeRepositoryPath path = true ↔ IsConfined (withoutTrailingSlashes path.toList) := by
  rw [isConfined_iff]
  have hlast := getLast?_withoutTrailingSlashes path.toList
  unfold isSafeRepositoryPath
  generalize withoutTrailingSlashes path.toList = trimmed at hlast ⊢
  constructor
  · intro h
    simp only [Bool.if_false_left, Bool.and_eq_true, Bool.not_eq_true', decide_eq_true_eq,
      List.contains_eq_mem, ← Bool.not_eq_true, Bool.or_eq_true, not_or] at h
    rcases h with ⟨⟨⟨⟨_, hbackslash⟩, hnul⟩, hrelative⟩, ⟨⟨hnormal, hdot⟩, hback⟩, hstart⟩
    rw [hnormal] at hdot hback hstart
    have hinside : ¬ ['.', '.', '/'] <+: trimmed :=
      fun hbegins => hstart (List.isPrefixOf_iff_prefix.mpr hbegins)
    have hrelative : isAbsolute trimmed = false := by simpa using hrelative
    exact ⟨hbackslash, hnul, hrelative,
      plain_of_normalize hrelative hlast hnormal hdot hback hinside⟩
  · intro h
    rcases h with ⟨hbackslash, hnul, hrelative, hplain⟩
    have hnormal := normalize_of_plain hplain
    have hne : trimmed ≠ [] := by
      intro hempty
      rw [hempty, List.splitOn_nil] at hplain
      exact (hplain [] List.mem_cons_self).1 rfl
    have hdot : trimmed ≠ ['.'] := by
      intro heq
      rw [heq] at hplain
      exact (hplain ['.'] (by decide)).2.1 rfl
    have hback : trimmed ≠ ['.', '.'] := by
      intro heq
      rw [heq] at hplain
      exact (hplain ['.', '.'] (by decide)).2.2 rfl
    -- A path that starts with a step back has a step back among its segments.
    have hinside : ¬ ['.', '.', '/'] <+: trimmed := by
      intro hstart
      rcases hstart with ⟨rest, rfl⟩
      have hsplit := List.splitOn_append_cons_self (a := '/') ['.', '.'] rest
      have hmem : ['.', '.'] ∈ (['.', '.', '/'] ++ rest).splitOn '/' := by
        have hparts : (['.', '.', '/'] ++ rest).splitOn '/' =
            ['.', '.'].splitOn '/' ++ rest.splitOn '/' := hsplit
        rw [hparts]
        exact List.mem_append_left _ (by decide)
      exact (hplain _ hmem).2.2 rfl
    have hstart : ['.', '.', '/'].isPrefixOf trimmed = false := by
      rw [← Bool.not_eq_true, List.isPrefixOf_iff_prefix]
      exact hinside
    simp [hne, hbackslash, hnul, hrelative, hnormal, hdot, hback, hstart]

theorem inside_of_isSafeRepositoryPath {path : String} (h : isSafeRepositoryPath path = true)
    (root : String) : Inside root.toList (join [root.toList, path.toList]) := by
  rcases isConfined_iff.mp (isSafeRepositoryPath_iff.mp h) with ⟨_, _, hrelative, hplain⟩
  rcases exists_append_withoutTrailingSlashes path.toList with ⟨count, hpath⟩
  have hne : withoutTrailingSlashes path.toList ≠ [] := by
    intro hempty
    rw [hempty, List.splitOn_nil] at hplain
    exact (hplain [] List.mem_cons_self).1 rfl
  apply inside_join
  · rw [hpath, isAbsolute_append hne]
    exact hrelative
  · rw [hpath, splitOn_append_slashes]
    intro segment hmem
    rcases List.mem_append.mp hmem with hpart | hempty
    · exact Or.inr (hplain segment hpart)
    · exact Or.inl (List.eq_of_mem_replicate hempty)

/-- The path check accepts exactly the confined paths, and no root is left by one. -/
theorem isSafeRepositoryPath_confined (path : String) :
    (isSafeRepositoryPath path = true ↔ IsConfined (withoutTrailingSlashes path.toList)) ∧
      ∀ root : String, isSafeRepositoryPath path = true →
        Inside root.toList (join [root.toList, path.toList]) :=
  ⟨isSafeRepositoryPath_iff, fun root h => inside_of_isSafeRepositoryPath h root⟩

theorem isSafeRepositoryPath_confined_sample :
    Inside "/srv/../clones/web/".toList (join ["/srv/../clones/web/".toList, "src/app.ts/".toList]) :=
  (isSafeRepositoryPath_confined "src/app.ts/").2 "/srv/../clones/web/" (by decide +kernel)

/-- A plan without problems names confined paths only. -/
theorem isConfined_of_analysisProblems {result : AnalysisResult} {declared : List RepositoryName}
    (h : analysisProblems result declared = []) {entry : PlannedRepository}
    (hentry : entry ∈ result.repositories) {path : String} (hpath : path ∈ entry.changes) :
    IsConfined (withoutTrailingSlashes path.toList) := by
  unfold analysisProblems at h
  simp only [List.append_eq_nil_iff, List.flatMap_eq_nil_iff, List.map_eq_nil_iff,
    List.filter_eq_nil_iff] at h
  have hsafe := h.2 entry hentry path hpath
  exact isSafeRepositoryPath_iff.mp (by simpa using hsafe)

/-- So does a review without problems. -/
theorem isConfined_of_reviewProblems {result : ReviewResult} {declared : List RepositoryName}
    (h : reviewProblems result declared = []) {finding : ReviewFinding}
    (hfinding : finding ∈ result.findings) :
    IsConfined (withoutTrailingSlashes finding.path.toList) := by
  unfold reviewProblems at h
  have hnone := List.append_eq_nil_iff.mp (List.flatMap_eq_nil_iff.mp h finding hfinding)
  by_cases hsafe : isSafeRepositoryPath finding.path = true
  · exact isSafeRepositoryPath_iff.mp hsafe
  · rw [if_neg hsafe] at hnone
    exact absurd hnone.2 (List.cons_ne_nil _ _)

end Orchestrator
