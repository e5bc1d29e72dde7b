import Orchestrator.Execution.StagedChanges
import Orchestrator.Kit.Occurrences
import Mathlib.Data.List.DropRight
import Mathlib.Tactic.IntervalCases

/-! # The log of a range of commits

The commits of a range, as they are in the repository, and what `git log` writes about them in
the format of `commitsInRange` (`execution/workspace-changes.ts`). A name, an address or a trailer
is any text that a commit can have, also one with the characters that end a record or a value. The
two halves meet at the records: each one is read as if it stood alone, and of a record that is
read as the orchestrator's the commit is the orchestrator's.
-/

namespace Orchestrator

open Kit

/-! ## The output -/

/-- The name of an object: no white space, and none of the characters of the format. -/
structure ObjectName (name : String) : Prop where
  nonempty : name ≠ ""
  notBlank : ∀ character ∈ name.toList, isBlank character = false
  noField : '\x00' ∉ name.toList
  noRecord : '\x1e' ∉ name.toList

/-- A commit of a range. -/
structure LoggedCommit where
  sha : String
  authorName : String
  authorEmail : String
  parents : List String
  /-- Values of `Orchestrator-Task` trailers, in the order of the message. -/
  taskTrailers : List String
  shaName : ObjectName sha
  parentNames : ∀ parent ∈ parents, ObjectName parent
  nameFree : '\x00' ∉ authorName.toList
  emailFree : '\x00' ∉ authorEmail.toList
  trailersFree : ∀ value ∈ taskTrailers, '\x00' ∉ value.toList

namespace LoggedCommit

variable (commit : LoggedCommit)

/-- `%H%x00%an%x00%ae%x00%P%x00`. -/
def header : String :=
  nulEnded [commit.sha, commit.authorName, commit.authorEmail, " ".intercalate commit.parents]

/-- `%(trailers:key=Orchestrator-Task,valueonly,separator=%x2C)`: Git writes a separator only
behind a text, not behind empty values. -/
def trailerText : String := ",".intercalate (commit.taskTrailers.dropWhile String.isEmpty)

def record : String := commit.header ++ commit.trailerText

end LoggedCommit

/-- The standard output of `git log`; `%x1e` and a newline end each record. -/
def logOutput (commits : List LoggedCommit) : String :=
  String.ofList (commits.flatMap fun commit => commit.record.toList ++ ['\x1e', '\n'])

/-! ## What the orchestrator makes -/

/-- What may stand around a trailer's value: white space, and what ends a value or a record. -/
def SeparatesTrailers (character : Char) : Prop :=
  isBlank character = true ∨ character = ',' ∨ character = '\x1e'

instance : DecidablePred SeparatesTrailers := fun character =>
  inferInstanceAs (Decidable (isBlank character = true ∨ character = ',' ∨ character = '\x1e'))

theorem not_separatesTrailers_of_isDigit {character : Char} (h : character.isDigit = true) :
    ¬ SeparatesTrailers character := by
  have hrange : 48 ≤ character.toNat ∧ character.toNat ≤ 57 := by
    simpa [Char.isDigit, UInt32.le_iff_toNat_le] using h
  rw [← Char.ofNat_toNat character]
  generalize character.toNat = number at hrange
  obtain ⟨hlow, hhigh⟩ := hrange
  interval_cases number <;> decide

/-- One value is the identifier, with separators around it; the others are separators only. -/
def TrailedBy (identifier : String) (values : List String) : Prop :=
  ∃ before value after, values = before ++ value :: after ∧
    Embedded SeparatesTrailers identifier.toList value.toList ∧
    ∀ other ∈ before ++ after, ∀ character ∈ other.toList, SeparatesTrailers character

/-- A commit as it is read: of the author, on one parent, with the identifier as its trailer. -/
structure RangeCommit.MadeBy (name email identifier : String) (commit : RangeCommit) : Prop where
  authorName : commit.authorName = name
  authorEmail : commit.authorEmail = email
  parent : commit.parents.length = 1
  trailer : commit.taskTrailers = [identifier]

/-- The same of the commit itself. -/
structure LoggedCommit.MadeBy (name email identifier : String) (commit : LoggedCommit) :
    Prop where
  authorName : commit.authorName = name
  authorEmail : commit.authorEmail = email
  parent : commit.parents.length = 1
  trailer : TrailedBy identifier commit.taskTrailers

/-! ## White space -/

theorem trimText_append_blank (text : List Char) {blanks : List Char}
    (h : ∀ character ∈ blanks, isBlank character = true) :
    trimText (String.ofList (text ++ blanks)) = trimText (String.ofList text) := by
  unfold trimText
  simp only [String.toList_ofList]
  rw [List.dropWhile_append]
  cases hempty : (text.dropWhile isBlank).isEmpty with
  | true =>
      have hnone : blanks.dropWhile isBlank = [] := List.dropWhile_eq_nil_iff.mpr h
      rw [if_pos rfl, hnone, List.isEmpty_iff.mp hempty]
  | false =>
      have hback : ∀ character ∈ blanks.reverse, isBlank character = true := by
        intro character hmem
        exact h character (List.mem_reverse.mp hmem)
      rw [if_neg Bool.false_ne_true, List.reverse_append, List.dropWhile_append_of_pos hback]

theorem trimText_blank_append {blanks : List Char}
    (h : ∀ character ∈ blanks, isBlank character = true) (text : List Char) :
    trimText (String.ofList (blanks ++ text)) = trimText (String.ofList text) := by
  unfold trimText
  simp only [String.toList_ofList]
  rw [List.dropWhile_append_of_pos h]

/-- A text is its trimmed one, with white space around it. -/
theorem embedded_trimText (text : String) :
    Embedded (fun character => isBlank character = true) (trimText text).toList text.toList := by
  let rest := text.toList.dropWhile isBlank
  refine ⟨text.toList.takeWhile isBlank, (rest.reverse.takeWhile isBlank).reverse, ?_, ?_, ?_⟩
  · have hback : (rest.reverse.dropWhile isBlank).reverse ++
        (rest.reverse.takeWhile isBlank).reverse = rest := by
      rw [← List.reverse_append, List.takeWhile_append_dropWhile, List.reverse_reverse]
    unfold trimText
    rw [String.toList_ofList, List.append_assoc, hback, List.takeWhile_append_dropWhile]
  · intro character hmem
    exact List.mem_takeWhile_imp hmem
  · intro character hmem
    exact List.mem_takeWhile_imp (List.mem_reverse.mp hmem)

/-- A text without anything but white space. -/
theorem blank_of_trimText {text : String} (h : trimText text = "") :
    ∀ character ∈ text.toList, isBlank character = true := by
  obtain ⟨before, after, htext, hbefore, hafter⟩ := embedded_trimText text
  rw [h, String.toList_empty, List.append_nil] at htext
  intro character hmem
  rw [htext] at hmem
  exact (List.mem_append.mp hmem).elim (hbefore character) (hafter character)

/-! ## Records -/

/-- The records of a text, and what is read of them. -/
def recordTexts (text : List Char) : List String :=
  ((text.splitOn '\x1e').map fun part => trimText (String.ofList part)).filter (· ≠ "")

theorem parseRangeCommits_eq (output : String) :
    parseRangeCommits output = (recordTexts output.toList).map parseRangeCommit := by
  unfold parseRangeCommits recordTexts splitText
  rw [List.map_map]
  rfl

theorem recordTexts_append (before after : List Char) :
    recordTexts (before ++ '\x1e' :: after) = recordTexts before ++ recordTexts after := by
  unfold recordTexts
  rw [List.splitOn_append_cons_self, List.map_append, List.filter_append]

theorem recordTexts_blank_append {blanks : List Char}
    (h : ∀ character ∈ blanks, isBlank character = true) (text : List Char) :
    recordTexts (blanks ++ text) = recordTexts text := by
  have hfree : '\x1e' ∉ blanks := by
    intro hmem
    exact absurd (h _ hmem) (by decide)
  unfold recordTexts
  rw [splitOn_append_of_not_mem hfree]
  obtain ⟨first, parts, hparts⟩ := List.exists_cons_of_ne_nil (List.splitOn_ne_nil '\x1e' text)
  rw [hparts, List.modifyHead_cons, List.map_cons, List.map_cons, trimText_blank_append h]

theorem recordTexts_append_blank {blanks : List Char}
    (h : ∀ character ∈ blanks, isBlank character = true) (text : List Char) :
    recordTexts (text ++ blanks) = recordTexts text := by
  have hfree : '\x1e' ∉ blanks := by
    intro hmem
    exact absurd (h _ hmem) (by decide)
  -- By the number of characters, since the first record is taken off the text.
  induction hlength : text.length using Nat.strong_induction_on generalizing text with
  | _ length ih =>
      by_cases hmem : '\x1e' ∈ text
      · obtain ⟨before, after, rfl, _⟩ := List.eq_append_cons_of_mem hmem
        have hshorter : after.length < length := by
          rw [← hlength, List.length_append, List.length_cons]
          omega
        rw [List.append_assoc, List.cons_append, recordTexts_append, recordTexts_append,
          ih after.length hshorter after rfl]
      · have hboth : '\x1e' ∉ text ++ blanks := by
          intro hin
          exact (List.mem_append.mp hin).elim hmem hfree
        unfold recordTexts
        rw [List.splitOn_eq_singleton hmem, List.splitOn_eq_singleton hboth, List.map_singleton,
          List.map_singleton, trimText_append_blank text h]

/-- The white space around the output belongs to no record. -/
theorem parseRangeCommits_gitOutput (output : String) :
    parseRangeCommits (gitOutput output) = parseRangeCommits output := by
  obtain ⟨before, after, htext, hbefore, hafter⟩ := embedded_trimText output
  rw [parseRangeCommits_eq, parseRangeCommits_eq, htext, recordTexts_append_blank hafter,
    recordTexts_blank_append hbefore]
  rfl

/-- The records are read one by one. -/
theorem parseRangeCommits_logOutput (commits : List LoggedCommit) :
    parseRangeCommits (gitOutput (logOutput commits)) =
      commits.flatMap fun commit => parseRangeCommits commit.record := by
  rw [parseRangeCommits_gitOutput]
  induction commits with
  | nil => decide
  | cons commit commits ih =>
      have hnewline : ∀ character ∈ ['\n'], isBlank character = true :=
        List.forall_mem_singleton.mpr (by decide)
      have houtput : (logOutput (commit :: commits)).toList =
          commit.record.toList ++ '\x1e' :: (['\n'] ++ (logOutput commits).toList) := by
        unfold logOutput
        rw [String.toList_ofList, String.toList_ofList, List.flatMap_cons, List.append_assoc]
        rfl
      rw [parseRangeCommits_eq, houtput, recordTexts_append, recordTexts_blank_append hnewline,
        List.map_append, ← parseRangeCommits_eq, ← parseRangeCommits_eq, ih, List.flatMap_cons]

/-! ## One record -/

/-- A record with fewer than three ends of fields has no parents. -/
theorem parents_of_count {record : String} (h : record.toList.count '\x00' < 3) :
    (parseRangeCommit record).parents = [] := by
  have hlength : (splitText '\x00' record).length ≤ 3 := by
    unfold splitText
    rw [List.length_map, length_splitOn]
    omega
  have hfield : (splitText '\x00' record)[3]? = none := List.getElem?_eq_none hlength
  unfold parseRangeCommit
  dsimp only
  rw [hfield]
  rfl

theorem count_trimText_le (character : Char) (text : String) :
    (trimText text).toList.count character ≤ text.toList.count character := by
  obtain ⟨before, after, htext, _⟩ := embedded_trimText text
  rw [htext, List.count_append, List.count_append]
  omega

/-- The parents are read back. -/
theorem parents_intercalate {parents : List String}
    (h : ∀ parent ∈ parents, ObjectName parent) :
    (splitText ' ' (" ".intercalate parents)).filter (· ≠ "") = parents := by
  have hkept : parents.filter (· ≠ "") = parents := by
    rw [List.filter_eq_self]
    intro parent hmem
    exact decide_eq_true (h parent hmem).nonempty
  cases parents with
  | nil => decide
  | cons first parents =>
      have hfree : ∀ part ∈ (first :: parents).map String.toList, ' ' ∉ part := by
        intro part hpart hmem
        obtain ⟨parent, hparent, rfl⟩ := List.mem_map.mp hpart
        exact absurd ((h parent hparent).notBlank ' ' hmem) (by decide)
      unfold splitText
      rw [String.toList_intercalate]
      have hsplit := List.splitOn_intercalate ' ' hfree (List.cons_ne_nil _ _)
      have hsep : " ".toList = [' '] := rfl
      rw [hsep, hsplit, List.map_map]
      simpa [Function.comp_def] using hkept

/-- A text that is read as one value is the value among separators. -/
theorem embedded_of_taskTrailers {identifier text : String}
    (h : ((splitText ',' text).map trimText).filter (· ≠ "") = [identifier]) :
    Embedded SeparatesTrailers identifier.toList text.toList := by
  have hblank : ∀ character, isBlank character = true → SeparatesTrailers character :=
    fun _ hblank => Or.inl hblank
  have hcomma : ∀ character ∈ [','], SeparatesTrailers character := by
    intro character hmem
    exact Or.inr (Or.inl (List.mem_singleton.mp hmem))
  have hempty : ∀ part : List Char, ¬ decide (trimText (String.ofList part) ≠ "") = true →
      ∀ character ∈ part, SeparatesTrailers character := by
    intro part hpart character hmem
    have htrim : trimText (String.ofList part) = "" := by simpa using hpart
    refine hblank _ (blank_of_trimText htrim character ?_)
    rwa [String.toList_ofList]
  unfold splitText at h
  rw [List.map_map] at h
  obtain ⟨front, back, hparts, hfront, _, hback⟩ := List.filter_eq_cons_iff.mp h
  rw [List.filter_eq_nil_iff] at hback
  obtain ⟨before, rest, hsplit, rfl, hrest⟩ := List.map_eq_append_iff.mp hparts
  obtain ⟨part, after, rfl, hpart, rfl⟩ := List.map_eq_cons_iff.mp hrest
  have hhere : Embedded SeparatesTrailers identifier.toList part := by
    have htrim := embedded_trimText (String.ofList part)
    rw [String.toList_ofList] at htrim
    rw [← hpart]
    exact htrim.mono hblank
  have hwhole := Embedded.intercalate hcomma
    (fun other hmem => hempty other (hfront _ (List.mem_map_of_mem hmem)))
    (fun other hmem => hempty other (hback _ (List.mem_map_of_mem hmem))) hhere
  rwa [← hsplit, List.intercalate_splitOn] at hwhole

namespace LoggedCommit

variable {commit : LoggedCommit} {name email identifier : String}

/-- The fields, each ended by a NUL. -/
theorem header_fields (commit : LoggedCommit) : ∀ field ∈ [commit.sha, commit.authorName,
    commit.authorEmail, " ".intercalate commit.parents], '\x00' ∉ field.toList := by
  have hparents : '\x00' ∉ (" ".intercalate commit.parents).toList := by
    rw [String.toList_intercalate]
    refine fun hmem => @separates_intercalate Char (· ≠ '\x00') [' '] ?_ _ ?_ _ hmem rfl
    · exact List.forall_mem_singleton.mpr (by decide)
    · intro part hpart character hin heq
      obtain ⟨parent, hparent, rfl⟩ := List.mem_map.mp hpart
      exact (commit.parentNames parent hparent).noField (heq ▸ hin)
  intro field hmem
  simp only [List.mem_cons, List.not_mem_nil, or_false] at hmem
  rcases hmem with rfl | rfl | rfl | rfl
  · exact commit.shaName.noField
  · exact commit.nameFree
  · exact commit.emailFree
  · exact hparents

/-- The header begins, and ends, with a character that is not trimmed. -/
theorem header_ends (commit : LoggedCommit) : ∃ first middle,
    commit.header.toList = first :: middle ++ ['\x00'] ∧ isBlank first = false ∧
      commit.sha.toList.head? = some first := by
  cases hsha : commit.sha.toList with
  | nil => exact absurd (String.toList_eq_nil_iff.mp hsha) commit.shaName.nonempty
  | cons first rest =>
      have hblank := commit.shaName.notBlank first (by rw [hsha]; exact List.mem_cons_self)
      refine ⟨first, rest ++ '\x00' :: (commit.authorName.toList ++ '\x00' ::
        (commit.authorEmail.toList ++ '\x00' :: (" ".intercalate commit.parents).toList)), ?_,
        hblank, rfl⟩
      unfold header nulEnded
      rw [String.toList_ofList]
      simp [hsha]

/-- Behind the header only the end is trimmed. -/
theorem trimText_header (commit : LoggedCommit) (text : List Char) :
    trimText (String.ofList (commit.header.toList ++ text)) =
      String.ofList (commit.header.toList ++ text.rdropWhile isBlank) := by
  obtain ⟨first, middle, hheader, hfirst, _⟩ := commit.header_ends
  have hfront : (first :: middle ++ ['\x00'] ++ text).dropWhile isBlank =
      first :: middle ++ ['\x00'] ++ text :=
    List.dropWhile_cons_of_neg (by rw [hfirst]; exact Bool.false_ne_true)
  have hend : ¬ isBlank '\x00' = true := by decide
  have hback : (first :: middle ++ ['\x00'] ++ text).reverse.dropWhile isBlank =
      text.reverse.dropWhile isBlank ++ (first :: middle ++ ['\x00']).reverse := by
    rw [List.reverse_append, List.dropWhile_append, List.reverse_append, List.reverse_singleton,
      List.singleton_append, List.dropWhile_cons_of_neg hend]
    split_ifs with hempty
    · rw [List.isEmpty_iff.mp hempty, List.nil_append]
    · rfl
  unfold trimText
  rw [String.toList_ofList, hheader, hfront, hback, List.reverse_append, List.reverse_reverse]
  rfl

/-- The header's fields are read back. -/
theorem parseRangeCommit_header (commit : LoggedCommit) {text : List Char} (h : '\x00' ∉ text) :
    parseRangeCommit (String.ofList (commit.header.toList ++ text)) =
      { sha := commit.sha, authorName := commit.authorName, authorEmail := commit.authorEmail
        parents := commit.parents
        taskTrailers := ((splitText ',' (String.ofList text)).map trimText).filter (· ≠ "") } := by
  have hclean : ∀ part ∈ [commit.sha, commit.authorName, commit.authorEmail,
      " ".intercalate commit.parents].map String.toList, '\x00' ∉ part := by
    intro part hpart
    obtain ⟨field, hmem, rfl⟩ := List.mem_map.mp hpart
    exact commit.header_fields field hmem
  have hsplit := splitOn_flatMap_append hclean h
  rw [List.flatMap_map] at hsplit
  have hfields : splitText '\x00' (String.ofList (commit.header.toList ++ text)) =
      [commit.sha, commit.authorName, commit.authorEmail, " ".intercalate commit.parents,
        String.ofList text] := by
    unfold splitText header nulEnded
    rw [String.toList_ofList, String.toList_ofList, hsplit]
    simp [-String.toList_intercalate]
  have hparents := parents_intercalate commit.parentNames
  unfold parseRangeCommit
  rw [hfields]
  dsimp only [List.getElem?_cons_zero, List.getElem?_cons_succ, Option.getD_some]
  rw [hparents]

/-- The end of a record does not stand in the header of a commit that is read as it should be. -/
theorem record_not_mem_header
    (h : ∀ parsed ∈ parseRangeCommits commit.record, parsed.MadeBy name email identifier) :
    '\x1e' ∉ commit.header.toList := by
  let front := commit.sha.toList ++ '\x00' ::
    (commit.authorName.toList ++ '\x00' :: commit.authorEmail.toList)
  have hheader : commit.header.toList =
      front ++ '\x00' :: ((" ".intercalate commit.parents).toList ++ ['\x00']) := by
    unfold header nulEnded
    rw [String.toList_ofList]
    simp [front]
  have hcount : front.count '\x00' = 2 := by
    have hsha := List.count_eq_zero.mpr commit.shaName.noField
    have hname := List.count_eq_zero.mpr commit.nameFree
    have hemail := List.count_eq_zero.mpr commit.emailFree
    simp [front, hsha, hname, hemail]
  have hparents : '\x1e' ∉ (" ".intercalate commit.parents).toList := by
    rw [String.toList_intercalate]
    refine fun hmem => @separates_intercalate Char (· ≠ '\x1e') [' '] ?_ _ ?_ _ hmem rfl
    · exact List.forall_mem_singleton.mpr (by decide)
    · intro part hpart character hin heq
      obtain ⟨parent, hparent, rfl⟩ := List.mem_map.mp hpart
      exact (commit.parentNames parent hparent).noRecord (heq ▸ hin)
  intro hmem
  have hfront : '\x1e' ∈ front := by
    rw [hheader] at hmem
    rcases List.mem_append.mp hmem with hfront | hback
    · exact hfront
    rcases List.mem_cons.mp hback with heq | hrest
    · exact absurd heq (by decide)
    rcases List.mem_append.mp hrest with hin | hlast
    · exact absurd hin hparents
    · exact absurd (List.mem_singleton.mp hlast) (by decide)
  -- The first record then ends before the third field does, and is read without parents.
  obtain ⟨before, after, hcut, hfree⟩ := List.eq_append_cons_of_mem hfront
  have hrecord : commit.record.toList = before ++ '\x1e' :: (after ++
      ('\x00' :: ((" ".intercalate commit.parents).toList ++ ['\x00'])) ++
        commit.trailerText.toList) := by
    unfold record
    rw [String.toList_append, hheader, hcut]
    simp
  have hkept : trimText (String.ofList before) ≠ "" := by
    intro hblank
    have hall := blank_of_trimText hblank
    rw [String.toList_ofList] at hall
    obtain ⟨first, middle, hends, hfirst, hhead⟩ := commit.header_ends
    cases before with
    | nil =>
        rw [hheader, hcut] at hends
        have hsame : '\x1e' = first := (List.cons.inj hends).1
        rw [← hsame] at hhead
        exact commit.shaName.noRecord (List.mem_of_mem_head? hhead)
    | cons head before =>
        rw [hheader, hcut] at hends
        have hsame : head = first := (List.cons.inj hends).1
        have hbad := hall head List.mem_cons_self
        rw [hsame, hfirst] at hbad
        exact Bool.noConfusion hbad
  have hread : parseRangeCommit (trimText (String.ofList before)) ∈
      parseRangeCommits commit.record := by
    rw [parseRangeCommits_eq, hrecord, recordTexts_append]
    apply List.mem_map_of_mem
    apply List.mem_append_left
    unfold recordTexts
    rw [List.splitOn_eq_singleton hfree, List.map_singleton]
    exact List.mem_filter.mpr ⟨List.mem_singleton_self _, decide_eq_true hkept⟩
  have hfew : (trimText (String.ofList before)).toList.count '\x00' < 3 := by
    have hle := count_trimText_le '\x00' (String.ofList before)
    have hpart : before.count '\x00' ≤ front.count '\x00' := by
      rw [hcut, List.count_append]
      omega
    rw [String.toList_ofList] at hle
    omega
  have hone := (h _ hread).parent
  rw [parents_of_count hfew] at hone
  cases hone

theorem trailerText_free (commit : LoggedCommit) : '\x00' ∉ commit.trailerText.toList := by
  unfold trailerText
  rw [String.toList_intercalate]
  refine fun hmem => @separates_intercalate Char (· ≠ '\x00') [','] ?_ _ ?_ _ hmem rfl
  · exact List.forall_mem_singleton.mpr (by decide)
  · intro part hpart character hin heq
    obtain ⟨value, hvalue, rfl⟩ := List.mem_map.mp hpart
    exact commit.trailersFree value ((List.dropWhile_sublist _).subset hvalue) (heq ▸ hin)

/-- The identifier stands in one of the values, if it does in their text. -/
theorem trailedBy_of_trailerText (hne : identifier ≠ "")
    (hid : ∀ character ∈ identifier.toList, ¬ SeparatesTrailers character)
    (h : Embedded SeparatesTrailers identifier.toList commit.trailerText.toList) :
    TrailedBy identifier commit.taskTrailers := by
  have hcomma : SeparatesTrailers ',' := Or.inr (Or.inl rfl)
  have hvalues : Embedded SeparatesTrailers identifier.toList
      ([','].intercalate (commit.taskTrailers.map String.toList)) := by
    refine Embedded.of_dropWhile (fun character hmem => ?_) ?_
    · rw [List.mem_singleton.mp hmem]
      exact hcomma
    · unfold trailerText at h
      rw [String.toList_intercalate] at h
      rw [List.dropWhile_map]
      have hsame : List.isEmpty ∘ String.toList = String.isEmpty := by
        funext value
        rw [Function.comp_apply, Bool.eq_iff_iff, List.isEmpty_iff, String.isEmpty_iff,
          String.toList_eq_nil_iff]
      rw [hsame]
      exact h
  have hword : identifier.toList ≠ [] := fun hnil => hne (String.toList_eq_nil_iff.mp hnil)
  obtain ⟨before, part, after, hsame, hpart, hothers⟩ :=
    Embedded.exists_part hcomma hword hid hvalues
  obtain ⟨left, rest, hleft, rfl, hrest⟩ := List.map_eq_append_iff.mp hsame
  obtain ⟨value, right, rfl, rfl, rfl⟩ := List.map_eq_cons_iff.mp hrest
  refine ⟨left, value, right, hleft, hpart, ?_⟩
  intro other hmem
  apply hothers
  rcases List.mem_append.mp hmem with hmem | hmem
  · exact List.mem_append_left _ (List.mem_map_of_mem hmem)
  · exact List.mem_append_right _ (List.mem_map_of_mem hmem)

/-- A commit is the orchestrator's, if its record is read as the orchestrator's. -/
theorem madeBy_of_record (hne : identifier ≠ "")
    (hid : ∀ character ∈ identifier.toList, ¬ SeparatesTrailers character)
    (h : ∀ parsed ∈ parseRangeCommits commit.record, parsed.MadeBy name email identifier) :
    commit.MadeBy name email identifier := by
  have hheader := record_not_mem_header h
  have hclean := commit.trailerText_free
  obtain ⟨first, parts, hparts⟩ :=
    List.exists_cons_of_ne_nil (List.splitOn_ne_nil '\x1e' commit.trailerText.toList)
  have hfree : ∀ part ∈ first :: parts, '\x00' ∉ part := by
    intro part hmem hnul
    rw [← hparts] at hmem
    exact hclean ((infix_of_mem_splitOn hmem).subset hnul)
  have hsplit : commit.record.toList.splitOn '\x1e' =
      (commit.header.toList ++ first) :: parts := by
    unfold record
    rw [String.toList_append, splitOn_append_of_not_mem hheader, hparts]
    rfl
  -- What stands behind the first record has no fields, so nothing is read of it.
  have hblank : ∀ part ∈ parts, ∀ character ∈ part, SeparatesTrailers character := by
    intro part hmem character hin
    by_cases hempty : trimText (String.ofList part) = ""
    · exact Or.inl (blank_of_trimText hempty character (by rwa [String.toList_ofList]))
    · have hread : parseRangeCommit (trimText (String.ofList part)) ∈
          parseRangeCommits commit.record := by
        rw [parseRangeCommits_eq]
        apply List.mem_map_of_mem
        unfold recordTexts
        rw [hsplit]
        refine List.mem_filter.mpr ⟨?_, decide_eq_true hempty⟩
        exact List.mem_map_of_mem (List.mem_cons_of_mem _ hmem)
      have hnone : (String.ofList part).toList.count '\x00' = 0 := by
        rw [String.toList_ofList]
        exact List.count_eq_zero.mpr (hfree part (List.mem_cons_of_mem _ hmem))
      have hone := (h _ hread).parent
      have hle := count_trimText_le '\x00' (String.ofList part)
      rw [parents_of_count (by omega)] at hone
      cases hone
  have hfirst : '\x00' ∉ first.rdropWhile isBlank := by
    intro hmem
    exact hfree first List.mem_cons_self ((List.rdropWhile_prefix isBlank first).subset hmem)
  have hread : parseRangeCommit
      (String.ofList (commit.header.toList ++ first.rdropWhile isBlank)) ∈
        parseRangeCommits commit.record := by
    have hkept : String.ofList (commit.header.toList ++ first.rdropWhile isBlank) ≠ "" := by
      obtain ⟨head, middle, hends, _⟩ := commit.header_ends
      rw [hends]
      simp
    rw [parseRangeCommits_eq]
    apply List.mem_map_of_mem
    unfold recordTexts
    rw [hsplit, List.map_cons, trimText_header]
    exact List.mem_filter.mpr ⟨List.mem_cons_self, decide_eq_true hkept⟩
  have hmade := h _ hread
  rw [commit.parseRangeCommit_header hfirst] at hmade
  refine ⟨hmade.authorName, hmade.authorEmail, hmade.parent, ?_⟩
  -- The identifier stands in the first part, so in the whole text, and so in one of the values.
  have htrimmed := embedded_of_taskTrailers hmade.trailer
  rw [String.toList_ofList] at htrimmed
  have hends : Embedded SeparatesTrailers identifier.toList first := by
    have hback : first.rdropWhile isBlank ++ first.rtakeWhile isBlank = first :=
      List.rdropWhile_append_rtakeWhile
    rw [← hback]
    refine htrimmed.append ?_
    intro character hmem
    exact Or.inl (List.mem_rtakeWhile_imp hmem)
  have hrecord : ∀ character ∈ ['\x1e'], SeparatesTrailers character := by
    intro character hmem
    exact Or.inr (Or.inr (List.mem_singleton.mp hmem))
  have htext : Embedded SeparatesTrailers identifier.toList commit.trailerText.toList := by
    have hjoined : Embedded SeparatesTrailers identifier.toList
        (['\x1e'].intercalate ([] ++ first :: parts)) :=
      hends.intercalate hrecord (fun other hmem => absurd hmem List.not_mem_nil) hblank
    rwa [List.nil_append, ← hparts, List.intercalate_splitOn] at hjoined
  exact trailedBy_of_trailerText hne hid htext

end LoggedCommit

end Orchestrator
