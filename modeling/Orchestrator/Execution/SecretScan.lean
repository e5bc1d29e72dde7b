import Mathlib.Data.List.DropRight
import Orchestrator.Execution.StagedChanges

/-! # What the secret scan gets to see

`git.output` cuts the white space around the patch before `parseAddedLines` reads it
(`workspaces/git.ts`, `execution/workspace-changes.ts`). A line of the patch begins with a sign,
so only the end of the last line is lost: the scan gets the full content of every added line
unless that line is an added one that ends in white space.
-/

namespace Orchestrator

open Kit

/-! ## Reading the sections -/

/-- The lines of the new file that are added, without their numbers. -/
theorem texts_numberedFrom (path : String) (start : Nat) (hunks : List Hunk) :
    (FileSection.numberedFrom path start (FileSection.newLines hunks)).map (·.text) =
      hunks.flatMap fun hunk => hunk.added.map (·.text) := by
  have hadded : ∀ (added : List LineText) (start : Nat),
      (FileSection.numberedFrom path start (added.map fun line => (true, line.text))).map
        (·.text) = added.map (·.text) := by
    intro added
    induction added with
    | nil => exact fun _ => rfl
    | cons line added ih =>
        intro start
        have hrest := ih (start + 1)
        show line.text :: (FileSection.numberedFrom path (start + 1)
          (added.map fun line => (true, line.text))).map (·.text) = _
        rw [hrest, List.map_cons]
  induction hunks generalizing start with
  | nil => rfl
  | cons hunk hunks ih =>
      unfold FileSection.newLines
      rw [List.flatMap_cons, numberedFrom_append, numberedFrom_append, numberedFrom_kept,
        List.nil_append, List.map_append, hadded, List.flatMap_cons]
      have hrest := ih (start + (hunk.kept.map (fun line => (false, line.text)) ++
        hunk.added.map fun line => (true, line.text)).length)
      unfold FileSection.newLines at hrest
      rw [hrest]

theorem patchLine_gitHeader (names : String) (cursor : PatchCursor) :
    patchLine ("diff --git " ++ names) cursor =
      ({ cursor with inHeader := true, path := none }, none) := by
  have hstart : startsWith ("diff --git " ++ names) "diff --git " = true := by
    unfold startsWith
    rw [List.isPrefixOf_iff_prefix, String.toList_append]
    exact List.prefix_append _ _
  unfold patchLine
  rw [if_pos hstart]

/-- A quoted name begins with a quotation mark, another one as it is. -/
theorem quotedName_cons {name : String} {first : Char} {rest : List Char}
    (h : name.toList = first :: rest) :
    ∃ first' rest', (quotedName name).toList = first' :: rest' ∧ (first' = '"' ∨ first' = first) := by
  unfold quotedName
  split_ifs
  · exact ⟨'"', _, String.toList_ofList, Or.inl rfl⟩
  · exact ⟨first, rest, h, Or.inr rfl⟩

/-- No file of the change is taken for the missing one. -/
theorem targetPath_quotedName (path : String) :
    ∃ target, targetPath (fileName (quotedName ("b/" ++ path))) = some target := by
  have hlist : ("b/" ++ path).toList = 'b' :: '/' :: path.toList := by
    rw [String.toList_append]
    rfl
  obtain ⟨first, rest, hname, hfirst⟩ := quotedName_cons hlist
  have hnull : fileName (quotedName ("b/" ++ path)) ≠ "/dev/null" := by
    intro heq
    have hsame := congrArg String.toList heq
    unfold fileName at hsame
    rw [String.toList_append, hname, List.cons_append] at hsame
    have hslash : first = '/' := List.head_eq_of_cons_eq hsame
    rcases hfirst with rfl | rfl
    · exact absurd hslash (by decide)
    · exact absurd hslash (by decide)
  unfold targetPath
  rw [if_neg hnull]
  exact ⟨_, rfl⟩

namespace PatchSection

variable (part : PatchSection)

theorem reads_header (cursor : PatchCursor) :
    Reads cursor part.headerLines [] ⟨none, cursor.line, true⟩ := by
  have hfirst := patchLine_gitHeader
    (quotedName ("a/" ++ part.path) ++ " " ++ quotedName ("b/" ++ part.path)) cursor
  have hline : "diff --git " ++
      (quotedName ("a/" ++ part.path) ++ " " ++ quotedName ("b/" ++ part.path)) =
      "diff --git " ++ quotedName ("a/" ++ part.path) ++ " " ++ quotedName ("b/" ++ part.path) := by
    simp only [String.append_assoc]
  rw [hline] at hfirst
  exact Reads.cons hfirst (reads_headerLines part.extended part.index ⟨none, cursor.line, true⟩)

theorem reads_body (number : Nat) :
    ∃ found after, Reads ⟨none, number, true⟩ part.bodyLines found after ∧
      found.map (·.text) = part.addedTexts := by
  unfold bodyLines addedTexts
  cases hbody : part.body with
  | headerOnly => exact ⟨[], _, Reads.nil _, rfl⟩
  | binary =>
      -- One line that starts with no marker.
      have hlist : ("Binary files " ++ part.oldLabel ++ " and " ++ part.newLabel ++
          " differ").toList = 'B' :: ("inary files ".toList ++ (part.oldLabel.toList ++
            (" and ".toList ++ (part.newLabel.toList ++ " differ".toList)))) := by
        simp only [String.toList_append, List.append_assoc]
        rfl
      have hquiet := patchLine_quiet hlist (by decide) (by decide) (by decide)
        ⟨none, number, true⟩
      exact ⟨[], _, Reads.cons hquiet (Reads.nil _), rfl⟩
  | hunks hunks =>
      have hlist : ("--- " ++ fileName part.oldLabel).toList =
          '-' :: ("-- ".toList ++ (fileName part.oldLabel).toList) := by
        rw [String.toList_append]
        rfl
      have hold := patchLine_quiet hlist (by decide) (by decide) (by decide)
        ⟨none, number, true⟩
      have hnew := @patchLine_newName (fileName part.newLabel) ⟨none, number, true⟩ rfl
      -- The headers name a file, so the hunks are read.
      have hkept : ∀ target, targetPath (fileName part.newLabel) = some target →
          ∃ found after, Reads ⟨none, number, true⟩ (("--- " ++ fileName part.oldLabel) ::
            ("+++ " ++ fileName part.newLabel) :: hunkLines 0 0 hunks) found after ∧
            found.map (·.text) = hunks.flatMap fun hunk => hunk.added.map (·.text) := by
        intro target htarget
        obtain ⟨after, hrest⟩ := reads_hunkLines target 0 0 hunks number true
        rw [htarget] at hnew
        exact ⟨_, after, Reads.cons hold (Reads.cons hnew hrest), texts_numberedFrom target 1 hunks⟩
      cases hextended : part.extended with
      | created mode =>
          obtain ⟨target, htarget⟩ := targetPath_quotedName part.path
          refine hkept target ?_
          unfold newLabel
          rw [hextended]
          exact htarget
      | changed modes =>
          obtain ⟨target, htarget⟩ := targetPath_quotedName part.path
          refine hkept target ?_
          unfold newLabel
          rw [hextended]
          exact htarget
      | deleted mode =>
          -- No file is named and nothing is read, but nothing was added either.
          have hgone := part.gone mode hextended hunks hbody
          obtain ⟨after, hrest⟩ := reads_hunkLines_gone hgone 0 0 number true
          have htarget : targetPath (fileName part.newLabel) = none := by
            have hname : fileName "/dev/null" = "/dev/null" := by decide
            unfold newLabel
            rw [hextended]
            show targetPath (fileName "/dev/null") = none
            rw [hname]
            rfl
          rw [htarget] at hnew
          refine ⟨[], after, Reads.cons hold (Reads.cons hnew hrest), ?_⟩
          symm
          rw [List.map_nil, List.flatMap_eq_nil_iff]
          intro hunk hmem
          rw [hgone hunk hmem]
          rfl

end PatchSection

/-- The added lines that the parser finds in the sections, whatever they say. -/
theorem reads_sections (patch : List PatchSection) (cursor : PatchCursor) :
    ∃ found after, Reads cursor (patch.flatMap (·.lines)) found after ∧
      found.map (·.text) = patch.flatMap (·.addedTexts) := by
  induction patch generalizing cursor with
  | nil => exact ⟨[], cursor, Reads.nil cursor, rfl⟩
  | cons part patch ih =>
      obtain ⟨found, next, hbody, htexts⟩ := part.reads_body cursor.line
      obtain ⟨more, after, hrest, hmore⟩ := ih next
      have hpart := (part.reads_header cursor).append hbody
      refine ⟨[] ++ found ++ more, after, hpart.append hrest, ?_⟩
      rw [List.nil_append, List.map_append, htexts, hmore, List.flatMap_cons]

/-! ## Lines of the patch -/

theorem newline_not_mem_escapedNameChar (character : Char) :
    '\n' ∉ escapedNameChar character := by
  have hoctal : ∀ figure < 8, '\n' ≠ Nat.digitChar figure := by decide
  have hmod : ∀ number, '\n' ≠ Nat.digitChar (number % 8) :=
    fun number => hoctal _ (Nat.mod_lt number (by decide))
  unfold escapedNameChar
  split_ifs with h₁ h₂ h₃ h₄ h₅ h₆ h₇ hmark hquote
  · decide
  · decide
  · decide
  · decide
  · decide
  · decide
  · decide
  · rcases hmark with rfl | rfl
    · decide
    · decide
  · -- A character that is quoted has a code below 128.
    have hsmall : character.toNat / 64 < 8 := by
      simp only [mustQuote, Bool.or_eq_true, decide_eq_true_eq] at hquote
      have hnot := not_or.mp hmark
      rcases hquote with ((hcontrol | hdelete) | hmark') | hmark'
      · omega
      · omega
      · exact absurd hmark' hnot.1
      · exact absurd hmark' hnot.2
    have hfirst := hoctal _ hsmall
    have hsecond := hmod (character.toNat / 8)
    have hthird := hmod character.toNat
    simp [hfirst, hsecond, hthird]
  · intro hmem
    exact h₄ (List.mem_singleton.mp hmem).symm

theorem oneLine_quotedName (name : String) : OneLine (quotedName name) := by
  unfold quotedName OneLine
  split_ifs with hquote
  · rw [String.toList_ofList]
    intro hmem
    rcases List.mem_cons.mp hmem with hmark | hmem
    · exact absurd hmark (by decide)
    · rcases List.mem_append.mp hmem with hname | hmark
      · obtain ⟨character, _, hcharacter⟩ := List.mem_flatMap.mp hname
        exact newline_not_mem_escapedNameChar character hcharacter
      · exact absurd (List.mem_singleton.mp hmark) (by decide)
  · intro hmem
    exact hquote (List.any_eq_true.mpr ⟨'\n', hmem, by decide⟩)

theorem oneLine_fileName {label : String} (h : OneLine label) : OneLine (fileName label) := by
  unfold fileName
  apply OneLine.append h
  split_ifs
  · decide
  · decide

theorem oneLine_lines (part : PatchSection) : ∀ line ∈ part.lines, OneLine line := by
  have hold : OneLine part.oldLabel := by
    unfold PatchSection.oldLabel
    cases part.extended with
    | created mode => exact show OneLine "/dev/null" by decide
    | changed modes => exact oneLine_quotedName _
    | deleted mode => exact oneLine_quotedName _
  have hnew : OneLine part.newLabel := by
    unfold PatchSection.newLabel
    cases part.extended with
    | created mode => exact oneLine_quotedName _
    | changed modes => exact oneLine_quotedName _
    | deleted mode => exact show OneLine "/dev/null" by decide
  intro line hmem
  rcases List.mem_append.mp hmem with hheader | hbody
  · rcases List.mem_cons.mp hheader with rfl | hheader
    · exact (((show OneLine "diff --git " by decide).append (oneLine_quotedName _)).append
        (show OneLine " " by decide)).append (oneLine_quotedName _)
    · exact oneLine_headerLines part.extended part.index line hheader
  · unfold PatchSection.bodyLines at hbody
    cases hkind : part.body with
    | headerOnly =>
        rw [hkind] at hbody
        exact absurd hbody List.not_mem_nil
    | binary =>
        rw [hkind] at hbody
        rw [List.mem_singleton.mp hbody]
        exact ((((show OneLine "Binary files " by decide).append hold).append
          (show OneLine " and " by decide)).append hnew).append (by decide)
    | hunks hunks =>
        rw [hkind] at hbody
        rcases List.mem_cons.mp hbody with rfl | hbody
        · exact OneLine.append (by decide) (oneLine_fileName hold)
        · rcases List.mem_cons.mp hbody with rfl | hbody
          · exact OneLine.append (by decide) (oneLine_fileName hnew)
          · exact oneLine_hunkLines 0 0 hunks line hbody

/-! ## The end of the patch -/

/-- The last line, if it is an added one. -/
def lastAdded (patch : List PatchSection) : Option LineText :=
  patch.getLast?.bind fun part =>
    match part.body with
    | .hunks hunks => hunks.getLast?.bind fun hunk =>
        if hunk.newUnterminated then none else hunk.added.getLast?
    | _ => none

/-- The line begins with a sign that is neither white space nor that of an added line. -/
def Unadded (line : String) : Prop :=
  ∃ first rest, line.toList = first :: rest ∧ first ≠ '+' ∧ isBlank first = false

theorem unadded_append {start : String} (h : Unadded start) (rest : String) :
    Unadded (start ++ rest) := by
  obtain ⟨first, more, hlist, hfirst⟩ := h
  refine ⟨first, more ++ rest.toList, ?_, hfirst⟩
  rw [String.toList_append, hlist, List.cons_append]

theorem unadded_headerLines {extended : Extended} {index : Option LineText} {line : String}
    (h : line ∈ extended.lines ++ (index.map ("index " ++ ·.text)).toList) : Unadded line := by
  rcases List.mem_append.mp h with hmode | hindex
  · cases extended with
    | created mode =>
        rw [List.mem_singleton.mp hmode]
        exact unadded_append ⟨'n', _, rfl, by decide, by decide⟩ _
    | changed modes =>
        cases modes with
        | none => exact absurd hmode List.not_mem_nil
        | some modes =>
            rcases List.mem_cons.mp hmode with rfl | hmode
            · exact unadded_append ⟨'o', _, rfl, by decide, by decide⟩ _
            · rw [List.mem_singleton.mp hmode]
              exact unadded_append ⟨'n', _, rfl, by decide, by decide⟩ _
    | deleted mode =>
        rw [List.mem_singleton.mp hmode]
        exact unadded_append ⟨'d', _, rfl, by decide, by decide⟩ _
  · cases index with
    | none => exact absurd hindex List.not_mem_nil
    | some index =>
        rw [List.mem_singleton.mp hindex]
        exact unadded_append ⟨'i', _, rfl, by decide, by decide⟩ _

/-- The last line of the hunks is that of the last one. -/
theorem hunkLines_concat (oldBefore newBefore : Nat) (hunks : List Hunk) :
    ∃ oldStart newStart, ∀ hunk, hunkLines oldBefore newBefore (hunks ++ [hunk]) =
      hunkLines oldBefore newBefore hunks ++ hunkLines oldStart newStart [hunk] := by
  induction hunks generalizing oldBefore newBefore with
  | nil => exact ⟨oldBefore, newBefore, fun _ => rfl⟩
  | cons first hunks ih =>
      obtain ⟨oldStart, newStart, hrest⟩ :=
        ih (oldBefore + first.kept.length + first.removed.length)
          (newBefore + first.kept.length + first.added.length)
      refine ⟨oldStart, newStart, fun hunk => ?_⟩
      rw [List.cons_append]
      simp only [hunkLines, List.cons_append, List.append_assoc]
      rw [hrest hunk]
      simp only [hunkLines, List.append_nil, List.append_assoc]

theorem exists_last {lines : List String} (hne : lines ≠ [])
    (hall : ∀ line ∈ lines, Unadded line) :
    ∃ before last, lines = before ++ [last] ∧ Unadded last := by
  rcases List.eq_nil_or_concat lines with hnil | ⟨before, last, hlast⟩
  · exact absurd hnil hne
  · rw [List.concat_eq_append] at hlast
    refine ⟨before, last, hlast, hall last ?_⟩
    rw [hlast]
    exact List.mem_append_right _ List.mem_cons_self

theorem unadded_mark : Unadded "\\ No newline at end of file" :=
  ⟨'\\', _, rfl, by decide, by decide⟩

/-- A hunk that does not end with an added line. -/
theorem hunk_unadded {hunk : Hunk} (h : hunk.newUnterminated = true ∨ hunk.added = [])
    (oldStart newStart : Nat) :
    ∃ before last, hunkLines oldStart newStart [hunk] = before ++ [last] ∧ Unadded last := by
  cases hmark : hunk.newUnterminated with
  | true =>
      refine ⟨hunkHeader (oldStart + hunk.kept.length) (newStart + hunk.kept.length) hunk ::
        (hunk.removed.map ("-" ++ ·.text) ++ unterminatedMark hunk.oldUnterminated ++
          hunk.added.map ("+" ++ ·.text)), _, ?_, unadded_mark⟩
      simp [hunkLines, hmark, unterminatedMark]
  | false =>
      have hadded : hunk.added = [] := by
        rcases h with htrue | hadded
        · rw [hmark] at htrue
          exact Bool.noConfusion htrue
        · exact hadded
      have hlines : hunkLines oldStart newStart [hunk] =
          hunkHeader (oldStart + hunk.kept.length) (newStart + hunk.kept.length) hunk ::
            (hunk.removed.map ("-" ++ ·.text) ++ unterminatedMark hunk.oldUnterminated) := by
        simp [hunkLines, hmark, unterminatedMark, hadded]
      rw [hlines]
      refine exists_last (List.cons_ne_nil _ _) ?_
      intro line hmem
      rcases List.mem_cons.mp hmem with rfl | hmem
      · unfold hunkHeader
        simp only [String.append_assoc]
        exact unadded_append ⟨'@', _, rfl, by decide, by decide⟩ _
      · rcases List.mem_append.mp hmem with hremoved | hold
        · obtain ⟨content, _, rfl⟩ := List.mem_map.mp hremoved
          exact unadded_append ⟨'-', _, rfl, by decide, by decide⟩ _
        · unfold unterminatedMark at hold
          cases hflag : hunk.oldUnterminated with
          | false =>
              rw [hflag] at hold
              exact absurd hold List.not_mem_nil
          | true =>
              rw [hflag] at hold
              rw [List.mem_singleton.mp hold]
              exact unadded_mark

/-- A hunk that ends with an added line, whatever that line says. -/
theorem hunk_added {hunk : Hunk} (h : hunk.newUnterminated = false) (added : List LineText)
    (oldStart newStart : Nat) :
    ∃ before, ∀ line : LineText,
      hunkLines oldStart newStart [{ hunk with added := added ++ [line] }] =
        before ++ ["+" ++ line.text] := by
  -- The header counts the added lines, whatever the last of them says.
  let counted : Hunk := { hunk with added := added ++ [⟨"", by decide⟩] }
  refine ⟨hunkHeader (oldStart + hunk.kept.length) (newStart + hunk.kept.length) counted ::
    (hunk.removed.map ("-" ++ ·.text) ++ unterminatedMark hunk.oldUnterminated ++
      added.map ("+" ++ ·.text)), ?_⟩
  intro line
  simp [hunkLines, hunkHeader, counted, h, unterminatedMark]

/-- The patch up to an added line that is its last, and the patches that end otherwise. -/
theorem last_added {patch : List PatchSection} {line : LineText} (h : lastAdded patch = some line) :
    ∃ before texts, patch.flatMap (·.lines) = before ++ ["+" ++ line.text] ∧
      patch.flatMap (·.addedTexts) = texts ++ [line.text] ∧
      ∀ line' : LineText, ∃ patch' : List PatchSection,
        patch'.flatMap (·.lines) = before ++ ["+" ++ line'.text] ∧
        patch'.flatMap (·.addedTexts) = texts ++ [line'.text] := by
  unfold lastAdded at h
  obtain ⟨part, hpart, hsection⟩ := Option.bind_eq_some_iff.mp h
  clear h
  obtain ⟨sections, rfl⟩ := List.getLast?_eq_some_iff.mp hpart
  cases hbody : part.body with
  | headerOnly =>
      rw [hbody] at hsection
      cases hsection
  | binary =>
      rw [hbody] at hsection
      cases hsection
  | hunks hunks =>
      rw [hbody] at hsection
      obtain ⟨hunk, hhunk, hlast⟩ := Option.bind_eq_some_iff.mp hsection
      obtain ⟨hunks, rfl⟩ := List.getLast?_eq_some_iff.mp hhunk
      split_ifs at hlast with hmark
      obtain ⟨added, hadded⟩ := List.getLast?_eq_some_iff.mp hlast
      have hmark' : hunk.newUnterminated = false := Bool.not_eq_true _ ▸ hmark
      -- The same section with another last line.
      have hpresent : ∀ mode, part.extended ≠ .deleted mode := by
        intro mode hdeleted
        have hnone := part.gone mode hdeleted _ hbody hunk
          (List.mem_append_right _ List.mem_cons_self)
        rw [hadded] at hnone
        exact absurd hnone (List.append_ne_nil_of_right_ne_nil _ (List.cons_ne_nil _ _))
      let ending (line' : LineText) : PatchSection :=
        { part with
          body := .hunks (hunks ++ [{ hunk with added := added ++ [line'] }])
          gone := fun mode hdeleted => absurd hdeleted (hpresent mode)
          someHunk := by
            intro runs heq
            cases heq
            exact List.append_ne_nil_of_right_ne_nil _ (List.cons_ne_nil _ _) }
      obtain ⟨oldStart, newStart, hconcat⟩ := hunkLines_concat 0 0 hunks
      obtain ⟨before, hbefore⟩ := hunk_added hmark' added oldStart newStart
      let first := part.headerLines ++ (("--- " ++ fileName part.oldLabel) ::
        ("+++ " ++ fileName part.newLabel) :: (hunkLines 0 0 hunks ++ before))
      let texts : List String :=
        (hunks.flatMap fun hunk : Hunk => hunk.added.map LineText.text) ++ added.map LineText.text
      have hlines : ∀ line', (ending line').lines = first ++ ["+" ++ line'.text] := by
        intro line'
        show part.headerLines ++ (("--- " ++ fileName part.oldLabel) ::
          ("+++ " ++ fileName part.newLabel) :: hunkLines 0 0
            (hunks ++ [{ hunk with added := added ++ [line'] }])) = _
        rw [hconcat, hbefore]
        simp only [first, List.append_assoc, List.cons_append]
      have htexts : ∀ line', (ending line').addedTexts = texts ++ [line'.text] := by
        intro line'
        show (hunks ++ [{ hunk with added := added ++ [line'] }]).flatMap
          (fun hunk : Hunk => hunk.added.map LineText.text) = _
        simp [texts]
      have hsame : ending line = part := by
        have hhunk' : { hunk with added := added ++ [line] } = hunk := by
          rw [← hadded]
        cases part
        simp only [ending, PatchSection.mk.injEq, true_and]
        rw [hhunk']
        exact hbody.symm
      have hending : ∀ line', (sections ++ [ending line']).flatMap (·.lines) =
            sections.flatMap (·.lines) ++ first ++ ["+" ++ line'.text] ∧
          (sections ++ [ending line']).flatMap (·.addedTexts) =
            sections.flatMap (·.addedTexts) ++ texts ++ [line'.text] := by
        intro line'
        constructor
        · rw [List.flatMap_append, List.flatMap_singleton, hlines]
          exact (List.append_assoc _ _ _).symm
        · rw [List.flatMap_append, List.flatMap_singleton, htexts]
          exact (List.append_assoc _ _ _).symm
      have hwhole := hending line
      rw [hsame] at hwhole
      exact ⟨_, _, hwhole.1, hwhole.2, fun line' => ⟨_, hending line'⟩⟩

theorem last_unadded {patch : List PatchSection} (hne : patch ≠ []) (h : lastAdded patch = none) :
    ∃ before last, patch.flatMap (·.lines) = before ++ [last] ∧ Unadded last := by
  rcases List.eq_nil_or_concat patch with hnil | ⟨sections, part, hpart⟩
  · exact absurd hnil hne
  rw [List.concat_eq_append] at hpart
  subst hpart
  -- Only the last section matters.
  have hsection : ∃ before last, part.lines = before ++ [last] ∧ Unadded last := by
    unfold PatchSection.lines PatchSection.bodyLines
    cases hbody : part.body with
    | headerOnly =>
        rw [List.append_nil]
        refine exists_last (List.cons_ne_nil _ _) ?_
        intro line hmem
        rcases List.mem_cons.mp hmem with rfl | hheader
        · simp only [String.append_assoc]
          exact unadded_append ⟨'d', _, rfl, by decide, by decide⟩ _
        · exact unadded_headerLines hheader
    | binary =>
        refine ⟨part.headerLines, _, rfl, ?_⟩
        simp only [String.append_assoc]
        exact unadded_append ⟨'B', _, rfl, by decide, by decide⟩ _
    | hunks hunks =>
        rcases List.eq_nil_or_concat hunks with hnil | ⟨hunks, hunk, rfl⟩
        · exact absurd hnil (part.someHunk hunks hbody)
        rw [List.concat_eq_append] at hbody ⊢
        -- Its last hunk adds nothing, or the mark of a missing newline comes after.
        have hend : hunk.newUnterminated = true ∨ hunk.added = [] := by
          unfold lastAdded at h
          rw [List.getLast?_append_of_ne_nil _ (List.cons_ne_nil _ _)] at h
          simp only [List.getLast?_singleton, Option.bind_some, hbody, List.getLast?_append,
            Option.some_or] at h
          cases hmark : hunk.newUnterminated with
          | true => exact Or.inl rfl
          | false =>
              rw [hmark] at h
              exact Or.inr (List.getLast?_eq_none_iff.mp h)
        obtain ⟨oldStart, newStart, hconcat⟩ := hunkLines_concat 0 0 hunks
        obtain ⟨before, last, hlast, hsign⟩ := hunk_unadded hend oldStart newStart
        refine ⟨part.headerLines ++ (("--- " ++ fileName part.oldLabel) ::
          ("+++ " ++ fileName part.newLabel) :: (hunkLines 0 0 hunks ++ before)), last, ?_, hsign⟩
        show part.headerLines ++ (("--- " ++ fileName part.oldLabel) ::
          ("+++ " ++ fileName part.newLabel) :: hunkLines 0 0 (hunks ++ [hunk])) = _
        rw [hconcat, hlast]
        simp only [List.append_assoc, List.cons_append]
  obtain ⟨before, last, hlast, hsign⟩ := hsection
  refine ⟨sections.flatMap (·.lines) ++ before, last, ?_, hsign⟩
  rw [List.flatMap_append, List.flatMap_singleton, hlast, List.append_assoc]

/-! ## What the trim leaves -/

/-- A text without the white space at its end. -/
def trimEnd (text : String) : String := String.ofList (text.toList.rdropWhile isBlank)

def endsBlank (text : String) : Bool := text.toList.getLast?.any isBlank

/-- A first character that stays is no part of the end. -/
theorem rdropWhile_cons_of_neg {α : Type*} {p : α → Bool} {first : α} (h : p first = false)
    (rest : List α) : (first :: rest).rdropWhile p = first :: rest.rdropWhile p := by
  unfold List.rdropWhile
  rw [List.reverse_cons, List.dropWhile_append]
  split_ifs with hall
  · rw [List.isEmpty_iff.mp hall, List.dropWhile_cons_of_neg (by rw [h]; exact Bool.false_ne_true)]
    rfl
  · rw [List.reverse_append]
    rfl

theorem trimEnd_eq_iff {text : String} : trimEnd text = text ↔ endsBlank text = false := by
  unfold trimEnd endsBlank
  rw [← String.toList_inj, String.toList_ofList, List.rdropWhile_eq_self_iff]
  generalize text.toList = characters
  rcases List.eq_nil_or_concat characters with rfl | ⟨most, last, rfl⟩
  · simp
  · simp

/-- The output without the white space around it: only the last line is shorter. -/
theorem splitText_gitOutput {before : List String} {last : String}
    (holds : ∀ line ∈ before ++ [last], OneLine line)
    (hhead : ∃ line more, before ++ [last] = line :: more ∧
      ∃ first rest, line.toList = first :: rest ∧ isBlank first = false)
    (hlast : ∃ first rest, last.toList = first :: rest ∧ isBlank first = false) :
    splitText '\n' (gitOutput (String.ofList
      ((before ++ [last]).flatMap fun line => line.toList ++ ['\n']))) =
      before ++ [trimEnd last] := by
  let ended := before.flatMap fun line => line.toList ++ ['\n']
  have hwhole : (before ++ [last]).flatMap (fun line => line.toList ++ ['\n']) =
      ended ++ (last.toList ++ ['\n']) := by
    rw [List.flatMap_append, List.flatMap_singleton]
  -- The first line does not start with white space, so nothing goes at the front.
  have hfront : (ended ++ (last.toList ++ ['\n'])).dropWhile isBlank =
      ended ++ (last.toList ++ ['\n']) := by
    obtain ⟨line, more, hlines, first, rest, hline, hblank⟩ := hhead
    have hcons : ∃ rest', ended ++ (last.toList ++ ['\n']) = first :: rest' := by
      rw [← hwhole, hlines, List.flatMap_cons, hline]
      exact ⟨_, rfl⟩
    obtain ⟨rest', hcons⟩ := hcons
    rw [hcons]
    exact List.dropWhile_cons_of_neg (by rw [hblank]; exact Bool.false_ne_true)
  -- At the back the newline goes, and what ends the last line.
  have hback : (ended ++ (last.toList ++ ['\n'])).reverse.dropWhile isBlank =
      last.toList.reverse.dropWhile isBlank ++ ended.reverse := by
    have hkept : (last.toList.reverse.dropWhile isBlank).isEmpty = false := by
      obtain ⟨first, rest, hline, hblank⟩ := hlast
      rw [List.isEmpty_eq_false_iff, ne_eq, List.dropWhile_eq_nil_iff]
      intro hall
      have hfirst := hall first (by rw [hline]; simp)
      rw [hblank] at hfirst
      exact Bool.noConfusion hfirst
    have hend : isBlank '\n' = true := by decide
    rw [List.reverse_append, List.reverse_append, List.reverse_singleton, List.append_assoc,
      List.singleton_append, List.dropWhile_cons_of_pos hend, List.dropWhile_append, hkept]
    rfl
  have htrim : gitOutput (String.ofList (ended ++ (last.toList ++ ['\n']))) =
      String.ofList (ended ++ last.toList.rdropWhile isBlank) := by
    unfold gitOutput trimText
    rw [String.toList_ofList, hfront, hback, List.reverse_append, List.reverse_reverse]
    rfl
  have hsplit := @splitOn_flatMap_append Char _ '\n' (before.map String.toList)
    (last.toList.rdropWhile isBlank) (by
      intro part hpart
      obtain ⟨line, hmem, rfl⟩ := List.mem_map.mp hpart
      exact holds line (List.mem_append_left _ hmem))
    (fun hmem => holds last (List.mem_append_right _ List.mem_cons_self)
      ((List.rdropWhile_prefix isBlank last.toList).subset hmem))
  rw [List.flatMap_map] at hsplit
  rw [hwhole, htrim]
  unfold splitText
  rw [String.toList_ofList, hsplit, List.map_append, List.map_map]
  simp [Function.comp_def, trimEnd]

theorem patchLine_unadded {text : String} (h : Unadded text) (cursor : PatchCursor) :
    (patchLine text cursor).2 = none := by
  obtain ⟨first, rest, hlist, hplus, _⟩ := h
  have hadded : startsWith text "+" = false := startsWith_of_head hlist rfl hplus.symm
  unfold patchLine
  simp only [hadded, Bool.and_false, Bool.false_eq_true, if_false]
  split_ifs
  · rfl
  · rfl
  · rfl
  · cases cursor.path with
    | none => rfl
    | some path => rfl

theorem unadded_trimEnd {text : String} (h : Unadded text) : Unadded (trimEnd text) := by
  obtain ⟨first, rest, hlist, hplus, hblank⟩ := h
  have hrest : ∃ rest', (trimEnd text).toList = first :: rest' := by
    unfold trimEnd
    rw [String.toList_ofList, hlist]
    rcases List.prefix_cons_iff.mp (List.rdropWhile_prefix isBlank (first :: rest)) with
      hnil | ⟨rest', heq, _⟩
    · have hall := List.rdropWhile_eq_nil_iff.mp hnil first List.mem_cons_self
      rw [hblank] at hall
      exact Bool.noConfusion hall
    · exact ⟨rest', heq⟩
  obtain ⟨rest', hrest⟩ := hrest
  exact ⟨first, rest', hrest, hplus, hblank⟩

theorem addedLinesFrom_append (cursor : PatchCursor) (before after : List String) :
    ∃ next, addedLinesFrom cursor (before ++ after) =
      addedLinesFrom cursor before ++ addedLinesFrom next after := by
  induction before generalizing cursor with
  | nil => exact ⟨cursor, rfl⟩
  | cons line before ih =>
      obtain ⟨next, hrest⟩ := ih (patchLine line cursor).1
      refine ⟨next, ?_⟩
      show (patchLine line cursor).2.toList ++
        addedLinesFrom (patchLine line cursor).1 (before ++ after) = _
      rw [hrest, ← List.append_assoc]
      rfl

/-- The sign of a last line that is not an added one says that nothing is to be found in it. -/
theorem addedLinesFrom_unadded {before : List String} {last : String} (h : Unadded last) :
    addedLinesFrom {} (before ++ [last]) = addedLinesFrom {} before := by
  obtain ⟨next, hsplit⟩ := addedLinesFrom_append {} before [last]
  have hnone : addedLinesFrom next [last] = [] := by
    show (patchLine last next).2.toList ++ [] = []
    rw [patchLine_unadded h]
    rfl
  rw [hsplit, hnone, List.append_nil]

/-- The texts that the parser gets from the trimmed patch are those of all added lines, unless
the patch ends with an added line that ends in white space. -/
theorem texts_gitOutput_iff (patch : List PatchSection) :
    (parseAddedLines (gitOutput (patchOutput patch))).map (·.text) = patch.flatMap (·.addedTexts) ↔
      ∀ line, lastAdded patch = some line → endsBlank line.text = false := by
  have hfound : ∀ patch : List PatchSection,
      (addedLinesFrom {} (patch.flatMap (·.lines))).map (·.text) =
        patch.flatMap (·.addedTexts) := by
    intro patch
    obtain ⟨found, after, hreads, htexts⟩ := reads_sections patch {}
    rw [hreads.found]
    exact htexts
  by_cases hne : patch = []
  · subst hne
    constructor
    · intro _ line hline
      cases hline
    · intro _
      rfl
  have hlines : ∀ line ∈ patch.flatMap (·.lines), OneLine line := by
    intro line hmem
    obtain ⟨part, _, hpart⟩ := List.mem_flatMap.mp hmem
    exact oneLine_lines part line hpart
  have hhead : ∃ line more, patch.flatMap (·.lines) = line :: more ∧
      ∃ first rest, line.toList = first :: rest ∧ isBlank first = false := by
    obtain ⟨part, more, rfl⟩ := List.exists_cons_of_ne_nil hne
    rw [List.flatMap_cons]
    refine ⟨_, _, rfl, ?_⟩
    simp only [String.append_assoc]
    rw [String.toList_append]
    exact ⟨'d', _, rfl, by decide⟩
  unfold parseAddedLines patchOutput
  cases hlast : lastAdded patch with
  | none =>
      obtain ⟨before, last, hbefore, hsign⟩ := last_unadded hne hlast
      have hblank : ∃ first rest, last.toList = first :: rest ∧ isBlank first = false := by
        obtain ⟨first, rest, hlist, _, hblank⟩ := hsign
        exact ⟨first, rest, hlist, hblank⟩
      have htexts := hfound patch
      rw [hbefore] at hlines hhead htexts ⊢
      rw [splitText_gitOutput hlines hhead hblank, addedLinesFrom_unadded (unadded_trimEnd hsign),
        ← htexts, addedLinesFrom_unadded hsign]
      constructor
      · intro _ line hline
        cases hline
      · intro _
        rfl
  | some line =>
      obtain ⟨before, texts, hbefore, htexts, hother⟩ := last_added hlast
      -- The trimmed patch is the one whose last line has no white space at its end.
      have hclean : '\n' ∉ (trimEnd line.text).toList := by
        unfold trimEnd
        rw [String.toList_ofList]
        exact fun hmem => line.newlineFree
          ((List.rdropWhile_prefix isBlank line.text.toList).subset hmem)
      obtain ⟨trimmed, htrimmedLines, htrimmedTexts⟩ := hother ⟨trimEnd line.text, hclean⟩
      have hsigned : ("+" ++ line.text).toList = '+' :: line.text.toList := by
        rw [String.toList_append]
        rfl
      have htrim : trimEnd ("+" ++ line.text) = "+" ++ trimEnd line.text := by
        apply String.toList_inj.mp
        unfold trimEnd
        rw [String.toList_ofList, hsigned, String.toList_append, String.toList_ofList,
          String.toList_ofList]
        have hplus : isBlank '+' = false := by decide
        exact rdropWhile_cons_of_neg hplus line.text.toList
      rw [hbefore] at hlines hhead ⊢
      rw [splitText_gitOutput hlines hhead ⟨'+', _, hsigned, by decide⟩, htrim, ← htrimmedLines,
        hfound trimmed, htrimmedTexts, htexts]
      constructor
      · intro hsame line' hline'
        obtain rfl := Option.some.inj hline'
        have hend := List.append_cancel_left hsame
        exact trimEnd_eq_iff.mp (List.head_eq_of_cons_eq hend)
      · intro hend
        have hsame : trimEnd line.text = line.text := trimEnd_eq_iff.mpr (hend line rfl)
        show texts ++ [trimEnd line.text] = texts ++ [line.text]
        rw [hsame]

/-! ## The scan of a staged change -/

/-- The staged files; Git lists each path once. -/
structure StagedChange where
  files : List StagedFile
  different : (files.map (·.path)).Nodup

namespace StagedChange

variable (change : StagedChange)

def patch : List PatchSection := change.files.flatMap (·.sections)

/-- The added lines of the files that have numbers of lines. -/
def addedTexts : List String :=
  (change.files.filter (·.counts.isSome)).flatMap fun file => file.sections.flatMap (·.addedTexts)

/-- A binary file adds no line. -/
theorem addedTexts_eq : change.addedTexts = change.patch.flatMap (·.addedTexts) := by
  unfold addedTexts patch
  generalize change.files = files
  induction files with
  | nil => rfl
  | cons file files ih =>
      rw [List.flatMap_cons, List.flatMap_append, ← ih]
      cases hcounts : file.counts with
      | some counts =>
          rw [List.filter_cons_of_pos (by rw [hcounts]; rfl), List.flatMap_cons]
      | none =>
          have hnone : file.sections.flatMap (·.addedTexts) = [] := by
            rw [List.flatMap_eq_nil_iff]
            intro part hpart
            unfold PatchSection.addedTexts
            cases hbody : part.body with
            | headerOnly => rfl
            | binary => rfl
            | hunks hunks => exact absurd hbody (file.binary hcounts part hpart hunks)
          rw [List.filter_cons_of_neg (by rw [hcounts]; exact Bool.false_ne_true), hnone,
            List.nil_append]

end StagedChange

/-- Git answers with the renderings of the change. -/
structure Services.Renders {ω : Type} (services : Services ω) (workspacePath : String)
    (change : StagedChange) : Prop where
  raw : ∀ {outside outside' output},
    services outside (.gitDiff workspacePath .cached .raw) (.ok output) outside' →
      output = rawOutput change.files
  numstat : ∀ {outside outside' output},
    services outside (.gitDiff workspacePath .cached .numstat) (.ok output) outside' →
      output = numstatOutput change.files
  patch : ∀ {outside outside' output},
    services outside (.gitDiff workspacePath .cached .patch) (.ok output) outside' →
      output = patchOutput change.patch

/-- The change as it is collected: the patch is read unless nothing changed or too many lines did. -/
def collectedChanges (repository : String) (change : StagedChange) (limit : Nat) :
    RepositoryChanges :=
  if change.files.isEmpty || limit < totalLines (change.files.map StagedFile.changed) then
    ⟨repository, change.files.map StagedFile.changed, [], !change.files.isEmpty⟩
  else ⟨repository, change.files.map StagedFile.changed,
    parseAddedLines (gitOutput (patchOutput change.patch)), false⟩

/-- What `evaluateChanges` passes to `detectSecrets`. -/
def scannedTexts (changes : RepositoryChanges) : List String := changes.addedLines.map (·.text)

section Scan

variable {ω : Type} {services : Services ω} {writer : StageWriter} {change : StagedChange}
  {repository workspacePath : String} {w w' : StageWorld ω} {collected : RepositoryChanges}

/-- What is true of every answer is true of the answer. -/
theorem keeps_answer {call : ServiceCall} {P : call.Answer → Prop}
    (h : ∀ outside outside' value, services outside call (.ok value) outside' → P value) :
    (service call).Keeps (serves services writer) (fun _ => True) (fun value _ => P value) w := by
  refine @keeps_service _ services writer (fun _ => True) w call (fun value _ => P value) trivial ?_
  intro answer outside hserved
  refine ⟨trivial, ?_⟩
  intro value hvalue
  rw [hvalue] at hserved
  exact h _ _ value hserved

theorem collected_of_renders (hgit : services.Renders workspacePath change) {limit : Nat}
    (hrun : Exec (serves services writer) (collect repository workspacePath limit) w
      (.returned collected) w') :
    collected = collectedChanges repository change limit := by
  have hkeeps : (collect repository workspacePath limit).Keeps (serves services writer)
      (fun _ => True) (fun changes _ => changes = collectedChanges repository change limit) w := by
    unfold collect collectDiff collectedChanges
    refine keeps_bind (R := fun _ _ => True) (keeps_answer fun _ _ _ _ => trivial) ?_
    intro _ w₁ _ _
    refine keeps_bind (R := fun raw _ => raw = rawOutput change.files)
      (keeps_answer fun _ _ _ hserved => hgit.raw hserved) ?_
    intro raw w₂ _ hraw
    refine keeps_bind (R := fun numstat _ => numstat = numstatOutput change.files)
      (keeps_answer fun _ _ _ hserved => hgit.numstat hserved) ?_
    intro numstat w₃ _ hnumstat
    dsimp only
    rw [hraw, hnumstat, changedFiles_render change.different, List.isEmpty_map]
    split_ifs with hskip
    · exact keeps_pure trivial rfl
    refine keeps_bind (R := fun patch _ => patch = patchOutput change.patch)
      (keeps_answer fun _ _ _ hserved => hgit.patch hserved) ?_
    intro patch w₄ _ hpatch
    rw [hpatch]
    exact keeps_pure trivial rfl
  exact (keeps_iff.mp hkeeps _ _ hrun).2 _ rfl

/-- The two modules count the same lines. -/
theorem tooManyLines_of_limit {context : DiffContext} {changes : RepositoryChanges}
    {collected : List RepositoryChanges} (hmem : changes ∈ collected)
    (h : context.policy.maxChangedLines < totalLines changes.files) :
    ∃ violation ∈ evaluateChanges context collected, violation.rule = .tooManyLines := by
  have hlines : context.policy.maxChangedLines < changes.files.foldl (fun total file =>
      total + file.addedLines.getD 0 + file.deletedLines.getD 0) 0 := h
  have hfound : ∃ violation ∈ repositoryViolations context changes,
      violation.rule = .tooManyLines := by
    unfold repositoryViolations
    simp only [if_pos hlines, List.mem_append]
    exact ⟨_, Or.inl (Or.inl (Or.inl (Or.inr List.mem_cons_self))), rfl⟩
  obtain ⟨violation, hviolation, hrule⟩ := hfound
  exact ⟨violation, List.mem_append_right _ (List.mem_flatMap.mpr ⟨changes, hmem, hviolation⟩), hrule⟩

/-- If a change is accepted, the scan was given the full content of every added line exactly when
the patch does not end with an added line that ends in white space. A change whose patch was
skipped is never accepted. -/
theorem secretScan_complete {context : DiffContext} {all : List RepositoryChanges}
    (hgit : services.Renders workspacePath change)
    (hrun : Exec (serves services writer)
      (collect repository workspacePath context.policy.maxChangedLines) w (.returned collected) w')
    (hmem : collected ∈ all) :
    (evaluateChanges context all = [] →
      (scannedTexts collected = change.addedTexts ↔
        ∀ line, lastAdded change.patch = some line → endsBlank line.text = false)) ∧
    (collected.patchSkipped = true →
      ∃ violation ∈ evaluateChanges context all, violation.rule = .tooManyLines) := by
  have hcollected := collected_of_renders hgit hrun
  unfold collectedChanges at hcollected
  -- Nothing changed, nothing is scanned.
  by_cases hempty : change.files = []
  · have hpatch : change.patch = [] := by
      unfold StagedChange.patch
      rw [hempty]
      rfl
    rw [hempty] at hcollected
    rw [hcollected]
    constructor
    · intro _
      rw [change.addedTexts_eq, hpatch]
      constructor
      · intro _ line hline
        cases hline
      · intro _
        rfl
    · intro hskipped
      exact Bool.noConfusion hskipped
  have hsome : change.files.isEmpty = false := List.isEmpty_eq_false_iff.mpr hempty
  rw [hsome, Bool.false_or] at hcollected
  -- Over the limit the patch is not read, and the evaluation refuses the change.
  by_cases hlimit : context.policy.maxChangedLines <
      totalLines (change.files.map StagedFile.changed)
  · rw [if_pos (decide_eq_true hlimit)] at hcollected
    have htoo : context.policy.maxChangedLines < totalLines collected.files := by
      rw [hcollected]
      exact hlimit
    have hviolation := tooManyLines_of_limit hmem htoo
    constructor
    · intro haccepted
      obtain ⟨violation, hfound, _⟩ := hviolation
      rw [haccepted] at hfound
      exact absurd hfound List.not_mem_nil
    · exact fun _ => hviolation
  · rw [if_neg (by simpa using hlimit)] at hcollected
    constructor
    · intro _
      have hlines : collected.addedLines =
          parseAddedLines (gitOutput (patchOutput change.patch)) := by
        rw [hcollected]
      unfold scannedTexts
      rw [hlines, change.addedTexts_eq]
      exact texts_gitOutput_iff change.patch
    · intro hskipped
      rw [hcollected] at hskipped
      exact Bool.noConfusion hskipped

end Scan

/-! ## A sample -/

/-- A new file of one line. -/
def sampleChange (line : LineText) : StagedChange where
  files := [{
    path := "notes.txt"
    pathFree := by decide
    oldMode := ⟨"000000", by decide⟩
    newMode := ⟨"100644", by decide⟩
    oldBlob := ⟨"0000000", by decide⟩
    newBlob := ⟨"3b18e51", by decide⟩
    status := 'A'
    statusFree := by decide
    counts := some (1, 0)
    sections := [{
      path := "notes.txt"
      extended := .created ⟨"100644", by decide⟩
      index := some ⟨"0000000..3b18e51", by decide⟩
      body := .hunks [{ kept := [], removed := [], added := [line] }]
      gone := nofun
      someHunk := by
        intro runs heq
        cases heq
        exact List.cons_ne_nil _ _ }]
    samePath := by
      intro part hmem
      rw [List.mem_singleton.mp hmem]
    binary := nofun }]
  different := List.nodup_singleton _

def sampleRenderings (change : StagedChange) : (call : ServiceCall) → Except StageError call.Answer
  | .gitAdd _ => .ok ()
  | .gitDiff _ .cached .raw => .ok (rawOutput change.files)
  | .gitDiff _ .cached .numstat => .ok (numstatOutput change.files)
  | .gitDiff _ .cached .patch => .ok (patchOutput change.patch)
  | _ => .error (.other "offline")

theorem renders_sampleRenderings (workspacePath : String) (change : StagedChange) :
    (fixedServices (sampleRenderings change)).Renders workspacePath change where
  raw := by
    intro outside outside' output hserves
    cases hserves
    rfl
  numstat := by
    intro outside outside' output hserves
    cases hserves
    rfl
  patch := by
    intro outside outside' output hserves
    cases hserves
    rfl

theorem exec_fixed {answers : (call : ServiceCall) → Except StageError call.Answer}
    {writer : StageWriter} {w : StageWorld Unit} {call : ServiceCall} {answer : call.Answer}
    (h : answers call = .ok answer) :
    Exec (serves (fixedServices answers) writer) (service call) w (.returned answer)
      (w.asked call (.ok answer) ()) :=
  exec_service h.symm

/-- Git answers, and `collect` returns. -/
theorem exec_collect (change : StagedChange) (limit : Nat) (repository workspacePath : String)
    (writer : StageWriter) (w : StageWorld Unit) :
    ∃ w', Exec (serves (fixedServices (sampleRenderings change)) writer)
      (collect repository workspacePath limit) w
      (.returned (collectedChanges repository change limit)) w' := by
  let w₁ := w.asked (.gitAdd workspacePath) (.ok ()) ()
  let w₂ := w₁.asked (.gitDiff workspacePath .cached .raw) (.ok (rawOutput change.files)) ()
  let w₃ := w₂.asked (.gitDiff workspacePath .cached .numstat) (.ok (numstatOutput change.files)) ()
  have hadd := @exec_fixed (sampleRenderings change) writer w (.gitAdd workspacePath) () rfl
  have hraw := @exec_fixed (sampleRenderings change) writer w₁
    (.gitDiff workspacePath .cached .raw) (rawOutput change.files) rfl
  have hnumstat := @exec_fixed (sampleRenderings change) writer w₂
    (.gitDiff workspacePath .cached .numstat) (numstatOutput change.files) rfl
  have hpatch := @exec_fixed (sampleRenderings change) writer w₃
    (.gitDiff workspacePath .cached .patch) (patchOutput change.patch) rfl
  unfold collectedChanges
  by_cases hskip : (change.files.isEmpty ||
      decide (limit < totalLines (change.files.map StagedFile.changed))) = true
  · refine ⟨w₃, exec_bind hadd (exec_bind hraw (exec_bind hnumstat ?_))⟩
    dsimp only
    rw [changedFiles_render change.different, List.isEmpty_map, if_pos hskip, if_pos hskip]
    exact .ret
  · refine ⟨w₃.asked (.gitDiff workspacePath .cached .patch) (.ok (patchOutput change.patch)) (),
      exec_bind hadd (exec_bind hraw (exec_bind hnumstat ?_))⟩
    dsimp only
    rw [changedFiles_render change.different, List.isEmpty_map, if_neg hskip, if_neg hskip]
    exact exec_bind hpatch .ret

/-- A policy for one line at most, and one known secret. -/
def sampleContext (maxChangedLines : Nat) : DiffContext where
  policy := { maxChangedLines }
  secretRules := []
  knownSecrets := ["s3cret "]

/-- A line that does not end in a blank is scanned as it is; without any line allowed, the change is
rejected. -/
theorem secretScan_complete_sample :
    let change := sampleChange ⟨"s3cret", by decide⟩
    scannedTexts (collectedChanges "web" change 1) = change.addedTexts ∧
      ∃ violation ∈ evaluateChanges (sampleContext 0) [collectedChanges "web" change 0],
        violation.rule = .tooManyLines := by
  intro change
  obtain ⟨_, hread⟩ := exec_collect change 1 "web" "/work" ⟨1, .implementing⟩ ⟨{}, (), []⟩
  obtain ⟨_, hskipped⟩ := exec_collect change 0 "web" "/work" ⟨1, .implementing⟩ ⟨{}, (), []⟩
  have hgit := renders_sampleRenderings "/work" change
  constructor
  · refine ((@secretScan_complete _ _ _ change "web" "/work" _ _ _ (sampleContext 1)
      [collectedChanges "web" change 1] hgit hread List.mem_cons_self).1 (by decide +kernel)).mpr ?_
    intro line hline
    obtain rfl := Option.some.inj hline
    decide
  · exact (@secretScan_complete _ _ _ change "web" "/work" _ _ _ (sampleContext 0)
      [collectedChanges "web" change 0] hgit hskipped List.mem_cons_self).2 (by decide +kernel)

/-- A line that ends in a blank is scanned without it, and the secret that it is goes unseen. -/
theorem secretScan_trailing_blank :
    let change := sampleChange ⟨"s3cret ", by decide⟩
    ∃ (services : Services Unit) (w w' : StageWorld Unit) (collected : RepositoryChanges),
      services.Renders "/work" change ∧
      Exec (serves services ⟨1, .implementing⟩)
        (collect "web" "/work" (sampleContext 1).policy.maxChangedLines) w
        (.returned collected) w' ∧
      evaluateChanges (sampleContext 1) [collected] = [] ∧
      scannedTexts collected = ["s3cret"] ∧ change.addedTexts = ["s3cret "] ∧
      detectSecrets [] "s3cret " (sampleContext 1).knownSecrets ≠ [] := by
  intro change
  obtain ⟨w', hrun⟩ := exec_collect change 1 "web" "/work" ⟨1, .implementing⟩ ⟨{}, (), []⟩
  exact ⟨_, _, w', _, renders_sampleRenderings "/work" change, hrun, by decide +kernel,
    by decide +kernel, rfl, by decide⟩

end Orchestrator
