import Mathlib.Data.List.TakeWhile
import Orchestrator.Execution.WorkspaceChanges
import Orchestrator.Kit.Occurrences

/-! # Added lines of a patch

`parseAddedLines` finds in Git's zero-context rendering of a change exactly the added lines, with
their numbers in the new file (`execution/workspace-changes.ts`). Content begins with a sign of
its own, so it is never read as a header, whatever it imitates; the cursor of the parser stands
where the new file has been written so far.
-/

namespace Orchestrator

open Kit

/-! ## What Git writes -/

/-- A text without a line end. -/
structure LineText where
  text : String
  newlineFree : '\n' ∉ text.toList

/-- A path that Git neither quotes nor marks with a tab. -/
structure PatchPath where
  path : String
  plain : ∀ character ∈ path.toList, character ≠ '"' ∧ character ≠ '\\' ∧ character ≠ ' ' ∧
    32 ≤ character.toNat ∧ character.toNat ≠ 127

/-- A run of removed and added lines, behind lines that both files have. A run that has the last
line of its file says so, if that line does not end. -/
structure Hunk where
  kept : List LineText
  removed : List LineText
  added : List LineText
  heading : Option LineText := none
  oldUnterminated : Bool := false
  newUnterminated : Bool := false

/-- What happened to the file, with the modes that Git names. -/
inductive Extended
  | created (mode : LineText)
  | changed (modes : Option (LineText × LineText))
  | deleted (mode : LineText)

/-- Nothing but the header, as for a change of the mode or an empty file; a binary file; or the
hunks of a text. -/
inductive SectionBody
  | headerOnly
  | binary
  | hunks (hunks : List Hunk)

structure FileSection where
  path : PatchPath
  extended : Extended
  /-- Blobs and mode; left out if the content did not change. -/
  index : Option LineText
  body : SectionBody
  /-- Nothing is added to a file that is gone. -/
  gone : ∀ mode, extended = .deleted mode → ∀ runs, body = .hunks runs →
    ∀ hunk ∈ runs, hunk.added = []

/-- First line and number of lines behind `before` lines; a single line needs no number. -/
def hunkRange (before count : Nat) : String :=
  toString (if count = 0 then before else before + 1) ++
    if count = 1 then "" else "," ++ toString count

def hunkHeader (oldBefore newBefore : Nat) (hunk : Hunk) : String :=
  "@@ -" ++ hunkRange oldBefore hunk.removed.length ++ " +" ++
    hunkRange newBefore hunk.added.length ++ " @@" ++
    match hunk.heading with
    | none => ""
    | some heading => " " ++ heading.text

def unterminatedMark (unterminated : Bool) : List String :=
  if unterminated then ["\\ No newline at end of file"] else []

/-- The hunks behind the given numbers of lines of the old and the new file. -/
def hunkLines (oldBefore newBefore : Nat) : List Hunk → List String
  | [] => []
  | hunk :: hunks =>
      let oldStart := oldBefore + hunk.kept.length
      let newStart := newBefore + hunk.kept.length
      hunkHeader oldStart newStart hunk ::
        (hunk.removed.map ("-" ++ ·.text) ++ unterminatedMark hunk.oldUnterminated ++
          hunk.added.map ("+" ++ ·.text) ++ unterminatedMark hunk.newUnterminated ++
          hunkLines (oldStart + hunk.removed.length) (newStart + hunk.added.length) hunks)

def Extended.lines : Extended → List String
  | .created mode => ["new file mode " ++ mode.text]
  | .changed none => []
  | .changed (some (old, new)) => ["old mode " ++ old.text, "new mode " ++ new.text]
  | .deleted mode => ["deleted file mode " ++ mode.text]

namespace FileSection

/-- The name of the old file, unless there was none. -/
def oldName (part : FileSection) : String :=
  match part.extended with
  | .created _ => "/dev/null"
  | _ => "a/" ++ part.path.path

def newName (part : FileSection) : String :=
  match part.extended with
  | .deleted _ => "/dev/null"
  | _ => "b/" ++ part.path.path

/-- The lines between `diff --git` and the content. -/
def headerLines (part : FileSection) : List String :=
  part.extended.lines ++ (part.index.map ("index " ++ ·.text)).toList

def bodyLines (part : FileSection) : List String :=
  match part.body with
  | .headerOnly => []
  | .binary => ["Binary files " ++ part.oldName ++ " and " ++ part.newName ++ " differ"]
  | .hunks hunks => ("--- " ++ part.oldName) :: ("+++ " ++ part.newName) :: hunkLines 0 0 hunks

def lines (part : FileSection) : List String :=
  ("diff --git a/" ++ part.path.path ++ " b/" ++ part.path.path) ::
    (part.headerLines ++ part.bodyLines)

/-- The added ones of the lines, each with its number. -/
def numberedFrom (path : String) (start : Nat) (lines : List (Bool × String)) : List AddedLine :=
  (lines.zipIdx start).filterMap fun entry =>
    if entry.1.1 then some ⟨path, entry.2, entry.1.2⟩ else none

/-- The new file as far as the hunks reach: its lines, and whether they are added. -/
def newLines (hunks : List Hunk) : List (Bool × String) :=
  hunks.flatMap fun hunk =>
    hunk.kept.map (fun line => (false, line.text)) ++ hunk.added.map fun line => (true, line.text)

/-- The added lines of the new file, each with its number there. -/
def addedLines (part : FileSection) : List AddedLine :=
  match part.body with
  | .hunks hunks => numberedFrom part.path.path 1 (newLines hunks)
  | _ => []

end FileSection

/-- The output of `git diff -U0` for the files. -/
def renderPatch (patch : List FileSection) : String :=
  String.ofList ((patch.flatMap (·.lines)).flatMap fun line => line.toList ++ ['\n'])

/-! ## What the parser does with a run of lines -/

/-- From the first cursor on, the lines give these added lines and leave the second cursor. -/
structure Reads (before : PatchCursor) (lines : List String) (found : List AddedLine)
    (after : PatchCursor) : Prop where
  found : addedLinesFrom before lines = found
  cursor : lines.foldl (fun cursor line => (patchLine line cursor).1) before = after

theorem Reads.nil (cursor : PatchCursor) : Reads cursor [] [] cursor := ⟨rfl, rfl⟩

theorem Reads.cons {text : String} {lines : List String} {before next after : PatchCursor}
    {found : Option AddedLine} {more : List AddedLine}
    (hline : patchLine text before = (next, found)) (h : Reads next lines more after) :
    Reads before (text :: lines) (found.toList ++ more) after := by
  constructor
  · rw [addedLinesFrom, hline]
    simp only
    rw [h.found]
  · rw [List.foldl_cons, hline]
    exact h.cursor

theorem Reads.append {first second : List String} {before next after : PatchCursor}
    {found more : List AddedLine} (h : Reads before first found next)
    (hsecond : Reads next second more after) :
    Reads before (first ++ second) (found ++ more) after := by
  induction first generalizing before found with
  | nil =>
      have hsame : before = next := h.cursor
      have hnone : found = [] := h.found.symm
      rw [hsame, hnone]
      exact hsecond
  | cons line first ih =>
      have hrest : Reads (patchLine line before).1 first
          (addedLinesFrom (patchLine line before).1 first) next := ⟨rfl, h.cursor⟩
      have hfound : found = (patchLine line before).2.toList ++
          addedLinesFrom (patchLine line before).1 first := h.found.symm
      rw [hfound, List.append_assoc]
      exact Reads.cons rfl (ih hrest)

/-! ## Single lines -/

theorem startsWith_of_head {text start : String} {first other : Char} {rest more : List Char}
    (htext : text.toList = first :: rest) (hstart : start.toList = other :: more)
    (hne : other ≠ first) : startsWith text start = false := by
  unfold startsWith
  rw [htext, hstart]
  simp [List.isPrefixOf, hne]

/-- A line that begins with neither a sign of addition nor a mark of a header changes nothing. -/
theorem patchLine_other {text : String} {first : Char} {rest : List Char}
    (htext : text.toList = first :: rest) (hdiff : startsWith text "diff --git " = false)
    (hat : first ≠ '@') (hplus : first ≠ '+') (cursor : PatchCursor) :
    patchLine text cursor = (cursor, none) := by
  have hname : startsWith text "+++ " = false := startsWith_of_head htext rfl hplus.symm
  have hhunk : startsWith text "@@" = false := startsWith_of_head htext rfl hat.symm
  have hadded : startsWith text "+" = false := startsWith_of_head htext rfl hplus.symm
  unfold patchLine
  cases cursor.path with
  | none => simp [hdiff, hname, hhunk]
  | some path => simp [hdiff, hname, hhunk, hadded]

theorem patchLine_quiet {text : String} {first : Char} {rest : List Char}
    (htext : text.toList = first :: rest) (hd : first ≠ 'd') (hat : first ≠ '@')
    (hplus : first ≠ '+') (cursor : PatchCursor) : patchLine text cursor = (cursor, none) :=
  patchLine_other htext (startsWith_of_head htext rfl hd.symm) hat hplus cursor

/-- So do many of them. -/
theorem reads_quiet {lines : List String} {cursor : PatchCursor}
    (h : ∀ line ∈ lines, patchLine line cursor = (cursor, none)) : Reads cursor lines [] cursor := by
  induction lines with
  | nil => exact Reads.nil cursor
  | cons line lines ih =>
      have hrest := ih (fun other hmem => h other (List.mem_cons_of_mem _ hmem))
      exact Reads.cons (h line List.mem_cons_self) hrest

theorem patchLine_diff (path : PatchPath) (cursor : PatchCursor) :
    patchLine ("diff --git a/" ++ path.path ++ " b/" ++ path.path) cursor =
      ({ cursor with inHeader := true, path := none }, none) := by
  have hstart : startsWith ("diff --git a/" ++ path.path ++ " b/" ++ path.path) "diff --git " =
      true := by
    unfold startsWith
    rw [List.isPrefixOf_iff_prefix]
    simp only [String.toList_append, List.append_assoc]
    exact ⟨['a', '/'] ++ (path.path.toList ++ (" b/".toList ++ path.path.toList)), rfl⟩
  unfold patchLine
  rw [if_pos hstart]

theorem patchLine_newName (name : String) {cursor : PatchCursor} (h : cursor.inHeader = true) :
    patchLine ("+++ " ++ name) cursor = ({ cursor with path := targetPath name }, none) := by
  have hlist : ("+++ " ++ name).toList = '+' :: '+' :: '+' :: ' ' :: name.toList := by
    rw [String.toList_append]
    rfl
  have hdiff : startsWith ("+++ " ++ name) "diff --git " = false :=
    startsWith_of_head hlist rfl (by decide)
  have hname : startsWith ("+++ " ++ name) "+++ " = true := by
    unfold startsWith
    rw [hlist, List.isPrefixOf_iff_prefix]
    exact ⟨name.toList, rfl⟩
  have htarget : sliceFrom 4 ("+++ " ++ name) = name := by
    unfold sliceFrom
    rw [hlist]
    exact String.ofList_toList
  unfold patchLine
  simp [hdiff, h, hname, htarget]

/-- An added line, whatever it says. -/
theorem patchLine_added (line : LineText) (path : String) (number : Nat) :
    patchLine ("+" ++ line.text) ⟨some path, number, false⟩ =
      (⟨some path, number + 1, false⟩, some ⟨path, number, line.text⟩) := by
  have hlist : ("+" ++ line.text).toList = '+' :: line.text.toList := by
    rw [String.toList_append]
    rfl
  have hdiff : startsWith ("+" ++ line.text) "diff --git " = false :=
    startsWith_of_head hlist rfl (by decide)
  have hhunk : startsWith ("+" ++ line.text) "@@" = false := startsWith_of_head hlist rfl (by decide)
  have hadded : startsWith ("+" ++ line.text) "+" = true := by
    unfold startsWith
    rw [hlist, List.isPrefixOf_iff_prefix]
    exact ⟨line.text.toList, rfl⟩
  have htext : sliceFrom 1 ("+" ++ line.text) = line.text := by
    unfold sliceFrom
    rw [hlist]
    exact String.ofList_toList
  unfold patchLine
  simp [hdiff, hhunk, hadded, htext]

theorem patchLine_hunkHeader (oldBefore newBefore : Nat) (hunk : Hunk) (cursor : PatchCursor) :
    patchLine (hunkHeader oldBefore newBefore hunk) cursor =
      ({ cursor with
          inHeader := false
          line := hunkLine (hunkHeader oldBefore newBefore hunk) }, none) := by
  have hlist : ∃ rest, (hunkHeader oldBefore newBefore hunk).toList = '@' :: '@' :: rest := by
    unfold hunkHeader
    simp only [String.toList_append, List.append_assoc]
    exact ⟨_, rfl⟩
  rcases hlist with ⟨rest, hlist⟩
  have hdiff : startsWith (hunkHeader oldBefore newBefore hunk) "diff --git " = false :=
    startsWith_of_head hlist rfl (by decide)
  have hname : startsWith (hunkHeader oldBefore newBefore hunk) "+++ " = false :=
    startsWith_of_head hlist rfl (by decide)
  have hhunk : startsWith (hunkHeader oldBefore newBefore hunk) "@@" = true := by
    unfold startsWith
    rw [hlist, List.isPrefixOf_iff_prefix]
    exact ⟨rest, rfl⟩
  unfold patchLine
  simp [hdiff, hname, hhunk]

/-! ## Numbers of lines -/

theorem toList_toString (number : Nat) : (toString number).toList = Nat.toDigits 10 number := by
  rw [Nat.toString_eq_repr, Nat.toList_repr]

theorem isDigit_of_mem_toString {number : Nat} {character : Char}
    (h : character ∈ (toString number).toList) : character.isDigit = true := by
  rw [toList_toString] at h
  exact Nat.isDigit_of_mem_toDigits (by decide) (by decide) h

theorem digits_toString (number : Nat) : digits (toString number) = some number := by
  have hne : toString number ≠ "" := Nat.repr_ne_empty
  have hall : (toString number).toList.all Char.isDigit = true :=
    List.all_eq_true.mpr fun character hmem => isDigit_of_mem_toString hmem
  have hread := Nat.ofDigitChars_toDigits (b := 10) (n := number) (by decide) (by decide)
  rw [Nat.ofDigitChars_eq_foldl] at hread
  unfold digits
  rw [if_pos ⟨hne, hall⟩, toList_toString]
  exact congrArg some hread

/-- The figures in front of something else. -/
theorem takeWhile_isDigit (number : Nat) {rest : List Char}
    (hrest : ∀ first more, rest = first :: more → first.isDigit = false) :
    ((toString number).toList ++ rest).takeWhile Char.isDigit = (toString number).toList ∧
      ((toString number).toList ++ rest).dropWhile Char.isDigit = rest := by
  have hall : ∀ character ∈ (toString number).toList, character.isDigit = true :=
    fun character hmem => isDigit_of_mem_toString hmem
  rw [List.takeWhile_append_of_pos hall, List.dropWhile_append_of_pos hall]
  cases rest with
  | nil => simp
  | cons first more => simp [hrest first more rfl]

/-- What follows the number of lines, if there is one behind a comma. -/
def behindCount (afterwards : List Char) : List Char :=
  match afterwards with
  | ',' :: more => if (more.takeWhile Char.isDigit).isEmpty then afterwards
      else more.dropWhile Char.isDigit
  | _ => afterwards

/-- The number that `hunkLine` reads behind a plus sign. -/
def hunkNumber (part : List Char) : Option Nat :=
  if " @@".toList.isPrefixOf (behindCount (part.dropWhile Char.isDigit)) then
    digits (String.ofList (part.takeWhile Char.isDigit))
  else none

def hunkNumberAt : List Char → Option Nat
  | '+' :: part => hunkNumber part
  | _ => none

theorem hunkLine_eq (text : String) :
    hunkLine text = (text.toList.tails.findSome? hunkNumberAt).getD 0 := rfl

theorem hunkNumberAt_of_ne {first : Char} (h : first ≠ '+') (rest : List Char) :
    hunkNumberAt (first :: rest) = none := by
  unfold hunkNumberAt
  split
  · rename_i heq
    exact absurd (List.cons.inj heq).1 h
  · rfl

/-- The first plus sign counts. -/
theorem findSome?_tails {before part : List Char} {number : Nat} (hbefore : '+' ∉ before)
    (h : hunkNumber part = some number) :
    (before ++ '+' :: part).tails.findSome? hunkNumberAt = some number := by
  induction before with
  | nil =>
      have hfirst : hunkNumberAt ('+' :: part) = some number := h
      rw [List.nil_append, List.tails_cons, List.findSome?_cons, hfirst]
  | cons first before ih =>
      have hfirst : hunkNumberAt (first :: (before ++ '+' :: part)) = none :=
        hunkNumberAt_of_ne (fun heq => hbefore (heq ▸ List.mem_cons_self)) _
      rw [List.cons_append, List.tails_cons, List.findSome?_cons, hfirst]
      exact ih (fun hmem => hbefore (List.mem_cons_of_mem _ hmem))

theorem behindCount_comma (count : Nat) {rest : List Char}
    (hrest : ∀ first more, rest = first :: more → first.isDigit = false) :
    behindCount (',' :: ((toString count).toList ++ rest)) = rest := by
  have hfigures := takeWhile_isDigit count hrest
  have hsome : ((toString count).toList).isEmpty = false := by
    rw [toList_toString]
    exact List.isEmpty_eq_false_iff.mpr Nat.toDigits_ne_nil
  unfold behindCount
  simp only [hfigures.1, hfigures.2, hsome, Bool.false_eq_true, if_false]

/-- The number of lines, unless it is one, stands behind a comma. -/
theorem hunkNumber_range (before count : Nat) (rest : List Char) :
    hunkNumber ((hunkRange before count).toList ++ (" @@".toList ++ rest)) =
      some (if count = 0 then before else before + 1) := by
  generalize hstart : (if count = 0 then before else before + 1) = start
  have hblank : ∀ first more, " @@".toList ++ rest = first :: more → first.isDigit = false := by
    intro first more heq
    rw [← (List.cons.inj heq).1]
    rfl
  have hmark : " @@".toList.isPrefixOf (" @@".toList ++ rest) = true :=
    List.isPrefixOf_iff_prefix.mpr (List.prefix_append _ _)
  have hnumber : digits (String.ofList (toString start).toList) = some start := by
    rw [String.ofList_toList]
    exact digits_toString start
  unfold hunkRange
  rw [hstart]
  by_cases hone : count = 1
  · have hfigures := takeWhile_isDigit start hblank
    have hbehind : behindCount (" @@".toList ++ rest) = " @@".toList ++ rest := rfl
    rw [if_pos hone, String.append_empty]
    unfold hunkNumber
    rw [hfigures.1, hfigures.2, hbehind, if_pos hmark, hnumber]
  · have hcomma : ∀ first more, ',' :: ((toString count).toList ++ (" @@".toList ++ rest)) =
        first :: more → first.isDigit = false := by
      intro first more heq
      rw [← (List.cons.inj heq).1]
      rfl
    have hfigures := takeWhile_isDigit start hcomma
    have hlist : (toString start ++ ("," ++ toString count)).toList ++ (" @@".toList ++ rest) =
        (toString start).toList ++ (',' :: ((toString count).toList ++ (" @@".toList ++ rest))) := by
      rw [String.toList_append, String.toList_append, List.append_assoc, List.append_assoc]
      rfl
    rw [if_neg hone, hlist]
    unfold hunkNumber
    rw [hfigures.1, hfigures.2, behindCount_comma count hblank, if_pos hmark, hnumber]

theorem plus_not_mem_hunkRange (before count : Nat) : '+' ∉ (hunkRange before count).toList := by
  have hnumber : ∀ number : Nat, '+' ∉ (toString number).toList := by
    intro number hmem
    exact absurd (isDigit_of_mem_toString hmem) (by decide)
  unfold hunkRange
  by_cases hone : count = 1
  · rw [if_pos hone, String.append_empty]
    exact hnumber _
  · rw [if_neg hone, String.toList_append, String.toList_append, List.mem_append, List.mem_append,
      not_or, not_or]
    exact ⟨hnumber _, by decide, hnumber _⟩

/-- The header of a hunk says where its lines begin in the new file. -/
theorem hunkLine_hunkHeader (oldBefore newBefore : Nat) (hunk : Hunk) :
    hunkLine (hunkHeader oldBefore newBefore hunk) =
      if hunk.added.length = 0 then newBefore else newBefore + 1 := by
  have hbefore : '+' ∉ "@@ -".toList ++ ((hunkRange oldBefore hunk.removed.length).toList ++ [' ']) := by
    rw [List.mem_append, List.mem_append, not_or, not_or]
    exact ⟨by decide, plus_not_mem_hunkRange _ _, by decide⟩
  have hlist : ∃ rest, (hunkHeader oldBefore newBefore hunk).toList =
      ("@@ -".toList ++ ((hunkRange oldBefore hunk.removed.length).toList ++ [' '])) ++
        '+' :: ((hunkRange newBefore hunk.added.length).toList ++ (" @@".toList ++ rest)) := by
    unfold hunkHeader
    simp only [String.toList_append, List.append_assoc]
    exact ⟨_, rfl⟩
  rcases hlist with ⟨rest, hlist⟩
  rw [hunkLine_eq, hlist, findSome?_tails hbefore (hunkNumber_range _ _ _)]
  rfl

/-! ## Names of files -/

theorem targetPath_deleted : targetPath "/dev/null" = none := rfl

theorem targetPath_path (path : PatchPath) : targetPath ("b/" ++ path.path) = some path.path := by
  have hlist : ("b/" ++ path.path).toList = 'b' :: '/' :: path.path.toList := by
    rw [String.toList_append]
    rfl
  have hnull : "b/" ++ path.path ≠ "/dev/null" := by
    intro heq
    have hsame := congrArg String.toList heq
    rw [hlist] at hsame
    exact absurd (List.cons.inj hsame).1 (by decide)
  have hquote : startsWith ("b/" ++ path.path) "\"b/" = false :=
    startsWith_of_head hlist rfl (by decide)
  have hslash : startsWith ("b/" ++ path.path) "b/" = true := by
    unfold startsWith
    rw [hlist, List.isPrefixOf_iff_prefix]
    exact ⟨path.path.toList, rfl⟩
  have htarget : sliceFrom 2 ("b/" ++ path.path) = path.path := by
    unfold sliceFrom
    rw [hlist]
    exact String.ofList_toList
  have hlast : path.path.toList.getLast? ≠ some '"' := by
    intro heq
    exact (path.plain '"' (List.mem_of_getLast? heq)).1 rfl
  unfold targetPath
  simp [hnull, hquote, hslash, htarget, hlast]

/-! ## Hunks -/

open FileSection

theorem numberedFrom_append (path : String) (start : Nat) (first second : List (Bool × String)) :
    numberedFrom path start (first ++ second) =
      numberedFrom path start first ++ numberedFrom path (start + first.length) second := by
  unfold numberedFrom
  rw [List.zipIdx_append, List.filterMap_append]

theorem numberedFrom_kept (path : String) (start : Nat) (kept : List LineText) :
    numberedFrom path start (kept.map fun line => (false, line.text)) = [] := by
  unfold numberedFrom
  rw [List.filterMap_eq_nil_iff]
  intro entry hmem
  have hline := List.fst_mem_of_mem_zipIdx hmem
  rcases List.mem_map.mp hline with ⟨line, _, heq⟩
  rw [← heq]
  rfl

theorem reads_added (path : String) (number : Nat) (added : List LineText) :
    Reads ⟨some path, number, false⟩ (added.map ("+" ++ ·.text))
      (numberedFrom path number (added.map fun line => (true, line.text)))
      ⟨some path, number + added.length, false⟩ := by
  induction added generalizing number with
  | nil => exact Reads.nil _
  | cons line added ih =>
      have hrest := Reads.cons (patchLine_added line path number) (ih (number + 1))
      have hcount : number + 1 + added.length = number + (line :: added).length := by
        rw [List.length_cons]
        omega
      rw [hcount] at hrest
      exact hrest

theorem reads_removed (removed : List LineText) (cursor : PatchCursor) :
    Reads cursor (removed.map ("-" ++ ·.text)) [] cursor := by
  apply reads_quiet
  intro text hmem
  rcases List.mem_map.mp hmem with ⟨line, _, rfl⟩
  have hlist : ("-" ++ line.text).toList = '-' :: line.text.toList := by
    rw [String.toList_append]
    rfl
  exact patchLine_quiet hlist (by decide) (by decide) (by decide) cursor

theorem reads_mark (unterminated : Bool) (cursor : PatchCursor) :
    Reads cursor (unterminatedMark unterminated) [] cursor := by
  apply reads_quiet
  intro text hmem
  unfold unterminatedMark at hmem
  cases unterminated with
  | false => exact absurd hmem List.not_mem_nil
  | true =>
      have htext : text = "\\ No newline at end of file" := List.mem_singleton.mp hmem
      rw [htext]
      exact patchLine_quiet rfl (by decide) (by decide) (by decide) cursor

/-- The lines of one hunk behind its header. -/
theorem reads_hunk {path : String} {number : Nat} (hunk : Hunk) {rest : List String}
    {more : List AddedLine} {after : PatchCursor}
    (h : Reads ⟨some path, number + hunk.added.length, false⟩ rest more after) :
    Reads ⟨some path, number, false⟩
      (hunk.removed.map ("-" ++ ·.text) ++ unterminatedMark hunk.oldUnterminated ++
        hunk.added.map ("+" ++ ·.text) ++ unterminatedMark hunk.newUnterminated ++ rest)
      (numberedFrom path number (hunk.added.map fun line => (true, line.text)) ++ more) after := by
  have hremoved := (reads_removed hunk.removed ⟨some path, number, false⟩).append
    (reads_mark hunk.oldUnterminated _)
  have hadded := (hremoved.append (reads_added path number hunk.added)).append
    (reads_mark hunk.newUnterminated _)
  have hall := hadded.append h
  rw [List.nil_append, List.nil_append, List.append_nil] at hall
  exact hall

/-- The hunks of a file, where `newBefore` lines of the new file have been written. -/
theorem reads_hunkLines (path : String) (oldBefore newBefore : Nat) (hunks : List Hunk)
    (number : Nat) (inHeader : Bool) :
    ∃ after, Reads ⟨some path, number, inHeader⟩ (hunkLines oldBefore newBefore hunks)
      (numberedFrom path (newBefore + 1) (newLines hunks)) after := by
  induction hunks generalizing oldBefore newBefore number inHeader with
  | nil => exact ⟨_, Reads.nil _⟩
  | cons hunk hunks ih =>
      let newStart := newBefore + hunk.kept.length
      let first := if hunk.added.length = 0 then newStart else newStart + 1
      rcases ih (oldBefore + hunk.kept.length + hunk.removed.length)
        (newStart + hunk.added.length) (first + hunk.added.length) false with ⟨after, hrest⟩
      have hhunk := reads_hunk hunk hrest
      have hheader := patchLine_hunkHeader (oldBefore + hunk.kept.length) newStart hunk
        ⟨some path, number, inHeader⟩
      rw [hunkLine_hunkHeader] at hheader
      have hall := Reads.cons hheader hhunk
      refine ⟨after, ?_⟩
      -- Kept lines only count, so the numbers start again at the first added line.
      have hfound : numberedFrom path (newBefore + 1) (newLines (hunk :: hunks)) =
          numberedFrom path first (hunk.added.map fun line => (true, line.text)) ++
            numberedFrom path (newStart + hunk.added.length + 1) (newLines hunks) := by
        unfold newLines
        rw [List.flatMap_cons, numberedFrom_append, numberedFrom_append, numberedFrom_kept,
          List.nil_append, List.length_append, List.length_map, List.length_map]
        have hrest : newBefore + 1 + (hunk.kept.length + hunk.added.length) =
            newStart + hunk.added.length + 1 := by omega
        rw [hrest]
        by_cases hnone : hunk.added.length = 0
        · rw [List.length_eq_zero_iff.mp hnone]
          rfl
        · have hfirst : newBefore + 1 + hunk.kept.length = first := by
            simp only [first, if_neg hnone]
            omega
          rw [hfirst]
      rw [hfound]
      exact hall

/-- The hunks of a file that is gone. -/
theorem reads_hunkLines_gone {hunks : List Hunk} (h : ∀ hunk ∈ hunks, hunk.added = [])
    (oldBefore newBefore number : Nat) (inHeader : Bool) :
    ∃ after, Reads ⟨none, number, inHeader⟩ (hunkLines oldBefore newBefore hunks) [] after := by
  induction hunks generalizing oldBefore newBefore number inHeader with
  | nil => exact ⟨_, Reads.nil _⟩
  | cons hunk hunks ih =>
      have hadded : hunk.added = [] := h hunk List.mem_cons_self
      let newStart := newBefore + hunk.kept.length
      rcases ih (fun other hmem => h other (List.mem_cons_of_mem _ hmem))
        (oldBefore + hunk.kept.length + hunk.removed.length) (newStart + hunk.added.length)
        (hunkLine (hunkHeader (oldBefore + hunk.kept.length) newStart hunk)) false with
        ⟨after, hrest⟩
      have hheader := patchLine_hunkHeader (oldBefore + hunk.kept.length) newStart hunk
        ⟨none, number, inHeader⟩
      have hremoved := (reads_removed hunk.removed _).append
        ((reads_mark hunk.oldUnterminated _).append
          ((reads_mark hunk.newUnterminated _).append hrest))
      have hall := Reads.cons hheader hremoved
      refine ⟨after, ?_⟩
      have hlines : hunkLines oldBefore newBefore (hunk :: hunks) =
          hunkHeader (oldBefore + hunk.kept.length) newStart hunk ::
            (hunk.removed.map ("-" ++ ·.text) ++ (unterminatedMark hunk.oldUnterminated ++
              (unterminatedMark hunk.newUnterminated ++
                hunkLines (oldBefore + hunk.kept.length + hunk.removed.length)
                  (newStart + hunk.added.length) hunks))) := by
        simp only [hunkLines, hadded, List.map_nil, List.append_nil, List.append_assoc, newStart]
      rw [hlines]
      exact hall

/-! ## Sections -/

theorem patchLine_extended {extended : Extended} {text : String} (h : text ∈ extended.lines)
    (cursor : PatchCursor) : patchLine text cursor = (cursor, none) := by
  have hquiet : ∀ (start : String) (mode : LineText) {first : Char} {rest : List Char},
      start.toList = first :: rest → first ≠ 'd' → first ≠ '@' → first ≠ '+' →
        patchLine (start ++ mode.text) cursor = (cursor, none) := by
    intro start mode first rest hstart hd hat hplus
    have hlist : (start ++ mode.text).toList = first :: (rest ++ mode.text.toList) := by
      rw [String.toList_append, hstart, List.cons_append]
    exact patchLine_quiet hlist hd hat hplus cursor
  cases extended with
  | created mode =>
      rw [List.mem_singleton.mp h]
      exact hquiet "new file mode " mode rfl (by decide) (by decide) (by decide)
  | changed modes =>
      cases modes with
      | none => exact absurd h List.not_mem_nil
      | some modes =>
          rcases List.mem_cons.mp h with rfl | h
          · exact hquiet "old mode " modes.1 rfl (by decide) (by decide) (by decide)
          · rw [List.mem_singleton.mp h]
            exact hquiet "new mode " modes.2 rfl (by decide) (by decide) (by decide)
  | deleted mode =>
      -- The only header line that shares its first letter with `diff --git`.
      have hlist : ("deleted file mode " ++ mode.text).toList =
          'd' :: 'e' :: ("leted file mode ".toList ++ mode.text.toList) := by
        rw [String.toList_append]
        rfl
      have hdiff : startsWith ("deleted file mode " ++ mode.text) "diff --git " = false := by
        unfold startsWith
        rw [hlist]
        rfl
      rw [List.mem_singleton.mp h]
      exact patchLine_other hlist hdiff (by decide) (by decide) cursor

/-- The lines between `diff --git` and the content change nothing. -/
theorem reads_headerLines (extended : Extended) (index : Option LineText) (cursor : PatchCursor) :
    Reads cursor (extended.lines ++ (index.map ("index " ++ ·.text)).toList) [] cursor := by
  apply reads_quiet
  intro text hmem
  rcases List.mem_append.mp hmem with hextended | hindex
  · exact patchLine_extended hextended cursor
  · cases index with
    | none => exact absurd hindex List.not_mem_nil
    | some index =>
        have htext : text = "index " ++ index.text := List.mem_singleton.mp hindex
        have hlist : text.toList = 'i' :: ("ndex ".toList ++ index.text.toList) := by
          rw [htext, String.toList_append]
          rfl
        exact patchLine_quiet hlist (by decide) (by decide) (by decide) cursor

theorem targetPath_newName (part : FileSection) :
    targetPath part.newName = some part.path.path ∨
      targetPath part.newName = none ∧ ∃ mode, part.extended = .deleted mode := by
  unfold newName
  cases part.extended with
  | created mode => exact Or.inl (targetPath_path part.path)
  | changed modes => exact Or.inl (targetPath_path part.path)
  | deleted mode => exact Or.inr ⟨targetPath_deleted, mode, rfl⟩

theorem reads_bodyLines (part : FileSection) (number : Nat) :
    ∃ after, Reads ⟨none, number, true⟩ part.bodyLines part.addedLines after := by
  unfold bodyLines addedLines
  cases hbody : part.body with
  | headerOnly => exact ⟨_, Reads.nil _⟩
  | binary =>
      have hlist : ("Binary files " ++ part.oldName ++ " and " ++ part.newName ++ " differ").toList =
          'B' :: ("inary files ".toList ++ (part.oldName.toList ++ (" and ".toList ++
            (part.newName.toList ++ " differ".toList)))) := by
        simp only [String.toList_append, List.append_assoc]
        rfl
      exact ⟨_, Reads.cons (patchLine_quiet hlist (by decide) (by decide) (by decide) _)
        (Reads.nil _)⟩
  | hunks hunks =>
      have hlist : ("--- " ++ part.oldName).toList = '-' :: ("-- ".toList ++ part.oldName.toList) := by
        rw [String.toList_append]
        rfl
      have hold := patchLine_quiet hlist (by decide) (by decide) (by decide)
        ⟨none, number, true⟩
      have hnew := @patchLine_newName part.newName ⟨none, number, true⟩ rfl
      rcases targetPath_newName part with hpath | ⟨hpath, mode, hmode⟩
      · rcases reads_hunkLines part.path.path 0 0 hunks number true with ⟨after, hrest⟩
        rw [hpath] at hnew
        exact ⟨after, Reads.cons hold (Reads.cons hnew hrest)⟩
      -- A deleted file: its hunks add nothing, and no line of them is read.
      · have hgone := part.gone mode hmode hunks hbody
        rcases reads_hunkLines_gone hgone 0 0 number true with ⟨after, hrest⟩
        rw [hpath] at hnew
        have hnone : numberedFrom part.path.path 1 (newLines hunks) = [] := by
          have hkept : newLines hunks =
              (hunks.flatMap (·.kept)).map fun line => (false, line.text) := by
            unfold newLines
            rw [List.map_flatMap]
            apply List.flatMap_congr
            intro hunk hmem
            rw [hgone hunk hmem, List.map_nil, List.append_nil]
          rw [hkept]
          exact numberedFrom_kept _ _ _
        simp only
        rw [hnone]
        exact ⟨after, Reads.cons hold (Reads.cons hnew hrest)⟩

/-- A section is read the same way whatever came before it. -/
theorem reads_section (part : FileSection) (cursor : PatchCursor) :
    ∃ after, Reads cursor part.lines part.addedLines after := by
  rcases reads_bodyLines part cursor.line with ⟨after, hbody⟩
  have hheader := reads_headerLines part.extended part.index ⟨none, cursor.line, true⟩
  exact ⟨after, Reads.cons (patchLine_diff part.path cursor) (hheader.append hbody)⟩

theorem reads_patch (patch : List FileSection) (cursor : PatchCursor) :
    ∃ after, Reads cursor (patch.flatMap (·.lines)) (patch.flatMap (·.addedLines)) after := by
  induction patch generalizing cursor with
  | nil => exact ⟨cursor, Reads.nil cursor⟩
  | cons part patch ih =>
      rcases reads_section part cursor with ⟨next, hpart⟩
      rcases ih next with ⟨after, hrest⟩
      exact ⟨after, hpart.append hrest⟩

/-! ## Cutting the patch at its line ends -/

/-- A text without a line end, as a fact about a string. -/
def OneLine (text : String) : Prop := '\n' ∉ text.toList

instance : DecidablePred OneLine := fun text => inferInstanceAs (Decidable ('\n' ∉ text.toList))

theorem OneLine.append {first second : String} (h : OneLine first) (hsecond : OneLine second) :
    OneLine (first ++ second) := by
  unfold OneLine
  rw [String.toList_append, List.mem_append, not_or]
  exact ⟨h, hsecond⟩

theorem oneLine_path (path : PatchPath) : OneLine path.path := by
  intro hmem
  have hprintable := (path.plain '\n' hmem).2.2.2.1
  exact absurd hprintable (by decide)

theorem oneLine_hunkRange (before count : Nat) : OneLine (hunkRange before count) := by
  have hnumber : ∀ number : Nat, OneLine (toString number) := by
    intro number hmem
    exact absurd (isDigit_of_mem_toString hmem) (by decide)
  unfold hunkRange
  apply OneLine.append (hnumber _)
  by_cases hone : count = 1
  · rw [if_pos hone]
    exact List.not_mem_nil
  · rw [if_neg hone]
    exact OneLine.append (by decide) (hnumber _)

theorem oneLine_hunkHeader (oldBefore newBefore : Nat) (hunk : Hunk) :
    OneLine (hunkHeader oldBefore newBefore hunk) := by
  unfold hunkHeader
  apply OneLine.append
  · exact ((((show OneLine "@@ -" by decide).append (oneLine_hunkRange _ _)).append
      (show OneLine " +" by decide)).append (oneLine_hunkRange _ _)).append
        (show OneLine " @@" by decide)
  · cases hunk.heading with
    | none => exact List.not_mem_nil
    | some heading => exact OneLine.append (by decide) heading.newlineFree

theorem oneLine_hunkLines (oldBefore newBefore : Nat) (hunks : List Hunk) :
    ∀ line ∈ hunkLines oldBefore newBefore hunks, OneLine line := by
  have hsigned : ∀ (sign : String) (lines : List LineText), OneLine sign →
      ∀ line ∈ lines.map (sign ++ ·.text), OneLine line := by
    intro sign lines hsign line hmem
    rcases List.mem_map.mp hmem with ⟨content, _, rfl⟩
    exact hsign.append content.newlineFree
  have hmark : ∀ unterminated, ∀ line ∈ unterminatedMark unterminated, OneLine line := by
    intro unterminated line hmem
    cases unterminated with
    | false => exact absurd hmem List.not_mem_nil
    | true =>
        rw [List.mem_singleton.mp hmem]
        decide
  induction hunks generalizing oldBefore newBefore with
  | nil => exact fun line hmem => absurd hmem List.not_mem_nil
  | cons hunk hunks ih =>
      intro line hmem
      rcases List.mem_cons.mp hmem with rfl | hmem
      · exact oneLine_hunkHeader _ _ _
      · simp only [List.mem_append] at hmem
        rcases hmem with (((hremoved | hold) | hadded) | hnew) | hrest
        · exact hsigned "-" _ (by decide) line hremoved
        · exact hmark _ line hold
        · exact hsigned "+" _ (by decide) line hadded
        · exact hmark _ line hnew
        · exact ih _ _ line hrest

theorem oneLine_extended (extended : Extended) : ∀ line ∈ extended.lines, OneLine line := by
  intro line hmem
  cases extended with
  | created mode =>
      rw [List.mem_singleton.mp hmem]
      exact OneLine.append (by decide) mode.newlineFree
  | changed modes =>
      cases modes with
      | none => exact absurd hmem List.not_mem_nil
      | some modes =>
          rcases List.mem_cons.mp hmem with rfl | hmem
          · exact OneLine.append (by decide) modes.1.newlineFree
          · rw [List.mem_singleton.mp hmem]
            exact OneLine.append (by decide) modes.2.newlineFree
  | deleted mode =>
      rw [List.mem_singleton.mp hmem]
      exact OneLine.append (by decide) mode.newlineFree

theorem oneLine_headerLines (extended : Extended) (index : Option LineText) :
    ∀ line ∈ extended.lines ++ (index.map ("index " ++ ·.text)).toList, OneLine line := by
  intro line hmem
  rcases List.mem_append.mp hmem with hmode | hindex
  · exact oneLine_extended extended line hmode
  · cases index with
    | none => exact absurd hindex List.not_mem_nil
    | some index =>
        rw [List.mem_singleton.mp hindex]
        exact OneLine.append (by decide) index.newlineFree

theorem oneLine_section (part : FileSection) : ∀ line ∈ part.lines, OneLine line := by
  have hnames : OneLine part.oldName ∧ OneLine part.newName := by
    have hpath := oneLine_path part.path
    unfold oldName newName
    cases part.extended with
    | created mode => exact ⟨show OneLine "/dev/null" by decide, OneLine.append (by decide) hpath⟩
    | changed modes => exact ⟨OneLine.append (by decide) hpath, OneLine.append (by decide) hpath⟩
    | deleted mode => exact ⟨OneLine.append (by decide) hpath, show OneLine "/dev/null" by decide⟩
  have hbody : ∀ line ∈ part.bodyLines, OneLine line := by
    intro line hmem
    unfold bodyLines at hmem
    cases hkind : part.body with
    | headerOnly =>
        rw [hkind] at hmem
        exact absurd hmem List.not_mem_nil
    | binary =>
        rw [hkind] at hmem
        rw [List.mem_singleton.mp hmem]
        exact ((((show OneLine "Binary files " by decide).append hnames.1).append
          (show OneLine " and " by decide)).append hnames.2).append (by decide)
    | hunks hunks =>
        rw [hkind] at hmem
        rcases List.mem_cons.mp hmem with rfl | hmem
        · exact OneLine.append (by decide) hnames.1
        · rcases List.mem_cons.mp hmem with rfl | hmem
          · exact OneLine.append (by decide) hnames.2
          · exact oneLine_hunkLines 0 0 hunks line hmem
  intro line hmem
  unfold FileSection.lines headerLines at hmem
  rcases List.mem_cons.mp hmem with rfl | hmem
  · have hpath := oneLine_path part.path
    exact (((show OneLine "diff --git a/" by decide).append hpath).append
      (show OneLine " b/" by decide)).append hpath
  · rcases List.mem_append.mp hmem with hheader | hmem
    · exact oneLine_headerLines part.extended part.index line hheader
    · exact hbody line hmem

theorem splitText_renderPatch (patch : List FileSection) :
    splitText '\n' (renderPatch patch) = patch.flatMap (·.lines) ++ [""] := by
  have hclean : ∀ part ∈ (patch.flatMap (·.lines)).map String.toList, '\n' ∉ part := by
    intro part hpart
    rcases List.mem_map.mp hpart with ⟨line, hmem, rfl⟩
    rcases List.mem_flatMap.mp hmem with ⟨file, _, hline⟩
    exact oneLine_section file line hline
  have hsplit := splitOn_flatMap hclean
  unfold splitText renderPatch
  rw [String.toList_ofList]
  rw [List.flatMap_map] at hsplit
  rw [hsplit, List.map_append, List.map_map]
  simp [Function.comp_def]

/-- The added lines of a patch, whatever they say, are those of the new files. -/
theorem parseAddedLines_renderPatch (patch : List FileSection) :
    parseAddedLines (renderPatch patch) = patch.flatMap (·.addedLines) := by
  rcases reads_patch patch {} with ⟨after, hpatch⟩
  have hend : Reads after [""] [] after := by
    have hline : patchLine "" after = (after, none) := by
      unfold patchLine
      cases after.path with
      | none => simp [startsWith]
      | some path => simp [startsWith]
    exact Reads.cons hline (Reads.nil after)
  have hall := (hpatch.append hend).found
  rw [List.append_nil] at hall
  unfold parseAddedLines
  rw [splitText_renderPatch]
  exact hall

end Orchestrator
