import Orchestrator.Execution.AddedLines
import Orchestrator.Kit.Table

/-! # The renderings of a staged change

One change of a repository in the three formats that `WorkspaceChanges.collect` asks Git for: the
raw records, the numbers of lines, and the zero-context patch (`execution/workspace-changes.ts`).
A path is any text; in the patch Git quotes it where it has to. The records of the first two
formats are joined by path.
-/

namespace Orchestrator

open Kit

/-! ## Names in a patch -/

/-- A character that a name must be quoted for, with `core.quotePath=false`. -/
def mustQuote (character : Char) : Bool :=
  character.toNat < 32 || character.toNat = 127 || character = '"' || character = '\\'

def escapedNameChar (character : Char) : List Char :=
  if character = '\x07' then ['\\', 'a']
  else if character = '\x08' then ['\\', 'b']
  else if character = '\t' then ['\\', 't']
  else if character = '\n' then ['\\', 'n']
  else if character = '\x0b' then ['\\', 'v']
  else if character = '\x0c' then ['\\', 'f']
  else if character = '\r' then ['\\', 'r']
  else if character = '"' ∨ character = '\\' then ['\\', character]
  else if mustQuote character then
    ['\\', Nat.digitChar (character.toNat / 64), Nat.digitChar (character.toNat / 8 % 8),
      Nat.digitChar (character.toNat % 8)]
  else [character]

def quotedName (name : String) : String :=
  if name.toList.any mustQuote then
    String.ofList ('"' :: (name.toList.flatMap escapedNameChar ++ ['"']))
  else name

/-- A name behind `---` or `+++`: one with a blank is followed by a tab. -/
def fileName (label : String) : String := label ++ if ' ' ∈ label.toList then "\t" else ""

/-! ## Sections of the patch -/

/-- One section of the patch; a change of the type of a file has two. -/
structure PatchSection where
  path : String
  extended : Extended
  index : Option LineText
  body : SectionBody
  /-- Nothing is added to a file that is gone. -/
  gone : ∀ mode, extended = .deleted mode → ∀ runs, body = .hunks runs →
    ∀ hunk ∈ runs, hunk.added = []
  /-- The names stand in front of a hunk. -/
  someHunk : ∀ runs, body = .hunks runs → runs ≠ []

namespace PatchSection

variable (part : PatchSection)

def oldLabel : String :=
  match part.extended with
  | .created _ => "/dev/null"
  | _ => quotedName ("a/" ++ part.path)

def newLabel : String :=
  match part.extended with
  | .deleted _ => "/dev/null"
  | _ => quotedName ("b/" ++ part.path)

/-- The lines in front of the content. -/
def headerLines : List String :=
  ("diff --git " ++ quotedName ("a/" ++ part.path) ++ " " ++ quotedName ("b/" ++ part.path)) ::
    (part.extended.lines ++ (part.index.map ("index " ++ ·.text)).toList)

def bodyLines : List String :=
  match part.body with
  | .headerOnly => []
  | .binary => ["Binary files " ++ part.oldLabel ++ " and " ++ part.newLabel ++ " differ"]
  | .hunks hunks =>
      ("--- " ++ fileName part.oldLabel) :: ("+++ " ++ fileName part.newLabel) ::
        hunkLines 0 0 hunks

def lines : List String := part.headerLines ++ part.bodyLines

/-- What the added lines say. -/
def addedTexts : List String :=
  match part.body with
  | .hunks hunks => hunks.flatMap fun hunk => hunk.added.map (·.text)
  | _ => []

end PatchSection

/-- The standard output of `git diff -U0`. -/
def patchOutput (patch : List PatchSection) : String :=
  String.ofList ((patch.flatMap (·.lines)).flatMap fun line => line.toList ++ ['\n'])

/-! ## Changed files -/

/-- A field of a raw record. -/
structure RawField where
  text : String
  plain : '\x00' ∉ text.toList ∧ ' ' ∉ text.toList

structure StagedFile where
  path : String
  pathFree : '\x00' ∉ path.toList
  oldMode : RawField
  newMode : RawField
  oldBlob : RawField
  newBlob : RawField
  status : Char
  statusFree : status ≠ '\x00' ∧ status ≠ ' '
  /-- Added and deleted lines; none for a binary file. -/
  counts : Option (Nat × Nat)
  sections : List PatchSection
  samePath : ∀ part ∈ sections, part.path = path
  /-- There are no hunks of a binary file. -/
  binary : counts = none → ∀ part ∈ sections, ∀ runs, part.body ≠ .hunks runs

namespace StagedFile

variable (file : StagedFile)

def rawHeader : String :=
  ":" ++ file.oldMode.text ++ " " ++ file.newMode.text ++ " " ++ file.oldBlob.text ++ " " ++
    file.newBlob.text ++ " " ++ String.singleton file.status

def countText (count : Option Nat) : String :=
  match count with
  | some count => toString count
  | none => "-"

def numstatRecord : String :=
  countText (file.counts.map (·.1)) ++ "\t" ++ countText (file.counts.map (·.2)) ++ "\t" ++ file.path

/-- The file as the diff policy gets it. -/
def changed : ChangedFile where
  path := file.path
  status := String.singleton file.status
  mode := file.newMode.text
  addedLines := file.counts.map (·.1)
  deletedLines := file.counts.map (·.2)

end StagedFile

/-- Fields, each ended by a NUL character. -/
def nulEnded (fields : List String) : String :=
  String.ofList (fields.flatMap fun field => field.toList ++ ['\x00'])

/-- The standard output of `git diff --raw -z`. -/
def rawOutput (files : List StagedFile) : String :=
  nulEnded (files.flatMap fun file => [file.rawHeader, file.path])

/-- The standard output of `git diff --numstat -z`. -/
def numstatOutput (files : List StagedFile) : String :=
  nulEnded (files.map (·.numstatRecord))

/-! ## Reading the records -/

theorem splitText_nulEnded {fields : List String} (h : ∀ field ∈ fields, '\x00' ∉ field.toList) :
    splitText '\x00' (nulEnded fields) = fields ++ [""] := by
  have hclean : ∀ part ∈ fields.map String.toList, '\x00' ∉ part := by
    intro part hpart
    obtain ⟨field, hmem, rfl⟩ := List.mem_map.mp hpart
    exact h field hmem
  have hsplit := splitOn_flatMap hclean
  rw [List.flatMap_map] at hsplit
  unfold splitText nulEnded
  rw [String.toList_ofList, hsplit, List.map_append, List.map_map]
  simp [Function.comp_def]

/-- The blanks of a raw header stand between its fields. -/
theorem splitText_rawHeader (file : StagedFile) :
    splitText ' ' (sliceFrom 1 file.rawHeader) =
      [file.oldMode.text, file.newMode.text, file.oldBlob.text, file.newBlob.text,
        String.singleton file.status] := by
  have hlist : (sliceFrom 1 file.rawHeader).toList =
      file.oldMode.text.toList ++ ' ' :: (file.newMode.text.toList ++ ' ' ::
        (file.oldBlob.text.toList ++ ' ' :: (file.newBlob.text.toList ++ ' ' :: [file.status]))) := by
    unfold sliceFrom StagedFile.rawHeader
    simp
  have hlast : [file.status].splitOn ' ' = [[file.status]] := by
    have hblank : ' ' ∉ [file.status] := by
      intro hmem
      exact file.statusFree.2 (List.mem_singleton.mp hmem).symm
    exact List.splitOn_eq_singleton hblank
  unfold splitText
  rw [hlist, List.splitOn_append_cons_self_of_not_mem file.oldMode.plain.2,
    List.splitOn_append_cons_self_of_not_mem file.newMode.plain.2,
    List.splitOn_append_cons_self_of_not_mem file.oldBlob.plain.2,
    List.splitOn_append_cons_self_of_not_mem file.newBlob.plain.2, hlast]
  simp

theorem parseRawFields_render (files : List StagedFile) :
    parseRawFields ((files.flatMap fun file => [file.rawHeader, file.path]) ++ [""]) =
      files.map fun file =>
        ⟨file.path, String.singleton file.status, file.newMode.text⟩ := by
  induction files with
  | nil => rfl
  | cons file files ih =>
      have hstart : startsWith file.rawHeader ":" = true := by
        unfold startsWith StagedFile.rawHeader
        rw [List.isPrefixOf_iff_prefix]
        simp only [String.toList_append, List.append_assoc]
        exact List.prefix_append _ _
      rw [List.flatMap_cons, List.append_assoc]
      show parseRawFields (file.rawHeader :: file.path ::
        ((files.flatMap fun file => [file.rawHeader, file.path]) ++ [""])) = _
      unfold parseRawFields
      rw [if_pos hstart, splitText_rawHeader, ih, List.map_cons]
      simp

theorem nul_not_mem_rawHeader (file : StagedFile) : '\x00' ∉ file.rawHeader.toList := by
  unfold StagedFile.rawHeader
  simp [file.oldMode.plain.1, file.newMode.plain.1, file.oldBlob.plain.1, file.newBlob.plain.1,
    file.statusFree.1.symm]

theorem parseRawDiff_rawOutput (files : List StagedFile) :
    parseRawDiff (rawOutput files) = files.map fun file =>
      ⟨file.path, String.singleton file.status, file.newMode.text⟩ := by
  unfold parseRawDiff rawOutput
  rw [splitText_nulEnded, parseRawFields_render]
  intro field hmem
  obtain ⟨file, _, hfield⟩ := List.mem_flatMap.mp hmem
  rcases List.mem_cons.mp hfield with rfl | hpath
  · exact nul_not_mem_rawHeader file
  · rw [List.mem_singleton.mp hpath]
    exact file.pathFree

theorem countText_free (count : Option Nat) (character : Char) (hdigit : character.isDigit = false)
    (hdash : character ≠ '-') : character ∉ (StagedFile.countText count).toList := by
  intro hmem
  cases count with
  | none => exact hdash (List.mem_singleton.mp hmem)
  | some number =>
      have hfigure := isDigit_of_mem_toString hmem
      rw [hdigit] at hfigure
      exact Bool.noConfusion hfigure

theorem digits_countText (count : Option Nat) : digits (StagedFile.countText count) = count := by
  cases count with
  | none => rfl
  | some number => exact digits_toString number

theorem countText_reads (count : Option Nat) :
    StagedFile.countText count = "-" ∨ (digits (StagedFile.countText count)).isSome = true := by
  cases count with
  | none => exact Or.inl rfl
  | some number =>
      right
      rw [digits_countText]
      rfl

/-- A path with tabs is put together again. -/
theorem parseNumstatRecord_numstatRecord (file : StagedFile) :
    parseNumstatRecord file.numstatRecord =
      some (file.path, ⟨file.counts.map (·.1), file.counts.map (·.2)⟩) := by
  have hlist : file.numstatRecord.toList =
      (StagedFile.countText (file.counts.map (·.1))).toList ++ '\t' ::
        ((StagedFile.countText (file.counts.map (·.2))).toList ++ '\t' :: file.path.toList) := by
    unfold StagedFile.numstatRecord
    simp
  have hsplit : splitText '\t' file.numstatRecord =
      StagedFile.countText (file.counts.map (·.1)) ::
        StagedFile.countText (file.counts.map (·.2)) :: splitText '\t' file.path := by
    unfold splitText
    rw [hlist, List.splitOn_append_cons_self_of_not_mem (countText_free _ '\t' rfl (by decide)),
      List.splitOn_append_cons_self_of_not_mem (countText_free _ '\t' rfl (by decide))]
    simp
  have hpath : "\t".intercalate (splitText '\t' file.path) = file.path := by
    apply String.toList_inj.mp
    rw [String.toList_intercalate]
    unfold splitText
    rw [List.map_map]
    have hid : String.toList ∘ String.ofList = id := funext fun _ => String.toList_ofList
    rw [hid, List.map_id]
    exact List.intercalate_splitOn '\t'
  have hsome : splitText '\t' file.path ≠ [] := by
    unfold splitText
    simp
  unfold parseNumstatRecord
  rw [hsplit]
  simp only
  rw [if_pos ⟨hsome, countText_reads _, countText_reads _⟩, hpath, digits_countText,
    digits_countText]

theorem nul_not_mem_numstatRecord (file : StagedFile) : '\x00' ∉ file.numstatRecord.toList := by
  have hcount := fun count => countText_free count '\x00' rfl (by decide)
  unfold StagedFile.numstatRecord
  simp [hcount, file.pathFree]

theorem parseNumstat_numstatOutput (files : List StagedFile) :
    parseNumstat (numstatOutput files) =
      (files.map fun file =>
        (file.path, (⟨file.counts.map (·.1), file.counts.map (·.2)⟩ : LineCounts))).reverse := by
  unfold parseNumstat numstatOutput
  rw [splitText_nulEnded, List.filterMap_append, List.filterMap_map]
  · have hread : parseNumstatRecord ∘ StagedFile.numstatRecord = fun file =>
        some (file.path, (⟨file.counts.map (·.1), file.counts.map (·.2)⟩ : LineCounts)) :=
      funext parseNumstatRecord_numstatRecord
    have hempty : [""].filterMap parseNumstatRecord = [] := rfl
    rw [hread, hempty, List.append_nil]
    simp
  · intro field hmem
    obtain ⟨file, _, rfl⟩ := List.mem_map.mp hmem
    exact nul_not_mem_numstatRecord file

/-- The two formats are joined by path: each file with its own numbers of lines. -/
theorem changedFiles_render {files : List StagedFile} (different : (files.map (·.path)).Nodup) :
    changedFiles (rawOutput files) (numstatOutput files) = files.map StagedFile.changed := by
  unfold changedFiles
  rw [parseRawDiff_rawOutput, parseNumstat_numstatOutput, List.map_map]
  apply List.map_congr_left
  intro file hmem
  have hkeys : ((files.map fun file =>
      (file.path, (⟨file.counts.map (·.1), file.counts.map (·.2)⟩ : LineCounts))).reverse.map
        (·.1)).Nodup := by
    rw [List.map_reverse, List.nodup_reverse, List.map_map]
    exact different
  have hlookup : (files.map fun file =>
      (file.path, (⟨file.counts.map (·.1), file.counts.map (·.2)⟩ : LineCounts))).reverse.lookup
        file.path = some ⟨file.counts.map (·.1), file.counts.map (·.2)⟩ := by
    rw [lookup_eq_some_iff_mem hkeys, List.mem_reverse]
    exact List.mem_map.mpr ⟨file, hmem, rfl⟩
  simp only [Function.comp_apply, hlookup]
  rfl

end Orchestrator
