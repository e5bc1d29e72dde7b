import Orchestrator.Execution.DiffPolicy
import Orchestrator.Execution.StageCalls

/-! # Reading changes from Git

The parsers of Git's machine-readable output, and the procedures that collect the
changes of a worktree or of a commit range (`execution/workspace-changes.ts`).
-/

namespace Orchestrator

open Kit

/-- `text.split(separator)` for a separator of one character. -/
def splitText (separator : Char) (text : String) : List String :=
  (text.toList.splitOn separator).map String.ofList

/-- `text.startsWith(start)`. -/
def startsWith (text start : String) : Bool := start.toList.isPrefixOf text.toList

/-- `text.slice(count)`. -/
def sliceFrom (count : Nat) (text : String) : String := String.ofList (text.toList.drop count)

/-- The white space and line terminators of the language. -/
def isBlank (character : Char) : Bool :=
  ['\t', '\n', '\x0b', '\x0c', '\r', ' ', '\u00a0', '\u1680', '\u2028', '\u2029', '\u202f', '\u205f',
    '\u3000', '\ufeff'].contains character || ('\u2000' ≤ character && character ≤ '\u200a')

/-- `text.trim()`. -/
def trimText (text : String) : String :=
  String.ofList ((text.toList.dropWhile isBlank).reverse.dropWhile isBlank).reverse

/-- What `git.output` makes of the standard output. -/
def gitOutput (stdout : String) : String := trimText stdout

/-- `\d+`, as a number. -/
def digits (text : String) : Option Nat :=
  if text ≠ "" ∧ text.toList.all Char.isDigit then
    some (text.toList.foldl (fun number digit => 10 * number + (digit.toNat - '0'.toNat)) 0)
  else none

/-! ## Parsers -/

/-- Path, status and resulting mode of one changed path. -/
structure RawChange where
  path : String
  status : String
  mode : String
  deriving DecidableEq, Repr

def parseRawFields : List String → List RawChange
  | header :: path :: fields =>
      if startsWith header ":" then
        let parts := splitText ' ' (sliceFrom 1 header)
        ⟨path, String.ofList (((parts[4]?).getD "?").toList.take 1), (parts[1]?).getD "000000"⟩ ::
          parseRawFields fields
      else []
  | _ => []

/-- Parses `git diff --raw -z --no-renames`. -/
def parseRawDiff (output : String) : List RawChange := parseRawFields (splitText '\x00' output)

/-- The added and deleted lines of one path; binary files report `-`. -/
structure LineCounts where
  added : Option Nat
  deleted : Option Nat
  deriving DecidableEq, Repr

def parseNumstatRecord (record : String) : Option (String × LineCounts) :=
  match splitText '\t' record with
  | added :: deleted :: path =>
      if path ≠ [] ∧ (added = "-" ∨ (digits added).isSome) ∧
          (deleted = "-" ∨ (digits deleted).isSome) then
        some ("\t".intercalate path, ⟨digits added, digits deleted⟩)
      else none
  | _ => none

/-- Parses `git diff --numstat -z --no-renames`; a later record of a path replaces an
earlier one. -/
def parseNumstat (output : String) : List (String × LineCounts) :=
  ((splitText '\x00' output).filterMap parseNumstatRecord).reverse

/-- Where `parseAddedLines` stands in the patch. -/
structure PatchCursor where
  path : Option String := none
  line : Nat := 0
  inHeader : Bool := false
  deriving DecidableEq, Repr

/-- The path that a `+++` line names. -/
def targetPath (target : String) : Option String :=
  if target = "/dev/null" then none
  else
    let unquoted := if startsWith target "\"b/" then sliceFrom 3 target
      else if startsWith target "b/" then sliceFrom 2 target else target
    let characters := unquoted.toList
    some (if characters.getLast? = some '"' then String.ofList characters.dropLast else unquoted)

/-- The first line of a hunk: the number after `+`, up to a comma or ` @@`. -/
def hunkLine (text : String) : Nat :=
  let number (part : List Char) : Option Nat :=
    let figures := part.takeWhile Char.isDigit
    let afterwards := part.dropWhile Char.isDigit
    let counted := match afterwards with
      | ',' :: more => if (more.takeWhile Char.isDigit).isEmpty then afterwards
          else more.dropWhile Char.isDigit
      | _ => afterwards
    if " @@".toList.isPrefixOf counted then digits (String.ofList figures) else none
  (text.toList.tails.findSome? fun
    | '+' :: part => number part
    | _ => none).getD 0

def patchLine (text : String) (cursor : PatchCursor) : PatchCursor × Option AddedLine :=
  if startsWith text "diff --git " then ({ cursor with inHeader := true, path := none }, none)
  else if cursor.inHeader && startsWith text "+++ " then
    ({ cursor with path := targetPath (sliceFrom 4 text) }, none)
  else if startsWith text "@@" then
    ({ cursor with inHeader := false, line := hunkLine text }, none)
  else
    match cursor.path with
    | some path =>
        if !cursor.inHeader && startsWith text "+" then
          ({ cursor with line := cursor.line + 1 }, some ⟨path, cursor.line, sliceFrom 1 text⟩)
        else (cursor, none)
    | none => (cursor, none)

def addedLinesFrom (cursor : PatchCursor) : List String → List AddedLine
  | [] => []
  | text :: lines =>
      let (cursor, added) := patchLine text cursor
      added.toList ++ addedLinesFrom cursor lines

/-- Added lines with their new line numbers, from a zero-context patch. -/
def parseAddedLines (patch : String) : List AddedLine :=
  addedLinesFrom {} (splitText '\n' patch)

structure RangeCommit where
  sha : String
  authorName : String
  authorEmail : String
  parents : List String
  /-- Values of `Orchestrator-Task` trailers. -/
  taskTrailers : List String
  deriving DecidableEq, Repr

def parseRangeCommit (record : String) : RangeCommit :=
  let fields := splitText '\x00' record
  let field (index : Nat) : String := (fields[index]?).getD ""
  { sha := field 0
    authorName := field 1
    authorEmail := field 2
    parents := (splitText ' ' (field 3)).filter (· ≠ "")
    taskTrailers := ((splitText ',' (field 4)).map trimText).filter (· ≠ "") }

/-- Parses the records of `git log`, newest first. -/
def parseRangeCommits (output : String) : List RangeCommit :=
  (((splitText '\x1e' output).map trimText).filter (· ≠ "")).map parseRangeCommit

/-! ## Collected changes -/

def changedFiles (raw numstat : String) : List ChangedFile :=
  let counts := parseNumstat numstat
  (parseRawDiff raw).map fun entry =>
    { path := entry.path, status := entry.status, mode := entry.mode
      addedLines := (counts.lookup entry.path).bind (·.added)
      deletedLines := (counts.lookup entry.path).bind (·.deleted) }

/-- The number of lines that decides whether the patch is read. -/
def totalLines (files : List ChangedFile) : Nat :=
  files.foldl (fun total file => total + file.addedLines.getD 0 + file.deletedLines.getD 0) 0

/-- The changes of one diff, read in three formats. -/
def collectDiff (repository workspacePath : String) (scope : DiffScope) (maxChangedLines : Nat) :
    StageProc RepositoryChanges := do
  let raw ← service (.gitDiff workspacePath scope .raw)
  let numstat ← service (.gitDiff workspacePath scope .numstat)
  let files := changedFiles raw numstat
  if files.isEmpty || maxChangedLines < totalLines files then
    pure ⟨repository, files, [], !files.isEmpty⟩
  else do
    let patch ← service (.gitDiff workspacePath scope .patch)
    pure ⟨repository, files, parseAddedLines (gitOutput patch), false⟩

/-- `WorkspaceChanges.collect`: what is staged is what a following commit records. -/
def collect (repository workspacePath : String) (maxChangedLines : Nat) :
    StageProc RepositoryChanges := do
  let _ ← service (.gitAdd workspacePath)
  collectDiff repository workspacePath .cached maxChangedLines

/-- `WorkspaceChanges.collectRange`: the committed change between two commits. -/
def collectRange (repository workspacePath base head : String) (maxChangedLines : Nat) :
    StageProc RepositoryChanges :=
  collectDiff repository workspacePath (.range base head) maxChangedLines

/-- Commits reachable from `head` but not `base`. -/
def commitsInRange (workspacePath base head : String) : StageProc (List RangeCommit) := do
  let output ← service (.gitLog workspacePath base head)
  pure (parseRangeCommits (gitOutput output))

end Orchestrator
