import Mathlib.Data.List.TakeWhile
import Orchestrator.Execution.WorkspaceChanges
import Orchestrator.Kit.Occurrences

/-! # The list of worktrees

`parseWorktreeList` reads back what `git worktree list --porcelain -z` writes
(`workspaces/git.ts`). Every attribute ends in a NUL character and every worktree in one more, so
a path or a reason may hold any other character, and no worktree is given attributes of its
neighbour.
-/

namespace Orchestrator

open Kit

structure WorktreeEntry where
  path : String
  head : Option String := none
  branch : Option String := none
  locked : Bool := false
  lockReason : Option String := none
  deriving DecidableEq, Repr

/-- What stands before the first blank of a field. -/
def fieldKey (field : String) : String := String.ofList (field.toList.takeWhile (· ≠ ' '))

/-- What stands behind it; nothing, if there is no blank. -/
def fieldValue (field : String) : String :=
  String.ofList ((field.toList.dropWhile (· ≠ ' ')).drop 1)

/-- The entries read so far, and the one that is being read. -/
structure WorktreeCursor where
  entries : List WorktreeEntry := []
  current : Option WorktreeEntry := none
  deriving DecidableEq, Repr

def readWorktreeField (cursor : WorktreeCursor) (field : String) : WorktreeCursor :=
  if field = "" then ⟨cursor.entries ++ cursor.current.toList, none⟩
  else if fieldKey field = "worktree" then
    ⟨cursor.entries ++ cursor.current.toList, some { path := fieldValue field }⟩
  else match cursor.current with
    | none => cursor
    | some entry =>
        if fieldKey field = "HEAD" then
          { cursor with current := some { entry with head := some (fieldValue field) } }
        else if fieldKey field = "branch" then
          { cursor with current := some { entry with branch := some (fieldValue field) } }
        else if fieldKey field = "locked" then
          { cursor with current := some { entry with
              locked := true
              lockReason := if fieldValue field = "" then none else some (fieldValue field) } }
        else cursor

/-- Parses `git worktree list --porcelain -z`. -/
def parseWorktreeList (output : String) : List WorktreeEntry :=
  let cursor := (splitText '\x00' output).foldl readWorktreeField {}
  cursor.entries ++ cursor.current.toList

/-! ## What Git writes -/

/-- A text that a field can hold. -/
structure FieldText where
  text : String
  nulFree : '\x00' ∉ text.toList

/-- An attribute that is not read, such as `bare`, `detached` or `prunable` with its reason. -/
structure IgnoredAttribute where
  key : FieldText
  value : Option FieldText
  unblank : ' ' ∉ key.text.toList
  unread : key.text ∉ ["", "worktree", "HEAD", "branch", "locked"]

/-- A worktree as Git knows it, with further attributes wherever Git has some. -/
structure WorktreeRecord where
  path : FieldText
  head : Option FieldText
  branch : Option FieldText
  /-- Whether it is locked, and with which reason. -/
  lock : Option (Option { reason : FieldText // reason.text ≠ "" })
  afterPath : List IgnoredAttribute := []
  afterHead : List IgnoredAttribute := []
  afterBranch : List IgnoredAttribute := []
  afterLock : List IgnoredAttribute := []

/-- An attribute with a value. -/
def attributeField (key : String) (value : FieldText) : String := key ++ " " ++ value.text

def IgnoredAttribute.field (ignored : IgnoredAttribute) : String :=
  match ignored.value with
  | none => ignored.key.text
  | some value => attributeField ignored.key.text value

namespace WorktreeRecord

def lockField (record : WorktreeRecord) : List String :=
  match record.lock with
  | none => []
  | some none => ["locked"]
  | some (some reason) => [attributeField "locked" reason.1]

/-- The fields of a worktree in Git's order. -/
def fields (record : WorktreeRecord) : List String :=
  attributeField "worktree" record.path ::
    (record.afterPath.map (·.field) ++ (record.head.map (attributeField "HEAD")).toList ++
      record.afterHead.map (·.field) ++ (record.branch.map (attributeField "branch")).toList ++
      record.afterBranch.map (·.field) ++ record.lockField ++ record.afterLock.map (·.field))

/-- What the parser is to find. -/
def entry (record : WorktreeRecord) : WorktreeEntry where
  path := record.path.text
  head := record.head.map (·.text)
  branch := record.branch.map (·.text)
  locked := record.lock.isSome
  lockReason := record.lock.join.map (·.1.text)

end WorktreeRecord

/-- The output of `git worktree list --porcelain -z`. -/
def renderWorktreeList (records : List WorktreeRecord) : String :=
  String.ofList ((records.flatMap fun record => record.fields ++ [""]).flatMap
    fun field => field.toList ++ ['\x00'])

/-! ## Fields -/

/-- The key ends at the first blank, which the value may contain again. -/
theorem fieldKey_attributeField {key : String} (hkey : ' ' ∉ key.toList) (value : FieldText) :
    fieldKey (attributeField key value) = key ∧ fieldValue (attributeField key value) = value.text := by
  have hlist : (attributeField key value).toList = key.toList ++ ' ' :: value.text.toList := by
    unfold attributeField
    rw [String.toList_append, String.toList_append, List.append_assoc]
    rfl
  have hall : ∀ character ∈ key.toList, decide (character ≠ ' ') = true :=
    fun character hmem => decide_eq_true (fun heq => hkey (heq ▸ hmem))
  unfold fieldKey fieldValue
  rw [hlist, List.takeWhile_append_of_pos hall, List.dropWhile_append_of_pos hall]
  simp

theorem fieldKey_of_unblank {key : String} (hkey : ' ' ∉ key.toList) :
    fieldKey key = key ∧ fieldValue key = "" := by
  have hall : ∀ character ∈ key.toList, decide (character ≠ ' ') = true :=
    fun character hmem => decide_eq_true (fun heq => hkey (heq ▸ hmem))
  unfold fieldKey fieldValue
  rw [List.takeWhile_eq_self_iff.mpr hall, List.dropWhile_eq_nil_iff.mpr hall]
  simp

theorem attributeField_ne (key : String) (value : FieldText) : attributeField key value ≠ "" := by
  intro hempty
  have hlist := congrArg String.toList hempty
  unfold attributeField at hlist
  simp at hlist

theorem IgnoredAttribute.fieldKey_field (ignored : IgnoredAttribute) :
    fieldKey ignored.field = ignored.key.text := by
  unfold IgnoredAttribute.field
  cases ignored.value with
  | none => exact (fieldKey_of_unblank ignored.unblank).1
  | some value => exact (fieldKey_attributeField ignored.unblank value).1

theorem IgnoredAttribute.field_ne (ignored : IgnoredAttribute) : ignored.field ≠ "" := by
  intro hempty
  have hkey := ignored.fieldKey_field
  rw [hempty] at hkey
  have hunread := ignored.unread
  rw [← hkey] at hunread
  exact hunread (by decide)

/-! ## Reading one field -/

section Reading

variable {entries : List WorktreeEntry} {entry : WorktreeEntry}

/-- An empty field closes the entry it is read in. -/
theorem readWorktreeField_end (entries : List WorktreeEntry) (current : Option WorktreeEntry) :
    readWorktreeField ⟨entries, current⟩ "" = ⟨entries ++ current.toList, none⟩ := rfl

/-- Each record starts with its path, which opens the entry. -/
theorem readWorktreeField_worktree (path : FieldText) :
    readWorktreeField ⟨entries, none⟩ (attributeField "worktree" path) =
      ⟨entries, some { path := path.text }⟩ := by
  have hfield := @fieldKey_attributeField "worktree" (by decide) path
  unfold readWorktreeField
  rw [if_neg (attributeField_ne _ _), hfield.1, hfield.2, if_pos rfl]
  simp

theorem readWorktreeField_head (value : FieldText) :
    readWorktreeField ⟨entries, some entry⟩ (attributeField "HEAD" value) =
      ⟨entries, some { entry with head := some value.text }⟩ := by
  have hfield := @fieldKey_attributeField "HEAD" (by decide) value
  unfold readWorktreeField
  rw [if_neg (attributeField_ne _ _), hfield.1, hfield.2, if_neg (by decide)]
  rfl

theorem readWorktreeField_branch (value : FieldText) :
    readWorktreeField ⟨entries, some entry⟩ (attributeField "branch" value) =
      ⟨entries, some { entry with branch := some value.text }⟩ := by
  have hfield := @fieldKey_attributeField "branch" (by decide) value
  unfold readWorktreeField
  rw [if_neg (attributeField_ne _ _), hfield.1, hfield.2, if_neg (by decide)]
  rfl

theorem readWorktreeField_locked :
    readWorktreeField ⟨entries, some entry⟩ "locked" =
      ⟨entries, some { entry with locked := true, lockReason := none }⟩ := rfl

/-- A worktree may be locked with a reason or without one. -/
theorem readWorktreeField_reason (reason : { reason : FieldText // reason.text ≠ "" }) :
    readWorktreeField ⟨entries, some entry⟩ (attributeField "locked" reason.1) =
      ⟨entries, some { entry with locked := true, lockReason := some reason.1.text }⟩ := by
  have hfield := @fieldKey_attributeField "locked" (by decide) reason.1
  unfold readWorktreeField
  rw [if_neg (attributeField_ne _ _), hfield.1, hfield.2, if_neg (by decide)]
  simp [reason.2]

/-- Other attributes change nothing. -/
theorem readWorktreeField_ignored (ignored : IgnoredAttribute) :
    readWorktreeField ⟨entries, some entry⟩ ignored.field = ⟨entries, some entry⟩ := by
  have hunread := ignored.unread
  simp only [List.mem_cons, List.not_mem_nil, or_false, not_or] at hunread
  unfold readWorktreeField
  rw [if_neg ignored.field_ne, ignored.fieldKey_field, if_neg hunread.2.1]
  simp only [hunread.2.2.1, hunread.2.2.2.1, hunread.2.2.2.2, if_false]

theorem foldl_ignored (more : List IgnoredAttribute) :
    (more.map (·.field)).foldl readWorktreeField ⟨entries, some entry⟩ =
      ⟨entries, some entry⟩ := by
  induction more with
  | nil => rfl
  | cons ignored more ih => rw [List.map_cons, List.foldl_cons, readWorktreeField_ignored, ih]

theorem foldl_head (head : Option FieldText) :
    (head.map (attributeField "HEAD")).toList.foldl readWorktreeField ⟨entries, some entry⟩ =
      ⟨entries, some { entry with head := (head.map (·.text)).or entry.head }⟩ := by
  cases head with
  | none => rfl
  | some value => exact readWorktreeField_head value

theorem foldl_branch (branch : Option FieldText) :
    (branch.map (attributeField "branch")).toList.foldl readWorktreeField ⟨entries, some entry⟩ =
      ⟨entries, some { entry with branch := (branch.map (·.text)).or entry.branch }⟩ := by
  cases branch with
  | none => rfl
  | some value => exact readWorktreeField_branch value

end Reading

/-! ## Reading the list back -/

/-- The fields of one worktree, read where no other one is open, are that worktree. -/
theorem foldl_fields (record : WorktreeRecord) (entries : List WorktreeEntry) :
    record.fields.foldl readWorktreeField ⟨entries, none⟩ = ⟨entries, some record.entry⟩ := by
  unfold WorktreeRecord.fields
  rw [List.foldl_cons, readWorktreeField_worktree]
  simp only [List.foldl_append, foldl_ignored, foldl_head, foldl_branch]
  unfold WorktreeRecord.lockField WorktreeRecord.entry
  cases record.lock with
  | none => simp [foldl_ignored]
  | some lock =>
      cases lock with
      | none =>
          rw [List.foldl_cons, List.foldl_nil, readWorktreeField_locked, foldl_ignored]
          simp
      | some reason =>
          rw [List.foldl_cons, List.foldl_nil, readWorktreeField_reason, foldl_ignored]
          simp

/-- Each record closes its entry, so none leaks into the next. -/
theorem foldl_records (records : List WorktreeRecord) (entries : List WorktreeEntry) :
    (records.flatMap fun record => record.fields ++ [""]).foldl readWorktreeField
      ⟨entries, none⟩ = ⟨entries ++ records.map (·.entry), none⟩ := by
  induction records generalizing entries with
  | nil => simp
  | cons record records ih =>
      rw [List.flatMap_cons, List.foldl_append, List.foldl_append, foldl_fields, List.foldl_cons,
        List.foldl_nil, readWorktreeField_end, ih]
      simp

/-- No field contains the separator. -/
theorem nul_not_mem_attributeField {key : String} (hkey : '\x00' ∉ key.toList)
    (value : FieldText) : '\x00' ∉ (attributeField key value).toList := by
  unfold attributeField
  rw [String.toList_append, String.toList_append, List.mem_append, List.mem_append, not_or, not_or]
  exact ⟨⟨hkey, by decide⟩, value.nulFree⟩

theorem nul_not_mem_ignored (ignored : IgnoredAttribute) : '\x00' ∉ ignored.field.toList := by
  unfold IgnoredAttribute.field
  cases ignored.value with
  | none => exact ignored.key.nulFree
  | some value => exact nul_not_mem_attributeField ignored.key.nulFree value

theorem nul_not_mem_fields (record : WorktreeRecord) :
    ∀ field ∈ record.fields, '\x00' ∉ field.toList := by
  have hignored : ∀ more : List IgnoredAttribute, ∀ field ∈ more.map (·.field),
      '\x00' ∉ field.toList := by
    intro more field hmem
    rcases List.mem_map.mp hmem with ⟨ignored, _, rfl⟩
    exact nul_not_mem_ignored ignored
  have hvalue : ∀ (key : String) (value : Option FieldText), '\x00' ∉ key.toList →
      ∀ field ∈ (value.map (attributeField key)).toList, '\x00' ∉ field.toList := by
    intro key value hkey field hmem
    cases value with
    | none => exact absurd hmem List.not_mem_nil
    | some value =>
        rw [List.mem_singleton.mp hmem]
        exact nul_not_mem_attributeField hkey value
  have hlock : ∀ field ∈ record.lockField, '\x00' ∉ field.toList := by
    unfold WorktreeRecord.lockField
    cases record.lock with
    | none => exact fun field hmem => absurd hmem List.not_mem_nil
    | some lock =>
        intro field hmem
        cases lock with
        | none =>
            rw [List.mem_singleton.mp hmem]
            decide
        | some reason =>
            rw [List.mem_singleton.mp hmem]
            exact nul_not_mem_attributeField (by decide) reason.1
  intro field hmem
  unfold WorktreeRecord.fields at hmem
  rcases List.mem_cons.mp hmem with rfl | hmem
  · exact nul_not_mem_attributeField (by decide) record.path
  · simp only [List.mem_append] at hmem
    rcases hmem with (((((h | h) | h) | h) | h) | h) | h
    · exact hignored _ field h
    · exact hvalue "HEAD" record.head (by decide) field h
    · exact hignored _ field h
    · exact hvalue "branch" record.branch (by decide) field h
    · exact hignored _ field h
    · exact hlock field h
    · exact hignored _ field h

/-- Splitting at the separator gives back the fields, and an empty field at the end. -/
theorem splitText_renderWorktreeList (records : List WorktreeRecord) :
    splitText '\x00' (renderWorktreeList records) =
      (records.flatMap fun record => record.fields ++ [""]) ++ [""] := by
  have hclean : ∀ part ∈ (records.flatMap fun record => record.fields ++ [""]).map String.toList,
      '\x00' ∉ part := by
    intro part hpart
    rcases List.mem_map.mp hpart with ⟨field, hmem, rfl⟩
    rcases List.mem_flatMap.mp hmem with ⟨record, _, hfield⟩
    rcases List.mem_append.mp hfield with hfield | hend
    · exact nul_not_mem_fields record field hfield
    · rw [List.mem_singleton.mp hend]
      decide
  have hsplit := splitOn_flatMap hclean
  unfold splitText renderWorktreeList
  rw [String.toList_ofList]
  rw [List.flatMap_map] at hsplit
  rw [hsplit, List.map_append, List.map_map]
  simp [Function.comp_def]

/-- The parser reads back what Git prints for these records. -/
theorem parseWorktreeList_eq (records : List WorktreeRecord) :
    parseWorktreeList (renderWorktreeList records) = records.map (·.entry) := by
  unfold parseWorktreeList
  rw [splitText_renderWorktreeList, List.foldl_append, foldl_records, List.foldl_cons,
    List.foldl_nil, readWorktreeField_end]
  simp

/-- Reading undoes writing, for any worktrees: whoever looks for a path finds the first worktree
there, with its own branch and lock. -/
theorem parseWorktreeList_render (records : List WorktreeRecord) :
    parseWorktreeList (renderWorktreeList records) = records.map (·.entry) ∧
      ∀ path, (parseWorktreeList (renderWorktreeList records)).find? (fun entry =>
          entry.path = path) =
        (records.find? fun record => record.path.text = path).map (·.entry) := by
  refine ⟨parseWorktreeList_eq records, ?_⟩
  intro path
  rw [parseWorktreeList_eq, List.find?_map]
  rfl

end Orchestrator
