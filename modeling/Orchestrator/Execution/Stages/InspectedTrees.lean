import Mathlib.Logic.Function.Basic
import Orchestrator.Execution.SecretScan
import Orchestrator.Execution.Stages.RoutineCalls

/-! # The tree that a commit records

`collect` stages the worktree and the diffs read the index; `commitWorkspace` stages the
worktree once more before it commits (`workspaces/workspace-manager.ts`). Processes that an
agent left behind may write to the worktree between any two calls. The record of what happens
to the checkouts is kept beside them; no definition of the code reads it.
-/

namespace Orchestrator

open Kit

/-! ## `commitWorkspace` -/

/-- The calls of `commitWorkspace`, in its words. -/
inductive CommitCall
  | verifyOwnedWorkspace (workspace : TaskWorkspace)
  | add (cwd : String)
  | commit (cwd message : String) (author : CommitAuthor)
  | revParse (cwd ref : String)

abbrev CommitCall.Answer : CommitCall → Type
  | .verifyOwnedWorkspace _ => String
  | .revParse _ _ => String
  | _ => Unit

def commitCall (call : CommitCall) : Proc StageError CommitCall CommitCall.Answer call.Answer :=
  @Proc.perform StageError CommitCall CommitCall.Answer call

/-- Commits every staged and unstaged change. The new commit must be a child of the verified
HEAD. -/
def commitWorkspace (workspace : TaskWorkspace) (message : String) (author : CommitAuthor) :
    Proc StageError CommitCall CommitCall.Answer String := do
  let cwd := workspace.workspacePath
  let head ← commitCall (.verifyOwnedWorkspace workspace)
  let _ ← commitCall (.add cwd)
  let _ ← commitCall (.commit cwd message author)
  let commit ← commitCall (.revParse cwd "HEAD")
  let parent ← commitCall (.revParse cwd "HEAD^")
  if parent ≠ head then
    .throw (.workspaceBlocked
      s!"Commit in {workspace.repository} is not a child of the verified HEAD {head}")
  else pure commit

/-! ## Checkouts -/

section Checkouts

variable {T : Type}

inductive TreeEvent (T : Type)
  /-- A process, or a reset, changed the worktree. -/
  | wrote (place : String) (content : T)
  /-- The `git add --all` of `collect`. -/
  | staged (place : String) (content : T)
  /-- A diff of the index was read. -/
  | inspected (place : String) (content : T)
  /-- The `git add --all` of `commitWorkspace`. -/
  | restaged (place : String) (content : T)
  | committed (place : String) (tree : T)

/-- The worktrees of the repositories by their path, with the index and the HEAD of each. -/
structure Checkouts (T : Type) where
  worktree : String → T
  index : String → T
  head : String → T
  events : List (TreeEvent T) := []

namespace Checkouts

variable (c : Checkouts T) (place : String)

def write (content : T) : Checkouts T :=
  { c with
    worktree := Function.update c.worktree place content
    events := c.events ++ [.wrote place content] }

def writeAll (writes : List (String × T)) : Checkouts T :=
  writes.foldl (fun c entry => c.write entry.1 entry.2) c

def stage : Checkouts T :=
  { c with
    index := Function.update c.index place (c.worktree place)
    events := c.events ++ [.staged place (c.worktree place)] }

def inspect : Checkouts T :=
  { c with events := c.events ++ [.inspected place (c.index place)] }

def restage : Checkouts T :=
  { c with
    index := Function.update c.index place (c.worktree place)
    events := c.events ++ [.restaged place (c.worktree place)] }

def commit : Checkouts T :=
  { c with
    head := Function.update c.head place (c.index place)
    events := c.events ++ [.committed place (c.index place)] }

/-- `git reset --hard` and `git clean`. -/
def restore : Checkouts T :=
  { c.write place (c.head place) with index := Function.update c.index place (c.head place) }

/-- What a call of `commitWorkspace` does. A commit that was recorded may report a failure. -/
def performCommit : (call : CommitCall) → Except StageError call.Answer → Checkouts T → Prop
  | .add place, answer, c' =>
      (answer = .ok () ∧ c' = c.restage place) ∨
        ∃ failure index, answer = .error failure ∧ c' = { c with index }
  | .commit place _ _, answer, c' =>
      c' = c.commit place ∨ ∃ failure, answer = .error failure ∧ c' = c
  | .verifyOwnedWorkspace _, _, c' => c' = c
  | .revParse _ _, _, c' => c' = c

/-- Other processes write before each call. -/
def commitServes : Kit.Serves (Checkouts T) StageError CommitCall CommitCall.Answer :=
  fun c call answer c' => ∃ writes, (c.writeAll writes).performCommit call answer c'

/-- What a service call does; `render` is what a diff prints. -/
def performService (render : DiffFormat → T → T → String) :
    (call : ServiceCall) → Except StageError call.Answer → Checkouts T → Prop
  | .gitAdd place, answer, c' =>
      (answer = .ok () ∧ c' = c.stage place) ∨
        ∃ failure index, answer = .error failure ∧ c' = { c with index }
  | .gitDiff place .cached format, answer, c' =>
      (answer = .ok (render format (c.head place) (c.index place)) ∧ c' = c.inspect place) ∨
        ∃ failure, answer = .error failure ∧ c' = c
  | .commitWorkspace workspace message author, answer, c' =>
      (∃ value, answer = .ok value ∧
        Exec commitServes (commitWorkspace workspace message author) c (.returned value) c') ∨
      ∃ failure ending, answer = .error failure ∧
        Exec commitServes (commitWorkspace workspace message author) c ending c'
  | .restoreWorkspace workspace, _, c' => c' = c ∨ c' = c.restore workspace.workspacePath
  | _, _, c' => c' = c

def services (render : DiffFormat → T → T → String) : Services (Checkouts T) :=
  fun c call answer c' => ∃ writes, (c.writeAll writes).performService render call answer c'

end Checkouts

/-! ## What the record shows -/

/-- What happened to one worktree. -/
structure TreeWatch (T : Type) where
  /-- What `collect` staged last. -/
  staged : Option T := none
  /-- The index that a diff read last. -/
  inspected : Option T := none
  /-- The last write since that staging. -/
  overwritten : Option T := none
  /-- The last write since that staging, when `commitWorkspace` staged again. -/
  recorded : Option T := none

def TreeWatch.after (place : String) (seen : TreeWatch T) : TreeEvent T → TreeWatch T
  | .wrote other content =>
      if other = place then { seen with overwritten := some content } else seen
  | .staged other content =>
      if other = place then { seen with staged := some content, overwritten := none } else seen
  | .inspected other content =>
      if other = place then { seen with inspected := some content } else seen
  | .restaged other _ =>
      if other = place then { seen with recorded := seen.overwritten } else seen
  | .committed _ _ => seen

def watch (place : String) (events : List (TreeEvent T)) : TreeWatch T :=
  events.foldl (TreeWatch.after place) {}

/-- Every commit records what `collect` staged and the diffs read. -/
def InspectedCommits (events : List (TreeEvent T)) : Prop :=
  ∀ before place tree after, events = before ++ .committed place tree :: after →
    (watch place before).staged = some tree ∧ (watch place before).inspected = some tree

/-- Between the two stagings of a worktree that is committed, nothing was written to it, or
the last write left what was staged first. -/
def UndisturbedCommits (events : List (TreeEvent T)) : Prop :=
  ∀ before place tree after, events = before ++ .committed place tree :: after →
    ∀ content, (watch place before).recorded = some content →
      (watch place before).staged = some content

/-! ## The invariant -/

theorem watch_concat (place : String) (events : List (TreeEvent T)) (event : TreeEvent T) :
    watch place (events ++ [event]) = (watch place events).after place event := by
  unfold watch
  rw [List.foldl_append, List.foldl_cons, List.foldl_nil]

/-- The diffs read what `collect` staged last in this worktree. -/
def Seen (c : Checkouts T) (place : String) : Prop :=
  ∃ content, (watch place c.events).staged = some content ∧
    (watch place c.events).inspected = some content

structure Traced (c : Checkouts T) : Prop where
  /-- What the worktree holds, since it was staged. -/
  worktree : ∀ place content, (watch place c.events).staged = some content →
    c.worktree place = (watch place c.events).overwritten.getD content
  /-- Where each tree came from. -/
  commits : ∀ before place tree after, c.events = before ++ .committed place tree :: after →
    ∃ content, (watch place before).staged = some content ∧
      (watch place before).inspected = some content ∧
      tree = (watch place before).recorded.getD content

/-- What was recorded is what was inspected, unless something was written in between. -/
theorem Traced.inspected_iff {c : Checkouts T} (h : Traced c) :
    InspectedCommits c.events ↔ UndisturbedCommits c.events := by
  constructor
  · intro hinspected before place tree after heq content hrecorded
    obtain ⟨staged, hstaged, _, htree⟩ := h.commits before place tree after heq
    have hsame := (hinspected before place tree after heq).1
    rw [hrecorded, Option.getD_some] at htree
    rw [hsame, htree]
  · intro hundisturbed before place tree after heq
    obtain ⟨staged, hstaged, hinspected, htree⟩ := h.commits before place tree after heq
    have hsame : tree = staged := by
      cases hrecorded : (watch place before).recorded with
      | none =>
          rw [hrecorded, Option.getD_none] at htree
          exact htree
      | some content =>
          have hcontent := hundisturbed before place tree after heq content hrecorded
          rw [hstaged] at hcontent
          rw [hrecorded, Option.getD_some] at htree
          rw [htree, Option.some.inj hcontent]
    rw [hsame]
    exact ⟨hstaged, hinspected⟩

/-- A place in a list that has one more element is that element, or a place before it. -/
theorem concat_eq_append_cons {α : Type} {items before after : List α} {item x : α}
    (h : items ++ [item] = before ++ x :: after) :
    (before = items ∧ x = item) ∨ ∃ after', items = before ++ x :: after' := by
  rcases List.eq_nil_or_concat after with rfl | ⟨after', last, rfl⟩
  · obtain ⟨hitems, hlast⟩ := List.append_inj' h rfl
    exact Or.inl ⟨hitems.symm, (List.singleton_inj.mp hlast).symm⟩
  · have hsplit : items ++ [item] = (before ++ x :: after') ++ [last] := by
      rw [h, List.append_assoc, List.cons_append, List.concat_eq_append]
    exact Or.inr ⟨after', (List.append_inj' hsplit rfl).1⟩

/-- One more event that is no commit. -/
theorem Traced.concat {c c' : Checkouts T} (h : Traced c) {event : TreeEvent T}
    (hevents : c'.events = c.events ++ [event])
    (hevent : ∀ place tree, event ≠ .committed place tree)
    (hworktree : ∀ place content, (watch place c'.events).staged = some content →
      c'.worktree place = (watch place c'.events).overwritten.getD content) : Traced c' where
  worktree := hworktree
  commits := by
    intro before place tree after heq
    rw [hevents] at heq
    rcases concat_eq_append_cons heq with ⟨_, hcommitted⟩ | ⟨after', heq'⟩
    · exact absurd hcommitted.symm (hevent place tree)
    · exact h.commits before place tree after' heq'

theorem Traced.write {c : Checkouts T} (h : Traced c) (place : String) (content : T) :
    Traced (c.write place content) := by
  refine h.concat rfl nofun ?_
  intro other staged hstaged
  simp only [Checkouts.write, watch_concat, TreeWatch.after] at hstaged ⊢
  by_cases hplace : place = other
  · rw [if_pos hplace, hplace, Function.update_self]
    rfl
  · rw [if_neg hplace] at hstaged ⊢
    rw [Function.update_of_ne (Ne.symm hplace)]
    exact h.worktree other staged hstaged

theorem Traced.stage {c : Checkouts T} (h : Traced c) (place : String) :
    Traced (c.stage place) := by
  refine h.concat rfl nofun ?_
  intro other staged hstaged
  simp only [Checkouts.stage, watch_concat, TreeWatch.after] at hstaged ⊢
  by_cases hplace : place = other
  · rw [if_pos hplace] at hstaged ⊢
    rw [← hplace]
    exact Option.some.inj hstaged
  · rw [if_neg hplace] at hstaged ⊢
    exact h.worktree other staged hstaged

/-- An event of this kind says nothing about the worktree. -/
theorem Traced.note {c c' : Checkouts T} (h : Traced c) {event : TreeEvent T}
    (hevents : c'.events = c.events ++ [event])
    (hevent : ∀ place tree, event ≠ .committed place tree)
    (hworktree : c'.worktree = c.worktree)
    (hafter : ∀ place, ((watch place c.events).after place event).staged =
        (watch place c.events).staged ∧
      ((watch place c.events).after place event).overwritten =
        (watch place c.events).overwritten) : Traced c' := by
  refine h.concat hevents hevent ?_
  intro place content hstaged
  rw [hevents, watch_concat] at hstaged ⊢
  obtain ⟨hsame, hoverwritten⟩ := hafter place
  rw [hsame] at hstaged
  rw [hoverwritten, hworktree]
  exact h.worktree place content hstaged

theorem Traced.inspect {c : Checkouts T} (h : Traced c) (place : String) :
    Traced (c.inspect place) := by
  refine h.note rfl nofun rfl ?_
  intro other
  simp only [TreeWatch.after]
  split_ifs
  · exact ⟨rfl, rfl⟩
  · exact ⟨rfl, rfl⟩

theorem Traced.restage {c : Checkouts T} (h : Traced c) (place : String) :
    Traced (c.restage place) := by
  refine h.note rfl nofun rfl ?_
  intro other
  simp only [TreeWatch.after]
  split_ifs
  · exact ⟨rfl, rfl⟩
  · exact ⟨rfl, rfl⟩

/-- A commit of a worktree that was inspected, when the index is what was staged again. -/
theorem Traced.commit {c : Checkouts T} (h : Traced c) {place : String} {content : T}
    (hstaged : (watch place c.events).staged = some content)
    (hinspected : (watch place c.events).inspected = some content)
    (hindex : c.index place = (watch place c.events).recorded.getD content) :
    Traced (c.commit place) where
  worktree := by
    intro other staged hother
    simp only [Checkouts.commit, watch_concat, TreeWatch.after] at hother ⊢
    exact h.worktree other staged hother
  commits := by
    intro before other tree after heq
    rcases concat_eq_append_cons heq with ⟨hbefore, hcommitted⟩ | ⟨after', heq'⟩
    · obtain ⟨rfl, rfl⟩ := TreeEvent.committed.inj hcommitted
      rw [hbefore]
      exact ⟨content, hstaged, hinspected, hindex⟩
    · exact h.commits before other tree after' heq'

theorem Traced.index {c : Checkouts T} (h : Traced c) (index : String → T) :
    Traced { c with index } :=
  ⟨h.worktree, h.commits⟩

/-! ## Between two calls -/

/-- Nothing was staged or inspected from `c` to `c'`. -/
structure Aside (c c' : Checkouts T) : Prop where
  index : c'.index = c.index
  staged : ∀ place, (watch place c'.events).staged = (watch place c.events).staged
  inspected : ∀ place, (watch place c'.events).inspected = (watch place c.events).inspected
  recorded : ∀ place, (watch place c'.events).recorded = (watch place c.events).recorded

theorem aside_write (c : Checkouts T) (place : String) (content : T) :
    Aside c (c.write place content) := by
  have hwatch : ∀ other, watch other (c.write place content).events =
      (watch other c.events).after other (.wrote place content) := by
    intro other
    exact watch_concat other c.events _
  refine ⟨rfl, ?_, ?_, ?_⟩
  all_goals
    intro other
    rw [hwatch]
    simp only [TreeWatch.after]
    split_ifs <;> rfl

theorem Aside.trans {c c' c'' : Checkouts T} (h : Aside c c') (h' : Aside c' c'') :
    Aside c c'' where
  index := h'.index.trans h.index
  staged place := (h'.staged place).trans (h.staged place)
  inspected place := (h'.inspected place).trans (h.inspected place)
  recorded place := (h'.recorded place).trans (h.recorded place)

theorem Aside.seen {c c' : Checkouts T} (h : Aside c c') {place : String} (hseen : Seen c place) :
    Seen c' place := by
  obtain ⟨content, hstaged, hinspected⟩ := hseen
  exact ⟨content, (h.staged place).trans hstaged, (h.inspected place).trans hinspected⟩

/-- The writes of other processes keep the invariant. -/
theorem traced_writeAll (writes : List (String × T)) {c : Checkouts T} (h : Traced c) :
    Traced (c.writeAll writes) ∧ Aside c (c.writeAll writes) := by
  unfold Checkouts.writeAll
  induction writes generalizing c with
  | nil => exact ⟨h, ⟨rfl, fun _ => rfl, fun _ => rfl, fun _ => rfl⟩⟩
  | cons entry writes ih =>
      rw [List.foldl_cons]
      obtain ⟨htraced, haside⟩ := ih (h.write entry.1 entry.2)
      exact ⟨htraced, (aside_write c entry.1 entry.2).trans haside⟩

/-! ## The commit -/

/-- The invariant, and the worktrees that were inspected stay so. -/
def KeepsSeen (c c' : Checkouts T) : Prop :=
  Traced c' ∧ ∀ place, Seen c place → Seen c' place

theorem seen_of_watch {c c' : Checkouts T} {place : String}
    (hstaged : (watch place c'.events).staged = (watch place c.events).staged)
    (hinspected : (watch place c'.events).inspected = (watch place c.events).inspected)
    (h : Seen c place) : Seen c' place := by
  obtain ⟨content, h₁, h₂⟩ := h
  exact ⟨content, hstaged.trans h₁, hinspected.trans h₂⟩

/-- What the commit stages is what the worktree holds. -/
theorem restage_index {c : Checkouts T} (h : Traced c) {place : String} {content : T}
    (hstaged : (watch place c.events).staged = some content) :
    (c.restage place).index place =
      (watch place (c.restage place).events).recorded.getD content := by
  simp only [Checkouts.restage, watch_concat, TreeWatch.after, Function.update_self, if_pos]
  exact h.worktree place content hstaged

theorem restage_seen (c : Checkouts T) (place other : String) :
    (watch other (c.restage place).events).staged = (watch other c.events).staged ∧
      (watch other (c.restage place).events).inspected = (watch other c.events).inspected := by
  simp only [Checkouts.restage, watch_concat, TreeWatch.after]
  split_ifs
  · exact ⟨rfl, rfl⟩
  · exact ⟨rfl, rfl⟩

theorem commit_seen (c : Checkouts T) (place other : String) :
    (watch other (c.commit place).events).staged = (watch other c.events).staged ∧
      (watch other (c.commit place).events).inspected = (watch other c.events).inspected := by
  have hwatch : watch other (c.commit place).events = watch other c.events :=
    watch_concat other c.events _
  rw [hwatch]
  exact ⟨rfl, rfl⟩

/-- The worktree was inspected, and the index is what the commit staged again. -/
def Restaged (place : String) (c : Checkouts T) : Prop :=
  ∃ content, (watch place c.events).staged = some content ∧
    (watch place c.events).inspected = some content ∧
    c.index place = (watch place c.events).recorded.getD content

theorem Restaged.aside {place : String} {c c' : Checkouts T} (h : Restaged place c)
    (haside : Aside c c') : Restaged place c' := by
  obtain ⟨content, hstaged, hinspected, hindex⟩ := h
  refine ⟨content, (haside.staged place).trans hstaged,
    (haside.inspected place).trans hinspected, ?_⟩
  rw [haside.index, haside.recorded place]
  exact hindex

/-- `commitWorkspace` records what it staged, wherever other processes write in between. -/
theorem keeps_commitWorkspace {workspace : TaskWorkspace} {message : String}
    {author : CommitAuthor} {c : Checkouts T} (h : Traced c)
    (hseen : Seen c workspace.workspacePath) :
    (commitWorkspace workspace message author).Keeps Checkouts.commitServes (KeepsSeen c)
      (fun _ _ => True) c := by
  have hstart : KeepsSeen c c := ⟨h, fun _ hplace => hplace⟩
  -- A call that only lets other processes write.
  have hidle : ∀ {c₁ c₂ : Checkouts T} {writes : List (String × T)}, KeepsSeen c c₁ →
      c₂ = c₁.writeAll writes → KeepsSeen c c₂ := by
    intro c₁ c₂ writes hkept heq
    obtain ⟨htraced, haside⟩ := traced_writeAll writes hkept.1
    rw [heq]
    exact ⟨htraced, fun place hplace => haside.seen (hkept.2 place hplace)⟩
  unfold commitWorkspace commitCall
  refine keeps_bind (R := fun _ c' => KeepsSeen c c') (keeps_perform hstart ?_) ?_
  · rintro answer c₁ ⟨writes, hserved⟩
    exact ⟨hidle hstart hserved, fun _ _ => hidle hstart hserved⟩
  intro head c₁ hc₁ _
  refine keeps_bind (R := fun _ c' => Restaged workspace.workspacePath c')
    (keeps_perform hc₁ ?_) ?_
  · rintro answer c₂ ⟨writes, hserved⟩
    obtain ⟨htraced, haside⟩ := traced_writeAll writes hc₁.1
    have hkept : ∀ place, Seen c place → Seen (c₁.writeAll writes) place :=
      fun place hplace => haside.seen (hc₁.2 place hplace)
    rcases hserved with ⟨_, heq⟩ | ⟨failure, index, hanswer, heq⟩
    · rw [heq]
      refine ⟨⟨htraced.restage _, ?_⟩, ?_⟩
      · intro place hplace
        obtain ⟨hstaged, hinspected⟩ := restage_seen (c₁.writeAll writes)
          workspace.workspacePath place
        exact seen_of_watch hstaged hinspected (hkept place hplace)
      · intro _ _
        obtain ⟨content, hstaged, hinspected⟩ := hkept _ hseen
        obtain ⟨hstaged', hinspected'⟩ := restage_seen (c₁.writeAll writes)
          workspace.workspacePath workspace.workspacePath
        exact ⟨content, hstaged'.trans hstaged, hinspected'.trans hinspected,
          restage_index htraced hstaged⟩
    · rw [heq]
      refine ⟨⟨htraced.index index, hkept⟩, ?_⟩
      intro value hvalue
      rw [hanswer] at hvalue
      cases hvalue
  intro _ c₂ hc₂ hrestaged
  refine keeps_bind (R := fun _ c' => KeepsSeen c c') (keeps_perform hc₂ ?_) ?_
  · rintro answer c₃ ⟨writes, hserved⟩
    obtain ⟨htraced, haside⟩ := traced_writeAll writes hc₂.1
    have hkept : ∀ place, Seen c place → Seen (c₂.writeAll writes) place :=
      fun place hplace => haside.seen (hc₂.2 place hplace)
    have hends : KeepsSeen c c₃ := by
      rcases hserved with heq | ⟨failure, _, heq⟩
      · rw [heq]
        obtain ⟨content, hstaged, hinspected, hindex⟩ := hrestaged.aside haside
        refine ⟨htraced.commit hstaged hinspected hindex, ?_⟩
        intro place hplace
        obtain ⟨hstaged', hinspected'⟩ := commit_seen (c₂.writeAll writes)
          workspace.workspacePath place
        exact seen_of_watch hstaged' hinspected' (hkept place hplace)
      · rw [heq]
        exact ⟨htraced, hkept⟩
    exact ⟨hends, fun _ _ => hends⟩
  intro _ c₃ _ hc₃
  refine keeps_bind (R := fun _ c' => KeepsSeen c c') (keeps_perform hc₃ ?_) ?_
  · rintro answer c₄ ⟨writes, hserved⟩
    exact ⟨hidle hc₃ hserved, fun _ _ => hidle hc₃ hserved⟩
  intro commit c₄ _ hc₄
  refine keeps_bind (R := fun _ c' => KeepsSeen c c') (keeps_perform hc₄ ?_) ?_
  · rintro answer c₅ ⟨writes, hserved⟩
    exact ⟨hidle hc₄ hserved, fun _ _ => hidle hc₄ hserved⟩
  intro parent c₅ _ hc₅
  split_ifs
  · exact keeps_throw hc₅
  · exact keeps_pure hc₅ trivial

/-! ## The inspection -/

/-- The index of the worktree is what was staged last. -/
def Staged (place : String) (c : Checkouts T) : Prop :=
  (watch place c.events).staged = some (c.index place)

/-- The other worktrees that were inspected stay so. -/
def OthersSeen (place : String) (c c' : Checkouts T) : Prop :=
  ∀ other, other ≠ place → Seen c other → Seen c' other

theorem OthersSeen.aside {place : String} {c c' c'' : Checkouts T} (h : OthersSeen place c c')
    (haside : Aside c' c'') : OthersSeen place c c'' :=
  fun other hother hseen => haside.seen (h other hother hseen)

theorem stage_staged (c : Checkouts T) (place : String) : Staged place (c.stage place) := by
  unfold Staged
  simp only [Checkouts.stage, watch_concat, TreeWatch.after, Function.update_self, if_pos]

theorem stage_others {c c' : Checkouts T} {place : String} (h : OthersSeen place c c') :
    OthersSeen place c (c'.stage place) := by
  intro other hother hseen
  have hwatch : watch other (c'.stage place).events = watch other c'.events := by
    have hafter := watch_concat other c'.events (.staged place (c'.worktree place))
    simp only [TreeWatch.after, if_neg (Ne.symm hother)] at hafter
    exact hafter
  exact seen_of_watch (by rw [hwatch]) (by rw [hwatch]) (h other hother hseen)

theorem inspect_seen {c : Checkouts T} {place : String} (h : Staged place c) :
    Staged place (c.inspect place) ∧ Seen (c.inspect place) place := by
  have hwatch : watch place (c.inspect place).events =
      { watch place c.events with inspected := some (c.index place) } := by
    have hafter := watch_concat place c.events (.inspected place (c.index place))
    simp only [TreeWatch.after, if_pos] at hafter
    exact hafter
  constructor
  · unfold Staged
    rw [hwatch]
    exact h
  · refine ⟨c.index place, ?_, ?_⟩
    · rw [hwatch]
      exact h
    · rw [hwatch]

theorem inspect_others {c c' : Checkouts T} {place : String} (h : OthersSeen place c c') :
    OthersSeen place c (c'.inspect place) := by
  intro other hother hseen
  have hwatch : watch other (c'.inspect place).events = watch other c'.events := by
    have hafter := watch_concat other c'.events (.inspected place (c'.index place))
    simp only [TreeWatch.after, if_neg (Ne.symm hother)] at hafter
    exact hafter
  exact seen_of_watch (by rw [hwatch]) (by rw [hwatch]) (h other hother hseen)

variable {render : DiffFormat → T → T → String} {writer : StageWriter}
  {w : StageWorld (Checkouts T)}

/-- A diff reads what was staged. -/
theorem keeps_cachedDiff {place : String} {format : DiffFormat} {c : Checkouts T}
    (hI : Traced w.outside) (hstaged : Staged place w.outside)
    (hothers : OthersSeen place c w.outside) :
    (service (.gitDiff place .cached format)).Keeps (serves (Checkouts.services render) writer)
      (fun w' => Traced w'.outside)
      (fun _ w' => Staged place w'.outside ∧ Seen w'.outside place ∧
        OthersSeen place c w'.outside) w := by
  refine keeps_service hI ?_
  rintro answer outside ⟨writes, hserved⟩
  obtain ⟨htraced, haside⟩ := traced_writeAll writes hI
  rw [StageWorld.asked_outside]
  rcases hserved with ⟨_, heq⟩ | ⟨failure, hanswer, heq⟩
  · rw [heq]
    have hstill : Staged place (w.outside.writeAll writes) := by
      unfold Staged
      rw [haside.staged place, haside.index]
      exact hstaged
    obtain ⟨hstaged', hseen⟩ := inspect_seen hstill
    exact ⟨htraced.inspect place,
      fun _ _ => ⟨hstaged', hseen, inspect_others (hothers.aside haside)⟩⟩
  · rw [heq]
    refine ⟨htraced, ?_⟩
    intro value hvalue
    rw [hanswer] at hvalue
    cases hvalue

/-- After `collect`, the worktree was inspected, and so are those inspected before. -/
theorem keeps_collectTree {repository place : String} {maxChangedLines : Nat}
    (hI : Traced w.outside) :
    (collect repository place maxChangedLines).Keeps (serves (Checkouts.services render) writer)
      (fun w' => Traced w'.outside)
      (fun _ w' => Seen w'.outside place ∧ ∀ other, Seen w.outside other → Seen w'.outside other)
      w := by
  -- The place is seen now, the others were.
  have hends : ∀ {c : Checkouts T}, Seen c place → OthersSeen place w.outside c →
      Seen c place ∧ ∀ other, Seen w.outside other → Seen c other := by
    intro c hseen hothers
    refine ⟨hseen, ?_⟩
    intro other hother
    by_cases hplace : other = place
    · rw [hplace]
      exact hseen
    · exact hothers other hplace hother
  unfold collect collectDiff
  refine keeps_bind (R := fun _ w' => Staged place w'.outside ∧
    OthersSeen place w.outside w'.outside) (keeps_service hI ?_) ?_
  · rintro answer outside ⟨writes, hserved⟩
    obtain ⟨htraced, haside⟩ := traced_writeAll writes hI
    rw [StageWorld.asked_outside]
    rcases hserved with ⟨_, heq⟩ | ⟨failure, index, hanswer, heq⟩
    · rw [heq]
      refine ⟨htraced.stage place, ?_⟩
      intro _ _
      have hothers : OthersSeen place w.outside (w.outside.writeAll writes) :=
        fun other _ hseen => haside.seen hseen
      exact ⟨stage_staged _ place, stage_others hothers⟩
    · rw [heq]
      refine ⟨htraced.index index, ?_⟩
      intro value hvalue
      rw [hanswer] at hvalue
      cases hvalue
  rintro _ w₁ hI₁ ⟨hstaged₁, hothers₁⟩
  -- Each of the three reads shows the index that was staged.
  refine keeps_bind (keeps_cachedDiff hI₁ hstaged₁ hothers₁) ?_
  rintro raw w₂ hI₂ ⟨hstaged₂, _, hothers₂⟩
  refine keeps_bind (keeps_cachedDiff hI₂ hstaged₂ hothers₂) ?_
  rintro numstat w₃ hI₃ ⟨hstaged₃, hseen₃, hothers₃⟩
  dsimp only
  split_ifs
  · exact keeps_pure hI₃ (hends hseen₃ hothers₃)
  refine keeps_bind (keeps_cachedDiff hI₃ hstaged₃ hothers₃) ?_
  rintro patch w₄ hI₄ ⟨_, hseen₄, hothers₄⟩
  exact keeps_pure hI₄ (hends hseen₄ hothers₄)

/-! ## `inspectAndCommit` -/

/-- A call that leaves the index and the commits alone, but for a restored worktree. -/
def StageCall.aside : StageCall → Bool
  | .service (.gitAdd _) => false
  | .service (.gitDiff _ _ _) => false
  | .service (.commitWorkspace _ _ _) => false
  | _ => true

theorem traced_serves_aside {call : StageCall} {answer : Except StageError call.Answer}
    {w' : StageWorld (Checkouts T)} (hcall : call.aside = true)
    (hserved : serves (Checkouts.services render) writer w call answer w')
    (hI : Traced w.outside) : Traced w'.outside := by
  cases call with
  | database call =>
      rcases hserved with ⟨_, _, _, _, _, heq, _⟩ | ⟨heq, _⟩
      · rw [heq]
        exact hI
      · rw [heq]
        exact hI
  | service call =>
      obtain ⟨outside, ⟨writes, hperform⟩, heq⟩ := hserved
      rw [heq, StageWorld.asked_outside]
      obtain ⟨htraced, _⟩ := traced_writeAll writes hI
      cases call with
      | gitAdd => cases hcall
      | gitDiff => cases hcall
      | commitWorkspace => cases hcall
      | restoreWorkspace workspace =>
          rcases hperform with hsame | hrestored
          · rw [hsame]
            exact htraced
          · rw [hrestored]
            exact (htraced.write _ _).index _
      | _ =>
          have hsame : outside = w.outside.writeAll writes := hperform
          rw [hsame]
          exact htraced

variable {deps : StageDependencies} {loaded : LoadedWorkspaces} {options : ChangeOptions}

theorem aside_verifyAgentLeftGitState :
    (verifyAgentLeftGitState deps loaded).Only fun call => call.aside = true := by
  refine only_bind (only_collect ?_ _) ?_
  · intro unit
    unfold verifyAgentLeftUnit
    refine only_tryCatch ?_ ?_
    · refine only_bind ?_ ?_
      · refine only_bind ?_ fun _ => only_service.mpr rfl
        unfold StageDependencies.repository
        split
        · exact trivial
        · exact trivial
      · intro head
        split_ifs
        · exact trivial
        · exact trivial
    · intro failure
      split
      · exact trivial
      · exact trivial
  · intro verified
    split
    · exact trivial
    · exact trivial

theorem aside_restoreAll : (restoreAll deps loaded).Only fun call => call.aside = true := by
  refine only_bind (only_each ?_ _) fun _ => trivial
  intro unit
  refine only_bind ?_ fun _ => only_service.mpr rfl
  unfold StageDependencies.repository
  split
  · exact trivial
  · exact trivial

/-- The commit of one repository. -/
theorem keeps_commitUnit {changes : List RepositoryChanges} {unit : LoadedUnit}
    (hI : Traced w.outside) (hseen : Seen w.outside unit.workspacePath) :
    (commitUnit deps options changes unit).Keeps (serves (Checkouts.services render) writer)
      (fun w' => Traced w'.outside)
      (fun _ w' => ∀ place, Seen w.outside place → Seen w'.outside place) w := by
  unfold commitUnit
  split_ifs
  · exact keeps_pure hI fun _ hplace => hplace
  refine keeps_bind (R := fun _ w' => ∀ place, Seen w.outside place → Seen w'.outside place)
    (keeps_service hI ?_) fun commit w' hI' hkept => keeps_pure hI' hkept
  rintro answer outside ⟨writes, hserved⟩
  obtain ⟨htraced, haside⟩ := traced_writeAll writes hI
  rw [StageWorld.asked_outside]
  have hkeeps := @keeps_commitWorkspace T unit.toTaskWorkspace (options.message unit.repository)
    deps.commitAuthor (w.outside.writeAll writes) htraced (haside.seen hseen)
  have hkept : KeepsSeen (w.outside.writeAll writes) outside := by
    rcases hserved with ⟨value, _, hexec⟩ | ⟨failure, ending, _, hexec⟩
    · exact (keeps_iff.mp hkeeps _ _ hexec).1
    · exact (keeps_iff.mp hkeeps _ _ hexec).1
  exact ⟨hkept.1, fun _ _ place hplace => hkept.2 place (haside.seen hplace)⟩

theorem keeps_inspectAndCommit (hI : Traced w.outside) :
    (inspectAndCommit deps loaded options).Keeps (serves (Checkouts.services render) writer)
      (fun w' => Traced w'.outside) (fun _ _ => True) w := by
  have hcall : ∀ w₁ name answer w₂, StageCall.aside name = true →
      serves (Checkouts.services render) writer w₁ name answer w₂ → Traced w₁.outside →
      Traced w₂.outside :=
    fun _ _ _ _ hname hserved htraced => traced_serves_aside hname hserved htraced
  unfold inspectAndCommit
  refine keeps_bind (keeps_of_only hcall aside_verifyAgentLeftGitState hI) ?_
  rintro (_ | problem) w₁ hI₁ _
  -- The units are inspected one by one, and stay inspected.
  · refine keeps_bind (keeps_each (fun done _ w' => ∀ unit ∈ done, Seen w'.outside
      unit.workspacePath) ?_ (fun _ _ _ hdone => hdone) hI₁ nofun) ?_
    · intro done unit rest results w₂ _ hI₂ hdone
      refine keeps_mono ?_ ?_ (keeps_collectTree hI₂)
      · exact fun _ hI₃ => hI₃
      · rintro _ w₃ _ ⟨hseen, hkept⟩ other hother
        rcases List.mem_append.mp hother with hother | hother
        · exact hkept _ (hdone other hother)
        · rw [List.mem_singleton.mp hother]
          exact hseen
    intro changes w₂ hI₂ hseen
    dsimp only
    split_ifs
    · exact keeps_bind (keeps_of_only hcall aside_restoreAll hI₂)
        fun _ _ hI₃ _ => keeps_pure hI₃ trivial
    -- So each commit is of a worktree that was inspected.
    refine keeps_bind (keeps_each (Q := fun _ _ => True) (fun _ _ w' => ∀ unit ∈ loaded.units,
      Seen w'.outside unit.workspacePath) ?_ (fun _ _ _ _ => trivial) hI₂ hseen) ?_
    · intro done unit rest results w₃ heq hI₃ hseen₃
      have hmem : unit ∈ loaded.units := by
        rw [heq]
        exact List.mem_append_right done List.mem_cons_self
      refine keeps_mono ?_ ?_ (keeps_commitUnit hI₃ (hseen₃ unit hmem))
      · exact fun _ hI₄ => hI₄
      · exact fun _ _ _ hkept other hother => hkept _ (hseen₃ other hother)
    · exact fun commits _ hI₃ _ => keeps_pure hI₃ trivial
  · exact keeps_pure hI₁ trivial

end Checkouts

/-! ## A sample -/

/-- One worktree, and what other processes wrote before the commit. -/
def sampleLoaded : LoadedWorkspaces where
  contract := sampleIssue "task" []
  units := [{ repository := "web", workspacePath := "/work", branch := "task", baseCommit := "b0"
              taskId := 1, head := "h0" }]

def sampleOptions : ChangeOptions where
  required := ["web"]
  plannedPaths := []
  message _ := "Change"

/-- The file of the worktree has one line, and is new in each diff. -/
def sampleDiff (format : DiffFormat) (_ index : LineText) : String :=
  match format with
  | .raw => rawOutput (sampleChange index).files
  | .numstat => numstatOutput (sampleChange index).files
  | .patch => patchOutput (sampleChange index).patch

def checkedLine : LineText := ⟨"checked", by decide⟩

def sampleCheckouts : Checkouts LineText where
  worktree _ := checkedLine
  index _ := ⟨"", by decide⟩
  head _ := ⟨"", by decide⟩

/-- The evidence of the one line. -/
def sampleEvidence : List DiffEvidence :=
  diffEvidence
    { sampleDelivery.diffContext with
      required := sampleOptions.required, plannedPaths := sampleOptions.plannedPaths }
    [collectedChanges "web" (sampleChange checkedLine) 2000]

/-- The change is inspected, another process writes a line, and the commit is made. -/
theorem exec_inspectAndCommit (written : LineText) :
    ∃ w' : StageWorld (Checkouts LineText),
      Exec (serves (Checkouts.services sampleDiff) ⟨1, .implementing⟩)
        (inspectAndCommit sampleDelivery.toStageDependencies sampleLoaded sampleOptions)
        ⟨{}, sampleCheckouts, []⟩ (.returned (.committed [("web", "c1")] sampleEvidence)) w' ∧
      w'.outside.events =
        [.staged "/work" checkedLine, .inspected "/work" checkedLine,
          .inspected "/work" checkedLine, .inspected "/work" checkedLine,
          .wrote "/work" written, .restaged "/work" written, .committed "/work" written] := by
  let unit : LoadedUnit :=
    { repository := "web", workspacePath := "/work", branch := "task", baseCommit := "b0"
      taskId := 1, head := "h0" }
  let writer : StageWriter := ⟨1, .implementing⟩
  let w₀ : StageWorld (Checkouts LineText) := ⟨{}, sampleCheckouts, []⟩
  let w₁ := w₀.asked (.verifyOwnedWorkspace unit.toTaskWorkspace) (.ok "h0") w₀.outside
  let w₂ := w₁.asked (.gitAdd "/work") (.ok ()) (w₁.outside.stage "/work")
  let w₃ := w₂.asked (.gitDiff "/work" .cached .raw)
    (.ok (rawOutput (sampleChange checkedLine).files)) (w₂.outside.inspect "/work")
  let w₄ := w₃.asked (.gitDiff "/work" .cached .numstat)
    (.ok (numstatOutput (sampleChange checkedLine).files)) (w₃.outside.inspect "/work")
  let w₅ := w₄.asked (.gitDiff "/work" .cached .patch)
    (.ok (patchOutput (sampleChange checkedLine).patch)) (w₄.outside.inspect "/work")
  -- The other process writes here, after the inspection and before the commit.
  let c₆ := w₅.outside.write "/work" written
  let c₇ := (c₆.restage "/work").commit "/work"
  let w₆ := w₅.asked (.commitWorkspace unit.toTaskWorkspace "Change"
    ⟨"Orchestrator", "orchestrator@localhost"⟩) (.ok "c1") c₇
  -- Each call of the routine, from the world the one before it left.
  have hverify : Exec (serves (Checkouts.services sampleDiff) writer)
      (verifyAgentLeftUnit sampleDelivery.toStageDependencies unit) w₀ (.returned (.ok ())) w₁ := by
    have howned : serves (Checkouts.services sampleDiff) writer w₀
        (.service (.verifyOwnedWorkspace unit.toTaskWorkspace)) (.ok "h0") w₁ :=
      ⟨_, ⟨[], rfl⟩, rfl⟩
    exact .call howned .ret
  have hadd : Exec (serves (Checkouts.services sampleDiff) writer)
      (service (.gitAdd "/work")) w₁ (.returned ()) w₂ :=
    exec_service ⟨[], Or.inl ⟨rfl, rfl⟩⟩
  have hraw : Exec (serves (Checkouts.services sampleDiff) writer)
      (service (.gitDiff "/work" .cached .raw)) w₂
      (.returned (rawOutput (sampleChange checkedLine).files)) w₃ :=
    exec_service ⟨[], Or.inl ⟨rfl, rfl⟩⟩
  have hnumstat : Exec (serves (Checkouts.services sampleDiff) writer)
      (service (.gitDiff "/work" .cached .numstat)) w₃
      (.returned (numstatOutput (sampleChange checkedLine).files)) w₄ :=
    exec_service ⟨[], Or.inl ⟨rfl, rfl⟩⟩
  have hpatch : Exec (serves (Checkouts.services sampleDiff) writer)
      (service (.gitDiff "/work" .cached .patch)) w₄
      (.returned (patchOutput (sampleChange checkedLine).patch)) w₅ :=
    exec_service ⟨[], Or.inl ⟨rfl, rfl⟩⟩
  have hrecord : Exec Checkouts.commitServes (commitWorkspace unit.toTaskWorkspace "Change"
      ⟨"Orchestrator", "orchestrator@localhost"⟩) c₆ (.returned "c1") c₇ := by
    have howned : Exec Checkouts.commitServes (commitCall (.verifyOwnedWorkspace
        unit.toTaskWorkspace)) c₆ (.returned "h0") c₆ := exec_perform ⟨[], rfl⟩
    -- The commit stages the worktree again, with the line written since.
    have hrestage : Exec Checkouts.commitServes (commitCall (.add "/work")) c₆ (.returned ())
        (c₆.restage "/work") := exec_perform ⟨[], Or.inl ⟨rfl, rfl⟩⟩
    have htree : Exec Checkouts.commitServes (commitCall (.commit "/work" "Change"
        ⟨"Orchestrator", "orchestrator@localhost"⟩)) (c₆.restage "/work") (.returned ()) c₇ :=
      exec_perform ⟨[], Or.inl rfl⟩
    have hparse : ∀ ref value, Exec Checkouts.commitServes (commitCall (.revParse "/work" ref)) c₇
        (.returned value) c₇ := fun _ _ => exec_perform ⟨[], rfl⟩
    exact exec_bind howned (exec_bind hrestage (exec_bind htree
      (exec_bind (hparse "HEAD" "c1") (exec_bind (hparse "HEAD^" "h0") .ret))))
  have hcommit : Exec (serves (Checkouts.services sampleDiff) writer)
      (service (.commitWorkspace unit.toTaskWorkspace "Change"
        ⟨"Orchestrator", "orchestrator@localhost"⟩)) w₅ (.returned "c1") w₆ :=
    exec_service ⟨[("/work", written)], Or.inl ⟨"c1", rfl, hrecord⟩⟩
  have hcollect : Exec (serves (Checkouts.services sampleDiff) writer)
      (collect "web" "/work" 2000) w₁
      (.returned (collectedChanges "web" (sampleChange checkedLine) 2000)) w₅ := by
    refine exec_bind hadd (exec_bind hraw (exec_bind hnumstat ?_))
    dsimp only
    rw [changedFiles_render (sampleChange checkedLine).different, if_neg (by decide)]
    exact exec_bind hpatch .ret
  refine ⟨w₆, ?_, rfl⟩
  refine exec_bind (exec_bind (exec_bind hverify .ret) .ret) ?_
  refine exec_bind (exec_bind hcollect .ret) ?_
  rw [if_neg (by decide +kernel)]
  exact exec_bind (exec_bind (exec_bind hcommit .ret) .ret) .ret

end Orchestrator
