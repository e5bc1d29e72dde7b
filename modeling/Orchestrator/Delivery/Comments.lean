import Mathlib.Logic.Relation
import Orchestrator.Delivery.ExternalOperations

/-! # A milestone comment is posted at most once

Executions of `syncLinearComment` for one key, one after the other, each of which may
end at any step. A comment exists only once its intent record does, so an execution that
finds the record new may post without looking, and one that finds it pending sees the
comment if there is one. Once an execution has returned, the record holds its response.
-/

namespace Orchestrator

open Kit Relation

/-- The comments that `createComment` calls have made, with their issues. -/
structure LinearServer where
  created : List (String × LinearComment) := []

/-- Linear lists every comment already created, possibly among others. A call that creates
a comment may fail before or after it. -/
def linearServices : Services LinearServer
  | server, .listComments issueId, answer, server' =>
      server' = server ∧ ∀ comments, answer = .ok comments →
        ∀ entry ∈ server.created, entry.1 = issueId → entry.2 ∈ comments
  | server, .createComment issueId body, answer, server' =>
      (∃ id, server' = ⟨server.created ++ [(issueId, ⟨id, body⟩)]⟩ ∧
        (answer = .ok id ∨ ∃ failure, answer = .error failure)) ∨
      (server' = server ∧ ∃ failure, answer = .error failure)
  | server, _, _, server' => server' = server

/-- The entry is a request that writes to Linear. -/
def JournalEntry.linearWrite : JournalEntry → Bool
  | .asked (.createComment _ _) _ => true
  | .asked (.attachLink _ _ _ _) _ => true
  | _ => false

abbrev LinearWorld := StageWorld LinearServer

/-- What a comment is identified by: the row may have changed between executions. -/
structure Milestone where
  taskId : TaskId
  issueId : String
  event : String
  identity : CommentIdentity

def Milestone.key (milestone : Milestone) (deps : DeliveryDependencies) : String :=
  s!"kelolakelas-orchestrator:{milestone.taskId}:{milestone.event}:" ++
    deps.digest milestone.identity

/-- An execution of `syncLinearComment` for the milestone, with any body. -/
structure Executes (deps : DeliveryDependencies) (milestone : Milestone) (w : LinearWorld)
    (ending : Ending StageError Unit) (w' : LinearWorld) : Prop where
  run : ∃ (task : Task) (stage : TaskState) (body : String), task.id = milestone.taskId ∧
    task.linearIssueId = milestone.issueId ∧
    Exec (serves linearServices ⟨task.id, stage⟩)
      (syncLinearComment deps task ⟨milestone.event, milestone.identity, body⟩) w ending w'

/-- Between two executions the database may serve any other call. -/
inductive MilestoneStep (deps : DeliveryDependencies) (milestone : Milestone) :
    LinearWorld → LinearWorld → Prop
  | executed {w ending w'} (h : Executes deps milestone w ending w') :
      MilestoneStep deps milestone w w'
  | database {w writer call answer w'}
      (h : serves linearServices writer w (.database call) answer w') :
      MilestoneStep deps milestone w w'

/-! ## The key in the body -/

theorem includes_commentBody (key body : String) :
    includes (commentBody key body) key = true := by
  rw [includes_iff]
  unfold commentBody
  simp only [String.toList_append, List.append_assoc]
  exact List.infix_append_of_infix_right (List.infix_append' _ _ _)

theorem commentKey_eq {deps : DeliveryDependencies} {milestone : Milestone} {task : Task}
    (hid : task.id = milestone.taskId) (body : String) :
    commentKey deps task ⟨milestone.event, milestone.identity, body⟩ = milestone.key deps := by
  unfold commentKey Milestone.key
  rw [hid]
  simp [ToString.toString]

/-! ## What every call keeps -/

/-- At most one comment was created for the key, and only under its intent record. -/
structure Posted (issueId key : String) (w : LinearWorld) : Prop where
  once : w.outside.created.length ≤ 1
  keyed : ∀ entry ∈ w.outside.created, entry.1 = issueId ∧ includes entry.2.body key = true
  intended : w.outside.created ≠ [] → ∃ row, w.tables.externalOperations.find? key = some row
  ids : w.tables.DistinctIds

/-- The record of the key holds a response. -/
def Responded (key : String) (w : LinearWorld) : Prop :=
  ∃ row, w.tables.externalOperations.find? key = some row ∧ row.status = .succeeded

section Calls

variable {issueId key : String} {w : LinearWorld} {writer : StageWriter} {call : DatabaseCall}
  {tables : StageTables} {holds : Bool} {now : Instant} {value : call.Answer}

theorem Posted.wrote (h : Posted issueId key w)
    (hperform : call.perform writer holds now w.tables = .ok (tables, value)) :
    Posted issueId key (w.wrote writer call tables) := by
  have hchange := operationChange hperform
  refine ⟨h.once, h.keyed, ?_, hchange.distinctIds h.ids⟩
  intro hcreated
  obtain ⟨row, hrow⟩ := h.intended hcreated
  obtain ⟨row', hrow', _⟩ := hchange.continues hrow
  exact ⟨row', hrow'⟩

theorem Responded.wrote (h : Responded key w)
    (hperform : call.perform writer holds now w.tables = .ok (tables, value)) :
    Responded key (w.wrote writer call tables) := by
  obtain ⟨row, hrow, hstatus⟩ := h
  obtain ⟨row', hrow', hcontinues⟩ := (operationChange hperform).continues hrow
  exact ⟨row', hrow', hcontinues.response hstatus⟩

end Calls

/-! ## One execution -/

section Execution

variable {issueId key body : String} {w : LinearWorld} {writer : StageWriter} {task : Task}
  {tables : StageTables}

/-- The world while an operation's effect runs: Linear may change, the tables do not. -/
def Effecting (issueId key : String) (tables : StageTables) (w : LinearWorld) : Prop :=
  Posted issueId key w ∧ w.tables = tables

/-- A comment is created where there is a record and no comment yet. -/
theorem keeps_createComment (h : Effecting issueId key tables w)
    (hrow : ∃ row, tables.externalOperations.find? key = some row)
    (hnone : w.outside.created = []) :
    (service (.createComment issueId (commentBody key body))).Keeps
      (serves linearServices writer) (Effecting issueId key tables) (fun _ _ => True) w := by
  refine keeps_service h ?_
  intro answer server hserved
  refine ⟨?_, fun _ _ => trivial⟩
  rcases hserved with ⟨id, rfl, _⟩ | ⟨rfl, _⟩
  · refine ⟨⟨?_, ?_, ?_, h.1.ids⟩, h.2⟩
    · simp [hnone]
    · intro entry hentry
      have heq : entry = (issueId, ⟨id, commentBody key body⟩) := by simpa [hnone] using hentry
      subst heq
      exact ⟨rfl, includes_commentBody key body⟩
    · intro _
      rw [StageWorld.asked_tables, h.2]
      exact hrow
  · exact ⟨⟨h.1.once, h.1.keyed, h.1.intended, h.1.ids⟩, h.2⟩

theorem keeps_listComments (h : Effecting issueId key tables w) :
    (service (.listComments issueId)).Keeps (serves linearServices writer)
      (Effecting issueId key tables)
      (fun comments w' => ∀ entry ∈ w'.outside.created, entry.2 ∈ comments) w := by
  refine keeps_service h ?_
  intro answer server hserved
  obtain ⟨rfl, hlisted⟩ := hserved
  refine ⟨⟨⟨h.1.once, h.1.keyed, h.1.intended, h.1.ids⟩, h.2⟩, ?_⟩
  rintro comments rfl entry hentry
  exact hlisted comments rfl entry hentry (h.1.keyed entry hentry).1

/-- Nothing found means that nothing was created: a new record says so, and under a pending
one the comments are read. -/
theorem keeps_existingComment (h : Effecting issueId key tables w) {created : Bool}
    (hcreated : created = true → w.outside.created = []) :
    (existingComment issueId key created).Keeps (serves linearServices writer)
      (Effecting issueId key tables)
      (fun existing w' => existing = none → w'.outside.created = []) w := by
  cases created with
  | true => exact keeps_pure h fun _ => hcreated rfl
  | false =>
      refine keeps_bind (keeps_listComments h) ?_
      intro comments w' hkept hlisted
      refine keeps_pure hkept ?_
      intro hnone
      rw [List.find?_eq_none] at hnone
      rw [List.eq_nil_iff_forall_not_mem]
      intro entry hentry
      exact hnone entry.2 (hlisted entry hentry) (hkept.1.keyed entry hentry).2

theorem keeps_postComment (h : Effecting issueId key tables w)
    (hrow : ∃ row, tables.externalOperations.find? key = some row) {created : Bool}
    (hcreated : created = true → w.outside.created = []) :
    (postComment issueId key (commentBody key body) created).Keeps (serves linearServices writer)
      (Effecting issueId key tables) (fun _ _ => True) w := by
  unfold postComment linearCall
  refine keeps_tryCatch ?_ ?_
  · refine keeps_bind (keeps_existingComment h hcreated) ?_
    intro existing w' hkept hfound
    cases existing with
    | some comment => exact keeps_pure hkept trivial
    | none =>
        refine keeps_bind (keeps_createComment hkept hrow (hfound rfl)) ?_
        intro id w₁ hkept₁ _
        exact keeps_pure hkept₁ trivial
  · intro failure w' hkept
    exact keeps_throw hkept

/-- An execution keeps the comment unique, and leaves a response if it returns. -/
theorem keeps_syncLinearComment {deps : DeliveryDependencies} {milestone : Milestone}
    {stage : TaskState} (hid : task.id = milestone.taskId)
    (hissue : task.linearIssueId = milestone.issueId)
    (h : Posted milestone.issueId (milestone.key deps) w) :
    (syncLinearComment deps task ⟨milestone.event, milestone.identity, body⟩).Keeps
      (serves linearServices ⟨task.id, stage⟩) (Posted milestone.issueId (milestone.key deps))
      (fun _ w' => deps.delivery.linearComments = true → Responded (milestone.key deps) w') w := by
  unfold syncLinearComment
  by_cases henabled : deps.delivery.linearComments = true
  swap
  · rw [if_pos (by simpa using henabled)]
    exact keeps_pure h fun hon => absurd hon henabled
  rw [if_neg (by simpa using henabled)]
  dsimp only
  rw [commentKey_eq hid, hissue]
  generalize milestone.key deps = key at h ⊢
  -- The effect runs on tables with a record of the key, and its completion writes to that record.
  have heffect : ∀ (w' : LinearWorld) (row : ExternalOperation) (created : Bool),
      Posted milestone.issueId key w' → w'.tables.externalOperations.find? key = some row →
      (created = true → w'.outside.created = []) →
      (postComment milestone.issueId key (commentBody key body) created).Keeps
        (serves linearServices ⟨task.id, stage⟩) (Posted milestone.issueId key)
        (Completes ⟨task.id, stage⟩ row.id (Posted milestone.issueId key)
          (fun _ w'' => Responded key w'')) w' := by
    intro w' row created hposted hrow hcreated
    refine keeps_mono (fun _ heffecting => heffecting.1) ?_
      (keeps_postComment ⟨hposted, rfl⟩ ⟨row, hrow⟩ hcreated)
    rintro response w₁ ⟨hposted₁, htables₁⟩ _ holds tables' hcomplete
    have hrow₁ : w₁.tables.externalOperations.find? key = some row := by rw [htables₁, hrow]
    have hperform : DatabaseCall.perform ⟨task.id, stage⟩ holds 0 w₁.tables
        (.completeExternalOperation row.id response) = .ok (tables', ()) := hcomplete
    refine ⟨hposted₁.wrote hperform, row.succeededWith response, ?_, rfl⟩
    exact completeExternalOperation_eq_ok hposted₁.ids hrow₁ hcomplete
  refine keeps_bind (R := fun _ w' => Responded key w') ?_ ?_
  · refine keeps_idempotentOperation rfl h ?_ ?_
    · intro row hrow
      have hbegun : Posted milestone.issueId key
          (w.wrote ⟨task.id, stage⟩ (.beginExternalOperation .linearComment key) w.tables) :=
        ⟨h.once, h.keyed, h.intended, h.ids⟩
      refine ⟨hbegun, ?_, ?_⟩
      · intro _ hstatus
        exact ⟨row, hrow, hstatus⟩
      · intro _ _
        exact heffect _ row false hbegun hrow nofun
    · intro hnone
      have hnothing : w.outside.created = [] := by
        by_contra hcreated
        obtain ⟨row, hrow⟩ := h.intended hcreated
        rw [hnone] at hrow
        cases hrow
      have hrow := Table.find?_insert_self
        (r := w.tables.newOperation ⟨task.id, stage⟩ .linearComment key) hnone
      have hbegun : Posted milestone.issueId key
          (w.wrote ⟨task.id, stage⟩ (.beginExternalOperation .linearComment key)
            (w.tables.begun ⟨task.id, stage⟩ .linearComment key)) := by
        refine ⟨h.once, h.keyed, fun _ => ⟨_, hrow⟩, ?_⟩
        exact (OperationChange.begun .linearComment key hnone).distinctIds h.ids
      exact ⟨hbegun, heffect _ _ true hbegun hrow fun _ => hnothing⟩
  · intro result w' hposted hresponded
    exact keeps_pure hposted fun _ => hresponded

/-- An execution that finds a response writes nothing to Linear. -/
theorem keeps_syncLinearComment_of_responded {deps : DeliveryDependencies} {milestone : Milestone}
    {stage : TaskState} {writes : List JournalEntry} (hid : task.id = milestone.taskId)
    (h : deps.delivery.linearComments = true → Responded (milestone.key deps) w)
    (hwrites : w.journal.filter JournalEntry.linearWrite = writes) :
    (syncLinearComment deps task ⟨milestone.event, milestone.identity, body⟩).Keeps
      (serves linearServices ⟨task.id, stage⟩)
      (fun w' => (deps.delivery.linearComments = true → Responded (milestone.key deps) w') ∧
        w'.journal.filter JournalEntry.linearWrite = writes) (fun _ _ => True) w := by
  unfold syncLinearComment
  by_cases henabled : deps.delivery.linearComments = true
  swap
  · rw [if_pos (by simpa using henabled)]
    exact keeps_pure ⟨h, hwrites⟩ trivial
  rw [if_neg (by simpa using henabled)]
  dsimp only
  rw [commentKey_eq hid]
  obtain ⟨row, hrow, hstatus⟩ := h henabled
  have hbegun : (w.wrote ⟨task.id, stage⟩
      (.beginExternalOperation .linearComment (milestone.key deps)) w.tables).journal.filter
        JournalEntry.linearWrite = writes := by
    rw [StageWorld.wrote_journal, List.filter_append, hwrites]
    exact List.append_nil _
  refine keeps_bind (R := fun _ _ => True) ?_ ?_
  · refine keeps_idempotentOperation rfl ⟨h, hwrites⟩ ?_ ?_
    · intro found hfound
      rw [hrow] at hfound
      cases hfound
      refine ⟨⟨h, hbegun⟩, fun _ _ => trivial, ?_⟩
      intro _ hpending
      rw [hstatus] at hpending
      cases hpending
    · intro hnone
      rw [hrow] at hnone
      cases hnone
  · intro result w' hkept _
    exact keeps_pure hkept trivial

end Execution

/-! ## All executions -/

section Runs

variable {deps : DeliveryDependencies} {milestone : Milestone}

theorem MilestoneStep.posted {w w' : LinearWorld} (h : MilestoneStep deps milestone w w')
    (hposted : Posted milestone.issueId (milestone.key deps) w) :
    Posted milestone.issueId (milestone.key deps) w' := by
  cases h with
  | executed hexecutes =>
      obtain ⟨task, stage, body, hid, hissue, hexec⟩ := hexecutes.run
      exact (keeps_iff.mp (keeps_syncLinearComment hid hissue hposted) _ _ hexec).1
  | database hserves =>
      rcases hserves with ⟨holds, now, tables, value, hperform, rfl, _⟩ | ⟨rfl, _⟩
      · exact hposted.wrote hperform
      · exact hposted

/-- What holds once an execution has returned: the response is recorded, or comments are off. -/
theorem MilestoneStep.settled {w w' : LinearWorld} {writes : List JournalEntry}
    (h : MilestoneStep deps milestone w w')
    (hsettled : (deps.delivery.linearComments = true → Responded (milestone.key deps) w) ∧
      w.journal.filter JournalEntry.linearWrite = writes) :
    (deps.delivery.linearComments = true → Responded (milestone.key deps) w') ∧
      w'.journal.filter JournalEntry.linearWrite = writes := by
  obtain ⟨hresponded, hwrites⟩ := hsettled
  cases h with
  | executed hexecutes =>
      obtain ⟨task, stage, body, hid, _, hexec⟩ := hexecutes.run
      exact (keeps_iff.mp
        (keeps_syncLinearComment_of_responded hid hresponded hwrites) _ _ hexec).1
  | database hserves =>
      rcases hserves with ⟨holds, now, tables, value, hperform, rfl, _⟩ | ⟨rfl, _⟩
      · refine ⟨fun henabled => (hresponded henabled).wrote hperform, ?_⟩
        rw [StageWorld.wrote_journal, List.filter_append, hwrites]
        exact List.append_nil _
      · exact ⟨hresponded, hwrites⟩

/-- A milestone comment is posted at most once, and nothing is written after a return. -/
structure PostedOnce (deps : DeliveryDependencies) (milestone : Milestone) : Prop where
  atMostOne : ∀ w, ReflTransGen (MilestoneStep deps milestone) { tables := {}, outside := {} } w →
    (w.outside.created.filter fun entry =>
      includes entry.2.body (milestone.key deps)).length ≤ 1
  settled : ∀ w w' w'', ReflTransGen (MilestoneStep deps milestone)
      { tables := {}, outside := {} } w → Executes deps milestone w (.returned ()) w' →
    ReflTransGen (MilestoneStep deps milestone) w' w'' →
      w''.journal.filter JournalEntry.linearWrite = w'.journal.filter JournalEntry.linearWrite

theorem posted_of_reachable {w : LinearWorld}
    (h : ReflTransGen (MilestoneStep deps milestone) { tables := {}, outside := {} } w) :
    Posted milestone.issueId (milestone.key deps) w := by
  induction h with
  | refl =>
      refine ⟨Nat.zero_le _, ?_, ?_, StageTables.distinctIds_empty⟩
      · intro entry hentry
        cases hentry
      · intro hcreated
        exact absurd rfl hcreated
  | tail _ hstep ih => exact hstep.posted ih

/-- However often `syncLinearComment` is executed for a milestone, and wherever the executions
end, at most one comment is created, and none is requested once an execution has returned. -/
theorem milestone_posted_once (deps : DeliveryDependencies) (milestone : Milestone) :
    PostedOnce deps milestone where
  atMostOne w hreach := (List.length_filter_le _ _).trans (posted_of_reachable hreach).once
  settled w w' w'' hreach hexecutes hlater := by
    obtain ⟨task, stage, body, hid, hissue, hexec⟩ := hexecutes.run
    have hends := keeps_iff.mp
      (keeps_syncLinearComment hid hissue (posted_of_reachable hreach)) _ _ hexec
    have hsettled : (deps.delivery.linearComments = true → Responded (milestone.key deps) w'') ∧
        w''.journal.filter JournalEntry.linearWrite =
          w'.journal.filter JournalEntry.linearWrite := by
      induction hlater with
      | refl => exact ⟨hends.2 () rfl, rfl⟩
      | tail _ hstep ih => exact hstep.settled ih
    exact hsettled.2

end Runs

end Orchestrator
