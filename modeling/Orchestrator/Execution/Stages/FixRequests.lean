import Mathlib
import Orchestrator.Execution.Stages.RoutineCalls
import Orchestrator.Repositories.Attempts

/-! # Fix requests

A fix request has the number of the attempt that asked for it, and the fixer runs until the
request is concluded. The two checkpoint slots keep only the last request and the last
conclusion; the journal has them all.
-/

namespace Orchestrator

open Kit TaskState

/-! ## What the journal says -/

/-- The fix request that the entry records for the task. -/
def JournalEntry.fixRequest (taskId : TaskId) : JournalEntry → Option FixRequest
  | .wrote writer (.recordCheckpoint (.fixRequest request)) =>
      if writer.taskId = taskId then some request else none
  | _ => none

/-- The conclusion of a fix request that `FIXING` records for the task. -/
def JournalEntry.fixApplied (taskId : TaskId) : JournalEntry → Option FixApplied
  | .wrote writer (.recordCheckpoint (.fixApplied applied)) =>
      if writer = ⟨taskId, fixing⟩ then some applied else none
  | _ => none

def JournalEntry.asksFixer : JournalEntry → Bool
  | .asked (.runAgent .fixer _) _ => true
  | _ => false

/-- The fix requests of the task, in the order they were written. -/
def requestsOf (taskId : TaskId) (journal : List JournalEntry) : List FixRequest :=
  journal.filterMap (JournalEntry.fixRequest taskId)

def conclusionsOf (taskId : TaskId) (journal : List JournalEntry) : List FixApplied :=
  journal.filterMap (JournalEntry.fixApplied taskId)

/-- How often the fixer was asked. -/
def fixerRuns (journal : List JournalEntry) : Nat := journal.countP JournalEntry.asksFixer

namespace StageTables

variable (tables : StageTables) (taskId : TaskId)

/-- The request in the slot. -/
def fixRequest : Option FixRequest :=
  (tables.getCheckpoint taskId .fixRequest).bind fun
    | .fixRequest request => some request
    | _ => none

/-- The conclusion in the slot. -/
def fixApplied : Option FixApplied :=
  (tables.getCheckpoint taskId .fixApplied).bind fun
    | .fixApplied applied => some applied
    | _ => none

end StageTables

/-! ## Request ids -/

/-- The stage that asks for fixes of this kind. -/
def FixSource.stage : FixSource → TaskState
  | .quality => testing
  | .review => reviewing

def FixSource.requestId : FixSource → Nat → String
  | .quality => qualityRequestId
  | .review => reviewRequestId

theorem head?_qualityRequestId (attempt : Nat) :
    (qualityRequestId attempt).toList.head? = some 'q' := by
  have hword : (toString "quality-").toList.head? = some 'q' := rfl
  unfold qualityRequestId
  rw [String.toList_append, List.head?_append, hword]
  rfl

theorem head?_reviewRequestId (attempt : Nat) :
    (reviewRequestId attempt).toList.head? = some 'r' := by
  have hword : (toString "review-").toList.head? = some 'r' := rfl
  unfold reviewRequestId
  rw [String.toList_append, List.head?_append, hword]
  rfl

/-- The id determines the stage and the attempt. -/
theorem requestId_injective {source source' : FixSource} {attempt attempt' : Nat}
    (h : source.requestId attempt = source'.requestId attempt') :
    source = source' ∧ attempt = attempt' := by
  have hfirst := congrArg (fun text => text.toList.head?) h
  cases source with
  | quality =>
      cases source' with
      | quality => exact ⟨rfl, Nat.repr_injective ((String.append_right_inj _).mp h)⟩
      | review =>
          have hletter : some 'q' = some 'r' :=
            (head?_qualityRequestId attempt).symm.trans
              (hfirst.trans (head?_reviewRequestId attempt'))
          cases hletter
  | review =>
      cases source' with
      | quality =>
          have hletter : some 'r' = some 'q' :=
            (head?_reviewRequestId attempt).symm.trans
              (hfirst.trans (head?_qualityRequestId attempt'))
          cases hletter
      | review => exact ⟨rfl, Nat.repr_injective ((String.append_right_inj _).mp h)⟩

/-! ## The history of a task -/

/-- The slots and the journal agree, and every request was made by a completed attempt. -/
structure FixHistory {ω : Type} (taskId : TaskId) (w : StageWorld ω) : Prop where
  request : w.tables.fixRequest taskId = (requestsOf taskId w.journal).getLast?
  applied : w.tables.fixApplied taskId = (conclusionsOf taskId w.journal).getLast?
  requested : ∀ request ∈ requestsOf taskId w.journal, ∃ attempt,
    request.id = request.source.requestId attempt ∧
      w.tables.Completed taskId request.source.stage attempt
  distinct : ((requestsOf taskId w.journal).map (·.id)).Nodup
  known : ∀ applied ∈ conclusionsOf taskId w.journal,
    ∃ request ∈ requestsOf taskId w.journal, request.id = applied.requestId
  /-- A conclusion of the last request is not overwritten by one of an older request. -/
  latest : ∀ request, (requestsOf taskId w.journal).getLast? = some request →
    ∀ applied ∈ conclusionsOf taskId w.journal, applied.requestId = request.id →
      ∃ last, (conclusionsOf taskId w.journal).getLast? = some last ∧ last.requestId = request.id

/-- The request was concluded by a fix, applied or dismissed. -/
def Concluded (taskId : TaskId) (journal : List JournalEntry) (request : FixRequest) : Prop :=
  ∃ applied ∈ conclusionsOf taskId journal, applied.requestId = request.id

section History

variable {ω : Type} {taskId : TaskId} {w w' w'' : StageWorld ω}

/-- The task has no checkpoint, and nothing has happened. -/
theorem fixHistory_new (hjournal : w.journal = [])
    (hcheckpoints : ∀ row ∈ w.tables.taskCheckpoints.rows, row.taskId ≠ taskId) :
    FixHistory taskId w := by
  have hslot : ∀ key, w.tables.getCheckpoint taskId key = none := by
    intro key
    unfold StageTables.getCheckpoint
    rw [Option.map_eq_none_iff, Table.find?_eq_none_iff]
    intro row hrow hkey
    exact hcheckpoints row hrow (congrArg Prod.fst hkey)
  constructor
  · unfold StageTables.fixRequest
    rw [hslot, hjournal]
    rfl
  · unfold StageTables.fixApplied
    rw [hslot, hjournal]
    rfl
  · rw [hjournal]
    exact nofun
  · rw [hjournal]
    exact List.nodup_nil
  · rw [hjournal]
    exact nofun
  · rw [hjournal]
    exact nofun

/-- Whether the request in the slot is concluded can be read off the other slot. -/
theorem FixHistory.concluded_iff (h : FixHistory taskId w) {request : FixRequest}
    (hrequest : w.tables.fixRequest taskId = some request) :
    ((w.tables.fixApplied taskId).any (·.applies request)) = true ↔
      Concluded taskId w.journal request := by
  rw [h.applied]
  constructor
  · intro hany
    cases hlast : (conclusionsOf taskId w.journal).getLast? with
    | none =>
        rw [hlast] at hany
        cases hany
    | some last =>
        rw [hlast] at hany
        exact ⟨last, List.mem_of_getLast? hlast, of_decide_eq_true hany⟩
  · rintro ⟨applied, hmem, hid⟩
    rcases h.latest request (h.request ▸ hrequest) applied hmem hid with ⟨last, hlast, hlastId⟩
    rw [hlast]
    exact decide_eq_true hlastId

/-- What a step that touches neither fixes nor their attempts leaves as it is. -/
structure SameFixes (taskId : TaskId) (w w' : StageWorld ω) : Prop where
  request : w'.tables.fixRequest taskId = w.tables.fixRequest taskId
  applied : w'.tables.fixApplied taskId = w.tables.fixApplied taskId
  requests : requestsOf taskId w'.journal = requestsOf taskId w.journal
  conclusions : conclusionsOf taskId w'.journal = conclusionsOf taskId w.journal
  completed : ∀ stage attempt, w.tables.Completed taskId stage attempt →
    w'.tables.Completed taskId stage attempt

theorem SameFixes.refl (w : StageWorld ω) : SameFixes taskId w w where
  request := rfl
  applied := rfl
  requests := rfl
  conclusions := rfl
  completed _ _ h := h

theorem SameFixes.trans (h : SameFixes taskId w w') (h' : SameFixes taskId w' w'') :
    SameFixes taskId w w'' where
  request := h'.request.trans h.request
  applied := h'.applied.trans h.applied
  requests := h'.requests.trans h.requests
  conclusions := h'.conclusions.trans h.conclusions
  completed stage attempt hdone := h'.completed stage attempt (h.completed stage attempt hdone)

theorem FixHistory.same (h : FixHistory taskId w) (hsame : SameFixes taskId w w') :
    FixHistory taskId w' where
  request := by rw [hsame.request, hsame.requests, h.request]
  applied := by rw [hsame.applied, hsame.conclusions, h.applied]
  requested := by
    rw [hsame.requests]
    intro request hrequest
    rcases h.requested request hrequest with ⟨attempt, hid, hdone⟩
    exact ⟨attempt, hid, hsame.completed _ _ hdone⟩
  distinct := by
    rw [hsame.requests]
    exact h.distinct
  known := by
    rw [hsame.requests, hsame.conclusions]
    exact h.known
  latest := by
    rw [hsame.requests, hsame.conclusions]
    exact h.latest

end History

/-! ## One call -/

/-- The calls that write neither a fix request nor a conclusion. -/
def DatabaseCall.neutral : DatabaseCall → Bool
  | .recordCheckpoint payload => payload.key ≠ .fixRequest && payload.key ≠ .fixApplied
  | _ => true

def StageCall.neutral : StageCall → Bool
  | .database call => call.neutral
  | .service _ => true

section Calls

variable {ω : Type} {services : Services ω} {taskId : TaskId} {writer : StageWriter}
  {w w' : StageWorld ω} {tables' : StageTables}

theorem requestsOf_append (journal : List JournalEntry) (entry : JournalEntry) :
    requestsOf taskId (journal ++ [entry]) =
      requestsOf taskId journal ++ (entry.fixRequest taskId).toList := by
  unfold requestsOf
  rw [List.filterMap_append]
  cases hentry : entry.fixRequest taskId with
  | none => rw [List.filterMap_cons_none hentry]; rfl
  | some request => rw [List.filterMap_cons_some hentry]; rfl

theorem conclusionsOf_append (journal : List JournalEntry) (entry : JournalEntry) :
    conclusionsOf taskId (journal ++ [entry]) =
      conclusionsOf taskId journal ++ (entry.fixApplied taskId).toList := by
  unfold conclusionsOf
  rw [List.filterMap_append]
  cases hentry : entry.fixApplied taskId with
  | none => rw [List.filterMap_cons_none hentry]; rfl
  | some applied => rw [List.filterMap_cons_some hentry]; rfl

theorem fixRequest_wrote (request : FixRequest) :
    (JournalEntry.wrote writer (.recordCheckpoint (.fixRequest request))).fixRequest
      writer.taskId = some request :=
  if_pos rfl

theorem fixApplied_wrote (applied : FixApplied) :
    (JournalEntry.wrote ⟨taskId, fixing⟩ (.recordCheckpoint (.fixApplied applied))).fixApplied
      taskId = some applied :=
  if_pos rfl

/-- A write of another task, or a neutral one. -/
theorem sameFixes_wrote {call : DatabaseCall} {value : call.Answer}
    (h : Committed w.tables writer call value tables')
    (hneutral : writer.taskId = taskId → call.neutral = true) :
    SameFixes taskId w (w.wrote writer call tables') := by
  -- No neutral write of the task reaches the two slots.
  have hslot : ∀ key, (key = .fixRequest ∨ key = .fixApplied) →
      tables'.getCheckpoint taskId key = w.tables.getCheckpoint taskId key := by
    intro key hkey
    apply h.getCheckpoint
    rintro payload htask rfl hpayload
    have hne := hneutral htask
    simp only [DatabaseCall.neutral, hpayload] at hne
    rcases hkey with rfl | rfl
    · cases hne
    · cases hne
  constructor
  · unfold StageTables.fixRequest
    rw [StageWorld.wrote_tables, hslot _ (Or.inl rfl)]
  · unfold StageTables.fixApplied
    rw [StageWorld.wrote_tables, hslot _ (Or.inr rfl)]
  · have hnone : (JournalEntry.wrote writer call).fixRequest taskId = none := by
      cases call with
      | recordCheckpoint payload =>
          cases payload with
          | fixRequest request =>
              unfold JournalEntry.fixRequest
              apply if_neg
              intro htask
              cases hneutral htask
          | _ => rfl
      | _ => rfl
    rw [StageWorld.wrote_journal, requestsOf_append, hnone]
    exact List.append_nil _
  · have hnone : (JournalEntry.wrote writer call).fixApplied taskId = none := by
      cases call with
      | recordCheckpoint payload =>
          cases payload with
          | fixApplied applied =>
              unfold JournalEntry.fixApplied
              apply if_neg
              rintro rfl
              cases hneutral rfl
          | _ => rfl
      | _ => rfl
    rw [StageWorld.wrote_journal, conclusionsOf_append, hnone]
    exact List.append_nil _
  · intro stage attempt hdone
    exact h.attemptChange.completed hdone

theorem sameFixes_asked {call : ServiceCall} {answer : Except StageError call.Answer}
    {outside : ω} : SameFixes taskId w (w.asked call answer outside) where
  request := rfl
  applied := rfl
  requests := by
    rw [StageWorld.asked_journal, requestsOf_append]
    exact List.append_nil _
  conclusions := by
    rw [StageWorld.asked_journal, conclusionsOf_append]
    exact List.append_nil _
  completed _ _ hdone := hdone

theorem sameFixes_serves {call : StageCall} {answer : Except StageError call.Answer}
    (h : serves services writer w call answer w')
    (hneutral : writer.taskId = taskId → call.neutral = true) : SameFixes taskId w w' := by
  cases call with
  | database call =>
      rcases h with ⟨holds, now, tables, value, hperform, rfl, _⟩ | ⟨rfl, _⟩
      · exact sameFixes_wrote (committed hperform) hneutral
      · exact SameFixes.refl _
  | service call =>
      rcases h with ⟨outside, _, rfl⟩
      exact sameFixes_asked

/-- The journal only grows. -/
theorem fixerRuns_serves {call : StageCall} {answer : Except StageError call.Answer}
    (h : serves services writer w call answer w') :
    fixerRuns w.journal ≤ fixerRuns w'.journal := by
  cases call with
  | database call =>
      rcases h with ⟨holds, now, tables, value, _, rfl, _⟩ | ⟨rfl, _⟩
      · unfold fixerRuns
        rw [StageWorld.wrote_journal, List.countP_append]
        exact Nat.le_add_right _ _
      · exact le_refl _
  | service call =>
      rcases h with ⟨outside, _, rfl⟩
      unfold fixerRuns
      rw [StageWorld.asked_journal, List.countP_append]
      exact Nat.le_add_right _ _

/-- Routine calls do not ask the fixer. -/
theorem fixerRuns_routine {call : StageCall} {answer : Except StageError call.Answer}
    (hroutine : call.routine = true) (h : serves services writer w call answer w') :
    fixerRuns w'.journal = fixerRuns w.journal := by
  cases call with
  | database call =>
      rcases h with ⟨holds, now, tables, value, _, rfl, _⟩ | ⟨rfl, _⟩
      · unfold fixerRuns
        rw [StageWorld.wrote_journal, List.countP_append]
        rfl
      · rfl
  | service call =>
      rcases h with ⟨outside, _, rfl⟩
      have hother : (JournalEntry.asked call answer).asksFixer = false := by
        cases call with
        | runAgent role model =>
            cases role with
            | fixer => cases hroutine
            | _ => rfl
        | _ => rfl
      unfold fixerRuns
      rw [StageWorld.asked_journal, List.countP_append, List.countP_singleton, hother]
      rfl

theorem neutral_of_routine {call : StageCall} (h : call.routine = true) : call.neutral = true := by
  cases call with
  | database call =>
      cases call with
      | recordCheckpoint payload =>
          cases payload with
          | fixRequest request => cases h
          | fixApplied applied => cases h
          | _ => rfl
      | _ => rfl
  | service call => rfl

/-- Neutral calls keep the history, whenever the execution ends. -/
theorem keeps_neutral {α : Type} {procedure : StageProc α}
    (h : procedure.Only fun call => call.neutral = true) (hfix : FixHistory taskId w) :
    procedure.Keeps (serves services writer) (FixHistory taskId)
      (fun _ w' => SameFixes taskId w w') w := by
  have hsame : procedure.Keeps (serves services writer) (SameFixes taskId w) (fun _ _ => True) w := by
    refine keeps_of_only ?_ h (SameFixes.refl w)
    intro w₁ call answer w₂ hneutral hserves hsofar
    exact hsofar.trans (sameFixes_serves hserves fun _ => hneutral)
  exact keeps_mono (fun _ hsofar => hfix.same hsofar) (fun _ _ hsofar _ => hsofar) hsame

theorem keeps_routine {α : Type} {procedure : StageProc α} (h : Routine procedure)
    (hfix : FixHistory taskId w) :
    procedure.Keeps (serves services writer) (FixHistory taskId)
      (fun _ w' => SameFixes taskId w w') w :=
  keeps_neutral (only_mono (fun _ => neutral_of_routine) h) hfix

/-- A new request is written. -/
theorem fixHistory_requested {request : FixRequest} {attempt : Nat} {now : Instant}
    (hfix : FixHistory taskId w) (htask : writer.taskId = taskId)
    (hid : request.id = request.source.requestId attempt)
    (hdone : w.tables.Completed taskId request.source.stage attempt)
    (hnew : ∀ other ∈ requestsOf taskId w.journal, other.id ≠ request.id) :
    FixHistory taskId (w.wrote writer (.recordCheckpoint (.fixRequest request))
      (w.tables.recordCheckpoint writer (.fixRequest request) now)) := by
  subst htask
  have hrequests : requestsOf writer.taskId
      (w.journal ++ [.wrote writer (.recordCheckpoint (.fixRequest request))]) =
      requestsOf writer.taskId w.journal ++ [request] := by
    rw [requestsOf_append, fixRequest_wrote]
    rfl
  have hconclusions : conclusionsOf writer.taskId
      (w.journal ++ [.wrote writer (.recordCheckpoint (.fixRequest request))]) =
      conclusionsOf writer.taskId w.journal := by
    rw [conclusionsOf_append]
    exact List.append_nil _
  have hcommitted : Committed w.tables writer (.recordCheckpoint (.fixRequest request)) ()
      (w.tables.recordCheckpoint writer (.fixRequest request) now) := .checkpointed _ now
  constructor
  · unfold StageTables.fixRequest
    rw [StageWorld.wrote_tables, StageWorld.wrote_journal, hrequests, List.getLast?_concat]
    have hslot : (w.tables.recordCheckpoint writer (.fixRequest request) now).getCheckpoint
        writer.taskId .fixRequest = some (.fixRequest request) := getCheckpoint_recordCheckpoint
    rw [hslot]
    rfl
  · unfold StageTables.fixApplied
    rw [StageWorld.wrote_tables, StageWorld.wrote_journal, hconclusions, ← hfix.applied,
      hcommitted.getCheckpoint]
    · rfl
    · rintro payload _ ⟨⟩
      exact nofun
  · rw [StageWorld.wrote_journal, hrequests]
    intro other hother
    rcases List.mem_append.mp hother with hold | hlast
    · exact hfix.requested other hold
    · rw [List.mem_singleton.mp hlast]
      exact ⟨attempt, hid, hdone⟩
  · rw [StageWorld.wrote_journal, hrequests, List.map_append, List.nodup_append]
    refine ⟨hfix.distinct, List.nodup_singleton _, ?_⟩
    intro old hold new hlast
    rcases List.mem_map.mp hold with ⟨other, hother, rfl⟩
    rw [List.mem_singleton.mp hlast]
    exact hnew other hother
  · rw [StageWorld.wrote_journal, hrequests, hconclusions]
    intro applied happlied
    rcases hfix.known applied happlied with ⟨other, hother, hsame⟩
    exact ⟨other, List.mem_append_left _ hother, hsame⟩
  · rw [StageWorld.wrote_journal, hrequests, hconclusions, List.getLast?_concat]
    rintro _ ⟨⟩ applied happlied hconcludes
    -- Every conclusion is of an older request, which has another id.
    rcases hfix.known applied happlied with ⟨other, hother, hsame⟩
    exact absurd (hsame.trans hconcludes) (hnew other hother)

/-- The request in the slot is concluded. -/
theorem fixHistory_concluded {request : FixRequest} {applied : FixApplied} {now : Instant}
    (hfix : FixHistory taskId w) (hrequest : w.tables.fixRequest taskId = some request)
    (hid : applied.requestId = request.id) :
    FixHistory taskId (w.wrote ⟨taskId, fixing⟩ (.recordCheckpoint (.fixApplied applied))
      (w.tables.recordCheckpoint ⟨taskId, fixing⟩ (.fixApplied applied) now)) := by
  -- The write concludes a request and asks for none.
  have hrequests : requestsOf taskId
      (w.journal ++ [.wrote ⟨taskId, fixing⟩ (.recordCheckpoint (.fixApplied applied))]) =
      requestsOf taskId w.journal := by
    rw [requestsOf_append]
    exact List.append_nil _
  have hconclusions : conclusionsOf taskId
      (w.journal ++ [.wrote ⟨taskId, fixing⟩ (.recordCheckpoint (.fixApplied applied))]) =
      conclusionsOf taskId w.journal ++ [applied] := by
    rw [conclusionsOf_append, fixApplied_wrote]
    rfl
  have hcommitted : Committed w.tables ⟨taskId, fixing⟩ (.recordCheckpoint (.fixApplied applied)) ()
      (w.tables.recordCheckpoint ⟨taskId, fixing⟩ (.fixApplied applied) now) := .checkpointed _ now
  have hlast := hfix.request.symm.trans hrequest
  constructor
  · unfold StageTables.fixRequest
    rw [StageWorld.wrote_tables, StageWorld.wrote_journal, hrequests, ← hfix.request,
      hcommitted.getCheckpoint]
    · rfl
    · rintro payload _ ⟨⟩
      exact nofun
  · unfold StageTables.fixApplied
    rw [StageWorld.wrote_tables, StageWorld.wrote_journal, hconclusions, List.getLast?_concat]
    have hslot : (w.tables.recordCheckpoint ⟨taskId, fixing⟩ (.fixApplied applied) now).getCheckpoint
        taskId .fixApplied = some (.fixApplied applied) := getCheckpoint_recordCheckpoint
    rw [hslot]
    rfl
  · rw [StageWorld.wrote_journal, hrequests]
    exact hfix.requested
  · rw [StageWorld.wrote_journal, hrequests]
    exact hfix.distinct
  · rw [StageWorld.wrote_journal, hrequests, hconclusions]
    intro other hother
    rcases List.mem_append.mp hother with hold | hnew
    · exact hfix.known other hold
    · rw [List.mem_singleton.mp hnew]
      exact ⟨request, List.mem_of_getLast? hlast, hid.symm⟩
  · rw [StageWorld.wrote_journal, hrequests, hconclusions, List.getLast?_concat, hlast]
    rintro _ ⟨⟩ other hother hconcludes
    exact ⟨applied, rfl, hid⟩

end Calls

end Orchestrator
