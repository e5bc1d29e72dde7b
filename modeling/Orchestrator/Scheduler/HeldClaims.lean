import Orchestrator.Scheduler.Worker

/-! # Claims in a held lane

`claimLane` looks at the lane's hold once and then claims task after task. A hold that
arrives while the loop waits for the database is not seen before the loop ends.
-/

namespace Orchestrator

open Kit TaskState

namespace Worker

/-- A `claimNextTask` call that this event leads to is for a lane without an active hold. -/
def KeepsHolds (options : WorkerOptions) (s : Worker) (event : WorkerEvent) : Prop :=
  ∀ lane work, (step options s event).claims ≠ s.claims →
    (step options s event).tick = .claiming lane work →
      (step options s event).activeLaneHold lane = none

/-- The answers that let a claim loop go on: claims are answered, and runs end. -/
def endsWork : WorkerEvent → Bool
  | .claimed _ _ => true
  | .throws _ _ _ => true
  | .failed _ => true
  | _ => false

/-- No claim is made in a held lane, neither in the run nor in one that goes on with more
answers at any point. -/
def RespectsHolds (options : WorkerOptions) (s : Worker) (events : List WorkerEvent) : Prop :=
  AlongJoined (step options) (fun event => endsWork event = true) (KeepsHolds options) s events

/-- The lane that the event holds, and until when. -/
def installs (options : WorkerOptions) (s : Worker) : WorkerEvent → Option (ClaimLane × Instant)
  | .circuitOpened openUntil => some (.delivery, openUntil)
  | .applied id =>
      match s.runs.find? id with
      | none => none
      | some run => (limitHold options run).map fun hold => (.execution, hold.untilTime)
  | _ => none

/-- The lane's claim loop waits for an answer and can claim again after it. -/
def Looping (options : WorkerOptions) (s : Worker) (lane : ClaimLane) : Prop :=
  (∃ work, s.tick = .claiming lane work) ∧ s.stopping = false ∧ 1 < laneLimit options.config lane

/-- A hold that has not run out arrives outside the claim loop of its lane. -/
def HoldsBetweenLoops (options : WorkerOptions) (s : Worker) (event : WorkerEvent) : Prop :=
  ∀ lane untilTime, installs options s event = some (lane, untilTime) → s.clock < untilTime →
    ¬ Looping options s lane

/-! ## The runs of a worker -/

/-- Run ids are fresh, and every entry of the map belongs to a run in progress. -/
structure RunsMapped (s : Worker) : Prop where
  fresh : ∀ run ∈ s.runs.rows, run.id < s.started
  mapped : ∀ entry ∈ s.inFlight.rows, ∃ run ∈ s.runs.rows,
    run.id = entry.run ∧ run.taskId = entry.taskId

/-- What a step does to the runs and the map. -/
inductive RunsChange (s s' : Worker) : Prop
  | moved (hruns : RunsMoved s.runs s'.runs) (hmap : s'.inFlight = s.inFlight)
      (hstarted : s'.started = s.started)
  /-- A run begins to wait for the controls. -/
  | waits {run run' : WorkerRun} (hrun : run ∈ s.runs.rows) (hphase : run.phase = .boundary)
      (hid : run'.id = run.id) (htask : run'.taskId = run.taskId)
      (hruns : s'.runs = s.runs.put run') (hmap : s'.inFlight = s.inFlight)
      (hstarted : s'.started = s.started)
  | ended {run : WorkerRun} (hrun : run ∈ s.runs.rows) (hruns : s'.runs = s.runs.erase run.id)
      (hmap : s'.inFlight = s.inFlight.erase run.taskId) (hstarted : s'.started = s.started)
  | began {run : WorkerRun} (hid : run.id = s.started) (hphase : run.phase = .boundary)
      (hruns : s'.runs = s.runs.insert run)
      (hmap : s'.inFlight = s.inFlight.upsert ⟨run.taskId, s.started⟩)
      (hstarted : s'.started = s.started + 1)

theorem RunsMapped.change {s s' : Worker} (h : RunsMapped s) (hchange : RunsChange s s') :
    RunsMapped s' := by
  cases hchange with
  | moved hruns hmap hstarted =>
      constructor
      · intro run hrun
        rcases hruns.back run hrun with ⟨before, hbefore, hid, -⟩
        rw [hstarted, ← hid]
        exact h.fresh before hbefore
      · intro entry hentry
        rw [hmap] at hentry
        rcases h.mapped entry hentry with ⟨run, hrun, hid, htask⟩
        rcases hruns.forth run hrun with ⟨after, hafter, hid', htask'⟩
        exact ⟨after, hafter, hid'.trans hid, htask'.trans htask⟩
  | @waits run run' hrun hphase hid htask hruns hmap hstarted =>
      -- The run keeps its number and its task, so its entry still leads to it.
      constructor
      · intro other hother
        rw [hruns] at hother
        rw [hstarted]
        rcases Table.mem_put.mp hother with ⟨rfl, -⟩ | ⟨hold, -⟩
        · rw [hid]
          exact h.fresh run hrun
        · exact h.fresh other hold
      · intro entry hentry
        rw [hmap] at hentry
        rw [hruns]
        rcases h.mapped entry hentry with ⟨other, hother, hid', htask'⟩
        by_cases hsame : other.id = run'.id
        · have heq : other = run := s.runs.eq_of_key hother hrun (hsame.trans hid)
          refine ⟨run', Table.mem_put.mpr (Or.inl ⟨rfl, run, hrun, hid.symm⟩), ?_, ?_⟩
          · rw [← hsame, hid']
          · rw [htask, ← heq, htask']
        · exact ⟨other, Table.mem_put.mpr (Or.inr ⟨hother, hsame⟩), hid', htask'⟩
  | @ended run hrun hruns hmap hstarted =>
      -- Another entry cannot lead to the ended run: it would be the entry of its task.
      constructor
      · intro other hother
        rw [hruns, Table.erase, Table.mem_filter] at hother
        rw [hstarted]
        exact h.fresh other hother.1
      · intro entry hentry
        rw [hmap, Table.erase, Table.mem_filter, decide_eq_true_iff] at hentry
        rcases h.mapped entry hentry.1 with ⟨other, hother, hid, htask⟩
        have hne : other.id ≠ run.id := by
          intro hsame
          rw [s.runs.eq_of_key hother hrun hsame] at htask
          exact hentry.2 htask.symm
        refine ⟨other, ?_, hid, htask⟩
        rw [hruns, Table.erase, Table.mem_filter, decide_eq_true_iff]
        exact ⟨hother, hne⟩
  | @began run hid hphase hruns hmap hstarted =>
      -- The number of a new run is above those in use.
      have hnew : s.runs.find? run.id = none := by
        refine Table.find?_eq_none_iff.mpr fun other hother heq => ?_
        have hless := h.fresh other hother
        exact absurd (heq.trans hid) (Nat.ne_of_lt hless)
      constructor
      · intro other hother
        rw [hruns] at hother
        rw [hstarted]
        rcases (Table.mem_insert hnew).mp hother with hold | rfl
        · exact Nat.lt_succ_of_lt (h.fresh other hold)
        · rw [hid]
          exact Nat.lt_succ_self _
      · intro entry hentry
        rw [hmap] at hentry
        rw [hruns]
        rcases Table.mem_of_mem_insert hentry with hput | rfl
        · rcases Table.mem_put.mp hput with ⟨rfl, -⟩ | ⟨hold, -⟩
          · exact ⟨run, (Table.mem_insert hnew).mpr (Or.inr rfl), hid, rfl⟩
          · rcases h.mapped entry hold with ⟨other, hother, hid', htask⟩
            exact ⟨other, Table.mem_insert_of_mem hother, hid', htask⟩
        · exact ⟨run, (Table.mem_insert hnew).mpr (Or.inr rfl), hid, rfl⟩

theorem enterLane_cases {options : WorkerOptions} {s : Worker} {lane : ClaimLane}
    {work : ClaimableWork} :
    s.enterLane options lane work = none ∨
      (s.enterLane options lane work = some (s.issueClaim lane work) ∧
        s.activeLaneHold lane = none) := by
  unfold enterLane
  split_ifs with hopen
  · simp only [Bool.and_eq_true, Option.isNone_iff_eq_none] at hopen
    exact Or.inr ⟨rfl, hopen.1.2⟩
  · exact Or.inl rfl

/-- After a lane the loop ends, or the delivery lane's begins without a hold. -/
theorem leaveLane_cases {options : WorkerOptions} {s : Worker} {lane : ClaimLane}
    {work : ClaimableWork} :
    s.leaveLane options lane work = { s with tick := .idle } ∨
      (s.leaveLane options lane work = s.issueClaim .delivery work ∧
        s.activeLaneHold .delivery = none) := by
  cases lane with
  | delivery => exact Or.inl rfl
  | execution =>
      unfold leaveLane
      rcases @enterLane_cases options s .delivery work with hnone | ⟨hsome, hfree⟩
      · exact Or.inl (by simp [hnone])
      · exact Or.inr ⟨by simp [hsome], hfree⟩

theorem claimAvailableWork_cases {options : WorkerOptions} {s : Worker} :
    s.claimAvailableWork options = { s with tick := .idle } ∨
      ∃ lane work, s.claimAvailableWork options = s.issueClaim lane work ∧
        s.activeLaneHold lane = none := by
  unfold claimAvailableWork
  split
  · exact Or.inl rfl
  · next controls _ =>
      dsimp only
      split_ifs
      · exact Or.inl rfl
      · generalize claimableWork options.config controls.scheduleOverride s.clock = work
        rcases @enterLane_cases options s .execution work with hnone | ⟨hsome, hfree⟩
        · rcases @leaveLane_cases options s .execution work with hidle | ⟨hnext, hfree⟩
          · exact Or.inl (by simp [hnone, hidle])
          · exact Or.inr ⟨.delivery, work, by simp [hnone, hnext], hfree⟩
        · exact Or.inr ⟨.execution, work, by simp [hsome], hfree⟩

theorem RunsMapped.fresh_started {s : Worker} (h : RunsMapped s) :
    s.runs.find? s.started = none := by
  refine Table.find?_eq_none_iff.mpr fun run hrun heq => ?_
  have hless := h.fresh run hrun
  exact absurd heq (Nat.ne_of_lt hless)

/-- A task that was just started takes a slot of its lane. -/
theorem inFlightIn_startTask {options : WorkerOptions} {s : Worker} (h : RunsMapped s)
    (task : Task) : 0 < (s.startTask options task).inFlightIn (claimLaneOf task.state) := by
  have hentry : (⟨task.id, s.started⟩ : InFlightTask) ∈
      (s.startTask options task).inFlight.rows :=
    Table.mem_of_find? (Table.find?_upsert_self (t := s.inFlight) (r := ⟨task.id, s.started⟩))
  have hrun : (s.startTask options task).runs.find? s.started = some
      { id := s.started, workerId := options.workerId, taskId := task.id, stage := task.state } :=
    Table.find?_insert_self h.fresh_started
  refine List.countP_pos_iff.mpr ⟨_, hentry, ?_⟩
  simp [hrun]

/-- The claim loop goes on with a claim, only if the lane has room for another task. -/
theorem stepClaimed_cases {options : WorkerOptions} {s : Worker} (h : RunsMapped s)
    {task : Option Task} {inTime : Bool} :
    s.stepClaimed options task inTime = s ∨
      ∃ s' lane work, s.tick = .claiming lane work ∧
        (s' = s ∨ ∃ task, s' = s.startTask options task) ∧
        (s.stepClaimed options task inTime = s'.leaveLane options lane work ∨
          (s.stepClaimed options task inTime = s'.issueClaim lane work ∧ s.stopping = false ∧
            1 < laneLimit options.config lane)) := by
  unfold stepClaimed
  cases htick : s.tick with
  | claiming lane work =>
      cases task with
      | none => exact Or.inr ⟨s, lane, work, rfl, Or.inl rfl, Or.inl rfl⟩
      | some task =>
          dsimp only
          split_ifs with hlane hmay
          · exact Or.inl rfl
          · refine Or.inr ⟨_, lane, work, rfl, Or.inr ⟨task, rfl⟩, Or.inr ⟨rfl, ?_⟩⟩
            simp only [mayClaim, Bool.and_eq_true, decide_eq_true_eq, Bool.not_eq_true'] at hmay
            refine ⟨hmay.1.1, Nat.lt_of_le_of_lt ?_ hmay.1.2⟩
            have hslot := @inFlightIn_startTask options s h task
            rwa [not_not.mp hlane] at hslot
          · exact Or.inr ⟨_, lane, work, rfl, Or.inr ⟨task, rfl⟩, Or.inl rfl⟩
  | _ => exact Or.inl rfl

/-! ## What a step does to the claim loop -/

structure SameHolds (s s' : Worker) : Prop where
  clock : s'.clock = s.clock
  stopping : s'.stopping = s.stopping
  laneHolds : s'.laneHolds = s.laneHolds

theorem SameHolds.activeLaneHold {s s' : Worker} (h : SameHolds s s') (lane : ClaimLane) :
    s'.activeLaneHold lane = s.activeLaneHold lane := by
  unfold Worker.activeLaneHold
  rw [h.clock, h.laneHolds]

inductive LoopChange (options : WorkerOptions) (s : Worker) (event : WorkerEvent) (s' : Worker) :
    Prop
  | same (h : SameHolds s s') (htick : s'.tick = s.tick) (hclaims : s'.claims = s.claims)
  /-- The tick is outside a claim loop. -/
  | left (h : SameHolds s s') (htick : ∀ lane work, s'.tick ≠ .claiming lane work)
      (hclaims : s'.claims = s.claims)
  /-- A loop begins in a lane without a hold. -/
  | entered (h : SameHolds s s') {lane : ClaimLane} {work : ClaimableWork}
      (hfree : s.activeLaneHold lane = none) (htick : s'.tick = .claiming lane work)
  /-- A loop goes on. -/
  | continued (h : SameHolds s s') {lane : ClaimLane} {work : ClaimableWork}
      (hloop : Looping options s lane) (htick : s'.tick = .claiming lane work)
  | waited (hclock : s.clock ≤ s'.clock) (hstopping : s'.stopping = s.stopping)
      (hholds : s'.laneHolds = s.laneHolds) (htick : s'.tick = s.tick)
      (hclaims : s'.claims = s.claims)
  | stopped (hstopping : s'.stopping = true) (htick : s'.tick = s.tick)
      (hclaims : s'.claims = s.claims)
  | held {lane : ClaimLane} {untilTime : Instant} {reason : String}
      (hinstalls : installs options s event = some (lane, untilTime))
      (hholds : s'.laneHolds = (s.holdLane lane untilTime reason).laneHolds)
      (hclock : s'.clock = s.clock) (hstopping : s'.stopping = s.stopping)
      (htick : s'.tick = s.tick) (hclaims : s'.claims = s.claims)

/-- What the claim loops and the holds of a worker depend on. -/
def loopView (s : Worker) :
    Instant × Bool × (ClaimLane → Option LaneHold) × TickPhase × Nat :=
  (s.clock, s.stopping, s.laneHolds, s.tick, s.claims)

/-- A step that leaves the loops and the holds alone. -/
theorem LoopChange.of_view {options : WorkerOptions} {s s' : Worker} {event : WorkerEvent}
    (h : s'.loopView = s.loopView) : LoopChange options s event s' := by
  simp only [loopView, Prod.mk.injEq] at h
  rcases h with ⟨hclock, hstopping, hholds, htick, hclaims⟩
  exact .same ⟨hclock, hstopping, hholds⟩ htick hclaims

section View

variable {options : WorkerOptions} {s : Worker} {event : WorkerEvent}

theorem onRun_view {id : Nat} {act : WorkerRun → Worker}
    (h : ∀ run, (act run).loopView = s.loopView) : (s.onRun id act).loopView = s.loopView := by
  unfold onRun
  split
  · rfl
  · exact h _

@[simp] theorem abortRun_view {reason : StageAbortReason} {id : Nat} :
    (s.abortRun reason id).loopView = s.loopView :=
  onRun_view fun _ => rfl

@[simp] theorem abortInFlight_view {reason : StageAbortReason} :
    (s.abortInFlight reason).loopView = s.loopView := by
  rcases abortInFlight_eq s reason with ⟨runs, hruns, -⟩
  rw [hruns]
  rfl

theorem loop_controlsRead {read : ControlsRead} {controls : OrchestratorControls} :
    LoopChange options s event (s.stepControlsRead options read controls) := by
  have hreceived : (s.received read controls).loopView = s.loopView := rfl
  unfold stepControlsRead
  generalize s.received read controls = received at hreceived ⊢
  cases read.site with
  | tick =>
      have haborted : (if received.killSwitchEngaged options then
          received.abortInFlight .killSwitch else received).loopView = s.loopView := by
        split_ifs
        · rw [abortInFlight_view, hreceived]
        · exact hreceived
      simp only [loopView, Prod.mk.injEq] at haborted
      rcases haborted with ⟨hclock, hstopping, hholds, -, hclaims⟩
      exact .left ⟨hclock, hstopping, hholds⟩ (fun _ _ h => nomatch h) hclaims
  | boundary run =>
      refine .of_view ((onRun_view fun run => ?_).trans hreceived)
      unfold stepBoundaryControls
      split <;> rfl
  | heartbeat run stage =>
      refine .of_view ?_
      dsimp only
      split_ifs <;> simp [hreceived]
  | refresh =>
      have haborted : (if received.killSwitchEngaged options then
          received.abortInFlight .killSwitch else received).loopView = s.loopView := by
        split_ifs
        · rw [abortInFlight_view, hreceived]
        · exact hreceived
      exact .of_view haborted

theorem loop_runTask {id : Nat} {task : Option Task} :
    (s.onRun id fun run => s.stepRunTask options task run).loopView = s.loopView := by
  refine onRun_view fun run => ?_
  unfold stepRunTask
  split
  · split_ifs
    · dsimp only
      split <;> rfl
    · rfl
  · rfl
  · rfl

theorem loop_finished {id : Nat} {outcome : StageOutcome} :
    (s.onRun id fun run => s.stepFinished outcome run).loopView = s.loopView := by
  refine onRun_view fun run => ?_
  unfold stepFinished
  split
  · split_ifs <;> rfl
  · rfl

theorem holdLane_same (s : Worker) (lane : ClaimLane) (untilTime : Instant) (reason : String) :
    (s.holdLane lane untilTime reason).clock = s.clock ∧
      (s.holdLane lane untilTime reason).stopping = s.stopping ∧
      (s.holdLane lane untilTime reason).tick = s.tick ∧
      (s.holdLane lane untilTime reason).claims = s.claims := by
  unfold holdLane
  split
  · split_ifs <;> exact ⟨rfl, rfl, rfl, rfl⟩
  · exact ⟨rfl, rfl, rfl, rfl⟩

theorem holdLane_runs (s : Worker) (lane : ClaimLane) (untilTime : Instant) (reason : String) :
    (s.holdLane lane untilTime reason).runs = s.runs ∧
      (s.holdLane lane untilTime reason).inFlight = s.inFlight ∧
      (s.holdLane lane untilTime reason).started = s.started := by
  unfold holdLane
  split
  · split_ifs <;> exact ⟨rfl, rfl, rfl⟩
  · exact ⟨rfl, rfl, rfl⟩

theorem loop_applied {id : Nat} :
    LoopChange options s (.applied id) (s.onRun id fun run => s.stepApplied options run) := by
  unfold onRun
  cases hfound : s.runs.find? id with
  | none => exact .of_view rfl
  | some run =>
      dsimp only
      unfold stepApplied
      split
      · exact .of_view rfl
      split
      · exact .of_view rfl
      · cases hhold : limitHold options run with
        | none => exact .of_view rfl
        | some hold =>
            have hinstalls : installs options s (.applied id) =
                some (.execution, hold.untilTime) := by
              simp [installs, hfound, hhold]
            rcases holdLane_same s .execution hold.untilTime hold.reason with
              ⟨hclock, hstopping, htick, hclaims⟩
            exact .held hinstalls rfl hclock hstopping htick hclaims
      all_goals exact .of_view rfl

/-- An answered claim goes on in its lane, goes to the next one, or ends the tick. -/
theorem loop_claimed (h : RunsMapped s) {task : Option Task} {inTime : Bool} :
    LoopChange options s (.claimed task inTime) (s.stepClaimed options task inTime) := by
  rcases @stepClaimed_cases options s h task inTime with
    hsame | ⟨s', lane, work, htick, hs', hnext⟩
  · rw [hsame]
    exact .of_view rfl
  · have hkept : SameHolds s s' := by
      rcases hs' with rfl | ⟨task, rfl⟩
      · exact ⟨rfl, rfl, rfl⟩
      · exact ⟨rfl, rfl, rfl⟩
    have hclaims : s'.claims = s.claims := by
      rcases hs' with rfl | ⟨task, rfl⟩ <;> rfl
    -- After the answer the loop leaves its lane or asks for the next task.
    rcases hnext with hleave | ⟨hclaim, hstopping, hlimit⟩
    · rw [hleave]
      rcases @leaveLane_cases options s' lane work with hidle | ⟨hnext, hfree⟩
      · rw [hidle]
        exact .left ⟨hkept.clock, hkept.stopping, hkept.laneHolds⟩ (fun _ _ h => nomatch h)
          hclaims
      · rw [hnext]
        exact .entered ⟨hkept.clock, hkept.stopping, hkept.laneHolds⟩
          ((hkept.activeLaneHold _).symm.trans hfree) rfl
    · rw [hclaim]
      exact .continued ⟨hkept.clock, hkept.stopping, hkept.laneHolds⟩
        ⟨⟨work, htick⟩, hstopping, hlimit⟩ rfl

/-- The step lemma of the claim loop. -/
theorem step_loop (h : RunsMapped s) : LoopChange options s event (step options s event) := by
  cases event with
  | wait elapsed =>
      exact .waited (Int.le_add_of_nonneg_right (Int.natCast_nonneg elapsed)) rfl rfl rfl rfl
  | runOnce =>
      unfold step
      dsimp only
      split
      · split_ifs
        · exact .of_view rfl
        · exact .left ⟨rfl, rfl, rfl⟩ (fun _ _ h => nomatch h) rfl
      · exact .of_view rfl
  | controlsRead id controls =>
      unfold step
      dsimp only
      split
      · exact .of_view rfl
      · exact loop_controlsRead
  | controlsFails id =>
      unfold step
      dsimp only
      split
      · exact .of_view rfl
      · next read _ =>
          unfold stepControlsFails
          split
          · exact .left ⟨rfl, rfl, rfl⟩ (fun _ _ h => nomatch h) rfl
          all_goals exact .of_view rfl
  | prepared =>
      unfold step
      dsimp only
      split
      · rcases @claimAvailableWork_cases options s with hidle | ⟨lane, work, hclaim, hfree⟩
        · rw [hidle]
          exact .left ⟨rfl, rfl, rfl⟩ (fun _ _ h => nomatch h) rfl
        · rw [hclaim]
          exact .entered ⟨rfl, rfl, rfl⟩ hfree rfl
      · exact .of_view rfl
  | tickFails =>
      unfold step
      dsimp only
      split
      · exact .left ⟨rfl, rfl, rfl⟩ (fun _ _ h => nomatch h) rfl
      · exact .left ⟨rfl, rfl, rfl⟩ (fun _ _ h => nomatch h) rfl
      · exact .of_view rfl
  | claimed task inTime => exact loop_claimed h
  | readTask id task => exact .of_view loop_runTask
  | finish id outcome => exact .of_view loop_finished
  | applied id => exact loop_applied
  | throws id leaseError message =>
      refine .of_view (onRun_view fun run => ?_)
      unfold stepThrows
      dsimp only
      split_ifs <;> rfl
  | failed id =>
      refine .of_view (onRun_view fun run => ?_)
      split_ifs <;> rfl
  | heartbeat id current =>
      refine .of_view ?_
      show (s.stepHeartbeatRenewed current id).loopView = _
      unfold stepHeartbeatRenewed
      dsimp only
      split_ifs
      · rfl
      · exact abortRun_view
      · rfl
  | leaseLost id => exact .of_view (onRun_view fun run => rfl)
  | refreshControls => exact .of_view rfl
  | circuitOpened openUntil =>
      rcases holdLane_same s .delivery openUntil "github circuit open" with
        ⟨hclock, hstopping, htick, hclaims⟩
      exact .held rfl rfl hclock hstopping htick hclaims
  | stop =>
      rcases abortInFlight_eq { s with stopping := true } .shutdown with ⟨runs, hruns, -⟩
      show LoopChange options s _ (({ s with stopping := true } : Worker).abortInFlight .shutdown)
      rw [hruns]
      exact .stopped rfl rfl rfl

/-! ## What a step does to the runs -/

theorem runs_same {s' : Worker} (hruns : s'.runs = s.runs) (hmap : s'.inFlight = s.inFlight)
    (hstarted : s'.started = s.started) : RunsChange s s' :=
  .moved (hruns ▸ .refl _) hmap hstarted

theorem runs_setRun {run run' : WorkerRun} (hrun : run ∈ s.runs.rows) (hid : run'.id = run.id)
    (htask : run'.taskId = run.taskId)
    (hreading : ∀ task, run'.phase = .readingControls task → run.phase = .readingControls task) :
    RunsChange s (s.setRun run') :=
  .moved (runsMoved_put hrun hid htask hreading) rfl rfl

theorem runs_onRun {id : Nat} {act : WorkerRun → Worker}
    (h : ∀ run ∈ s.runs.rows, RunsChange s (act run)) : RunsChange s (s.onRun id act) := by
  unfold onRun
  split
  · exact runs_same rfl rfl rfl
  · next run hfound => exact h run (Table.mem_of_find? hfound)

theorem runs_abortRun {reason : StageAbortReason} {id : Nat} :
    RunsChange s (s.abortRun reason id) := by
  rcases abortRun_eq s reason id with ⟨runs, hruns, hkept⟩
  rw [hruns]
  exact .moved hkept.moved rfl rfl

theorem runs_abortInFlight {reason : StageAbortReason} :
    RunsChange s (s.abortInFlight reason) := by
  rcases abortInFlight_eq s reason with ⟨runs, hruns, hkept⟩
  rw [hruns]
  exact .moved hkept.moved rfl rfl

/-- A change of the runs seen from a worker with the same runs and map. -/
theorem RunsChange.congr {s₁ s₁' s' : Worker} (h : RunsChange s₁ s₁')
    (hruns : s₁.runs = s.runs) (hmap : s₁.inFlight = s.inFlight) (hstarted : s₁.started = s.started)
    (hruns' : s'.runs = s₁'.runs) (hmap' : s'.inFlight = s₁'.inFlight)
    (hstarted' : s'.started = s₁'.started) : RunsChange s s' := by
  cases h with
  | moved hmoved hm hs =>
      exact .moved (hruns' ▸ hruns ▸ hmoved) (hmap'.trans (hm.trans hmap))
        (hstarted'.trans (hs.trans hstarted))
  | waits hrun hphase hid htask hr hm hs =>
      exact .waits (hruns ▸ hrun) hphase hid htask (hruns'.trans (hruns ▸ hr))
        (hmap'.trans (hm.trans hmap)) (hstarted'.trans (hs.trans hstarted))
  | ended hrun hr hm hs =>
      exact .ended (hruns ▸ hrun) (hruns'.trans (hruns ▸ hr)) (hmap'.trans (hmap ▸ hm))
        (hstarted'.trans (hs.trans hstarted))
  | began hid hphase hr hm hs =>
      exact .began (hid.trans hstarted) hphase (hruns'.trans (hruns ▸ hr))
        (hmap'.trans (hstarted ▸ hmap ▸ hm)) (hstarted'.trans (hstarted ▸ hs))

theorem gatePhase_ne_reading {config : SchedulerConfig} {controls : OrchestratorControls}
    {forceKillSwitch : Bool} {task stage : Task} {now : Instant} :
    gatePhase config controls forceKillSwitch task now ≠ .readingControls stage := by
  unfold gatePhase
  dsimp only
  split_ifs <;> simp

theorem runs_controlsRead {read : ControlsRead} {controls : OrchestratorControls} :
    RunsChange s (s.stepControlsRead options read controls) := by
  have hreceived : RunsChange (s.received read controls)
      (s.stepControlsRead options read controls) := by
    unfold stepControlsRead
    generalize s.received read controls = received
    have haborted : RunsChange received (if received.killSwitchEngaged options then
        received.abortInFlight .killSwitch else received) := by
      split_ifs
      · exact runs_abortInFlight
      · exact runs_same rfl rfl rfl
    cases read.site with
    | tick => exact haborted.congr rfl rfl rfl rfl rfl rfl
    | boundary run =>
        refine runs_onRun fun run hrun => ?_
        unfold stepBoundaryControls
        split
        · exact runs_setRun hrun rfl rfl fun _ h => absurd h gatePhase_ne_reading
        · exact runs_same rfl rfl rfl
    | heartbeat run stage =>
        dsimp only
        split_ifs
        · exact runs_abortRun
        · exact runs_abortRun
        · exact runs_same rfl rfl rfl
    | refresh => exact haborted.congr rfl rfl rfl rfl rfl rfl
  exact hreceived.congr rfl rfl rfl rfl rfl rfl

/-- An answered claim starts at most one run, and may close the loop of its lane. -/
theorem runs_claimed (h : RunsMapped s) {task : Option Task} {inTime : Bool} :
    RunsChange s (s.stepClaimed options task inTime) := by
  rcases @stepClaimed_cases options s h task inTime with
    hsame | ⟨s', lane, work, -, hs', hnext⟩
  · rw [hsame]
    exact runs_same rfl rfl rfl
  · have hstart : RunsChange s s' := by
      rcases hs' with rfl | ⟨task, rfl⟩
      · exact runs_same rfl rfl rfl
      · exact .began rfl rfl rfl rfl rfl
    rcases hnext with hleave | ⟨hclaim, -⟩
    · rw [hleave]
      rcases @leaveLane_cases options s' lane work with hidle | ⟨hnext, -⟩
      · rw [hidle]
        exact hstart.congr rfl rfl rfl rfl rfl rfl
      · rw [hnext]
        exact hstart.congr rfl rfl rfl rfl rfl rfl
    · rw [hclaim]
      exact hstart.congr rfl rfl rfl rfl rfl rfl

/-- A run that reads its row waits at its boundary, or ends. -/
theorem runs_runTask {run : WorkerRun} {task : Option Task}
    (hrun : run ∈ s.runs.rows) : RunsChange s (s.stepRunTask options task run) := by
  unfold stepRunTask
  split
  · next task hphase =>
      have hwaits : RunsChange s (s.setRun
          { run with phase := boundaryPhase task s.stopping, stage := task.state }) :=
        @RunsChange.waits s _ run
          { run with phase := boundaryPhase task s.stopping, stage := task.state }
          hrun hphase rfl rfl rfl rfl rfl
      split_ifs
      · dsimp only
        split
        · exact hwaits.congr rfl rfl rfl rfl rfl rfl
        · exact hwaits
      · exact .ended hrun rfl rfl rfl
  · exact .ended hrun rfl rfl rfl
  · exact runs_same rfl rfl rfl

/-- A result leads to a repository call, or is dropped with its run. -/
theorem runs_finished {run : WorkerRun} {outcome : StageOutcome}
    (hrun : run ∈ s.runs.rows) : RunsChange s (s.stepFinished outcome run) := by
  unfold stepFinished
  split
  · split_ifs
    · exact .ended hrun rfl rfl rfl
    · exact runs_setRun hrun rfl rfl fun _ h => nomatch h
    · exact runs_setRun hrun rfl rfl fun _ h => nomatch h
    · exact runs_setRun hrun rfl rfl fun _ h => nomatch h
  · exact runs_same rfl rfl rfl

/-- What is applied leads its run to the next boundary, or ends it. -/
theorem runs_applied {run : WorkerRun}
    (hrun : run ∈ s.runs.rows) : RunsChange s (s.stepApplied options run) := by
  have hended : RunsChange s (s.endRun run) := .ended hrun rfl rfl rfl
  unfold stepApplied
  split
  · exact runs_same rfl rfl rfl
  split
  · exact runs_setRun hrun rfl rfl fun _ h => nomatch h
  · split
    · next hold _ =>
        rcases holdLane_runs s .execution hold.untilTime hold.reason with
          ⟨hruns, hmap, hstarted⟩
        exact .ended hrun (congrArg (Table.erase · run.id) hruns)
          (congrArg (Table.erase · run.taskId) hmap) hstarted
    · exact hended
  all_goals first | exact hended | exact runs_same rfl rfl rfl

/-- What is thrown goes to `failTask`, unless the lease is gone. -/
theorem runs_throws {run : WorkerRun} {leaseError : Bool} {message : String}
    (hrun : run ∈ s.runs.rows) : RunsChange s (s.stepThrows leaseError message run) := by
  unfold stepThrows
  dsimp only
  split_ifs
  · exact .ended hrun rfl rfl rfl
  · have hfailing : RunsChange s (s.setRun
        { run with phase := .failing message, abortReason := none }) :=
      runs_setRun hrun rfl rfl fun _ h => nomatch h
    exact hfailing.congr rfl rfl rfl rfl rfl rfl

theorem runs_renewed {current : Task} {id : Nat} :
    RunsChange s (s.stepHeartbeatRenewed current id) := by
  unfold stepHeartbeatRenewed
  dsimp only
  split_ifs
  · exact runs_same rfl rfl rfl
  · exact runs_abortRun
  · exact runs_same rfl rfl rfl

/-- The step lemma of the runs. -/
theorem step_runsChange (h : RunsMapped s) : RunsChange s (step options s event) := by
  cases event with
  | wait elapsed => exact runs_same rfl rfl rfl
  | runOnce =>
      unfold step
      dsimp only
      split
      · split_ifs <;> exact runs_same rfl rfl rfl
      · exact runs_same rfl rfl rfl
  | controlsRead id controls =>
      unfold step
      dsimp only
      split
      · exact runs_same rfl rfl rfl
      · exact runs_controlsRead
  | controlsFails id =>
      unfold step
      dsimp only
      split
      · exact runs_same rfl rfl rfl
      · unfold stepControlsFails
        split <;> exact runs_same rfl rfl rfl
  | prepared =>
      unfold step
      dsimp only
      split
      · rcases @claimAvailableWork_cases options s with hidle | ⟨lane, work, hclaim, -⟩
        · rw [hidle]
          exact runs_same rfl rfl rfl
        · rw [hclaim]
          exact runs_same rfl rfl rfl
      · exact runs_same rfl rfl rfl
  | tickFails =>
      unfold step
      dsimp only
      split <;> exact runs_same rfl rfl rfl
  | claimed task inTime => exact runs_claimed h
  | readTask id task => exact runs_onRun fun _ hrun => runs_runTask hrun
  | finish id outcome => exact runs_onRun fun _ hrun => runs_finished hrun
  | applied id => exact runs_onRun fun _ hrun => runs_applied hrun
  | throws id leaseError message => exact runs_onRun fun _ hrun => runs_throws hrun
  | failed id =>
      refine runs_onRun fun run hrun => ?_
      split_ifs
      · exact .ended hrun rfl rfl rfl
      · exact runs_same rfl rfl rfl
  | heartbeat id current => exact runs_renewed
  | leaseLost id =>
      refine runs_onRun fun run hrun => ?_
      rcases WorkerRun.abort_phase run .leaseLost with ⟨hid, htask, hphase⟩
      exact runs_setRun hrun hid htask fun task h => hphase ▸ h
  | refreshControls => exact runs_same rfl rfl rfl
  | circuitOpened openUntil =>
      rcases holdLane_runs s .delivery openUntil "github circuit open" with
        ⟨hruns, hmap, hstarted⟩
      exact runs_same hruns hmap hstarted
  | stop =>
      have haborted : RunsChange { s with stopping := true }
          (({ s with stopping := true } : Worker).abortInFlight .shutdown) := runs_abortInFlight
      exact haborted.congr rfl rfl rfl rfl rfl rfl

theorem runsMapped_step (s : Worker) (event : WorkerEvent) (h : RunsMapped s) :
    RunsMapped (step options s event) := h.change (step_runsChange h)

theorem runsMapped_boot (clock : Instant) : RunsMapped (boot clock) where
  fresh _ hrun := nomatch hrun
  mapped _ hentry := nomatch hentry

/-! ## Holds that arrive -/

/-- A claim loop that can go on runs in a lane without a hold. -/
def Unheld (options : WorkerOptions) (s : Worker) : Prop :=
  ∀ lane, Looping options s lane → s.activeLaneHold lane = none

theorem activeLaneHold_holdLane {lane : ClaimLane} {untilTime : Instant} {reason : String} :
    (s.holdLane lane untilTime reason).activeLaneHold lane = none ↔
      s.activeLaneHold lane = none ∧ untilTime ≤ s.clock := by
  have hactive : ∀ s : Worker, s.activeLaneHold lane = none ↔
      ∀ hold, s.laneHolds lane = some hold → hold.untilTime ≤ s.clock := by
    intro s
    simp [activeLaneHold, Option.filter_eq_none_iff]
  rw [hactive, hactive, (holdLane_same s lane untilTime reason).1]
  unfold holdLane
  cases hold : s.laneHolds lane with
  | none => simp
  | some current =>
      dsimp only
      split_ifs with hearlier
      · -- The hold in force ends no earlier.
        simp only [hold, Option.some.injEq, forall_eq']
        constructor
        · exact fun hpassed => ⟨hpassed, Int.le_trans hearlier hpassed⟩
        · exact And.left
      · simp only [if_true, Option.some.injEq, forall_eq']
        constructor
        · intro hpassed
          have hcurrent := Int.le_of_lt (Int.not_le.mp hearlier)
          exact ⟨Int.le_trans hcurrent hpassed, hpassed⟩
        · exact And.right

theorem activeLaneHold_holdLane_of_ne {lane other : ClaimLane} (hne : other ≠ lane)
    {untilTime : Instant} {reason : String} :
    (s.holdLane lane untilTime reason).activeLaneHold other = s.activeLaneHold other := by
  have hholds : (s.holdLane lane untilTime reason).laneHolds other = s.laneHolds other := by
    unfold holdLane
    split
    · split_ifs <;> simp [hne]
    · simp [hne]
  unfold activeLaneHold
  rw [hholds, (holdLane_same s lane untilTime reason).1]

/-- What a step that installs a hold does. -/
theorem step_installs {lane : ClaimLane} {untilTime : Instant}
    (h : installs options s event = some (lane, untilTime)) :
    ∃ reason, (step options s event).loopView = (s.holdLane lane untilTime reason).loopView := by
  cases event with
  | circuitOpened openUntil =>
      cases h
      exact ⟨_, rfl⟩
  | applied id =>
      simp only [installs] at h
      show ∃ reason, (s.onRun id fun run => s.stepApplied options run).loopView = _
      unfold onRun
      cases hfound : s.runs.find? id with
      | none => simp [hfound] at h
      | some run =>
          simp only [hfound, Option.map_eq_some_iff, Prod.mk.injEq] at h
          rcases h with ⟨hold, hhold, rfl, rfl⟩
          refine ⟨hold.reason, ?_⟩
          unfold stepApplied
          have hphase := hhold
          unfold limitHold at hphase
          split at hphase
          · next hpause =>
              split at hphase
              · next hallowed =>
                  have hrefused : ¬ refused run = true := by simp_all
                  simp only [hpause, hhold, if_neg hrefused]
                  rfl
              · cases hphase
          · cases hphase
  | _ => cases h

theorem looping_congr {s' : Worker} (htick : s'.tick = s.tick)
    (hstopping : s'.stopping = s.stopping) (lane : ClaimLane) :
    Looping options s' lane ↔ Looping options s lane := by
  unfold Looping
  rw [htick, hstopping]

/-- A step keeps loops out of held lanes exactly if no hold arrives in a loop. -/
theorem unheld_step_iff (s : Worker) (event : WorkerEvent) (hmapped : RunsMapped s)
    (h : Unheld options s) :
    Unheld options (step options s event) ↔ HoldsBetweenLoops options s event := by
  cases hinstalls : installs options s event with
  | some install =>
      rcases install with ⟨lane, untilTime⟩
      -- The step installs a hold and leaves the clock and the loops as they are.
      rcases step_installs hinstalls with ⟨reason, hview⟩
      rcases holdLane_same s lane untilTime reason with ⟨hclock, hstopping, htick, -⟩
      simp only [loopView, Prod.mk.injEq] at hview
      rcases hview with ⟨hclock', hstopping', hholds', htick', -⟩
      have hloop : ∀ other, Looping options (step options s event) other ↔
          Looping options s other :=
        looping_congr (htick'.trans htick) (hstopping'.trans hstopping)
      have hactive : ∀ other, (step options s event).activeLaneHold other =
          (s.holdLane lane untilTime reason).activeLaneHold other := by
        intro other
        unfold activeLaneHold
        rw [hclock', hholds']
      constructor
      -- A late hold in a loop shows in the state after the step.
      · intro hnext other time hinstall hlate hlooping
        rw [hinstalls] at hinstall
        cases hinstall
        have hfree := hnext lane ((hloop lane).mpr hlooping)
        rw [hactive, activeLaneHold_holdLane] at hfree
        exact absurd hlate (Int.not_lt.mpr hfree.2)
      · intro hbetween other hlooping
        have hbefore := (hloop other).mp hlooping
        rw [hactive]
        -- The hold of another lane is the one before; that of the lane has run out.
        by_cases hother : other = lane
        · subst hother
          rw [activeLaneHold_holdLane]
          refine ⟨h other hbefore, ?_⟩
          by_contra hlate
          exact hbetween other untilTime hinstalls (Int.not_le.mp hlate) hbefore
        · rw [activeLaneHold_holdLane_of_ne hother]
          exact h other hbefore
  | none =>
      -- No hold arrives: each change of the loop keeps or enters a free lane.
      refine iff_of_true ?_ (fun _ _ hsome => by simp [hinstalls] at hsome)
      intro lane hlooping
      cases @step_loop options s event hmapped with
      | same hkept htick _ =>
          rw [hkept.activeLaneHold]
          exact h lane ((looping_congr htick hkept.stopping lane).mp hlooping)
      | left _ htick _ =>
          rcases hlooping with ⟨⟨work, hclaiming⟩, -⟩
          exact absurd hclaiming (htick lane work)
      | entered hkept hfree htick =>
          rcases hlooping with ⟨⟨work, hclaiming⟩, -⟩
          rw [htick] at hclaiming
          cases hclaiming
          rw [hkept.activeLaneHold]
          exact hfree
      | continued hkept hloop htick =>
          rcases hlooping with ⟨⟨work, hclaiming⟩, -⟩
          rw [htick] at hclaiming
          cases hclaiming
          rw [hkept.activeLaneHold]
          exact h lane hloop
      | waited hclock hstopping hholds htick _ =>
          have hfree := h lane ((looping_congr htick hstopping lane).mp hlooping)
          simp only [activeLaneHold, Option.filter_eq_none_iff, decide_eq_true_eq] at hfree ⊢
          rw [hholds]
          exact fun hold hsome => fun hlate => hfree hold hsome (Int.lt_of_le_of_lt hclock hlate)
      | stopped hstopping _ _ =>
          rw [hlooping.2.1] at hstopping
          cases hstopping
      | held hsome _ _ _ _ _ =>
          rw [hinstalls] at hsome
          cases hsome

/-- A claim that a step makes is one of an entered lane or of a loop that goes on. -/
theorem keepsHolds_of_unheld (s : Worker) (event : WorkerEvent) (hmapped : RunsMapped s)
    (h : Unheld options s) : KeepsHolds options s event := by
  intro lane work hclaims hclaiming
  cases @step_loop options s event hmapped with
  | same _ _ hsame => exact absurd hsame hclaims
  | left _ _ hsame => exact absurd hsame hclaims
  | entered hkept hfree htick =>
      rw [htick] at hclaiming
      cases hclaiming
      rw [hkept.activeLaneHold]
      exact hfree
  | continued hkept hloop htick =>
      rw [htick] at hclaiming
      cases hclaiming
      rw [hkept.activeLaneHold]
      exact h lane hloop
  | waited _ _ _ _ hsame => exact absurd hsame hclaims
  | stopped _ _ hsame => exact absurd hsame hclaims
  | held _ _ _ _ _ hsame => exact absurd hsame hclaims

/-! ## A loop that goes on -/

/-- The run loses its lease. -/
def throwsAway (run : WorkerRun) : WorkerEvent := .throws run.id true ""

theorem step_throwsAway (run : WorkerRun) :
    (step options s (throwsAway run)).loopView = s.loopView ∧
      ∀ other ∈ (step options s (throwsAway run)).runs.rows, other ∈ s.runs.rows ∧
        other.id ≠ run.id := by
  show (s.onRun run.id fun run => s.stepThrows true "" run).loopView = s.loopView ∧
    ∀ other ∈ (s.onRun run.id fun run => s.stepThrows true "" run).runs.rows, _
  unfold onRun
  cases hfound : s.runs.find? run.id with
  | none =>
      exact ⟨rfl, fun other hother => ⟨hother, Table.find?_eq_none_iff.mp hfound other hother⟩⟩
  | some found =>
      have hkey : WorkerRun.key found = run.id := Table.key_of_find? hfound
      have hid : found.id = run.id := hkey
      simp only [stepThrows, Bool.or_true, if_true]
      refine ⟨rfl, fun other hother => ?_⟩
      have hleft := Table.mem_filter.mp hother
      exact ⟨hleft.1, fun heq => absurd (heq.trans hid.symm) (of_decide_eq_true hleft.2)⟩

/-- Every run ends, and the loop waits as before. -/
theorem run_throwsAway (ended : List WorkerRun) (s : Worker) :
    (run (step options) s (ended.map throwsAway)).loopView = s.loopView ∧
      ∀ other ∈ (run (step options) s (ended.map throwsAway)).runs.rows,
        other ∈ s.runs.rows ∧ ∀ run ∈ ended, other.id ≠ run.id := by
  induction ended generalizing s with
  | nil => exact ⟨rfl, fun other hother => ⟨hother, fun _ h => nomatch h⟩⟩
  | cons first ended ih =>
      rcases @step_throwsAway options s first with ⟨hview, hruns⟩
      rcases ih (step options s (throwsAway first)) with ⟨hview', hruns'⟩
      refine ⟨hview'.trans hview, fun other hother => ?_⟩
      rcases hruns' other hother with ⟨hmem, hrest⟩
      rcases hruns other hmem with ⟨hold, hfirst⟩
      refine ⟨hold, fun run hrun => ?_⟩
      rcases List.mem_cons.mp hrun with rfl | hrun
      · exact hfirst
      · exact hrest run hrun

/-- A task that a claim in this lane can return. -/
def laneTask (lane : ClaimLane) : Task :=
  sampleTask 1 (if lane = .delivery then prCreated else analyzing)

theorem laneTask_lane (lane : ClaimLane) : claimLaneOf (laneTask lane).state = lane := by
  cases lane <;> rfl

/-- With no other run, a loop with a second slot claims again. -/
theorem claims_again {lane : ClaimLane} {work : ClaimableWork}
    (htick : s.tick = .claiming lane work)
    (hstopping : s.stopping = false) (hlimit : 1 < laneLimit options.config lane)
    (hempty : s.inFlight.rows = []) :
    step options s (.claimed (some (laneTask lane)) true) =
      (s.startTask options (laneTask lane)).issueClaim lane work := by
  have hslots : (s.startTask options (laneTask lane)).inFlightIn lane ≤ 1 := by
    refine List.countP_le_length.trans (Nat.le_of_eq ?_)
    show (s.inFlight.upsert _).rows.length = 1
    have hput : (s.inFlight.put ⟨(laneTask lane).id, s.started⟩).rows = [] := by
      simp [Table.put, hempty]
    simp [Table.upsert, Table.insert, hput]
  have hmay : (s.startTask options (laneTask lane)).mayClaim options lane true = true := by
    have hroom : (s.startTask options (laneTask lane)).inFlightIn lane <
        laneLimit options.config lane := by omega
    have hgoing : (s.startTask options (laneTask lane)).stopping = false := hstopping
    simp [mayClaim, hroom, hgoing]
  show s.stepClaimed options (some (laneTask lane)) true = _
  simp [stepClaimed, htick, laneTask_lane, hmay]

theorem unheld_of_answers (s : Worker) (hmapped : RunsMapped s)
    (h : ∀ burst, (∀ event ∈ burst, endsWork event = true) →
      Along (step options) (KeepsHolds options) s burst) : Unheld options s := by
  rintro lane ⟨⟨work, htick⟩, hstopping, hlimit⟩
  -- Every run ends, and then the claim is answered.
  have hburst := h (s.runs.rows.map throwsAway ++ [.claimed (some (laneTask lane)) true]) (by
    intro event hevent
    rcases List.mem_append.mp hevent with hended | hlast
    · rcases List.mem_map.mp hended with ⟨run, -, rfl⟩
      rfl
    · rw [List.mem_singleton.mp hlast]
      rfl)
  rcases along_append.mp hburst with ⟨-, hlast, -⟩
  rcases @run_throwsAway options s.runs.rows s with ⟨hview, hruns⟩
  have hmapped' : RunsMapped (run (step options) s (s.runs.rows.map throwsAway)) :=
    run_invariant RunsMapped runsMapped_step hmapped _
  generalize run (step options) s (s.runs.rows.map throwsAway) = s' at hlast hview hruns hmapped'
  simp only [loopView, Prod.mk.injEq] at hview
  rcases hview with ⟨hclock, hstopping', hholds, htick', -⟩
  have hempty : s'.inFlight.rows = [] := by
    refine List.eq_nil_iff_forall_not_mem.mpr fun entry hentry => ?_
    rcases hmapped'.mapped entry hentry with ⟨other, hother, -, -⟩
    rcases hruns other hother with ⟨hold, hended⟩
    exact hended other hold rfl
  have hnext := @claims_again options s' lane work (htick'.trans htick)
    (hstopping'.trans hstopping) hlimit hempty
  have hfree := hlast lane work
  rw [hnext] at hfree
  have hnone := hfree (Nat.succ_ne_self _) rfl
  have hkept : (((s'.startTask options (laneTask lane)).issueClaim lane work).activeLaneHold lane) =
      s.activeLaneHold lane := by
    show (s'.laneHolds lane).filter _ = (s.laneHolds lane).filter _
    rw [hholds]
    show (s.laneHolds lane).filter (fun hold => decide (s'.clock < hold.untilTime)) = _
    rw [hclock]
  rw [← hkept]
  exact hnone

end View

/-- A run claims in no held lane, whatever answers it goes on with, exactly if no hold arrives
in a claim loop of its lane that can go on. -/
theorem lane_holds_iff (options : WorkerOptions) (clock : Instant) (events : List WorkerEvent) :
    RespectsHolds options (boot clock) events ↔
      Along (step options) (HoldsBetweenLoops options) (boot clock) events := by
  have hboot : Unheld options (boot clock) := by
    rintro lane ⟨⟨work, htick⟩, -⟩
    cases htick
  have hkept : ∀ s event, RunsMapped s → Unheld options s → endsWork event = true →
      Unheld options (step options s event) := by
    intro s event hmapped hunheld hends
    refine (unheld_step_iff s event hmapped hunheld).mpr fun lane untilTime hinstalls => ?_
    cases event with
    | claimed _ _ => cases hinstalls
    | throws _ _ _ => cases hinstalls
    | failed _ => cases hinstalls
    | _ => cases hends
  refine (alongJoined_iff runsMapped_step hkept keepsHolds_of_unheld unheld_of_answers
    (runsMapped_boot clock) events).trans ?_
  exact throughout_iff_along RunsMapped runsMapped_step unheld_step_iff (runsMapped_boot clock)
    hboot events

/-- One stage hits the provider's limit while the loop asks for a second task. -/
def limitMidLoop : List WorkerEvent :=
  let claimedRow : Task := { sampleTask 1 implementing with leaseOwner := some "worker-a" }
  [.runOnce, .controlsRead 0 {}, .prepared, .claimed (some (sampleTask 1 implementing)) true,
    .readTask 0 (some claimedRow), .controlsRead 1 {},
    .finish 0 (.pauseLimit { pauseReason := .usageLimit, resumeAfter := some 60000 }), .applied 0]

/-- The next task that the loop gets lets it claim again, in a lane held for a minute. -/
theorem claims_in_held_lane :
    ¬ Along (step { config := sampleConfig, workerId := "worker-a" })
      (KeepsHolds { config := sampleConfig, workerId := "worker-a" }) (boot 0)
      (limitMidLoop ++ [.claimed (some (sampleTask 2 implementing)) true]) := by
  intro h
  have hlast := (along_append.mp h).2.1
  have hfree := hlast .execution (claimableWork sampleConfig .normal 0) (by decide) rfl
  have hnone : ((step { config := sampleConfig, workerId := "worker-a" }
      (run (step { config := sampleConfig, workerId := "worker-a" }) (boot 0) limitMidLoop)
      (.claimed (some (sampleTask 2 implementing)) true)).activeLaneHold .execution).isNone = true := by
    rw [hfree]
    rfl
  exact absurd hnone (by decide)

end Worker

end Orchestrator
