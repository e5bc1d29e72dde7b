import Orchestrator.Kit.Run
import Orchestrator.Kit.Table
import Orchestrator.Types.Domain

/-! # The repository lock

`PostgresRepositoryLock.withLock` (`workspaces/repository-lock.ts`) in any number of calls of any
number of processes. The lock belongs to the session of a dedicated connection: the server
drops it when the session ends, whether by an unlock, by closing the connection, by a loss of
the connection or by the death of the process. A lost connection is noticed by its owner only
at the next query, so an operation can go on without its lock.
-/

namespace Orchestrator

open Kit

/-! ## Sessions and calls -/

abbrev SessionId := Nat

/-- What a call of `withLock` does next. -/
inductive LockPhase
  /-- Ask for the lock. -/
  | polling
  /-- Wait for the poll interval. -/
  | sleeping
  | operating
  | unlocking
  /-- Give the connection back to the pool, or close it. -/
  | releasing (destroy : Bool)
  deriving DecidableEq

/-- The operation has started, and the lock has not been given back. -/
def LockPhase.working : LockPhase → Bool
  | .operating => true
  | .unlocking => true
  | _ => false

/-- A connection that is being closed can still hold the lock. -/
def LockPhase.mayHold : LockPhase → Bool
  | .releasing destroy => destroy
  | phase => phase.working

/-- A call in progress, by the session of its connection. -/
structure LockCall where
  session : SessionId
  process : WorkerId
  repository : String
  deadline : Instant
  phase : LockPhase

structure LockState where
  calls : Table LockCall.session := Table.empty
  /-- The connections that rest in the pool of a process. -/
  idle : List (WorkerId × SessionId) := []
  /-- The sessions that have ended. -/
  ended : List SessionId := []
  /-- The advisory locks of the server. -/
  held : List (Int × SessionId) := []
  nextSession : SessionId := 0

inductive LockEvent
  /-- `pool.connect`: a resting connection of the process, or a new one. -/
  | connect (process : WorkerId) (repository : String) (reused : Option SessionId) (now : Instant)
  /-- `pg_try_advisory_lock`; the server can fail. -/
  | poll (session : SessionId) (fails : Bool) (now : Instant)
  | wake (session : SessionId)
  /-- The operation returns or throws. -/
  | operationEnds (session : SessionId)
  /-- `pg_advisory_unlock`; the server can fail. -/
  | unlock (session : SessionId) (fails : Bool)
  /-- `client.release`. -/
  | release (session : SessionId)
  /-- The connection is lost, and the server ends the session. -/
  | lose (session : SessionId)
  | crash (process : WorkerId)

def lockKey (repository : String) : String :=
  s!"kelolakelas.ai-orchestrator.repository:{repository}"

namespace LockState

variable (s : LockState)

def onCall (session : SessionId) (act : LockCall → LockState) : LockState :=
  match s.calls.find? session with
  | none => s
  | some call => act call

def moved (call : LockCall) (phase : LockPhase) : LockState :=
  { s with calls := s.calls.put { call with phase } }

/-- No other session holds the key. -/
def free (key : Int) (session : SessionId) : Bool :=
  s.held.all fun entry => entry.1 ≠ key || entry.2 = session

/-- The locks of the other sessions. -/
def heldElsewhere (session : SessionId) : List (Int × SessionId) :=
  s.held.filter fun entry => entry.2 ≠ session

/-- The session belongs to a connection of the process. -/
def belongs (process : WorkerId) (session : SessionId) : Bool :=
  match s.calls.find? session with
  | some call => call.process = process
  | none => s.idle.contains (process, session)

end LockState

/-- One step; `hashtext` is the hash of the server, and an event that does not apply changes
nothing. -/
def lockStep (hashtext : String → Int) (timeoutMs : Nat) (s : LockState) : LockEvent → LockState
  | .connect process repository reused now =>
      let call (session : SessionId) : LockCall :=
        { session, process, repository, deadline := now + timeoutMs, phase := .polling }
      match reused with
      | some session =>
          if (process, session) ∈ s.idle then
            { s with
              idle := s.idle.filter fun entry => entry.2 ≠ session
              calls := s.calls.insert (call session) }
          else s
      | none =>
          { s with
            nextSession := s.nextSession + 1
            calls := s.calls.insert (call s.nextSession) }
  | .poll session fails now => s.onCall session fun call =>
      let key := hashtext (lockKey call.repository)
      if call.phase ≠ .polling then s
      else if fails ∨ session ∈ s.ended then s.moved call (.releasing false)
      else if s.free key session then
        { s.moved call .operating with held := (key, session) :: s.held }
      else if call.deadline ≤ now then s.moved call (.releasing false)
      else s.moved call .sleeping
  | .wake session => s.onCall session fun call =>
      if call.phase = .sleeping then s.moved call .polling else s
  | .operationEnds session => s.onCall session fun call =>
      if call.phase = .operating then s.moved call .unlocking else s
  | .unlock session fails => s.onCall session fun call =>
      if call.phase ≠ .unlocking then s
      -- The connection is closed if the unlock fails.
      else if fails ∨ session ∈ s.ended then s.moved call (.releasing true)
      else
        { s.moved call (.releasing false) with
          held := s.held.erase (hashtext (lockKey call.repository), session) }
  | .release session => s.onCall session fun call =>
      match call.phase with
      | .releasing destroy =>
          if destroy ∨ session ∈ s.ended then
            { s with calls := s.calls.erase session, held := s.heldElsewhere session }
          else
            { s with
              calls := s.calls.erase session
              idle := (call.process, session) :: s.idle }
      | _ => s
  | .lose session =>
      if session < s.nextSession then
        { s with
          ended := session :: s.ended
          idle := s.idle.filter fun entry => entry.2 ≠ session
          held := s.heldElsewhere session }
      else s
  | .crash process =>
      { s with
        calls := s.calls.filter fun call => call.process ≠ process
        idle := s.idle.filter fun entry => entry.1 ≠ process
        held := s.held.filter fun entry => !s.belongs process entry.2 }

/-! ## The invariant -/

/-- The call holds its lock as long as its session lasts. -/
def LockCall.Holds (hashtext : String → Int) (s : LockState) (call : LockCall) : Prop :=
  call.session ∈ s.ended ∨ (hashtext (lockKey call.repository), call.session) ∈ s.held

structure LockInvariant (hashtext : String → Int) (s : LockState) : Prop where
  /-- Sessions are numbered in the order of their connections. -/
  known : ∀ call ∈ s.calls.rows, call.session < s.nextSession
  idleKnown : ∀ entry ∈ s.idle, entry.2 < s.nextSession
  /-- A resting connection is in no call, and alive. -/
  idle : ∀ entry ∈ s.idle, s.calls.find? entry.2 = none
  /-- A lock is held by a call for its repository that is past the grant. -/
  heldBy : ∀ entry ∈ s.held, ∃ call, s.calls.find? entry.2 = some call ∧
    entry.1 = hashtext (lockKey call.repository) ∧ call.phase.mayHold = true
  /-- The server gives a key to one session at a time. -/
  single : ∀ entry ∈ s.held, ∀ other ∈ s.held, entry.1 = other.1 → entry.2 = other.2
  nodup : s.held.Nodup
  holds : ∀ call ∈ s.calls.rows, call.phase.working = true → call.Holds hashtext s

section Step

variable {hashtext : String → Int} {timeoutMs : Nat} {s : LockState} {call : LockCall}
  {session : SessionId}

/-- A new call starts on a connection that is in no call. -/
theorem LockInvariant.connected (h : LockInvariant hashtext s) {next : SessionId}
    {idle : List (WorkerId × SessionId)} (hpolling : call.phase = .polling)
    (hnew : s.calls.find? call.session = none) (hnext : s.nextSession ≤ next)
    (hcall : call.session < next) (hidle : ∀ entry ∈ idle, entry ∈ s.idle ∧
      entry.2 ≠ call.session) :
    LockInvariant hashtext
      { s with calls := s.calls.insert call, idle, nextSession := next } := by
  constructor
  · intro other hother
    rcases (Table.mem_insert hnew).mp hother with hold | rfl
    · exact Nat.lt_of_lt_of_le (h.known other hold) hnext
    · exact hcall
  · intro entry hentry
    exact Nat.lt_of_lt_of_le (h.idleKnown entry (hidle entry hentry).1) hnext
  · intro entry hentry
    obtain ⟨hmem, hne⟩ := hidle entry hentry
    change (s.calls.insert call).find? entry.2 = none
    rw [Table.find?_insert_of_ne hne]
    exact h.idle entry hmem
  · intro entry hentry
    obtain ⟨holder, hholder, hkey, hphase⟩ := h.heldBy entry hentry
    -- A session that holds a lock is in a call, which the new one was not.
    have hne : entry.2 ≠ call.session := by
      intro hsame
      rw [hsame, hnew] at hholder
      cases hholder
    refine ⟨holder, ?_, hkey, hphase⟩
    change (s.calls.insert call).find? entry.2 = some holder
    rw [Table.find?_insert_of_ne hne]
    exact hholder
  · exact h.single
  · exact h.nodup
  · intro other hother hworking
    rcases (Table.mem_insert hnew).mp hother with hold | rfl
    · exact h.holds other hold hworking
    · rw [hpolling] at hworking
      cases hworking

/-- A call goes on to its next phase while the locks become `held`: a lock of its session is
there only if it may be, and the other sessions keep theirs. -/
theorem LockInvariant.moved (h : LockInvariant hashtext s)
    (hcall : s.calls.find? call.session = some call) {phase : LockPhase}
    {held : List (Int × SessionId)}
    (hothers : ∀ entry : Int × SessionId, entry.2 ≠ call.session →
      (entry ∈ held ↔ entry ∈ s.held))
    (hown : ∀ entry ∈ held, entry.2 = call.session →
      entry.1 = hashtext (lockKey call.repository) ∧ phase.mayHold = true)
    (hsingle : ∀ entry ∈ held, ∀ other ∈ held, entry.1 = other.1 → entry.2 = other.2)
    (hnodup : held.Nodup)
    (hholds : phase.working = true → call.session ∈ s.ended ∨
      (hashtext (lockKey call.repository), call.session) ∈ held) :
    LockInvariant hashtext { s.moved call phase with held } := by
  have hput : (s.calls.put { call with phase }).find? call.session = some { call with phase } :=
    Table.find?_put_self (r := { call with phase }) hcall
  have hrows : ∀ other ∈ (s.calls.put { call with phase }).rows,
      other = { call with phase } ∨ (other ∈ s.calls.rows ∧ other.session ≠ call.session) := by
    intro other hother
    rcases Table.mem_put.mp hother with ⟨hsame, _⟩ | hkept
    · exact Or.inl hsame
    · exact Or.inr hkept
  have helsewhere : ∀ other : SessionId, other ≠ call.session →
      (s.calls.put { call with phase }).find? other = s.calls.find? other := by
    intro other hne
    exact Table.find?_put_of_ne hne
  constructor
  · intro other hother
    rcases hrows other hother with rfl | ⟨hold, _⟩
    · exact h.known call (Table.mem_of_find? hcall)
    · exact h.known other hold
  · exact h.idleKnown
  · intro entry hentry
    have hnone := h.idle entry hentry
    have hne : entry.2 ≠ call.session := by
      intro hsame
      rw [hsame, hcall] at hnone
      cases hnone
    exact (helsewhere entry.2 hne).trans hnone
  · intro entry hentry
    -- A lock of the session is allowed to its new phase; another has its old holder.
    by_cases hsame : entry.2 = call.session
    · obtain ⟨hkey, hmay⟩ := hown entry hentry hsame
      refine ⟨{ call with phase }, ?_, hkey, hmay⟩
      rw [hsame]
      exact hput
    · obtain ⟨holder, hholder, hrest⟩ := h.heldBy entry ((hothers entry hsame).mp hentry)
      exact ⟨holder, (helsewhere entry.2 hsame).trans hholder, hrest⟩
  · exact hsingle
  · exact hnodup
  · intro other hother hworking
    rcases hrows other hother with rfl | ⟨hold, hne⟩
    · exact hholds hworking
    · rcases h.holds other hold hworking with hended | hheld
      · exact Or.inl hended
      · exact Or.inr ((hothers _ hne).mpr hheld)

/-- A phase that neither takes nor gives up the lock. -/
theorem LockInvariant.moved_same (h : LockInvariant hashtext s)
    (hcall : s.calls.find? call.session = some call) {phase : LockPhase}
    (hmay : call.phase.mayHold = true → phase.mayHold = true)
    (hworking : phase.working = true → call.phase.working = true) :
    LockInvariant hashtext (s.moved call phase) := by
  refine h.moved hcall (fun _ _ => Iff.rfl) ?_ h.single h.nodup ?_
  · intro entry hentry hsame
    obtain ⟨holder, hholder, hkey, hphase⟩ := h.heldBy entry hentry
    rw [hsame, hcall] at hholder
    cases hholder
    exact ⟨hkey, hmay hphase⟩
  · intro hnow
    exact h.holds call (Table.mem_of_find? hcall) (hworking hnow)

/-- A call that is still polling goes on without the lock. -/
theorem LockInvariant.stopped (h : LockInvariant hashtext s)
    (hcall : s.calls.find? call.session = some call) (hpolling : call.phase = .polling)
    {phase : LockPhase} (hidle : phase.working = false) :
    LockInvariant hashtext (s.moved call phase) := by
  apply h.moved_same hcall
  · intro hmay
    rw [hpolling] at hmay
    cases hmay
  · intro hworking
    rw [hidle] at hworking
    cases hworking

/-- Sessions end: what is kept of the calls, the resting connections and the locks. -/
theorem LockInvariant.dropped (h : LockInvariant hashtext s) {calls : Table LockCall.session}
    {idle : List (WorkerId × SessionId)} {ended : List SessionId}
    {held : List (Int × SessionId)}
    (hcalls : ∀ call ∈ calls.rows, call ∈ s.calls.rows)
    (hidle : ∀ entry ∈ idle, entry.2 < s.nextSession ∧ calls.find? entry.2 = none)
    (hheld : held.Sublist s.held)
    (hkept : ∀ entry ∈ held, ∀ call, s.calls.find? entry.2 = some call → call ∈ calls.rows)
    (hholds : ∀ call ∈ calls.rows, call.Holds hashtext s →
      call.session ∈ ended ∨ (hashtext (lockKey call.repository), call.session) ∈ held) :
    LockInvariant hashtext { s with calls, idle, ended, held } := by
  constructor
  · intro call hcall
    exact h.known call (hcalls call hcall)
  · intro entry hentry
    exact (hidle entry hentry).1
  · intro entry hentry
    exact (hidle entry hentry).2
  · intro entry hentry
    obtain ⟨call, hcall, hrest⟩ := h.heldBy entry (hheld.subset hentry)
    have hmem := hkept entry hentry call hcall
    refine ⟨call, ?_, hrest⟩
    have hfound := Table.find?_of_mem hmem
    rwa [Table.key_of_find? hcall] at hfound
  · intro entry hentry other hother
    exact h.single entry (hheld.subset hentry) other (hheld.subset hother)
  · exact h.nodup.sublist hheld
  · intro call hcall hworking
    exact hholds call hcall (h.holds call (hcalls call hcall) hworking)

/-! ## Every step keeps the invariant -/

/-- The grant: no other session holds the key. -/
theorem LockInvariant.granted (h : LockInvariant hashtext s)
    (hcall : s.calls.find? call.session = some call) (hpolling : call.phase = .polling)
    (hfree : s.free (hashtext (lockKey call.repository)) call.session = true) :
    LockInvariant hashtext { s.moved call .operating with
      held := (hashtext (lockKey call.repository), call.session) :: s.held } := by
  -- A call that is still polling holds nothing.
  have hnone : ∀ entry ∈ s.held, entry.2 ≠ call.session := by
    intro entry hentry hsame
    obtain ⟨holder, hholder, _, hphase⟩ := h.heldBy entry hentry
    rw [hsame, hcall] at hholder
    cases hholder
    rw [hpolling] at hphase
    cases hphase
  have hforeign : ∀ entry ∈ s.held, entry.1 ≠ hashtext (lockKey call.repository) := by
    intro entry hentry hkey
    have hall := List.all_eq_true.mp hfree entry hentry
    rw [hkey] at hall
    exact hnone entry hentry (by simpa using hall)
  refine h.moved hcall ?_ ?_ ?_ ?_ ?_
  · intro entry hne
    constructor
    · intro hentry
      rcases List.mem_cons.mp hentry with rfl | hold
      · exact absurd rfl hne
      · exact hold
    · intro hentry
      exact List.mem_cons_of_mem _ hentry
  · intro entry hentry hsame
    rcases List.mem_cons.mp hentry with rfl | hold
    · exact ⟨rfl, rfl⟩
    · exact absurd hsame (hnone entry hold)
  · intro entry hentry other hother hkey
    rcases List.mem_cons.mp hentry with rfl | hold
    · rcases List.mem_cons.mp hother with rfl | holdOther
      · rfl
      · exact absurd hkey.symm (hforeign other holdOther)
    · rcases List.mem_cons.mp hother with rfl | holdOther
      · exact absurd hkey (hforeign entry hold)
      · exact h.single entry hold other holdOther hkey
  · apply List.nodup_cons.mpr
    constructor
    · intro hmem
      exact hnone _ hmem rfl
    · exact h.nodup
  · intro _
    exact Or.inr List.mem_cons_self

/-- The unlock takes away the only lock of the session. -/
theorem LockInvariant.unlocked (h : LockInvariant hashtext s)
    (hcall : s.calls.find? call.session = some call) :
    LockInvariant hashtext { s.moved call (.releasing false) with
      held := s.held.erase (hashtext (lockKey call.repository), call.session) } := by
  have hsub : (s.held.erase (hashtext (lockKey call.repository), call.session)).Sublist s.held :=
    List.erase_sublist
  refine h.moved hcall ?_ ?_ ?_ ?_ ?_
  · intro entry hne
    apply List.mem_erase_of_ne
    intro hsame
    rw [hsame] at hne
    exact hne rfl
  · intro entry hentry hsame
    -- A lock of the session is for the key of its call, and that one is gone.
    exfalso
    obtain ⟨hne, hold⟩ := (List.Nodup.mem_erase_iff h.nodup).mp hentry
    obtain ⟨holder, hholder, hkey, _⟩ := h.heldBy entry hold
    rw [hsame, hcall] at hholder
    cases hholder
    exact hne (Prod.ext hkey hsame)
  · intro entry hentry other hother
    exact h.single entry (hsub.subset hentry) other (hsub.subset hother)
  · exact h.nodup.sublist hsub
  · intro hworking
    cases hworking

/-- The connection is closed with its session, or rests without a lock. -/
theorem LockInvariant.released (h : LockInvariant hashtext s)
    (hcall : s.calls.find? call.session = some call) {destroy : Bool}
    (hphase : call.phase = .releasing destroy) :
    LockInvariant hashtext { s with
      calls := s.calls.erase call.session, held := s.heldElsewhere call.session } ∧
    (destroy = false → LockInvariant hashtext { s with
      calls := s.calls.erase call.session, idle := (call.process, call.session) :: s.idle }) := by
  -- The other calls are those that stay.
  have herased : ∀ other ∈ (s.calls.erase call.session).rows,
      other ∈ s.calls.rows ∧ other.session ≠ call.session := by
    intro other hother
    obtain ⟨hold, hne⟩ := Table.mem_filter.mp hother
    exact ⟨hold, by simpa using hne⟩
  have hstays : ∀ other ∈ s.calls.rows, other.session ≠ call.session →
      other ∈ (s.calls.erase call.session).rows := by
    intro other hother hne
    exact Table.mem_filter.mpr ⟨hother, by simpa using hne⟩
  have hnot : (s.calls.erase call.session).find? call.session = none := by
    apply Table.find?_eq_none_iff.mpr
    intro other hother
    exact (herased other hother).2
  have hidle : ∀ entry ∈ s.idle, entry.2 < s.nextSession ∧
      (s.calls.erase call.session).find? entry.2 = none := by
    intro entry hentry
    refine ⟨h.idleKnown entry hentry, Table.find?_eq_none_iff.mpr ?_⟩
    intro other hother
    exact Table.find?_eq_none_iff.mp (h.idle entry hentry) other (herased other hother).1
  constructor
  -- The session ends with the connection, and its locks with it.
  · refine h.dropped (fun other hother => (herased other hother).1) hidle List.filter_sublist ?_ ?_
    · intro entry hentry other hother
      refine hstays other (Table.mem_of_find? hother) ?_
      have hkey : other.session = entry.2 := Table.key_of_find? hother
      have hne : entry.2 ≠ call.session := by simpa using (List.mem_filter.mp hentry).2
      rw [hkey]
      exact hne
    · intro other hother hheld
      rcases hheld with hended | hlock
      · exact Or.inl hended
      · refine Or.inr (List.mem_filter.mpr ⟨hlock, ?_⟩)
        simpa using (herased other hother).2
  · intro hkeep
    refine h.dropped (fun other hother => (herased other hother).1) ?_ (List.Sublist.refl _) ?_ ?_
    · intro entry hentry
      rcases List.mem_cons.mp hentry with rfl | hold
      · exact ⟨h.known call (Table.mem_of_find? hcall), hnot⟩
      · exact hidle entry hold
    · intro entry hentry other hother
      refine hstays other (Table.mem_of_find? hother) ?_
      intro hsame
      -- A connection that is kept was unlocked first, so its session holds nothing.
      obtain ⟨holder, hholder, _, hmay⟩ := h.heldBy entry hentry
      rw [hother] at hholder
      cases hholder
      have hkey : other.session = entry.2 := Table.key_of_find? hother
      rw [← hkey, hsame, hcall] at hother
      cases hother
      rw [hphase, hkeep] at hmay
      cases hmay
    · intro other hother hheld
      exact hheld

/-- What an event about a call does, if the session is in one. -/
theorem LockInvariant.onCall (h : LockInvariant hashtext s) {act : LockCall → LockState}
    (hact : ∀ call, s.calls.find? call.session = some call → call.session = session →
      LockInvariant hashtext (act call)) :
    LockInvariant hashtext (s.onCall session act) := by
  unfold LockState.onCall
  cases hfind : s.calls.find? session with
  | none => exact h
  | some call =>
      have hkey : call.session = session := Table.key_of_find? hfind
      exact hact call (by rw [hkey]; exact hfind) hkey

/-- A connection is taken from the pool, or opened. -/
theorem LockInvariant.connects (h : LockInvariant hashtext s) (process : WorkerId)
    (repository : String) (reused : Option SessionId) (now : Instant) :
    LockInvariant hashtext (lockStep hashtext timeoutMs s
      (.connect process repository reused now)) := by
  cases reused with
  | none =>
      have hnew : s.calls.find? s.nextSession = none := by
        apply Table.find?_eq_none_iff.mpr
        intro other hother hsame
        exact absurd (h.known other hother) (hsame ▸ Nat.lt_irrefl _)
      refine h.connected rfl hnew (Nat.le_succ _) (Nat.lt_succ_self _) ?_
      intro entry hentry
      refine ⟨hentry, ?_⟩
      intro hsame
      exact absurd (h.idleKnown entry hentry) (hsame ▸ Nat.lt_irrefl _)
  | some session =>
      simp only [lockStep]
      split_ifs with hidle
      · refine h.connected rfl (h.idle _ hidle) (Nat.le_refl _) (h.idleKnown _ hidle) ?_
        intro entry hentry
        obtain ⟨hold, hne⟩ := List.mem_filter.mp hentry
        exact ⟨hold, by simpa using hne⟩
      · exact h

/-- The lock is asked for, and given to a session if nobody else has it. -/
theorem LockInvariant.polls (h : LockInvariant hashtext s) (fails : Bool) (now : Instant) :
    LockInvariant hashtext (lockStep hashtext timeoutMs s (.poll session fails now)) := by
  apply h.onCall
  rintro call hcall rfl
  dsimp only
  split_ifs with hphase _ hfree
  · exact h
  · exact h.stopped hcall (not_not.mp hphase) rfl
  · exact h.granted hcall (not_not.mp hphase) hfree
  · exact h.stopped hcall (not_not.mp hphase) rfl
  · exact h.stopped hcall (not_not.mp hphase) rfl

/-- The lock is given back, or the connection is going to be closed. -/
theorem LockInvariant.unlocks (h : LockInvariant hashtext s) (fails : Bool) :
    LockInvariant hashtext (lockStep hashtext timeoutMs s (.unlock session fails)) := by
  apply h.onCall
  rintro call hcall rfl
  dsimp only
  split_ifs
  · exact h
  · exact h.moved_same hcall (by simp [LockPhase.mayHold]) (by simp [LockPhase.working])
  · exact h.unlocked hcall

/-- The connection goes back to the pool, or is closed. -/
theorem LockInvariant.releases (h : LockInvariant hashtext s) :
    LockInvariant hashtext (lockStep hashtext timeoutMs s (.release session)) := by
  apply h.onCall
  rintro call hcall rfl
  split
  · rename_i destroy hphase
    split_ifs with hcloses
    · exact (h.released hcall hphase).1
    · refine (h.released hcall hphase).2 ?_
      simp only [not_or] at hcloses
      simpa using hcloses.1
  · exact h

/-- The server drops the locks of a lost connection; its call goes on. -/
theorem LockInvariant.loses (h : LockInvariant hashtext s) :
    LockInvariant hashtext (lockStep hashtext timeoutMs s (.lose session)) := by
  simp only [lockStep]
  split_ifs with hknown
  · refine h.dropped (fun _ hcall => hcall) ?_ List.filter_sublist ?_ ?_
    · intro entry hentry
      obtain ⟨hold, _⟩ := List.mem_filter.mp hentry
      exact ⟨h.idleKnown entry hold, h.idle entry hold⟩
    · intro entry _ call hcall
      exact Table.mem_of_find? hcall
    · intro call hcall hheld
      by_cases hlost : call.session = session
      · exact Or.inl (hlost ▸ List.mem_cons_self)
      · rcases hheld with hended | hlock
        · exact Or.inl (List.mem_cons_of_mem _ hended)
        · exact Or.inr (List.mem_filter.mpr ⟨hlock, by simpa using hlost⟩)
  · exact h

/-- The calls, connections and locks of a dead process are gone. -/
theorem LockInvariant.crashes (h : LockInvariant hashtext s) (process : WorkerId) :
    LockInvariant hashtext (lockStep hashtext timeoutMs s (.crash process)) := by
  have hsub : ∀ call ∈ (s.calls.filter fun call => call.process ≠ process).rows,
      call ∈ s.calls.rows := fun call hcall => (Table.mem_filter.mp hcall).1
  refine h.dropped hsub ?_ List.filter_sublist ?_ ?_
  · intro entry hentry
    obtain ⟨hold, _⟩ := List.mem_filter.mp hentry
    refine ⟨h.idleKnown entry hold, Table.find?_eq_none_iff.mpr ?_⟩
    intro call hcall
    exact Table.find?_eq_none_iff.mp (h.idle entry hold) call (hsub call hcall)
  · intro entry hentry call hcall
    have hlives := (List.mem_filter.mp hentry).2
    unfold LockState.belongs at hlives
    rw [hcall] at hlives
    exact Table.mem_filter.mpr ⟨Table.mem_of_find? hcall, by simpa using hlives⟩
  · intro call hcall hheld
    rcases hheld with hended | hlock
    · exact Or.inl hended
    · refine Or.inr (List.mem_filter.mpr ⟨hlock, ?_⟩)
      obtain ⟨hmem, hother⟩ := Table.mem_filter.mp hcall
      have hfound : s.calls.find? call.session = some call := Table.find?_of_mem hmem
      unfold LockState.belongs
      rw [hfound]
      simpa using hother

theorem LockInvariant.step (h : LockInvariant hashtext s) (event : LockEvent) :
    LockInvariant hashtext (lockStep hashtext timeoutMs s event) := by
  cases event with
  | connect process repository reused now => exact h.connects process repository reused now
  | poll session fails now => exact h.polls fails now
  | wake session =>
      apply h.onCall
      rintro call hcall rfl
      split_ifs with hphase
      · exact h.moved_same hcall (by simp [hphase, LockPhase.mayHold, LockPhase.working])
          (by simp [LockPhase.working])
      · exact h
  | operationEnds session =>
      apply h.onCall
      rintro call hcall rfl
      split_ifs with hphase
      · exact h.moved_same hcall (by simp [LockPhase.mayHold, LockPhase.working])
          (by simp [hphase, LockPhase.working])
      · exact h
  | unlock session fails => exact h.unlocks fails
  | release session => exact h.releases
  | lose session => exact h.loses
  | crash process => exact h.crashes process

end Step

/-! ## Runs -/

theorem lockInvariant_start (hashtext : String → Int) : LockInvariant hashtext {} where
  known := by
    intro call hcall
    cases hcall
  idleKnown := by
    intro entry hentry
    cases hentry
  idle := by
    intro entry hentry
    cases hentry
  heldBy := by
    intro entry hentry
    cases hentry
  single := by
    intro entry hentry
    cases hentry
  nodup := List.nodup_nil
  holds := by
    intro call hcall
    cases hcall

/-- The call runs its operation on a repository over a connection that is not lost. -/
def LockCall.operates (s : LockState) (repository : String) (call : LockCall) : Bool :=
  call.phase = .operating && call.repository = repository && !s.ended.contains call.session

section Runs

variable (hashtext : String → Int) (timeoutMs : Nat)

theorem lockInvariant_run (events : List LockEvent) :
    LockInvariant hashtext (Kit.run (lockStep hashtext timeoutMs) {} events) :=
  run_invariant (LockInvariant hashtext) (fun _ event h => h.step event)
    (lockInvariant_start hashtext) events

/-- Whatever the processes do, and whenever they die or lose connections, at most one operation
on a repository runs at a time, apart from operations whose connection was lost. -/
theorem repository_lock_exclusive (events : List LockEvent) (repository : String) :
    (Kit.run (lockStep hashtext timeoutMs) {} events).calls.count
      (LockCall.operates (Kit.run (lockStep hashtext timeoutMs) {} events) repository) ≤ 1 := by
  have h := lockInvariant_run hashtext timeoutMs events
  generalize Kit.run (lockStep hashtext timeoutMs) {} events = s at h ⊢
  have hlocked : ∀ call ∈ s.calls.rows, call.operates s repository = true →
      (hashtext (lockKey repository), call.session) ∈ s.held := by
    intro call hcall hoperates
    simp only [LockCall.operates, Bool.and_eq_true, decide_eq_true_eq, Bool.not_eq_true',
      List.contains_eq_mem, decide_eq_false_iff_not] at hoperates
    obtain ⟨⟨hphase, hrepository⟩, halive⟩ := hoperates
    rcases h.holds call hcall (by rw [hphase]; rfl) with hended | hheld
    · exact absurd hended halive
    · rwa [hrepository] at hheld
  have hsame : ∀ call ∈ s.calls.rows, ∀ other ∈ s.calls.rows,
      call.operates s repository = true → other.operates s repository = true →
      call.session = other.session := by
    intro call hcall other hother hoperates hoperates'
    exact h.single _ (hlocked call hcall hoperates) _ (hlocked other hother hoperates') rfl
  by_cases hany : ∃ call ∈ s.calls.rows, call.operates s repository = true
  · obtain ⟨call, hcall, hoperates⟩ := hany
    have hbound : s.calls.count (LockCall.operates s repository) ≤
        s.calls.count (fun _ => false) + 1 := by
      refine Table.count_le_succ_of_forall call.session ?_
      intro other hother hne hoperates'
      exact absurd (hsame other hother call hcall hoperates' hoperates) hne
    have hnone : s.calls.count (fun _ => false) = 0 := Table.count_eq_zero fun _ _ => rfl
    omega
  · have hnone : s.calls.count (LockCall.operates s repository) = 0 := by
      apply Table.count_eq_zero
      intro call hcall
      refine Bool.not_eq_true _ ▸ ?_
      intro hoperates
      exact hany ⟨call, hcall, hoperates⟩
    omega

/-- No lock outlives its call: a lock is held only for the repository of a call that runs its
operation, is about to unlock, or is closing its connection; a resting connection holds none. -/
theorem repository_lock_released (events : List LockEvent) :
    ∀ entry ∈ (Kit.run (lockStep hashtext timeoutMs) {} events).held,
      (∃ call ∈ (Kit.run (lockStep hashtext timeoutMs) {} events).calls.rows,
        call.session = entry.2 ∧ entry.1 = hashtext (lockKey call.repository) ∧
          call.phase.mayHold = true) ∧
        ∀ resting ∈ (Kit.run (lockStep hashtext timeoutMs) {} events).idle,
          resting.2 ≠ entry.2 := by
  intro entry hentry
  have h := lockInvariant_run hashtext timeoutMs events
  obtain ⟨call, hcall, hkey, hphase⟩ := h.heldBy entry hentry
  refine ⟨⟨call, Table.mem_of_find? hcall, Table.key_of_find? hcall, hkey, hphase⟩, ?_⟩
  intro resting hresting hsame
  have hnone := h.idle resting hresting
  rw [hsame, hcall] at hnone
  cases hnone

/-- One call ends, and its connection rests; another call has got the lock over a second one. -/
def grantedRun : List LockEvent :=
  [.connect "worker" "api" none 0, .poll 0 false 0, .operationEnds 0, .unlock 0 false, .release 0,
    .connect "worker" "web" none 5, .poll 1 false 5]

theorem repository_lock_released_granted :
    (Kit.run (lockStep (fun _ => 0) 1000) {} grantedRun).idle = [("worker", 0)] ∧
      (∃ call ∈ (Kit.run (lockStep (fun _ => 0) 1000) {} grantedRun).calls.rows,
        call.session = 1 ∧ (0 : Int) = (fun _ => 0) (lockKey call.repository) ∧
          call.phase.mayHold = true) ∧
      ∀ resting ∈ (Kit.run (lockStep (fun _ => 0) 1000) {} grantedRun).idle, resting.2 ≠ 1 :=
  ⟨by decide, repository_lock_released (fun _ => 0) 1000 grantedRun (0, 1) (by decide)⟩

end Runs

end Orchestrator
