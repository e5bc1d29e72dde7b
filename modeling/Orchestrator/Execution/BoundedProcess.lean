import Orchestrator.Kit.Utf16
import Orchestrator.Kit.Utf8

/-! # Bounded processes

The states of one trusted command in its own process group, from the events of its streams,
timers and exit (`execution/bounded-process.ts`). A text is the list of its characters; a tail
may begin inside a character, so it is a list of code units.
-/

namespace Orchestrator

open Kit

inductive BoundedProcessOutcome
  | exited | timeout | aborted | outputLimit | spawnError
  deriving DecidableEq, Repr

/-- `readsLines`: `onStdoutLine` is given. -/
structure BoundedProcessOptions where
  tailBytes : Nat
  maxOutputBytes : Nat
  readsLines : Bool
  deriving DecidableEq, Repr

structure BoundedProcessResult where
  outcome : BoundedProcessOutcome
  exitCode : Option Int
  signal : Option String
  spawnError : Option String
  stdoutTail : List Nat
  stderrTail : List Nat
  outputBytes : Nat
  deriving DecidableEq, Repr

def maxLineBytes : Nat := 8 * 1024 * 1024

inductive ProcessEvent
  | stdout (chunk : List UInt8)
  | stderr (chunk : List UInt8)
  /-- The timer of `timeoutMs`. -/
  | timeout
  | abort
  /-- The timer of `killGraceMs`. -/
  | killGrace
  | error (message : String)
  | exit
  | close (exitCode : Option Int) (signal : Option String)
  deriving DecidableEq, Repr

/-- The variables of one run; `lines` are those handed to `onStdoutLine`, `signals` those sent
to the process group. -/
structure ProcessState where
  outcome : BoundedProcessOutcome := .exited
  spawnError : Option String := none
  stdoutTail : List Nat := []
  stderrTail : List Nat := []
  outputBytes : Nat := 0
  lineBuffer : List Char := []
  killTimer : Bool := false
  lines : List (List Char) := []
  signals : List String := []
  result : Option BoundedProcessResult := none
  deriving DecidableEq, Repr

def appendTail (current chunk : List Nat) (limit : Nat) : List Nat :=
  let next := current ++ chunk
  if limit < next.length then next.drop (next.length - limit) else next

/-- The loop over the newlines: the lines that are complete, and the new buffer. -/
def handLines (lineBuffer : List Char) : List Char → List (List Char) × List Char
  | [] => ([], lineBuffer)
  | character :: text =>
      if character = '\n' then
        let rest := handLines [] text
        (lineBuffer :: rest.1, rest.2)
      else handLines (lineBuffer ++ [character]) text

namespace ProcessState

variable (options : BoundedProcessOptions) (s : ProcessState)

def stop (reason : BoundedProcessOutcome) : ProcessState :=
  if s.outcome ≠ .exited then s
  else { s with outcome := reason, signals := s.signals ++ ["SIGTERM"], killTimer := true }

def countOutput (chunk : List UInt8) : ProcessState :=
  let s := { s with outputBytes := s.outputBytes + chunk.length }
  if options.maxOutputBytes < s.outputBytes then s.stop .outputLimit else s

def onStdout (chunk : List UInt8) : ProcessState :=
  let s := s.countOutput options chunk
  let text := decode chunk
  let s := { s with stdoutTail := appendTail s.stdoutTail (utf16 text) options.tailBytes }
  if !options.readsLines then s
  else
    let handed := handLines s.lineBuffer text
    { s with
      lines := s.lines ++ handed.1
      -- An unterminated line this large is dropped rather than buffered without bound.
      lineBuffer := if maxLineBytes < utf16Length handed.2 then [] else handed.2 }

def onStderr (chunk : List UInt8) : ProcessState :=
  let s := s.countOutput options chunk
  { s with stderrTail := appendTail s.stderrTail (utf16 (decode chunk)) options.tailBytes }

def onError (message : String) : ProcessState :=
  { s with
    outcome := if s.outcome = .exited then .spawnError else s.outcome
    spawnError := some message }

def onClose (exitCode : Option Int) (signal : Option String) : ProcessState :=
  { s with
    killTimer := false
    lines := if options.readsLines && s.lineBuffer ≠ [] then s.lines ++ [s.lineBuffer] else s.lines
    result := some
      { outcome := if s.spawnError.isSome then .spawnError else s.outcome
        exitCode, signal
        spawnError := s.spawnError
        stdoutTail := s.stdoutTail
        stderrTail := s.stderrTail
        outputBytes := s.outputBytes } }

/-- After `close` the timers and the abort listener are gone, and the streams are at their end. -/
def step (event : ProcessEvent) : ProcessState :=
  if s.result.isSome then s
  else
    match event with
    | .stdout chunk => s.onStdout options chunk
    | .stderr chunk => s.onStderr options chunk
    | .timeout => s.stop .timeout
    | .abort => s.stop .aborted
    | .killGrace => if s.killTimer then { s with signals := s.signals ++ ["SIGKILL"] } else s
    | .error message => s.onError message
    | .exit => { s with signals := s.signals ++ ["SIGKILL"] }
    | .close exitCode signal => s.onClose options exitCode signal

end ProcessState

/-- The run, up to the last of the events; `aborted` is the signal at the start. -/
def runBoundedProcess (options : BoundedProcessOptions) (aborted : Bool)
    (events : List ProcessEvent) : ProcessState :=
  if aborted then
    { outcome := .aborted
      result := some
        { outcome := .aborted, exitCode := none, signal := none, spawnError := none
          stdoutTail := [], stderrTail := [], outputBytes := 0 } }
  else events.foldl (ProcessState.step options) {}

end Orchestrator
