import Orchestrator.Config.Providers
import Orchestrator.Execution.AgentResults
import Orchestrator.Execution.OutputLines
import Orchestrator.Execution.WorkspaceChanges

/-! # The result of a declared client

What `CliAdapter.run` makes of a finished process (`execution/adapters/cli.ts`, `cli-contract.ts`,
`failure-classification.ts`). The whole standard output is collected line by line up to a limit,
and parsed as one document.
-/

namespace Orchestrator

open Kit

/-- What the language and the schema library do with a document, and the text functions that
other modules model. -/
structure ClientLibrary (V T : Type) where
  parseJson : List Char → Option V
  /-- `value[key]` of an array or an object. -/
  property : V → String → Option V
  /-- `String(value)` of a value that is neither `null` nor an object. -/
  scalarText : V → Option String
  stringText : V → Option String
  toLowerCase : String → String
  /-- `resultSchema.safeParse`; the issues are one text. -/
  safeParse : V → Except String T
  parseRetryAfter : String → Instant → Option Instant
  redactSecrets : String → String

structure CliFailure where
  path : String
  values : List String
  messagePath : Option String

/-- What the operator declared of the result, and the limits of the runner. -/
structure CliReport where
  source : ResultSource
  path : String
  failure : Option CliFailure
  maxResultBytes : Nat
  maxEventBytes : Nat
  timeoutMs : Nat

/-! ## Failures -/

inductive RunnerFailure
  | usageLimit | rateLimit | failed
  deriving DecidableEq, Repr

/-- `\w`. -/
def isWordCharacter (character : Char) : Bool := character.isAlphanum || character = '_'

/-- `/\b…\b/` of a word. -/
def hasWord (word : List Char) (afterWord : Bool) : List Char → Bool
  | [] => false
  | character :: text =>
      (!afterWord && word.isPrefixOf (character :: text) &&
        !((character :: text).drop word.length).head?.any isWordCharacter) ||
      hasWord word (isWordCharacter character) text

def classifyRunnerFailure (message : String) : RunnerFailure :=
  let text := String.ofList (message.toList.map Char.toLower)
  if ["usage limit", "usage_limit", "insufficient_quota", "quota exceeded",
      "exceeded your current quota", "plan limit"].any (includes text) then .usageLimit
  else if ["rate limit", "rate_limit", "too many requests"].any (includes text) ||
      hasWord "429".toList false text.toList then .rateLimit
  else .failed

section Run

variable {V T : Type} (lib : ClientLibrary V T) (report : CliReport)

def safeMessage (message : String) : String :=
  let redacted := lib.redactSecrets message
  if 2000 < utf16Length redacted.toList then
    utf16Slice 2000 redacted ++ "…"
  else redacted

def runnerFailure (message : String) (now : Instant) : AgentRunResult T :=
  match classifyRunnerFailure message with
  | .failed => .failure .failed message
  | .usageLimit => .usageLimit message (lib.parseRetryAfter message now)
  | .rateLimit => .rateLimit message (lib.parseRetryAfter message now)

/-! ## Reading the result -/

/-- An empty path is the document; a segment that is missing is `undefined`. -/
def readJsonPath (document : V) (path : String) : Option V :=
  if path = "" then some document else (splitText '.' path).foldlM lib.property document

inductive Reading (V : Type)
  | completed (output document : V)
  | invalidOutput (message : String)

/-- `text.trim() === ''` for code units. -/
def blankUnits (units : List Nat) : Bool := units.all fun unit => isBlank (Char.ofNat unit)

/-- `file` is the content of the result file, if there is one. -/
def readOutput (file : Option (List UInt8)) (stdoutTail : List Nat) (stdout : List Char) :
    Reading V :=
  let path := if report.path = "" then "(root)" else report.path
  let noValue (what : String) : Reading V := .invalidOutput (safeMessage lib s!"{what} {path}")
  match report.source with
  | .file =>
      match file with
      | none => .invalidOutput (safeMessage lib "Runner produced no result file")
      | some content =>
          if report.maxResultBytes < content.length then
            .invalidOutput s!"Result is {content.length} bytes; limit is {report.maxResultBytes}"
          else
            match lib.parseJson (decode content) with
            | none => .invalidOutput "Result file is not valid JSON"
            | some document =>
                match readJsonPath lib document report.path with
                | none => noValue "Result file has no value at declared path"
                | some selected => .completed selected document
  | .stdout =>
      if stdout.all isBlank then
        .invalidOutput (safeMessage lib ("Runner produced no output" ++
          if blankUnits stdoutTail then "" else ": output was truncated before it could be read"))
      else
        match lib.parseJson stdout with
        | none => .invalidOutput (safeMessage lib ("Runner output is not valid JSON: " ++
            String.ofList (stdout.drop (stdout.length - 500))))
        | some document =>
            match readJsonPath lib document report.path with
            | none => noValue "Runner output has no value at declared result path"
            | some selected => .completed selected document

/-- The text of the value at a path; a path without a value reads as `undefined`. -/
def reportedText (document : V) (path : String) : Option String :=
  match readJsonPath lib document path with
  | none => some "undefined"
  | some value => lib.scalarText value

/-- The message of a reported failure. -/
def reportedMessage (failure : CliFailure) (document : V) (reported : String) : String :=
  let described := (failure.messagePath.bind (readJsonPath lib document)).bind lib.stringText
  match described with
  | some text => if trimText text = "" then s!"Runner reported {reported}" else trimText text
  | none => s!"Runner reported {reported}"

/-- The failure that a client reports inside a successful exit. -/
def reportedFailure (document : V) (now : Instant) : Option (AgentRunResult T) :=
  report.failure.bind fun failure =>
    (reportedText lib document failure.path).bind fun reported =>
      if failure.values.any fun candidate =>
          lib.toLowerCase candidate = lib.toLowerCase reported then
        some (runnerFailure lib (safeMessage lib (reportedMessage lib failure document reported))
          now)
      else none

/-! ## Collecting the output -/

/-- `collected`, `collectedBytes` and `flooded`. -/
structure Collected where
  lines : List (List Char) := []
  bytes : Nat := 0
  flooded : Bool := false

def Collected.line (collected : Collected) (line : List Char) : Collected :=
  if collected.flooded then collected
  else
    let bytes := collected.bytes + (encode line).length + 1
    if report.maxResultBytes < bytes then { collected with bytes, flooded := true }
    else { collected with bytes, lines := collected.lines ++ [line] }

def collectLines (lines : List (List Char)) : Collected :=
  lines.foldl (Collected.line report) {}

/-- The text of code units, without what is half a character; `high` is the unit before, if it
begins a pair. -/
def textOfUnits (high : Option Nat) : List Nat → List Char
  | [] => []
  | unit :: units =>
      if 0xDC00 ≤ unit ∧ unit < 0xE000 then
        (high.map fun first =>
          Char.ofNat (0x10000 + (first - 0xD800) * 0x400 + (unit - 0xDC00))).toList ++
          textOfUnits none units
      else if 0xD800 ≤ unit ∧ unit < 0xDC00 then textOfUnits (some unit) units
      else Char.ofNat unit :: textOfUnits none units

/-- What `run` returns for a process that ended so. -/
def cliResult (now : Instant) (file : Option (List UInt8)) (lines : List (List Char))
    (execution : BoundedProcessResult) : AgentRunResult T :=
  let collected := collectLines report lines
  match execution.outcome with
  | .aborted => .cancelled "Runner cancelled"
  | .timeout => .failure .timeout s!"Runner exceeded {(report.timeoutMs + 500) / 1000}s"
  | .outputLimit => .failure .failed s!"Runner output exceeded {report.maxEventBytes} bytes"
  | .spawnError => .failure .failed (safeMessage lib
      ("Runner could not start: " ++ execution.spawnError.getD "unknown error"))
  | .exited =>
      if execution.exitCode ≠ some 0 then
        let status := match execution.exitCode with
          | some code => toString code
          | none => execution.signal.getD "unknown status"
        let tail := trimText (String.ofList (textOfUnits none execution.stderrTail))
        let message := if tail = "" then s!"Runner exited with {status}" else tail
        runnerFailure lib (safeMessage lib message) now
      else if collected.flooded then
        .failure .failed
          s!"Runner output exceeded the {report.maxResultBytes} byte result limit"
      else
        match readOutput lib report file execution.stdoutTail
            (['\n'].intercalate collected.lines) with
        | .invalidOutput message => .failure .invalidOutput message
        | .completed output document =>
            match reportedFailure lib report document now with
            | some failure => failure
            | none =>
                match lib.safeParse output with
                | .error issues => .failure .invalidOutput (safeMessage lib
                    s!"Result does not match schema: {issues}")
                | .ok value => .completed value

/-- The options of the process. -/
def cliProcessOptions : BoundedProcessOptions where
  tailBytes := 16 * 1024
  maxOutputBytes := report.maxEventBytes
  readsLines := true

end Run

/-! ## The whole output or a part of it -/

/-- A character has at least one byte. -/
theorem length_le_encode (text : List Char) : text.length ≤ (encode text).length := by
  induction text with
  | nil => exact Nat.le_refl 0
  | cons character text ih =>
      have hbytes : 0 < (String.utf8EncodeChar character).length :=
        List.length_pos_iff.mpr String.utf8EncodeChar_ne_nil
      rw [encode_cons, List.length_append, List.length_cons]
      omega

theorem length_encode_ascii {text : List Char} (h : IsAscii text) :
    (encode text).length = text.length := by
  induction text with
  | nil => rfl
  | cons character text ih =>
      have hrest : IsAscii text := fun other hmem => h other (List.mem_cons_of_mem _ hmem)
      rw [encode_cons, encodeChar_ascii (h character List.mem_cons_self), List.singleton_append,
        List.length_cons, ih hrest, List.length_cons]

theorem utf16Length_ascii {text : List Char} (h : IsAscii text) :
    utf16Length text = text.length := by
  induction text with
  | nil => rfl
  | cons character text ih =>
      have hsmall := h character List.mem_cons_self
      have hone : utf16Width character = 1 := if_pos (by omega)
      rw [utf16Length_cons, ih fun other hmem => h other (List.mem_cons_of_mem _ hmem), hone,
        List.length_cons]
      omega

theorem length_textLines (text : List Char) :
    text.length ≤ totalLength (textLines text) + (textLines text).length := by
  have hsplit : text.length = wordCount text + text.count '\n' := by
    have hpartition := List.length_eq_countP_add_countP (fun character => decide (character ≠ '\n'))
      (l := text)
    rw [hpartition]
    unfold wordCount
    congr 1
    refine List.countP_congr ?_
    intro character _
    simp
  rw [totalLength_textLines, hsplit, textLines_eq]
  have hcount := handLines_count [] text
  unfold closeLines
  split_ifs
  · omega
  · rw [List.length_append]
    omega

theorem intercalate_concat {separator last : List Char} {pieces : List (List Char)}
    (h : pieces ≠ []) :
    separator.intercalate (pieces ++ [last]) = separator.intercalate pieces ++ separator ++ last := by
  induction pieces with
  | nil => exact absurd rfl h
  | cons piece pieces ih =>
      cases pieces with
      | nil =>
          rw [List.singleton_append, List.intercalate_cons_cons, List.intercalate_singleton,
            List.intercalate_singleton]
      | cons other pieces =>
          rw [List.cons_append, List.cons_append, List.intercalate_cons_cons,
            List.intercalate_cons_cons, ← List.cons_append, ih (List.cons_ne_nil _ _)]
          simp only [List.append_assoc]

/-- The lines joined again are the text, but for a final newline. -/
theorem intercalate_textLines (text : List Char) :
    text = ['\n'].intercalate (textLines text) ∨
      text = ['\n'].intercalate (textLines text) ++ ['\n'] := by
  have hwhole : ['\n'].intercalate (text.splitOn '\n') = text := List.intercalate_splitOn '\n'
  unfold textLines
  dsimp only
  split_ifs with hlast
  · obtain ⟨pieces, hpieces⟩ := List.getLast?_eq_some_iff.mp hlast
    rw [hpieces] at hwhole ⊢
    rw [List.dropLast_concat]
    cases pieces with
    | nil => exact Or.inl hwhole.symm
    | cons piece pieces =>
        right
        rw [intercalate_concat (List.cons_ne_nil _ _), List.append_nil] at hwhole
        exact hwhole.symm
  · exact Or.inl hwhole.symm

section Whole

variable {V T : Type} {lib : ClientLibrary V T} {report : CliReport}

/-- The bytes of the lines, each with its newline. -/
def collectedSize : List (List Char) → Nat
  | [] => 0
  | line :: lines => (encode line).length + 1 + collectedSize lines

/-- What was collected, if it was not too much. -/
theorem collected_of_not_flooded {lines : List (List Char)} {collected : Collected}
    (h : (lines.foldl (Collected.line report) collected).flooded = false) :
    collected.flooded = false ∧
      (lines.foldl (Collected.line report) collected).lines = collected.lines ++ lines ∧
      (collected.bytes ≤ report.maxResultBytes →
        collected.bytes + collectedSize lines ≤
          report.maxResultBytes) := by
  induction lines generalizing collected with
  | nil => exact ⟨h, (List.append_nil _).symm, id⟩
  | cons line lines ih =>
      rw [List.foldl_cons] at h ⊢
      obtain ⟨hstep, hlines, hbytes⟩ := ih h
      -- A flood stays, so there was none before and this line is no flood.
      have hbefore : collected.flooded = false := by
        by_contra hflooded
        have hsame : collected.line report line = collected := by
          unfold Collected.line
          rw [if_pos (by simpa using hflooded)]
        rw [hsame] at hstep
        exact hflooded hstep
      have hfits : ¬ report.maxResultBytes < collected.bytes + (encode line).length + 1 := by
        intro hlong
        unfold Collected.line at hstep
        rw [hbefore, if_neg Bool.false_ne_true] at hstep
        dsimp only at hstep
        rw [if_pos hlong] at hstep
        exact Bool.noConfusion hstep
      have hline : collected.line report line =
          { collected with
            bytes := collected.bytes + (encode line).length + 1
            lines := collected.lines ++ [line] } := by
        unfold Collected.line
        rw [hbefore, if_neg Bool.false_ne_true]
        dsimp only
        rw [if_neg hfits]
      rw [hline] at hlines hbytes ⊢
      refine ⟨hbefore, ?_, ?_⟩
      · rw [hlines, List.append_assoc, List.singleton_append]
      · intro _
        have hrest := hbytes (Nat.not_lt.mp hfits)
        dsimp only at hrest
        rw [collectedSize]
        omega

/-- The value is read from the whole of the standard output, which is within the limit. -/
def WholeOutput (lib : ClientLibrary V T) (report : CliReport) (text : List Char) (value : T) :
    Prop :=
  (∃ document selected, lib.parseJson text = some document ∧
    readJsonPath lib document report.path = some selected ∧
    lib.safeParse selected = .ok value) ∧
  (encode text).length ≤ report.maxResultBytes + 1

theorem runnerFailure_ne_completed (message : String) (now : Instant) (value : T) :
    runnerFailure lib message now ≠ .completed value := by
  unfold runnerFailure
  split
  · nofun
  · nofun
  · nofun

/-- A failure that the client reports is a failure. -/
theorem reportedFailure_ne_completed {document : V} {now : Instant} {failure : AgentRunResult T}
    (h : reportedFailure lib report document now = some failure) (value : T) :
    failure ≠ .completed value := by
  unfold reportedFailure at h
  obtain ⟨declared, _, hdeclared⟩ := Option.bind_eq_some_iff.mp h
  obtain ⟨reported, _, hreported⟩ := Option.bind_eq_some_iff.mp hdeclared
  split_ifs at hreported
  rw [← Option.some.inj hreported]
  exact runnerFailure_ne_completed _ _ _

/-- What is known of a run that completed. -/
theorem completed_reading {now : Instant} {file : Option (List UInt8)} {lines : List (List Char)}
    {execution : BoundedProcessResult} {value : T} (hsource : report.source = .stdout)
    (h : cliResult lib report now file lines execution = .completed value) :
    (collectLines report lines).flooded = false ∧
      ∃ document selected,
        lib.parseJson (['\n'].intercalate (collectLines report lines).lines) = some document ∧
        readJsonPath lib document report.path = some selected ∧
        lib.safeParse selected = .ok value := by
  unfold cliResult at h
  dsimp only at h
  cases houtcome : execution.outcome with
  | exited =>
      -- Every other branch of the reading ends in a failure, so each test fell the good way.
      rw [houtcome] at h
      dsimp only at h
      by_cases hcode : execution.exitCode ≠ some 0
      · rw [if_pos hcode] at h
        exact absurd h (runnerFailure_ne_completed _ _ _)
      rw [if_neg hcode] at h
      by_cases hflooded : (collectLines report lines).flooded = true
      · rw [if_pos hflooded] at h
        cases h
      rw [if_neg hflooded] at h
      refine ⟨Bool.not_eq_true _ ▸ hflooded, ?_⟩
      unfold readOutput at h
      rw [hsource] at h
      dsimp only at h
      generalize ['\n'].intercalate (collectLines report lines).lines = stdout at h ⊢
      by_cases hblank : stdout.all isBlank = true
      · rw [if_pos hblank] at h
        cases h
      rw [if_neg hblank] at h
      cases hparse : lib.parseJson stdout with
      | none =>
          rw [hparse] at h
          cases h
      | some document =>
          rw [hparse] at h
          dsimp only at h
          cases hpath : readJsonPath lib document report.path with
          | none =>
              rw [hpath] at h
              cases h
          | some selected =>
              rw [hpath] at h
              dsimp only at h
              cases hreported : reportedFailure lib report document now with
              | some failure =>
                  rw [hreported] at h
                  exact absurd h (reportedFailure_ne_completed hreported value)
              | none =>
                  rw [hreported] at h
                  dsimp only at h
                  cases hschema : lib.safeParse selected with
                  | error issues =>
                      rw [hschema] at h
                      cases h
                  | ok output =>
                      rw [hschema] at h
                      refine ⟨document, selected, rfl, hpath, ?_⟩
                      rw [hschema, AgentRunResult.completed.inj h]
  -- A process that did not exit completes no run.
  | timeout =>
      rw [houtcome] at h
      cases h
  | aborted =>
      rw [houtcome] at h
      cases h
  | outputLimit =>
      rw [houtcome] at h
      cases h
  | spawnError =>
      rw [houtcome] at h
      cases h

theorem mem_handLines {buffer text : List Char} {character : Char}
    (h : character ∈ (handLines buffer text).2) : character ∈ buffer ∨ character ∈ text := by
  induction text generalizing buffer with
  | nil => exact Or.inl h
  | cons first text ih =>
      by_cases hline : first = '\n'
      · rw [hline, handLines_cons_newline] at h
        rcases ih h with hmem | hmem
        · cases hmem
        · exact Or.inr (List.mem_cons_of_mem _ hmem)
      · rw [handLines_cons_other hline] at h
        rcases ih h with hmem | hmem
        · rcases List.mem_append.mp hmem with hmem | hmem
          · exact Or.inl hmem
          · rw [List.mem_singleton.mp hmem]
            exact Or.inr List.mem_cons_self
        · exact Or.inr (List.mem_cons_of_mem _ hmem)

/-- Within a short ASCII stream no line is too long for the buffer. -/
theorem shortBuffers_of_length {chunks : List (List UInt8)} {text : List Char}
    (hascii : IsAscii text) (hchunks : chunks.flatten = encode text)
    (hlength : text.length ≤ maxLineBytes) : ShortBuffers chunks := by
  refine shortBuffers_of_lines hascii ?_ hchunks
  intro line hmem
  rw [textLines_eq] at hmem
  obtain ⟨front, back, htext, hline, _⟩ := front_of_mem_lines hmem
  have hfront := handLines_total [] front
  have hcount : wordCount front ≤ front.length := List.countP_le_length
  rw [hline, List.length_nil] at hfront
  have hlineAscii : IsAscii line := by
    intro character hcharacter
    rw [← hline] at hcharacter
    refine hascii character ?_
    rw [htext]
    exact List.mem_append_left back ((mem_handLines hcharacter).resolve_left List.not_mem_nil)
  rw [utf16Length_ascii hlineAscii]
  rw [htext, List.length_append] at hlength
  omega

/-- A completed run returns the value of the whole output, within the limit, exactly when no chunk
of it ended within a line that was too long for the buffer. -/
theorem cliResult_whole_iff {now : Instant} {file : Option (List UInt8)} {text : List Char}
    {events : List ProcessEvent} {exitCode : Option Int} {signal : Option String}
    {execution : BoundedProcessResult} {value : T} (hsource : report.source = .stdout)
    (hlimit : report.maxResultBytes ≤ 4 * 1024 * 1024)
    (hnewline : ∀ document, lib.parseJson (document ++ ['\n']) = lib.parseJson document)
    (hascii : IsAscii text) (hopen : ∀ event ∈ events, event.closes = false)
    (hstream : (stdoutChunks events).flatten = encode text)
    (hcompleted : cliResult lib report now file
      (runBoundedProcess (cliProcessOptions report) false
        (events ++ [.close exitCode signal])).lines execution = .completed value) :
    WholeOutput lib report text value ↔ ShortBuffers (stdoutChunks events) := by
  rw [run_lines rfl hopen] at hcompleted
  constructor
  -- An output within the limit is too short to fill a buffer.
  · rintro ⟨_, hsize⟩
    refine shortBuffers_of_length hascii hstream ?_
    rw [length_encode_ascii hascii] at hsize
    unfold maxLineBytes
    omega
  · intro hshort
    -- No buffer was cut, so the lines are those of the text.
    have hlines : closeLines ((stdoutChunks events).foldl chunkLines ([], [])) = textLines text := by
      rw [foldl_chunkLines hshort, decode_pieces hascii hstream, textLines_eq]
    rw [hlines] at hcompleted
    obtain ⟨hflooded, document, selected, hparse, hpath, hschema⟩ :=
      completed_reading hsource hcompleted
    obtain ⟨_, hcollected, hbytes⟩ := collected_of_not_flooded hflooded
    have hall : (collectLines report (textLines text)).lines = textLines text := hcollected
    rw [hall] at hparse
    constructor
    · refine ⟨document, selected, ?_, hpath, hschema⟩
      rcases intercalate_textLines text with hsame | hsame
      · rw [hsame]
        exact hparse
      · rw [hsame, hnewline]
        exact hparse
    · have hfits := hbytes (Nat.zero_le _)
      have hlength := length_textLines text
      -- A line takes at least a byte a character, and one more for its end.
      have hsum : totalLength (textLines text) + (textLines text).length ≤
          collectedSize (textLines text) := by
        generalize textLines text = lines
        induction lines with
        | nil => exact Nat.le_refl 0
        | cons line lines ih =>
            have hline := length_le_encode line
            rw [totalLength_cons, List.length_cons, collectedSize]
            omega
      have hzero : ({} : Collected).bytes = 0 := rfl
      rw [length_encode_ascii hascii]
      rw [hzero] at hfits
      omega

end Whole

/-! ## A sample -/

/-- The one document is `true`. -/
def sampleLibrary : ClientLibrary Bool Bool where
  parseJson text := if (text.reverse.dropWhile isBlank).reverse = "true".toList then some true
    else none
  property _ _ := none
  scalarText value := some (toString value)
  stringText _ := none
  toLowerCase := id
  safeParse value := .ok value
  parseRetryAfter _ _ := none
  redactSecrets := id

def sampleReport : CliReport where
  source := .stdout
  path := ""
  failure := none
  maxResultBytes := 256 * 1024
  maxEventBytes := 64 * 1024 * 1024
  timeoutMs := 0

theorem sampleLibrary_newline (document : List Char) :
    sampleLibrary.parseJson (document ++ ['\n']) = sampleLibrary.parseJson document := by
  have hblank : isBlank '\n' = true := by decide
  unfold sampleLibrary
  dsimp only
  rw [List.reverse_append, List.reverse_singleton, List.singleton_append,
    List.dropWhile_cons_of_pos hblank]

/-- What the run of a client that exits normally amounts to. -/
theorem cliResult_true {lines : List (List Char)} {execution : BoundedProcessResult}
    (hlines : lines = ["true".toList]) (houtcome : execution.outcome = .exited)
    (hcode : execution.exitCode = some 0) :
    cliResult sampleLibrary sampleReport 0 none lines execution = .completed true := by
  have hcollected : (collectLines sampleReport lines).flooded = false ∧
      ['\n'].intercalate (collectLines sampleReport lines).lines = "true".toList := by
    rw [hlines]
    decide +kernel
  have hread : readOutput sampleLibrary sampleReport none execution.stdoutTail "true".toList =
      .completed true true := by
    have hblank : "true".toList.all isBlank = false := by decide +kernel
    have hparse : sampleLibrary.parseJson "true".toList = some true := by decide +kernel
    unfold readOutput
    dsimp only [sampleReport]
    rw [hblank, if_neg Bool.false_ne_true, hparse]
    rfl
  unfold cliResult
  dsimp only
  rw [houtcome]
  dsimp only
  rw [hcode, if_neg (fun h => h rfl), hcollected.1, if_neg Bool.false_ne_true, hcollected.2, hread]
  rfl

theorem cliResult_whole_iff_sample :
    WholeOutput sampleLibrary sampleReport "true\n".toList true := by
  have hascii : IsAscii "true\n".toList := by decide +kernel
  have hstream : (stdoutChunks [.stdout (encode "true\n".toList)]).flatten =
      encode "true\n".toList := List.append_nil _
  have hcompleted : cliResult sampleLibrary sampleReport 0 none
      (runBoundedProcess (cliProcessOptions sampleReport) false
        ([.stdout (encode "true\n".toList)] ++ [.close (some 0) none])).lines
      ⟨.exited, some 0, none, none, [], [], 5⟩ = .completed true :=
    cliResult_true (by decide +kernel) rfl rfl
  have hopen : ∀ event ∈ [ProcessEvent.stdout (encode "true\n".toList)],
      event.closes = false := by
    intro event hmem
    rw [List.mem_singleton.mp hmem]
    rfl
  exact (cliResult_whole_iff rfl (by decide) sampleLibrary_newline hascii hopen hstream
    hcompleted).mpr (shortBuffers_of_length hascii hstream (by decide))

/-- Chunks within the limit leave the outcome alone. -/
theorem stdout_run {options : BoundedProcessOptions} {chunks : List (List UInt8)}
    {s : ProcessState} (hopen : s.result = none) (hexited : s.outcome = .exited)
    (hspawn : s.spawnError = none)
    (hbytes : s.outputBytes + chunks.flatten.length ≤ options.maxOutputBytes) :
    ((chunks.map ProcessEvent.stdout).foldl (ProcessState.step options) s).outcome = .exited ∧
      ((chunks.map ProcessEvent.stdout).foldl (ProcessState.step options) s).spawnError = none ∧
      ((chunks.map ProcessEvent.stdout).foldl (ProcessState.step options) s).result = none := by
  induction chunks generalizing s with
  | nil => exact ⟨hexited, hspawn, hopen⟩
  | cons chunk chunks ih =>
      rw [List.flatten_cons, List.length_append] at hbytes
      have hcount : s.countOutput options chunk =
          { s with outputBytes := s.outputBytes + chunk.length } := by
        unfold ProcessState.countOutput
        dsimp only
        rw [if_neg (by omega)]
      have hstep : s.step options (.stdout chunk) = s.onStdout options chunk := by
        unfold ProcessState.step
        rw [hopen]
        rfl
      have hkept : (s.onStdout options chunk).outcome = s.outcome ∧
          (s.onStdout options chunk).spawnError = s.spawnError ∧
          (s.onStdout options chunk).result = s.result ∧
          (s.onStdout options chunk).outputBytes = s.outputBytes + chunk.length := by
        unfold ProcessState.onStdout
        rw [hcount]
        dsimp only
        cases options.readsLines with
        | true => exact ⟨rfl, rfl, rfl, rfl⟩
        | false => exact ⟨rfl, rfl, rfl, rfl⟩
      obtain ⟨houtcome, hspawn', hresult, houtput⟩ := hkept
      rw [List.map_cons, List.foldl_cons, hstep]
      exact ih (hresult.trans hopen) (houtcome.trans hexited) (hspawn'.trans hspawn)
        (by rw [houtput]; omega)

/-- A client whose lines are the one result, and that exits normally. -/
theorem cliResult_chunks {chunks : List (List UInt8)} (hlines : outputLines chunks = ["true".toList])
    (hbytes : chunks.flatten.length ≤ (cliProcessOptions sampleReport).maxOutputBytes) :
    ∃ execution,
      (runBoundedProcess (cliProcessOptions sampleReport) false
        (chunks.map .stdout ++ [.close (some 0) none])).result = some execution ∧
      cliResult sampleLibrary sampleReport 0 none
        (runBoundedProcess (cliProcessOptions sampleReport) false
          (chunks.map .stdout ++ [.close (some 0) none])).lines execution = .completed true := by
  have hstart : ({} : ProcessState).result = none := rfl
  have hzero : ({} : ProcessState).outputBytes + chunks.flatten.length ≤
      (cliProcessOptions sampleReport).maxOutputBytes := by
    have hnone : ({} : ProcessState).outputBytes = 0 := rfl
    rw [hnone, Nat.zero_add]
    exact hbytes
  obtain ⟨hexited, hspawn, hopen⟩ := stdout_run hstart rfl rfl hzero
  have hevents : ∀ event ∈ chunks.map ProcessEvent.stdout, event.closes = false := by
    intro event hmem
    obtain ⟨chunk, _, hchunk⟩ := List.mem_map.mp hmem
    rw [← hchunk]
    rfl
  refine ⟨_, congrArg ProcessState.result (run_close hopen), cliResult_true ?_ ?_ rfl⟩
  · rw [run_lines rfl hevents, stdoutChunks_map]
    exact hlines
  · dsimp only
    rw [hspawn]
    exact hexited

/-! ## A line that is too long -/

theorem handLines_word {word : List Char} (h : '\n' ∉ word) (buffer : List Char) :
    handLines buffer word = ([], buffer ++ word) := by
  induction word generalizing buffer with
  | nil => rw [List.append_nil]; rfl
  | cons character word ih =>
      have hother : character ≠ '\n' := fun heq => h (by rw [heq]; exact List.mem_cons_self)
      rw [handLines_cons_other hother, ih fun hmem => h (List.mem_cons_of_mem _ hmem),
        List.append_assoc, List.singleton_append]

/-- A pipe's worth of output without a newline. -/
def fullChunk : List Char := List.replicate 65536 'x'

/-- More than the line buffer holds, and then a line with a result. -/
def longOutput : List (List UInt8) :=
  List.replicate 129 (encode fullChunk) ++ [encode "true\n".toList]

theorem decode_fullChunks (count : Nat) :
    (List.replicate count (encode fullChunk)).flatMap decode = List.replicate (count * 65536) 'x' := by
  induction count with
  | zero => rfl
  | succ count ih =>
      rw [List.replicate_succ, List.flatMap_cons, ih, decode_encode, Nat.succ_mul, Nat.add_comm]
      exact List.replicate_append_replicate

theorem utf16Length_replicate (count : Nat) : utf16Length (List.replicate count 'x') = count := by
  induction count with
  | zero => rfl
  | succ count ih =>
      have hone : utf16Width 'x' = 1 := by decide
      rw [List.replicate_succ, utf16Length_cons, ih, hone, Nat.add_comm]

theorem newline_not_mem_replicate (count : Nat) : '\n' ∉ List.replicate count 'x' := by
  intro hmem
  exact absurd (List.eq_of_mem_replicate hmem) (by decide)

/-- The buffer is full after 128 chunks, and the next one empties it. -/
theorem outputLines_longOutput : outputLines longOutput = ["true".toList] := by
  have hshort : ShortBuffers (List.replicate 128 (encode fullChunk)) := by
    intro before after heq
    have hbefore : before = List.replicate before.length (encode fullChunk) := by
      refine List.eq_replicate_of_mem ?_
      intro chunk hmem
      refine List.eq_of_mem_replicate (n := 128) ?_
      rw [heq]
      exact List.mem_append_left after hmem
    have hlength : before.length ≤ 128 := by
      have htotal := congrArg List.length heq
      rw [List.length_replicate, List.length_append] at htotal
      omega
    rw [hbefore, decode_fullChunks, handLines_word (newline_not_mem_replicate _),
      List.nil_append, utf16Length_replicate]
    unfold maxLineBytes
    omega
  have hfull : (List.replicate 128 (encode fullChunk)).foldl chunkLines ([], []) =
      ([], List.replicate (128 * 65536) 'x') := by
    rw [foldl_chunkLines hshort, decode_fullChunks, handLines_word (newline_not_mem_replicate _),
      List.nil_append]
  have hdropped : chunkLines ([], List.replicate (128 * 65536) 'x') (encode fullChunk) =
      ([], []) := by
    have hlong : maxLineBytes <
        utf16Length (List.replicate (128 * 65536) 'x' ++ fullChunk) := by
      unfold fullChunk maxLineBytes
      rw [utf16Length_append, utf16Length_replicate, utf16Length_replicate]
      omega
    unfold chunkLines
    dsimp only
    have hword : '\n' ∉ fullChunk := newline_not_mem_replicate 65536
    rw [decode_encode, handLines_word hword, List.append_nil, if_pos hlong]
  have hlast : chunkLines ([], []) (encode "true\n".toList) = (["true".toList], []) := by
    decide +kernel
  unfold outputLines longOutput
  have hreplicate : List.replicate 129 (encode fullChunk) =
      List.replicate 128 (encode fullChunk) ++ [encode fullChunk] := List.replicate_succ'
  rw [hreplicate, List.foldl_append, List.foldl_append, hfull]
  simp only [List.foldl_cons, List.foldl_nil]
  rw [hdropped, hlast]
  rfl

def longText : List Char := List.replicate (129 * 65536) 'x' ++ "true\n".toList

theorem flatten_fullChunks (count : Nat) :
    (List.replicate count (encode fullChunk)).flatten =
      encode (List.replicate (count * 65536) 'x') := by
  induction count with
  | zero => rfl
  | succ count ih =>
      rw [List.replicate_succ, List.flatten_cons, ih, ← encode_append, Nat.succ_mul, Nat.add_comm]
      exact congrArg encode List.replicate_append_replicate

theorem longOutput_flatten : longOutput.flatten = encode longText := by
  unfold longOutput longText
  rw [List.flatten_append, flatten_fullChunks, encode_append, List.flatten_cons, List.flatten_nil,
    List.append_nil]

theorem isAscii_longText : IsAscii longText := by
  intro character hmem
  rcases List.mem_append.mp hmem with hmem | hmem
  · rw [List.eq_of_mem_replicate hmem]
    decide
  · have hresult : IsAscii "true\n".toList := by decide +kernel
    exact hresult character hmem

theorem length_longText : (encode longText).length = 129 * 65536 + 5 := by
  rw [length_encode_ascii isAscii_longText]
  unfold longText
  rw [List.length_append, List.length_replicate]
  rfl

/-- Eight megabytes without a newline are dropped, and the line after them is accepted. -/
theorem cliResult_long_output :
    ∃ (events : List ProcessEvent) (execution : BoundedProcessResult),
      (stdoutChunks events).flatten = encode longText ∧
      (runBoundedProcess (cliProcessOptions sampleReport) false
        (events ++ [.close (some 0) none])).result = some execution ∧
      cliResult sampleLibrary sampleReport 0 none
        (runBoundedProcess (cliProcessOptions sampleReport) false
          (events ++ [.close (some 0) none])).lines execution = .completed true ∧
      ¬ WholeOutput sampleLibrary sampleReport longText true := by
  have hbytes : longOutput.flatten.length ≤ (cliProcessOptions sampleReport).maxOutputBytes := by
    rw [longOutput_flatten, length_longText]
    decide
  obtain ⟨execution, hresult, hcompleted⟩ := cliResult_chunks outputLines_longOutput hbytes
  refine ⟨longOutput.map .stdout, execution, ?_, hresult, hcompleted, ?_⟩
  · rw [stdoutChunks_map, longOutput_flatten]
  · rintro ⟨_, hsize⟩
    rw [length_longText] at hsize
    exact absurd hsize (by decide)

end Orchestrator
