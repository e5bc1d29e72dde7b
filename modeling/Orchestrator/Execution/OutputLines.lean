import Orchestrator.Execution.BoundedProcess

/-! # The lines of a command's output

Which lines `runBoundedProcess` hands on, compared with the lines of the whole stream. Each
chunk is decoded by itself, and a line that is unfinished at the end of a chunk is dropped once
it is too long, so the chunks matter unless every character is one byte and no line is too long.
-/

namespace Orchestrator

open Kit

/-! ## The loop over the newlines -/

/-- The buffer is handed on at the end of the stream, if anything is in it. -/
def closeLines (handed : List (List Char) × List Char) : List (List Char) :=
  if handed.2 = [] then handed.1 else handed.1 ++ [handed.2]

/-- The newline-separated lines of a text; what follows its last newline is a line if it is not
empty. -/
def textLines (text : List Char) : List (List Char) :=
  let pieces := text.splitOn '\n'
  if pieces.getLast? = some [] then pieces.dropLast else pieces

theorem handLines_cons_newline (buffer text : List Char) :
    handLines buffer ('\n' :: text) =
      (buffer :: (handLines [] text).1, (handLines [] text).2) := by
  rw [handLines, if_pos rfl]

theorem handLines_cons_other {character : Char} (h : character ≠ '\n') (buffer text : List Char) :
    handLines buffer (character :: text) = handLines (buffer ++ [character]) text := by
  rw [handLines, if_neg h]

/-- A text in two parts: the buffer is carried over. -/
theorem handLines_append (buffer front back : List Char) :
    handLines buffer (front ++ back) =
      ((handLines buffer front).1 ++ (handLines (handLines buffer front).2 back).1,
        (handLines (handLines buffer front).2 back).2) := by
  induction front generalizing buffer with
  | nil => rfl
  | cons character front ih =>
      rw [List.cons_append]
      by_cases hline : character = '\n'
      · rw [hline, handLines_cons_newline, handLines_cons_newline, ih]
        rfl
      · rw [handLines_cons_other hline, handLines_cons_other hline, ih]

theorem modifyHead_nil_append (pieces : List (List Char)) :
    pieces.modifyHead ([] ++ ·) = pieces := by
  cases pieces with
  | nil => rfl
  | cons piece pieces => rfl

/-- The loop hands on the pieces between the newlines, but for the last. -/
theorem handLines_pieces (buffer text : List Char) :
    (handLines buffer text).1 ++ [(handLines buffer text).2] =
      (text.splitOn '\n').modifyHead (buffer ++ ·) := by
  induction text generalizing buffer with
  | nil =>
      rw [List.splitOn_nil, List.modifyHead_cons, List.append_nil]
      rfl
  | cons character text ih =>
      rw [List.splitOn_cons_eq_if_modifyHead]
      by_cases hline : character = '\n'
      · have hpieces := ih []
        rw [modifyHead_nil_append] at hpieces
        rw [hline, handLines_cons_newline, if_pos (beq_self_eq_true _), List.modifyHead_cons,
          List.append_nil, List.cons_append, hpieces]
      · rw [handLines_cons_other hline, if_neg (by rwa [beq_iff_eq]), ih,
          List.modifyHead_modifyHead]
        congr 1
        funext piece
        simp

theorem textLines_eq (text : List Char) : textLines text = closeLines (handLines [] text) := by
  have hpieces := handLines_pieces [] text
  rw [modifyHead_nil_append] at hpieces
  unfold textLines closeLines
  dsimp only
  rw [← hpieces, List.getLast?_append_of_ne_nil _ (List.cons_ne_nil _ _), List.getLast?_singleton,
    List.dropLast_concat]
  simp only [Option.some.injEq]

/-! ## Counting -/

/-- The characters of the lines. -/
def totalLength : List (List Char) → Nat
  | [] => 0
  | line :: lines => line.length + totalLength lines

theorem totalLength_cons (line : List Char) (lines : List (List Char)) :
    totalLength (line :: lines) = line.length + totalLength lines := rfl

theorem totalLength_append (left right : List (List Char)) :
    totalLength (left ++ right) = totalLength left + totalLength right := by
  induction left with
  | nil => exact (Nat.zero_add _).symm
  | cons line left ih =>
      rw [List.cons_append, totalLength_cons, totalLength_cons, ih, Nat.add_assoc]

theorem totalLength_closeLines (handed : List (List Char) × List Char) :
    totalLength (closeLines handed) = totalLength handed.1 + handed.2.length := by
  unfold closeLines
  split_ifs with hempty
  · rw [hempty]
    rfl
  · rw [totalLength_append, totalLength_cons]
    rfl

/-- The characters that are no newline. -/
def wordCount (text : List Char) : Nat := text.countP (· ≠ '\n')

/-- Nothing but the newlines is lost. -/
theorem handLines_total (buffer text : List Char) :
    totalLength (handLines buffer text).1 + (handLines buffer text).2.length =
      buffer.length + wordCount text := by
  unfold wordCount
  induction text generalizing buffer with
  | nil => exact Nat.zero_add _
  | cons character text ih =>
      by_cases hline : character = '\n'
      · have hrest := ih []
        rw [List.length_nil] at hrest
        rw [hline, handLines_cons_newline, totalLength_cons,
          List.countP_cons_of_neg (by simp)]
        dsimp only
        omega
      · have hrest := ih (buffer ++ [character])
        rw [List.length_append, List.length_singleton] at hrest
        rw [handLines_cons_other hline, List.countP_cons_of_pos (by simpa using hline)]
        omega

theorem handLines_count (buffer text : List Char) :
    (handLines buffer text).1.length = text.count '\n' := by
  induction text generalizing buffer with
  | nil => rfl
  | cons character text ih =>
      by_cases hline : character = '\n'
      · rw [hline, handLines_cons_newline, List.length_cons, ih, List.count_cons_self]
      · rw [handLines_cons_other hline, ih, List.count_cons_of_ne hline]

theorem totalLength_textLines (text : List Char) :
    totalLength (textLines text) = wordCount text := by
  rw [textLines_eq, totalLength_closeLines, handLines_total, List.length_nil, Nat.zero_add]

/-- Nothing is left in the buffer after a newline. -/
theorem handLines_newline_last (buffer text : List Char) :
    (handLines buffer (text ++ ['\n'])).2 = [] := by
  rw [handLines_append, handLines_cons_newline]
  rfl

theorem handLines_other_last {character : Char} (h : character ≠ '\n') (buffer text : List Char) :
    (handLines buffer (text ++ [character])).2 ≠ [] := by
  rw [handLines_append, handLines_cons_other h]
  exact List.append_ne_nil_of_right_ne_nil _ (List.cons_ne_nil _ _)

/-- A line of the text ends at a newline or at the end of the text. -/
theorem front_of_mem_lines {buffer text line : List Char}
    (h : line ∈ closeLines (handLines buffer text)) :
    ∃ front back, text = front ++ back ∧ (handLines buffer front).2 = line ∧
      (back = [] ∨ ∃ rest, back = '\n' :: rest) := by
  induction text generalizing buffer with
  | nil =>
      refine ⟨[], [], rfl, ?_, Or.inl rfl⟩
      unfold closeLines handLines at h
      split_ifs at h
      · cases h
      · exact (List.mem_singleton.mp h).symm
  | cons character text ih =>
      by_cases hline : character = '\n'
      · rw [hline, handLines_cons_newline] at h
        have hmem : line = buffer ∨ line ∈ closeLines (handLines [] text) := by
          unfold closeLines at h ⊢
          split_ifs at h ⊢ with hempty
          · exact List.mem_cons.mp h
          · exact List.mem_cons.mp h
        rcases hmem with hbuffer | hmem
        · exact ⟨[], character :: text, rfl, hbuffer.symm, Or.inr ⟨text, by rw [hline]⟩⟩
        · obtain ⟨front, back, htext, hfront, hback⟩ := ih hmem
          refine ⟨'\n' :: front, back, by rw [hline, htext, List.cons_append], ?_, hback⟩
          rw [handLines_cons_newline]
          exact hfront
      · rw [handLines_cons_other hline] at h
        obtain ⟨front, back, htext, hfront, hback⟩ := ih h
        refine ⟨character :: front, back, by rw [htext, List.cons_append], ?_, hback⟩
        rw [handLines_cons_other hline]
        exact hfront

/-- What is in the buffer begins a line of the text. -/
theorem buffer_begins_line {buffer front back : List Char}
    (h : (handLines buffer front).2 ≠ []) :
    ∃ line ∈ closeLines (handLines buffer (front ++ back)),
      ∃ rest, line = (handLines buffer front).2 ++ rest := by
  rw [handLines_append]
  generalize (handLines buffer front).2 = begun at h ⊢
  generalize (handLines buffer front).1 = before
  suffices hline : ∃ line ∈ closeLines (handLines begun back), ∃ rest, line = begun ++ rest by
    obtain ⟨line, hmem, hbegins⟩ := hline
    refine ⟨line, ?_, hbegins⟩
    unfold closeLines at hmem ⊢
    dsimp only
    split_ifs at hmem ⊢
    · exact List.mem_append_right before hmem
    · rw [List.append_assoc]
      exact List.mem_append_right before hmem
  induction back generalizing begun with
  | nil =>
      refine ⟨begun, ?_, [], (List.append_nil _).symm⟩
      unfold closeLines handLines
      rw [if_neg h]
      exact List.mem_append_right [] List.mem_cons_self
  | cons character back ih =>
      by_cases hline : character = '\n'
      · refine ⟨begun, ?_, [], (List.append_nil _).symm⟩
        rw [hline, handLines_cons_newline]
        unfold closeLines
        split_ifs
        · exact List.mem_cons_self
        · exact List.mem_append_left _ List.mem_cons_self
      · rw [handLines_cons_other hline]
        obtain ⟨line, hmem, rest, hrest⟩ :=
          ih (begun ++ [character]) (List.append_ne_nil_of_left_ne_nil h _)
        exact ⟨line, hmem, character :: rest, by rw [hrest, List.append_assoc]; rfl⟩

/-! ## Chunks -/

/-- What one chunk adds to the lines, and the buffer it leaves. -/
def chunkLines (handed : List (List Char) × List Char) (chunk : List UInt8) :
    List (List Char) × List Char :=
  let more := handLines handed.2 (decode chunk)
  (handed.1 ++ more.1, if maxLineBytes < utf16Length more.2 then [] else more.2)

def ProcessEvent.chunk : ProcessEvent → List (List UInt8)
  | .stdout chunk => [chunk]
  | _ => []

/-- The chunks of the standard output, in their order. -/
def stdoutChunks (events : List ProcessEvent) : List (List UInt8) := events.flatMap (·.chunk)

def ProcessEvent.closes : ProcessEvent → Bool
  | .close _ _ => true
  | _ => false

section Run

variable {options : BoundedProcessOptions}

/-- What a stop leaves alone. -/
theorem stop_lines (s : ProcessState) (reason : BoundedProcessOutcome) :
    (s.stop reason).lines = s.lines ∧ (s.stop reason).lineBuffer = s.lineBuffer ∧
      (s.stop reason).result = s.result := by
  unfold ProcessState.stop
  split_ifs
  · exact ⟨rfl, rfl, rfl⟩
  · exact ⟨rfl, rfl, rfl⟩

theorem countOutput_lines (s : ProcessState) (chunk : List UInt8) :
    (s.countOutput options chunk).lines = s.lines ∧
      (s.countOutput options chunk).lineBuffer = s.lineBuffer ∧
      (s.countOutput options chunk).result = s.result := by
  unfold ProcessState.countOutput
  dsimp only
  split_ifs
  · exact stop_lines _ _
  · exact ⟨rfl, rfl, rfl⟩

/-- Only chunks of the standard output change the lines before the stream is closed. -/
theorem step_lines (hreads : options.readsLines = true) {s : ProcessState}
    (hopen : s.result = none) {event : ProcessEvent} (hevent : event.closes = false) :
    ((s.step options event).lines, (s.step options event).lineBuffer) =
        event.chunk.foldl chunkLines (s.lines, s.lineBuffer) ∧
      (s.step options event).result = none := by
  unfold ProcessState.step
  rw [hopen, if_neg (by decide)]
  cases event with
  | stdout chunk =>
      obtain ⟨hlines, hbuffer, hresult⟩ := @countOutput_lines options s chunk
      dsimp only [ProcessState.onStdout]
      rw [hreads, Bool.not_true, if_neg Bool.false_ne_true]
      dsimp only
      rw [hlines, hbuffer, hresult]
      exact ⟨rfl, hopen⟩
  | stderr chunk =>
      obtain ⟨hlines, hbuffer, hresult⟩ := @countOutput_lines options s chunk
      dsimp only [ProcessState.onStderr]
      rw [hlines, hbuffer, hresult]
      exact ⟨rfl, hopen⟩
  -- Stopping the process kills it and leaves what was read.
  | timeout =>
      obtain ⟨hlines, hbuffer, hresult⟩ := stop_lines s .timeout
      dsimp only
      rw [hlines, hbuffer, hresult]
      exact ⟨rfl, hopen⟩
  | abort =>
      obtain ⟨hlines, hbuffer, hresult⟩ := stop_lines s .aborted
      dsimp only
      rw [hlines, hbuffer, hresult]
      exact ⟨rfl, hopen⟩
  | killGrace =>
      dsimp only
      split_ifs
      · exact ⟨rfl, rfl⟩
      · exact ⟨rfl, hopen⟩
  | error message => exact ⟨rfl, hopen⟩
  | exit => exact ⟨rfl, rfl⟩
  | close exitCode signal => cases hevent

theorem foldl_lines (hreads : options.readsLines = true) {events : List ProcessEvent}
    (hevents : ∀ event ∈ events, event.closes = false) {s : ProcessState}
    (hopen : s.result = none) :
    ((events.foldl (ProcessState.step options) s).lines,
        (events.foldl (ProcessState.step options) s).lineBuffer) =
        (stdoutChunks events).foldl chunkLines (s.lines, s.lineBuffer) ∧
      (events.foldl (ProcessState.step options) s).result = none := by
  induction events generalizing s with
  | nil => exact ⟨rfl, hopen⟩
  | cons event events ih =>
      obtain ⟨hlines, hresult⟩ := step_lines hreads hopen (hevents event List.mem_cons_self)
      obtain ⟨hrest, hend⟩ := ih (fun other hmem => hevents other (List.mem_cons_of_mem _ hmem))
        hresult
      rw [List.foldl_cons]
      refine ⟨hrest.trans ?_, hend⟩
      rw [hlines]
      exact (List.foldl_append ..).symm

/-- The last event of a run. -/
theorem run_close {events : List ProcessEvent} {exitCode : Option Int} {signal : Option String}
    (hopen : (events.foldl (ProcessState.step options) {}).result = none) :
    runBoundedProcess options false (events ++ [.close exitCode signal]) =
      (events.foldl (ProcessState.step options) {}).onClose options exitCode signal := by
  unfold runBoundedProcess
  rw [if_neg Bool.false_ne_true, List.foldl_append, List.foldl_cons, List.foldl_nil]
  generalize events.foldl (ProcessState.step options) {} = s at hopen ⊢
  unfold ProcessState.step
  rw [hopen, if_neg (by decide)]

/-- The lines of a run that came to its end. -/
theorem run_lines (hreads : options.readsLines = true) {events : List ProcessEvent}
    (hevents : ∀ event ∈ events, event.closes = false) (exitCode : Option Int)
    (signal : Option String) :
    (runBoundedProcess options false (events ++ [.close exitCode signal])).lines =
      closeLines ((stdoutChunks events).foldl chunkLines ([], [])) := by
  have hstart : ({} : ProcessState).result = none := rfl
  obtain ⟨hlines, hopen⟩ := foldl_lines hreads hevents hstart
  rw [run_close hopen, ← hlines]
  generalize events.foldl (ProcessState.step options) {} = s
  dsimp only [ProcessState.onClose, closeLines]
  rw [hreads, Bool.true_and]
  by_cases hbuffer : s.lineBuffer = []
  · rw [if_pos hbuffer, if_neg (by simpa using hbuffer)]
  · rw [if_neg hbuffer, if_pos (by simpa using hbuffer)]

end Run

/-! ## Streams that are read as a whole -/

/-- A chunk whose unfinished line is short adds what its text adds. -/
theorem chunkLines_short {done text : List Char} {chunk : List UInt8} (hchunk : decode chunk = text)
    (hshort : utf16Length (handLines [] (done ++ text)).2 ≤ maxLineBytes) :
    chunkLines (handLines [] done) chunk = handLines [] (done ++ text) := by
  rw [handLines_append] at hshort ⊢
  unfold chunkLines
  dsimp only at hshort ⊢
  rw [hchunk, if_neg (Nat.not_lt.mpr hshort)]

/-- A line that begins within a short line is short. -/
theorem buffer_short {front back : List Char}
    (hlines : ∀ line ∈ textLines (front ++ back), utf16Length line ≤ maxLineBytes) :
    utf16Length (handLines [] front).2 ≤ maxLineBytes := by
  by_cases hempty : (handLines [] front).2 = []
  · rw [hempty]
    exact Nat.zero_le _
  · obtain ⟨line, hmem, rest, hline⟩ := @buffer_begins_line [] front back hempty
    have hshort := hlines line (by rw [textLines_eq]; exact hmem)
    rw [hline, utf16Length_append] at hshort
    omega

/-- No chunk ends within a line that is too long already. -/
def ShortBuffers (chunks : List (List UInt8)) : Prop :=
  ∀ before after, chunks = before ++ after →
    utf16Length (handLines [] (before.flatMap decode)).2 ≤ maxLineBytes

/-- If nothing is dropped, the lines are those of the chunks' texts. -/
theorem foldl_chunkLines {chunks : List (List UInt8)} (h : ShortBuffers chunks) :
    chunks.foldl chunkLines ([], []) = handLines [] (chunks.flatMap decode) := by
  induction chunks using List.reverseRecOn with
  | nil => rfl
  | append_singleton chunks chunk ih =>
      have hbefore : ShortBuffers chunks := by
        intro before after heq
        exact h before (after ++ [chunk]) (by rw [heq, List.append_assoc])
      have hshort := h (chunks ++ [chunk]) [] (List.append_nil _).symm
      rw [List.flatMap_append, List.flatMap_singleton] at hshort ⊢
      rw [List.foldl_append, List.foldl_cons, List.foldl_nil, ih hbefore]
      exact chunkLines_short rfl hshort

/-- Chunks of an ASCII text without long lines. -/
theorem shortBuffers_of_lines {chunks : List (List UInt8)} {text : List Char}
    (hascii : IsAscii text) (hlines : ∀ line ∈ textLines text, utf16Length line ≤ maxLineBytes)
    (hchunks : chunks.flatten = encode text) : ShortBuffers chunks := by
  intro before after heq
  have hdecoded := decode_pieces hascii hchunks
  rw [heq, List.flatMap_append] at hdecoded
  rw [← hdecoded] at hlines
  exact buffer_short hlines

/-! ## Streams that are not -/

/-- Chunks of a stream, and the lines they are handed on as. -/
def outputLines (chunks : List (List UInt8)) : List (List Char) :=
  closeLines (chunks.foldl chunkLines ([], []))

theorem wordCount_append (left right : List Char) :
    wordCount (left ++ right) = wordCount left + wordCount right := List.countP_append

/-- A chunk hands on no more than the buffer and its characters. -/
theorem chunkLines_total (handed : List (List Char) × List Char) (chunk : List UInt8) :
    totalLength (chunkLines handed chunk).1 + (chunkLines handed chunk).2.length ≤
      totalLength handed.1 + handed.2.length + wordCount (decode chunk) := by
  have htotal := handLines_total handed.2 (decode chunk)
  unfold chunkLines
  dsimp only
  rw [totalLength_append]
  split_ifs
  · rw [List.length_nil]
    omega
  · omega

/-- A line that is too long is lost where a chunk ends with it. -/
theorem long_line_lost {text line : List Char} (hmem : line ∈ textLines text)
    (hlong : maxLineBytes < utf16Length line) :
    ∃ chunks, chunks.flatten = encode text ∧ outputLines chunks ≠ textLines text := by
  rw [textLines_eq] at hmem
  obtain ⟨front, back, htext, hline, hback⟩ := front_of_mem_lines hmem
  have hnonempty : 0 < line.length := by
    cases line with
    | nil => exact absurd hlong (Nat.not_lt_zero _)
    | cons character line => exact Nat.succ_pos _
  refine ⟨[encode front, encode back], ?_, ?_⟩
  · rw [htext, encode_append, List.flatten_cons, List.flatten_cons, List.flatten_nil,
      List.append_nil]
  · intro hsame
    have htotal : totalLength (outputLines [encode front, encode back]) = wordCount text := by
      rw [hsame, totalLength_textLines]
    -- The buffer after the first chunk is the line, and is dropped.
    have hfirst : chunkLines ([], []) (encode front) = ((handLines [] front).1, []) := by
      unfold chunkLines
      dsimp only
      rw [decode_encode, hline, if_pos hlong, List.nil_append]
    have hfront := handLines_total [] front
    have hsecond := chunkLines_total ((handLines [] front).1, []) (encode back)
    unfold outputLines at htotal
    rw [List.foldl_cons, hfirst, List.foldl_cons, List.foldl_nil, totalLength_closeLines, htext,
      wordCount_append] at htotal
    rw [decode_encode] at hsecond
    rw [hline] at hfront
    simp only [List.length_nil] at hsecond hfront
    omega

/-- A character of several bytes is replaced where a chunk ends inside it. -/
theorem wide_character_lost {front back : List Char} {character : Char}
    (hwide : 0x80 ≤ character.toNat)
    (hlines : ∀ line ∈ textLines (front ++ character :: back), utf16Length line ≤ maxLineBytes) :
    ∃ chunks, chunks.flatten = encode (front ++ character :: back) ∧
      outputLines chunks ≠ textLines (front ++ character :: back) := by
  obtain ⟨byte, bytes, hbytes, hsome, hbegun, hmore⟩ := encodeChar_wide hwide
  have hother : character ≠ '\n' := by
    intro hline
    rw [hline] at hwide
    exact absurd hwide (by decide)
  refine ⟨[encode front ++ [byte], bytes ++ encode back], ?_, ?_⟩
  · rw [encode_append, encode_cons, hbytes, List.flatten_cons, List.flatten_cons, List.flatten_nil,
      List.append_nil, List.append_assoc, List.cons_append, List.cons_append, List.nil_append]
  intro hsame
  let marks := bytes.map fun _ => replacement
  let read := front ++ [replacement] ++ (marks ++ back)
  have hmark : replacement ≠ '\n' := by decide
  have hmarks : wordCount marks = bytes.length := by
    unfold wordCount marks
    rw [List.countP_map, List.countP_eq_length.mpr]
    intro other _
    exact decide_eq_true hmark
  -- The first chunk ends within a short line.
  have hfirst : chunkLines ([], []) (encode front ++ [byte]) =
      handLines [] (front ++ [replacement]) := by
    have hdecoded : decode (encode front ++ [byte]) = front ++ [replacement] := by
      rw [decode_encode_append, hbegun]
    have hshort : utf16Length (handLines [] (front ++ [replacement])).2 ≤ maxLineBytes := by
      have hlong : utf16Length (handLines [] (front ++ [character])).2 ≤ maxLineBytes := by
        have hassoc : front ++ character :: back = (front ++ [character]) ++ back := by
          rw [List.append_assoc, List.singleton_append]
        rw [hassoc] at hlines
        exact buffer_short hlines
      rw [handLines_append, handLines_cons_other hother] at hlong
      rw [handLines_append, handLines_cons_other hmark]
      simp only [handLines, utf16Length_append, utf16Length_cons, utf16Length_nil] at hlong ⊢
      have hone : utf16Width replacement = 1 := by decide
      have hwidth : 1 ≤ utf16Width character := by
        unfold utf16Width
        split_ifs
        · exact Nat.le_refl 1
        · exact Nat.le_succ 1
      omega
    exact @chunkLines_short [] _ _ hdecoded hshort
  have hsecond : outputLines [encode front ++ [byte], bytes ++ encode back] =
      closeLines ((handLines [] read).1,
        if maxLineBytes < utf16Length (handLines [] read).2 then [] else (handLines [] read).2) := by
    unfold outputLines
    rw [List.foldl_cons, hfirst, List.foldl_cons, List.foldl_nil]
    unfold chunkLines
    dsimp only
    rw [hmore, decode_encode, handLines_append [] (front ++ [replacement])]
  rw [hsecond] at hsame
  have hread : wordCount read = wordCount front + 1 + (bytes.length + wordCount back) := by
    have hone : wordCount [replacement] = 1 := by decide
    rw [wordCount_append, wordCount_append, wordCount_append, hone, hmarks]
  have hwhole : wordCount (front ++ character :: back) = wordCount front + (wordCount back + 1) := by
    rw [wordCount_append]
    unfold wordCount
    rw [List.countP_cons_of_pos (by simpa using hother)]
  have hpos : 0 < bytes.length := List.length_pos_iff.mpr hsome
  by_cases hdropped : maxLineBytes < utf16Length (handLines [] read).2
  · -- The last line is lost as well: then there is one line less, and the stream ends with one.
    rw [if_pos hdropped] at hsame
    have hcount : read.count '\n' = (front ++ character :: back).count '\n' := by
      have hnone : marks.count '\n' = 0 := by
        rw [List.count_eq_zero]
        intro hmem
        obtain ⟨_, _, hmark'⟩ := List.mem_map.mp hmem
        exact hmark hmark'
      rw [List.count_append, List.count_append, List.count_append, List.count_append, hnone,
        List.count_cons_of_ne hmark, List.count_cons_of_ne hother, List.count_nil]
      omega
    have hlength : (closeLines (handLines [] (front ++ character :: back))).length =
        (front ++ character :: back).count '\n' := by
      rw [← textLines_eq, ← hsame, ← hcount]
      exact handLines_count [] read
    have hended : (handLines [] (front ++ character :: back)).2 = [] := by
      by_contra hopen
      unfold closeLines at hlength
      rw [if_neg hopen, List.length_append, handLines_count, List.length_singleton] at hlength
      omega
    rcases List.eq_nil_or_concat back with hback | ⟨back', last, hback⟩
    · rw [hback] at hended
      exact handLines_other_last hother [] front hended
    · rw [List.concat_eq_append] at hback
      by_cases hlast : last = '\n'
      · have hempty : (handLines [] read).2 = [] := by
          have hread' : read = front ++ [replacement] ++ marks ++ back' ++ ['\n'] := by
            simp only [read, hback, hlast, List.append_assoc]
          rw [hread']
          exact handLines_newline_last [] _
        rw [hempty] at hdropped
        exact absurd hdropped (Nat.not_lt_zero _)
      · have htext : front ++ character :: back = (front ++ character :: back') ++ [last] := by
          rw [hback, List.append_assoc, List.cons_append]
        rw [htext] at hended
        exact handLines_other_last hlast [] _ hended
  · rw [if_neg hdropped] at hsame
    have htotal := congrArg totalLength hsame
    rw [totalLength_closeLines, handLines_total, totalLength_textLines, List.length_nil, hread,
      hwhole] at htotal
    omega

/-! ## Independence of the chunks -/

theorem stdoutChunks_map (chunks : List (List UInt8)) :
    stdoutChunks (chunks.map .stdout) = chunks := by
  unfold stdoutChunks
  rw [List.flatMap_map]
  exact List.flatMap_singleton' chunks

/-- However the stream is delivered and whatever happens in between, its lines are handed on,
exactly when every character is one byte and no line is too long for the buffer. -/
theorem outputLines_iff {options : BoundedProcessOptions} (hreads : options.readsLines = true)
    (text : List Char) :
    (∀ (events : List ProcessEvent) (exitCode : Option Int) (signal : Option String),
      (∀ event ∈ events, event.closes = false) →
      (stdoutChunks events).flatten = encode text →
      (runBoundedProcess options false (events ++ [.close exitCode signal])).lines =
        textLines text) ↔
      IsAscii text ∧ ∀ line ∈ textLines text, utf16Length line ≤ maxLineBytes := by
  constructor
  · intro h
    have hchunks : ∀ chunks, chunks.flatten = encode text → outputLines chunks = textLines text := by
      intro chunks hflatten
      have hopen : ∀ event ∈ chunks.map ProcessEvent.stdout, event.closes = false := by
        intro event hmem
        obtain ⟨chunk, _, hevent⟩ := List.mem_map.mp hmem
        rw [← hevent]
        rfl
      have hrun := h (chunks.map .stdout) (some 0) none hopen (by rw [stdoutChunks_map, hflatten])
      rw [run_lines hreads hopen, stdoutChunks_map] at hrun
      exact hrun
    -- One delivery that loses a line is enough against each condition.
    have hlines : ∀ line ∈ textLines text, utf16Length line ≤ maxLineBytes := by
      intro line hmem
      by_contra hlong
      obtain ⟨chunks, hflatten, hlost⟩ := long_line_lost hmem (Nat.not_le.mp hlong)
      exact hlost (hchunks chunks hflatten)
    refine ⟨?_, hlines⟩
    intro character hmem
    by_contra hwide
    obtain ⟨front, back, htext⟩ := List.append_of_mem hmem
    rw [htext] at hlines hchunks
    obtain ⟨chunks, hflatten, hlost⟩ := wide_character_lost (Nat.not_lt.mp hwide) hlines
    exact hlost (hchunks chunks hflatten)
  · rintro ⟨hascii, hlines⟩ events exitCode signal hopen hflatten
    have hfold := foldl_chunkLines (shortBuffers_of_lines hascii hlines hflatten)
    rw [decode_pieces hascii hflatten] at hfold
    rw [run_lines hreads hopen, textLines_eq, hfold]

def lineOptions : BoundedProcessOptions where
  tailBytes := 16 * 1024
  maxOutputBytes := 64
  readsLines := true

/-- Two lines, cut inside the second and with a message in between. -/
theorem outputLines_iff_sample :
    (runBoundedProcess lineOptions false
        ([.stdout (encode "ok\nye".toList), .stderr [0xC3], .stdout (encode "s".toList)] ++
          [.close (some 0) none])).lines = textLines "ok\nyes".toList := by
  have hfits : IsAscii "ok\nyes".toList ∧
      ∀ line ∈ textLines "ok\nyes".toList, utf16Length line ≤ maxLineBytes := by
    constructor
    · decide +kernel
    · intro line hmem
      have hline : line = "ok".toList ∨ line = "yes".toList := by
        have hlines : textLines "ok\nyes".toList = ["ok".toList, "yes".toList] := by decide +kernel
        rw [hlines] at hmem
        simpa using hmem
      rcases hline with rfl | rfl
      · decide +kernel
      · decide +kernel
  exact (outputLines_iff rfl "ok\nyes".toList).mpr hfits _ _ _ (by decide) (by decide +kernel)

/-- One character in two chunks. -/
theorem outputLines_split_character :
    ∃ events : List ProcessEvent, (stdoutChunks events).flatten = encode ['é'] ∧
      (runBoundedProcess lineOptions false (events ++ [.close (some 0) none])).lines ≠
        textLines ['é'] := by
  refine ⟨[.stdout [0xC3], .stdout [0xA9]], by decide +kernel, ?_⟩
  have hlines : (runBoundedProcess lineOptions false
      ([.stdout [0xC3], .stdout [0xA9]] ++ [.close (some 0) none])).lines =
        [[replacement, replacement]] := by decide +kernel
  have htext : textLines ['é'] = [['é']] := by decide +kernel
  rw [hlines, htext]
  decide

end Orchestrator
