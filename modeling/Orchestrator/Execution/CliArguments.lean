import Mathlib.Data.List.TakeWhile
import Orchestrator.Execution.ProviderRegistry
import Orchestrator.Kit.Rewrite

/-! # The command line of a declared client

The arguments and the standard input of one run of a `cli` provider (`arguments` and `run` of
`execution/adapters/cli.ts`). The template is checked by the configuration, with two scanners
of its own, and filled in by a third one.
-/

namespace Orchestrator

open Kit

/-- The model of a request as its type declares it: a string, which every tier with an entry of
its own has. -/
structure RequestedModel where
  provider : String
  tier : String
  model : String
  effort : Effort

/-- What a run reads of its request; `resultSchema` is the strict JSON schema as a text. -/
structure CliRequest where
  model : RequestedModel
  taskDirectory : String
  prompt : String
  resultSchema : String

structure CliFiles where
  schema : String
  result : String

/-- What stands for the placeholders; the map may have no name for an effort. -/
def substitutions (effort : List (Effort × String)) (request : CliRequest) (files : CliFiles) :
    List (String × Option String) :=
  [("\x7bmodel\x7d", some request.model.model),
    ("\x7beffort\x7d", effort.lookup request.model.effort),
    ("\x7bschema\x7d", some request.resultSchema),
    ("\x7bschemaFile\x7d", some files.schema),
    ("\x7bresultFile\x7d", some files.result),
    ("\x7btaskDirectory\x7d", some request.taskDirectory),
    ("\x7bprompt\x7d", some request.prompt)]

/-- `substitutions[placeholder] ?? placeholder`. -/
def substitution (values : List (String × Option String)) (placeholder : String) : String :=
  ((values.lookup placeholder).bind id).getD placeholder

/-- A match of `/\{[a-zA-Z][a-zA-Z0-9]*\}/`, and what replaces it. -/
def placeholderRule (values : List (String × Option String)) : Rule Char
  | '\x7b' :: rest =>
      (placeholderAfterBrace rest).map fun placeholder =>
        (placeholder.toList.length, (substitution values placeholder).toList)
  | _ => none

/-- `argument.replace(…)`. -/
def substituteIn (values : List (String × Option String)) (argument : String) : String :=
  String.ofList (rewrite (placeholderRule values) 0 argument.toList)

/-- `CliAdapter.arguments`. -/
def cliArguments (transport : CliTransport) (effort : List (Effort × String))
    (request : CliRequest) (files : CliFiles) : List String :=
  transport.args.map (substituteIn (substitutions effort request files))

/-- What `CliAdapter.run` writes to the standard input. -/
def cliStdin (transport : CliTransport) (request : CliRequest) : String :=
  if transport.prompt = .stdin then request.prompt else ""

/-! ## Placeholders -/

/-- A placeholder is a name in braces. -/
theorem placeholderAfterBrace_spec {rest : List Char} {placeholder : String}
    (h : placeholderAfterBrace rest = some placeholder) :
    ∃ name after, placeholder.toList = '\x7b' :: name ++ ['\x7d'] ∧
      rest = name ++ '\x7d' :: after ∧ '\x7b' ∉ name := by
  unfold placeholderAfterBrace at h
  dsimp only at h
  split at h
  · next first others after hname hafter =>
      split_ifs at h
      rcases Option.some.inj h with rfl
      refine ⟨rest.takeWhile isAsciiAlphanumeric, after, ?_, ?_, ?_⟩
      · rw [String.toList_ofList]
      · rw [← hafter]
        exact (List.prefix_iff_eq_append.mp (List.takeWhile_prefix isAsciiAlphanumeric)).symm
      · intro hmem
        have halnum := List.mem_takeWhile_imp hmem
        exact absurd halnum (by decide)
  · cases h

/-- No placeholder begins within a text without braces. -/
theorem placeholdersIn_append {word : List Char} (hword : '\x7b' ∉ word) (rest : List Char) :
    placeholdersIn (word ++ rest) = placeholdersIn rest := by
  induction word with
  | nil => rfl
  | cons character word ih =>
      have hbrace : character ≠ '\x7b' := by
        rintro rfl
        exact hword List.mem_cons_self
      rw [List.cons_append, placeholdersIn, if_neg hbrace, List.nil_append]
      exact ih fun hmem => hword (List.mem_cons_of_mem _ hmem)

/-- The scan finds a placeholder and goes on behind it. -/
theorem placeholdersIn_placeholder {rest : List Char} {placeholder : String}
    (h : placeholderAfterBrace rest = some placeholder) :
    ∃ after, '\x7b' :: rest = placeholder.toList ++ after ∧
      placeholdersIn ('\x7b' :: rest) = placeholder :: placeholdersIn after := by
  rcases placeholderAfterBrace_spec h with ⟨name, after, hplaceholder, rfl, hname⟩
  refine ⟨after, ?_, ?_⟩
  · rw [hplaceholder]
    simp
  · have hclosing : '\x7b' ∉ name ++ ['\x7d'] := by
      intro hmem
      rcases List.mem_append.mp hmem with hmem | hmem
      · exact hname hmem
      · exact absurd (List.mem_singleton.mp hmem) (by decide)
    have hbehind := placeholdersIn_append hclosing after
    rw [List.append_assoc, List.singleton_append] at hbehind
    rw [placeholdersIn, if_pos rfl, h, hbehind]
    rfl

theorem infix_of_mem_placeholdersIn {text : List Char} {placeholder : String}
    (h : placeholder ∈ placeholdersIn text) : placeholder.toList <:+: text := by
  induction text with
  | nil => cases h
  | cons character text ih =>
      rcases List.mem_append.mp h with hhere | hrest
      · split_ifs at hhere with hbrace
        · have hfound : placeholderAfterBrace text = some placeholder := by
            simpa using hhere
          rcases placeholdersIn_placeholder hfound with ⟨after, htext, _⟩
          rw [hbrace, htext]
          exact (List.prefix_append _ _).isInfix
        · cases hhere
      · exact (ih hrest).trans (List.suffix_cons character text).isInfix

/-- What is found behind a part of the text is found in the text. -/
theorem mem_placeholdersIn_append {text : List Char} {placeholder : String} (before : List Char)
    (h : placeholder ∈ placeholdersIn text) : placeholder ∈ placeholdersIn (before ++ text) := by
  induction before with
  | nil => exact h
  | cons character before ih => exact List.mem_append_right _ ih

/-- The scanner of placeholders finds the prompt exactly if the text includes it. -/
theorem mem_cliPlaceholdersIn_prompt {argument : String} :
    "\x7bprompt\x7d" ∈ cliPlaceholdersIn argument ↔ includes argument "\x7bprompt\x7d" = true := by
  rw [includes_iff]
  constructor
  · exact infix_of_mem_placeholdersIn
  · rintro ⟨before, after, htext⟩
    unfold cliPlaceholdersIn
    rw [← htext, List.append_assoc]
    apply mem_placeholdersIn_append
    have hword : "\x7bprompt\x7d".toList = '\x7b' :: "prompt\x7d".toList := by decide
    have hfound : placeholderAfterBrace ("prompt\x7d".toList ++ after) =
        some "\x7bprompt\x7d" := rfl
    rw [hword, List.cons_append, placeholdersIn, if_pos rfl, hfound]
    exact List.mem_append_left _ (List.mem_singleton_self _)

/-- A word without blanks is included in the joined arguments exactly if it is in one. -/
theorem includes_intercalate {args : List String} {word : String} (hblank : ' ' ∉ word.toList)
    (hne : word.toList ≠ []) :
    includes (" ".intercalate args) word = true ↔
      ∃ argument ∈ args, includes argument word = true := by
  simp only [includes_iff]
  induction args with
  | nil =>
      constructor
      · intro hnil
        exact absurd (List.infix_nil.mp hnil) hne
      · rintro ⟨_, hmem, _⟩
        cases hmem
  | cons argument args ih =>
      cases args with
      | nil => simp
      | cons next args =>
          have hjoined : (" ".intercalate (argument :: next :: args)).toList =
              argument.toList ++ ' ' :: (" ".intercalate (next :: args)).toList := by
            rw [String.intercalate_cons_cons]
            simp
          rw [hjoined, List.exists_mem_cons_iff, ← ih]
          constructor
          · exact infix_append_cons hblank
          · rintro (hhere | hrest)
            · exact hhere.trans (List.prefix_append _ _).isInfix
            · exact hrest.trans ((List.suffix_cons ' ' _).trans (List.suffix_append _ _)).isInfix

/-! ## What an accepted transport says -/

theorem argumentFindings_eq_nil {path : List PathItem} {index : Nat} {arguments : List String}
    (h : argumentFindings path index arguments = []) :
    ∀ argument ∈ arguments, ∀ placeholder ∈ cliPlaceholdersIn argument,
      placeholder ∈ cliPlaceholders := by
  induction arguments generalizing index with
  | nil =>
      intro argument hmem
      cases hmem
  | cons first arguments ih =>
      rcases List.append_eq_nil_iff.mp h with ⟨hfirst, hrest⟩
      intro argument hmem placeholder hplaceholder
      rcases List.mem_cons.mp hmem with rfl | hmem
      · have hknown := List.filter_eq_nil_iff.mp (List.map_eq_nil_iff.mp hfirst) placeholder
          hplaceholder
        simpa using hknown
      · exact ih hrest argument hmem placeholder hplaceholder

/-- The template has known placeholders only, and the prompt exactly if it is an argument. -/
structure SoundTransport (transport : CliTransport) : Prop where
  known : ∀ argument ∈ transport.args, ∀ placeholder ∈ cliPlaceholdersIn argument,
    placeholder ∈ cliPlaceholders
  prompt : transport.prompt = .argument ↔
    ∃ argument ∈ transport.args, "\x7bprompt\x7d" ∈ cliPlaceholdersIn argument

theorem soundTransport_of_findings {path : List PathItem} {transport : CliTransport}
    (h : transportFindings path transport = []) : SoundTransport transport := by
  unfold transportFindings at h
  dsimp only at h
  simp only [List.append_eq_nil_iff, issueIf_eq_nil_iff] at h
  obtain ⟨⟨⟨⟨harguments, hargument⟩, hstdin⟩, _⟩, _⟩ := h
  refine ⟨argumentFindings_eq_nil harguments, ?_⟩
  have hjoined : includes (" ".intercalate transport.args) "\x7bprompt\x7d" = true ↔
      ∃ argument ∈ transport.args, "\x7bprompt\x7d" ∈ cliPlaceholdersIn argument := by
    simp only [mem_cliPlaceholdersIn_prompt]
    exact includes_intercalate (by decide) (by decide)
  rw [← hjoined]
  cases hprompt : transport.prompt with
  | stdin => simpa [hprompt] using hstdin
  | argument => simpa [hprompt] using hargument

/-- The command line of a provider that the configuration declares is a sound one. -/
theorem AcceptedConfig.soundTransport {validZone : String → Bool} {config : OrchestratorConfig}
    (haccepted : AcceptedConfig validZone config) {aliasName : String} {provider : ModelProvider}
    (hprovider : (aliasName, provider) ∈ config.models.providers) (hkind : provider.kind = "cli")
    {transport : CliTransport} (htransport : provider.cli = some transport) :
    SoundTransport transport := by
  have hfindings : providerFindings (aliasName, provider) = [] := by
    simp only [AcceptedConfig, configFindings, List.append_eq_nil_iff] at haccepted
    obtain ⟨⟨⟨⟨⟨_, hproviders⟩, _⟩, _⟩, _⟩, _⟩ := haccepted
    exact List.flatMap_eq_nil_iff.mp hproviders _ hprovider
  have hknown : isAdapterKind "cli" = true := hkind ▸ (providerFindings_eq_nil hfindings).1
  unfold providerFindings at hfindings
  simp only [hkind, htransport] at hfindings
  exact soundTransport_of_findings (by simpa [hknown] using hfindings)

/-! ## The template filled in -/

/-- A placeholder with the text before it, and what stands for it. -/
structure Piece where
  text : List Char
  placeholder : String
  value : String

def Piece.template (piece : Piece) : List Char := piece.text ++ piece.placeholder.toList

def Piece.filled (piece : Piece) : List Char := piece.text ++ piece.value.toList

/-- The argument is the template with every placeholder of it replaced by its value, all at
once. -/
def Filled (values : List (String × Option String)) (template argument : String) : Prop :=
  ∃ (pieces : List Piece) (rest : List Char),
    template.toList = pieces.flatMap Piece.template ++ rest ∧
    argument.toList = pieces.flatMap Piece.filled ++ rest ∧
    pieces.map (·.placeholder) = cliPlaceholdersIn template ∧
    ∀ piece ∈ pieces, piece.placeholder ∈ cliPlaceholders ∧
      values.lookup piece.placeholder = some (some piece.value)

/-- A match of the pattern is a placeholder, which the scan finds. -/
theorem placeholderRule_some {values : List (String × Option String)} {text replacement : List Char}
    {length : Nat} (h : placeholderRule values text = some (length, replacement)) :
    ∃ placeholder after, text = placeholder.toList ++ after ∧ length = placeholder.toList.length ∧
      replacement = (substitution values placeholder).toList ∧
      placeholdersIn text = placeholder :: placeholdersIn after := by
  unfold placeholderRule at h
  split at h
  · next rest =>
      rcases Option.map_eq_some_iff.mp h with ⟨placeholder, hfound, hsame⟩
      rcases Prod.mk.inj hsame with ⟨rfl, rfl⟩
      rcases placeholdersIn_placeholder hfound with ⟨after, htext, hscan⟩
      exact ⟨placeholder, after, htext, rfl, rfl, hscan⟩
  · cases h

theorem placeholderRule_none {values : List (String × Option String)} {character : Char}
    {text : List Char} (h : placeholderRule values (character :: text) = none) :
    placeholdersIn (character :: text) = placeholdersIn text := by
  rw [placeholdersIn]
  split_ifs with hbrace
  · rw [hbrace] at h
    have hnone : placeholderAfterBrace text = none := Option.map_eq_none_iff.mp h
    rw [hnone]
    rfl
  · rfl

theorem consumes_placeholderRule (values : List (String × Option String)) :
    Consumes (placeholderRule values) := by
  intro text length replacement h
  unfold placeholderRule at h
  split at h
  · rcases Option.map_eq_some_iff.mp h with ⟨placeholder, hfound, hsame⟩
    rcases Prod.mk.inj hsame with ⟨rfl, _⟩
    rcases placeholderAfterBrace_spec hfound with ⟨name, _, hplaceholder, _, _⟩
    rw [hplaceholder]
    exact Nat.succ_pos _
  · cases h

/-- Every value is there. -/
def HasValues (values : List (String × Option String)) (text : List Char) : Prop :=
  ∀ placeholder ∈ placeholdersIn text, placeholder ∈ cliPlaceholders ∧
    ∃ value, values.lookup placeholder = some (some value)

theorem filled_of_rewritten {values : List (String × Option String)} {text outcome : List Char}
    (h : Rewritten (placeholderRule values) text outcome) (hvalues : HasValues values text) :
    ∃ (pieces : List Piece) (rest : List Char), text = pieces.flatMap Piece.template ++ rest ∧
      outcome = pieces.flatMap Piece.filled ++ rest ∧
      pieces.map (·.placeholder) = placeholdersIn text ∧
      ∀ piece ∈ pieces, piece.placeholder ∈ cliPlaceholders ∧
        values.lookup piece.placeholder = some (some piece.value) := by
  induction h with
  | nil =>
      refine ⟨[], [], rfl, rfl, rfl, ?_⟩
      intro piece hmem
      cases hmem
  | @keep character text outcome hrule _ ih =>
      have hscan := placeholderRule_none hrule
      unfold HasValues at hvalues
      rw [hscan] at hvalues
      rcases ih hvalues with ⟨pieces, rest, htext, houtcome, hplaceholders, hall⟩
      cases pieces with
      | nil =>
          refine ⟨[], character :: rest, ?_, ?_, ?_, hall⟩
          · rw [htext]
            rfl
          · rw [houtcome]
            rfl
          · rw [hscan]
            exact hplaceholders
      | cons piece pieces =>
          -- The character belongs to the text before the first placeholder.
          refine ⟨{ piece with text := character :: piece.text } :: pieces, rest, ?_, ?_, ?_, ?_⟩
          · rw [htext]
            rfl
          · rw [houtcome]
            rfl
          · rw [hscan]
            exact hplaceholders
          · intro other hmem
            rcases List.mem_cons.mp hmem with rfl | hmem
            · exact hall piece List.mem_cons_self
            · exact hall other (List.mem_cons_of_mem _ hmem)
  | @replace text rest outcome replacement length _ hrule hrest _ ih =>
      rcases placeholderRule_some hrule with ⟨placeholder, after, rfl, rfl, rfl, hscan⟩
      rw [List.drop_left] at hrest
      rcases hrest with rfl
      unfold HasValues at hvalues
      rw [hscan] at hvalues
      rcases hvalues placeholder List.mem_cons_self with ⟨hknown, value, hvalue⟩
      rcases ih fun other hmem => hvalues other (List.mem_cons_of_mem _ hmem) with
        ⟨pieces, rest, htext, houtcome, hplaceholders, hall⟩
      have hsubstitution : substitution values placeholder = value := by
        unfold substitution
        rw [hvalue]
        rfl
      refine ⟨⟨[], placeholder, value⟩ :: pieces, rest, ?_, ?_, ?_, ?_⟩
      · rw [htext, List.flatMap_cons, List.append_assoc]
        rfl
      · rw [hsubstitution, houtcome, List.flatMap_cons, List.append_assoc]
        rfl
      · rw [hscan, List.map_cons, hplaceholders]
      · intro piece hmem
        rcases List.mem_cons.mp hmem with rfl | hmem
        · exact ⟨hknown, hvalue⟩
        · exact hall piece hmem

/-- The argument that the code makes is the template filled in. -/
theorem filled_substituteIn {values : List (String × Option String)} {template : String}
    (hvalues : HasValues values template.toList) :
    Filled values template (substituteIn values template) := by
  unfold Filled substituteIn
  rw [String.toList_ofList]
  exact filled_of_rewritten (rewritten_rewrite (consumes_placeholderRule values) _) hvalues

/-- The adapter of a provider has the command line of the provider, and a name for every
effort. -/
theorem createAdapter_eq_cli {provider : ResolvedProvider} {process : RunnerProcess}
    {effort : List (Effort × String)} {transport : CliTransport}
    (h : createAdapter provider = .ok (.cli process effort transport)) :
    provider.kind = "cli" ∧ provider.cli = some transport ∧
      ∀ level, ∃ name, effort.lookup level = some name := by
  unfold createAdapter at h
  dsimp only at h
  split_ifs at h with hcodex hcli
  · cases h
  · split at h
    · cases h
    · next declared hdeclared =>
        have hcapabilities : adapterCapabilitiesOf "cli" = .ok ⟨.none, true, []⟩ := rfl
        rw [hcapabilities] at h
        cases h
        refine ⟨hcli, hdeclared, ?_⟩
        intro level
        cases level with
        | low => exact ⟨_, rfl⟩
        | medium => exact ⟨_, rfl⟩
        | high => exact ⟨_, rfl⟩
        | max => exact ⟨_, rfl⟩

/-- Every known placeholder has a value. -/
theorem exists_value {effort : List (Effort × String)}
    (heffort : ∀ level, ∃ name, effort.lookup level = some name) (request : CliRequest)
    (files : CliFiles) {placeholder : String} (h : placeholder ∈ cliPlaceholders) :
    ∃ value, (substitutions effort request files).lookup placeholder = some (some value) := by
  rcases heffort request.model.effort with ⟨name, hname⟩
  unfold substitutions
  rw [hname]
  simp only [cliPlaceholders, List.mem_cons, List.not_mem_nil, or_false] at h
  rcases h with rfl | rfl | rfl | rfl | rfl | rfl | rfl
  · exact ⟨_, rfl⟩
  · exact ⟨_, rfl⟩
  · exact ⟨_, rfl⟩
  · exact ⟨_, rfl⟩
  · exact ⟨_, rfl⟩
  · exact ⟨_, rfl⟩
  · exact ⟨_, rfl⟩

/-- The prompt goes to the client one way only. -/
def OneChannel (transport : CliTransport) (request : CliRequest) : Prop :=
  (transport.prompt = .stdin ∧ cliStdin transport request = request.prompt ∧
      ∀ argument ∈ transport.args, "\x7bprompt\x7d" ∉ cliPlaceholdersIn argument) ∨
    (transport.prompt = .argument ∧ cliStdin transport request = "" ∧
      ∃ argument ∈ transport.args, "\x7bprompt\x7d" ∈ cliPlaceholdersIn argument)

theorem SoundTransport.oneChannel {transport : CliTransport} (h : SoundTransport transport)
    (request : CliRequest) : OneChannel transport request := by
  cases hprompt : transport.prompt with
  | stdin =>
      refine Or.inl ⟨hprompt, if_pos hprompt, ?_⟩
      intro argument hmem hfound
      have hargument := h.prompt.mpr ⟨argument, hmem, hfound⟩
      rw [hprompt] at hargument
      cases hargument
  | argument =>
      refine Or.inr ⟨hprompt, if_neg ?_, h.prompt.mp hprompt⟩
      rw [hprompt]
      decide

/-- A client that is given the prompt within an argument. -/
def promptTransport : CliTransport where
  args := ["--schema", "\x7bschema\x7d", "--prompt=\x7b\x7bprompt\x7d\x7d"]
  prompt := .argument

def promptProvider : ModelProvider :=
  { kind := "cli", executable := "/usr/bin/client", cli := some promptTransport }

def promptConfig : OrchestratorConfig :=
  { clientConfig .none with
    models := { (clientConfig .none).models with providers := [("client", promptProvider)] } }

/-- The prompt looks like a placeholder itself. -/
def promptRequest : CliRequest :=
  { model := ⟨"client", "terra", "medium", .high⟩, taskDirectory := "/task",
    prompt := "\x7bmodel\x7d $&", resultSchema := "\x7b\x7d" }

example : cliArguments promptTransport [] promptRequest ⟨"/s.json", "/r.json"⟩ =
    ["--schema", "\x7b\x7d", "--prompt=\x7b\x7bmodel\x7d $&\x7d"] := by decide +kernel

end Orchestrator
