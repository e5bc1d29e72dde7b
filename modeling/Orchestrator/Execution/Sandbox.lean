import Orchestrator.Execution.ChildEnvironment
import Orchestrator.Kit.PosixPath

/-! # The command sandbox

The bubblewrap command line that `BubblewrapSandbox.wrap` builds, what it mounts, and who may
write where (`execution/sandbox.ts`). A mount covers everything below its destination that was
mounted before, so the last one over a path decides; the groups of mounts come in the order of
their precedence.
-/

namespace Orchestrator

open Kit

structure SandboxRequest where
  executable : String
  args : List String
  cwd : String
  writablePaths : List String
  readOnlyPaths : List String
  network : Bool
  deriving DecidableEq, Repr

structure SandboxedCommand where
  executable : String
  args : List String
  environment : List (String × String)
  deriving DecidableEq, Repr

/-- What `wrap` asks the host: whether a path exists, and where a symbolic link points to. -/
structure HostFiles where
  present : String → Bool
  symbolicLink : String → Option String

/-- Top-level directories that distributions often make symbolic links into `/usr`. -/
def mirroredRootEntries : List String := ["/bin", "/sbin", "/lib", "/lib32", "/lib64", "/libx32"]

def mirroredEntry (host : HostFiles) (entry : String) : List String :=
  match host.symbolicLink entry with
  | some link => ["--symlink", link, entry]
  | none => if host.present entry then ["--ro-bind", entry, entry] else []

/-- The options in front of the mirrored entries. -/
def leadingArguments (request : SandboxRequest) : List String :=
  ["--unshare-user", "--unshare-pid", "--unshare-ipc", "--unshare-uts", "--unshare-cgroup-try"] ++
  (if request.network then [] else ["--unshare-net"]) ++
  ["--die-with-parent", "--new-session",
    "--proc", "/proc", "--dev", "/dev", "--tmpfs", "/tmp", "--dir", sandboxHome]

/-- The options behind the masks, and the command. -/
def trailingArguments (request : SandboxRequest) : List String :=
  ["--chdir", request.cwd, "--setenv", "HOME", sandboxHome, "--setenv", "TMPDIR", "/tmp", "--",
    request.executable] ++ request.args

/-- `BubblewrapSandbox.wrap`. Writable mounts come after read-only ones; masks come last. -/
def bubblewrap (config : SandboxConfig) (host : HostFiles) (request : SandboxRequest) :
    SandboxedCommand :=
  ⟨config.executable,
    leadingArguments request ++
    mirroredRootEntries.flatMap (mirroredEntry host) ++
    (config.readOnlyPaths ++ request.readOnlyPaths).flatMap (fun path =>
      ["--ro-bind-try", path, path]) ++
    (config.writablePaths ++ request.writablePaths).flatMap (fun path => ["--bind", path, path]) ++
    (config.maskedPaths.filter host.present).flatMap (fun path => ["--tmpfs", path]) ++
    trailingArguments request,
    SandboxKind.bubblewrap.environment⟩

/-- `createSandbox(config).wrap(request)`. -/
def wrap (config : SandboxConfig) (host : HostFiles) (request : SandboxRequest) :
    SandboxedCommand :=
  match config.kind with
  | .none => ⟨request.executable, request.args, SandboxKind.none.environment⟩
  | .bubblewrap => bubblewrap config host request

/-! ## Mounts -/

/-- What a process sees at a path. -/
inductive Access
  | hostWritable | hostReadOnly
  /-- A private directory that is empty at first. -/
  | privateEmpty
  /-- The private `/proc` and `/dev`. -/
  | kernel
  | absent
  deriving DecidableEq, Repr

structure Mount where
  destination : String
  access : Access
  deriving DecidableEq, Repr

/-- The number of values that an option of bubblewrap takes. -/
def optionValues (option : String) : Nat :=
  if ["--symlink", "--ro-bind", "--ro-bind-try", "--bind", "--setenv"].contains option then 2
  else if ["--proc", "--dev", "--tmpfs", "--dir", "--chdir"].contains option then 1
  else 0

/-- What an option mounts. The source of `--ro-bind-try` is taken to exist; a symbolic link
mounts nothing. -/
def mountOf (option : String) (values : List String) : List Mount :=
  match values with
  | [_, destination] =>
      if option = "--bind" then [⟨destination, .hostWritable⟩]
      else if option = "--ro-bind" ∨ option = "--ro-bind-try" then [⟨destination, .hostReadOnly⟩]
      else []
  | [destination] =>
      if option = "--tmpfs" ∨ option = "--dir" then [⟨destination, .privateEmpty⟩]
      else if option = "--proc" ∨ option = "--dev" then [⟨destination, .kernel⟩]
      else []
  | _ => []

/-- The mounts of a bubblewrap command line, in their order. -/
def readMounts : List String → List Mount
  | [] => []
  | option :: args =>
      if option = "--" then []
      else mountOf option (args.take (optionValues option)) ++
        readMounts (args.drop (optionValues option))
  termination_by args => args.length
  decreasing_by
    simp only [List.length_drop, List.length_cons]
    omega

/-- `path` is `ancestor` or lies below it. -/
def isUnder (path ancestor : String) : Bool :=
  (PosixPath.segments ancestor.toList).isPrefixOf (PosixPath.segments path.toList)

/-- The last mount over a path decides. -/
def accessOf (mounts : List Mount) (path : String) : Access :=
  (((mounts.filter fun mount => isUnder path mount.destination).getLast?).map (·.access)).getD
    .absent

/-- `path` is one of the paths or lies below one. -/
def UnderSome (paths : List String) (path : String) : Prop :=
  ∃ ancestor ∈ paths, isUnder path ancestor = true

/-! ## Reading the command line back -/

theorem readMounts_option {option : String} (hoption : option ≠ "--") {values : List String}
    (hvalues : values.length = optionValues option) (rest : List String) :
    readMounts (option :: (values ++ rest)) = mountOf option values ++ readMounts rest := by
  rw [readMounts, if_neg hoption, ← hvalues, List.take_left, List.drop_left]

theorem readMounts_end (rest : List String) : readMounts ("--" :: rest) = [] := by
  rw [readMounts, if_pos rfl]

theorem readMounts_flag {option : String} (hoption : option ≠ "--")
    (hvalues : optionValues option = 0) (rest : List String) :
    readMounts (option :: rest) = readMounts rest := by
  have h := @readMounts_option option hoption [] hvalues.symm rest
  rwa [List.nil_append, show mountOf option [] = [] from rfl, List.nil_append] at h

/-- One option for each of a list of paths. -/
theorem readMounts_flatMap {option : String} (hoption : option ≠ "--")
    {values : String → List String} (hvalues : ∀ path, (values path).length = optionValues option)
    (paths rest : List String) :
    readMounts (paths.flatMap (fun path => option :: values path) ++ rest) =
      paths.flatMap (fun path => mountOf option (values path)) ++ readMounts rest := by
  induction paths with
  | nil => rfl
  | cons path paths ih =>
      have hfirst := readMounts_option hoption (hvalues path)
        (paths.flatMap (fun path => option :: values path) ++ rest)
      rw [List.flatMap_cons, List.flatMap_cons, List.append_assoc, List.append_assoc, ← ih,
        List.cons_append]
      exact hfirst

/-- The private mounts that every command gets. -/
def privateMounts : List Mount :=
  [⟨"/proc", .kernel⟩, ⟨"/dev", .kernel⟩, ⟨"/tmp", .privateEmpty⟩, ⟨sandboxHome, .privateEmpty⟩]

theorem readMounts_leading (request : SandboxRequest) (rest : List String) :
    readMounts (leadingArguments request ++ rest) = privateMounts ++ readMounts rest := by
  have hvalue : ∀ option value more, option ≠ "--" → optionValues option = 1 →
      readMounts (option :: value :: more) = mountOf option [value] ++ readMounts more := by
    intro option value more hoption hvalues
    exact @readMounts_option option hoption [value] hvalues.symm more
  have hmounts : readMounts ("--die-with-parent" :: "--new-session" :: "--proc" :: "/proc" ::
      "--dev" :: "/dev" :: "--tmpfs" :: "/tmp" :: "--dir" :: sandboxHome :: rest) =
      privateMounts ++ readMounts rest := by
    rw [readMounts_flag (by decide) (by decide), readMounts_flag (by decide) (by decide),
      hvalue "--proc" _ _ (by decide) (by decide), hvalue "--dev" _ _ (by decide) (by decide),
      hvalue "--tmpfs" _ _ (by decide) (by decide), hvalue "--dir" _ _ (by decide) (by decide)]
    rfl
  unfold leadingArguments
  cases request.network with
  | true =>
      simp only [if_true, List.append_nil, List.cons_append, List.nil_append]
      rw [readMounts_flag (by decide) (by decide), readMounts_flag (by decide) (by decide),
        readMounts_flag (by decide) (by decide), readMounts_flag (by decide) (by decide),
        readMounts_flag (by decide) (by decide)]
      exact hmounts
  | false =>
      simp only [Bool.false_eq_true, if_false, List.cons_append, List.nil_append]
      rw [readMounts_flag (by decide) (by decide), readMounts_flag (by decide) (by decide),
        readMounts_flag (by decide) (by decide), readMounts_flag (by decide) (by decide),
        readMounts_flag (by decide) (by decide), readMounts_flag (by decide) (by decide)]
      exact hmounts

theorem readMounts_trailing (request : SandboxRequest) :
    readMounts (trailingArguments request) = [] := by
  unfold trailingArguments
  have hchdir := @readMounts_option "--chdir" (by decide) [request.cwd]
    (show 1 = optionValues "--chdir" by decide)
    (["--setenv", "HOME", sandboxHome, "--setenv", "TMPDIR", "/tmp", "--", request.executable] ++
      request.args)
  have hhome := @readMounts_option "--setenv" (by decide) ["HOME", sandboxHome] (by decide)
    (["--setenv", "TMPDIR", "/tmp", "--", request.executable] ++ request.args)
  have htmpdir := @readMounts_option "--setenv" (by decide) ["TMPDIR", "/tmp"] (by decide)
    (["--", request.executable] ++ request.args)
  calc readMounts (["--chdir", request.cwd, "--setenv", "HOME", sandboxHome, "--setenv", "TMPDIR",
          "/tmp", "--", request.executable] ++ request.args)
      = readMounts (["--setenv", "HOME", sandboxHome, "--setenv", "TMPDIR", "/tmp", "--",
          request.executable] ++ request.args) := hchdir
    _ = readMounts (["--setenv", "TMPDIR", "/tmp", "--", request.executable] ++ request.args) :=
        hhome
    _ = readMounts (["--", request.executable] ++ request.args) := htmpdir
    _ = [] := readMounts_end _

/-- The entries that are mounted and not linked. -/
def boundEntries (host : HostFiles) : List String :=
  mirroredRootEntries.filter fun entry => (host.symbolicLink entry).isNone && host.present entry

theorem readMounts_mirrored (host : HostFiles) (entries rest : List String) :
    readMounts (entries.flatMap (mirroredEntry host) ++ rest) =
      ((entries.filter fun entry => (host.symbolicLink entry).isNone && host.present entry).map
        fun entry => ⟨entry, .hostReadOnly⟩) ++ readMounts rest := by
  induction entries with
  | nil => rfl
  | cons entry entries ih =>
      rw [List.flatMap_cons, List.append_assoc]
      unfold mirroredEntry
      cases hlink : host.symbolicLink entry with
      | some link =>
          have hfirst := @readMounts_option "--symlink" (by decide) [link, entry]
            (show 2 = optionValues "--symlink" by decide)
            (entries.flatMap (mirroredEntry host) ++ rest)
          rw [List.filter_cons_of_neg (by simp [hlink]), ← ih]
          exact hfirst
      | none =>
          by_cases hpresent : host.present entry = true
          · have hfirst := @readMounts_option "--ro-bind" (by decide) [entry, entry]
              (show 2 = optionValues "--ro-bind" by decide)
              (entries.flatMap (mirroredEntry host) ++ rest)
            rw [List.filter_cons_of_pos (by simp [hlink, hpresent]), List.map_cons,
              List.cons_append, ← ih]
            simp only [hpresent, if_true]
            exact hfirst
          · rw [List.filter_cons_of_neg (by simp [hlink, hpresent]), ← ih]
            simp only [hpresent, Bool.false_eq_true, if_false, List.nil_append]
            rfl

/-- What the command line mounts, group by group. -/
theorem readMounts_bubblewrap (config : SandboxConfig) (host : HostFiles)
    (request : SandboxRequest) :
    readMounts (bubblewrap config host request).args =
      privateMounts ++
      (boundEntries host).map (fun path => ⟨path, .hostReadOnly⟩) ++
      (config.readOnlyPaths ++ request.readOnlyPaths).map (fun path => ⟨path, .hostReadOnly⟩) ++
      (config.writablePaths ++ request.writablePaths).map (fun path => ⟨path, .hostWritable⟩) ++
      (config.maskedPaths.filter host.present).map (fun path => ⟨path, .privateEmpty⟩) := by
  have hreadOnly := @readMounts_flatMap "--ro-bind-try" (by decide) (fun path => [path, path])
    (fun _ => show 2 = optionValues "--ro-bind-try" by decide)
    (config.readOnlyPaths ++ request.readOnlyPaths)
  have hwritable := @readMounts_flatMap "--bind" (by decide) (fun path => [path, path])
    (fun _ => show 2 = optionValues "--bind" by decide)
    (config.writablePaths ++ request.writablePaths)
  have hmasked := @readMounts_flatMap "--tmpfs" (by decide) (fun path => [path])
    (fun _ => show 1 = optionValues "--tmpfs" by decide) (config.maskedPaths.filter host.present)
  have htry : ∀ path, mountOf "--ro-bind-try" [path, path] = [⟨path, .hostReadOnly⟩] :=
    fun _ => rfl
  have hbind : ∀ path, mountOf "--bind" [path, path] = [⟨path, .hostWritable⟩] := fun _ => rfl
  have htmpfs : ∀ path, mountOf "--tmpfs" [path] = [⟨path, .privateEmpty⟩] := fun _ => rfl
  simp only [htry, hbind, htmpfs] at hreadOnly hwritable hmasked
  unfold bubblewrap boundEntries
  simp only [List.append_assoc]
  rw [readMounts_leading, readMounts_mirrored, hreadOnly, hwritable, hmasked,
    readMounts_trailing, List.append_nil]
  simp only [List.map_eq_flatMap]

/-! ## The last mount over a path -/

theorem accessOf_eq (mounts : List Mount) (path : String) :
    accessOf mounts path = .absent ∨ ∃ mount ∈ mounts, accessOf mounts path = mount.access := by
  unfold accessOf
  cases hlast : (mounts.filter fun mount => isUnder path mount.destination).getLast? with
  | none => exact Or.inl rfl
  | some mount =>
      have hmem := List.mem_of_getLast? hlast
      exact Or.inr ⟨mount, (List.mem_filter.mp hmem).1, rfl⟩

/-- A group of mounts of one kind decides for what is under one of them. -/
theorem accessOf_append_under (before : List Mount) {paths : List String} (access : Access)
    {path : String} (h : UnderSome paths path) :
    accessOf (before ++ paths.map fun path => ⟨path, access⟩) path = access := by
  rcases h with ⟨ancestor, hancestor, hunder⟩
  unfold accessOf
  rw [List.filter_append, List.getLast?_append]
  cases hlast : ((paths.map fun path => (⟨path, access⟩ : Mount)).filter fun mount =>
      isUnder path mount.destination).getLast? with
  | none =>
      have hnone := List.getLast?_eq_none_iff.mp hlast
      have hmem : (⟨ancestor, access⟩ : Mount) ∈ (paths.map fun path => (⟨path, access⟩ : Mount)).filter
          fun mount => isUnder path mount.destination :=
        List.mem_filter.mpr ⟨List.mem_map_of_mem hancestor, hunder⟩
      rw [hnone] at hmem
      exact absurd hmem List.not_mem_nil
  | some mount =>
      have hmem := (List.mem_filter.mp (List.mem_of_getLast? hlast)).1
      rcases List.mem_map.mp hmem with ⟨_, _, rfl⟩
      rfl

theorem accessOf_append_not_under (before : List Mount) {paths : List String} (access : Access)
    {path : String} (h : ¬ UnderSome paths path) :
    accessOf (before ++ paths.map fun path => ⟨path, access⟩) path = accessOf before path := by
  have hnone : ((paths.map fun path => (⟨path, access⟩ : Mount)).filter fun mount =>
      isUnder path mount.destination) = [] := by
    rw [List.filter_eq_nil_iff]
    intro mount hmem hunder
    rcases List.mem_map.mp hmem with ⟨ancestor, hancestor, rfl⟩
    exact h ⟨ancestor, hancestor, hunder⟩
  unfold accessOf
  rw [List.filter_append, hnone, List.append_nil]

/-- Nothing of the host is behind the private mounts. -/
theorem accessOf_privateMounts (path : String) :
    accessOf privateMounts path ≠ .hostWritable ∧ accessOf privateMounts path ≠ .hostReadOnly := by
  rcases accessOf_eq privateMounts path with habsent | ⟨mount, hmem, haccess⟩
  · rw [habsent]
    exact ⟨nofun, nofun⟩
  · have hprivate : mount.access = .kernel ∨ mount.access = .privateEmpty := by
      simp only [privateMounts, List.mem_cons, List.not_mem_nil, or_false] at hmem
      rcases hmem with rfl | rfl | rfl | rfl
      · exact Or.inl rfl
      · exact Or.inl rfl
      · exact Or.inr rfl
      · exact Or.inr rfl
    rw [haccess]
    rcases hprivate with heq | heq
    · rw [heq]
      exact ⟨nofun, nofun⟩
    · rw [heq]
      exact ⟨nofun, nofun⟩

/-! ## Who may write where -/

section Access

variable (config : SandboxConfig) (host : HostFiles) (request : SandboxRequest) (path : String)

/-- What the sandboxed command sees at `path`. -/
def sandboxAccess : Access := accessOf (readMounts (bubblewrap config host request).args) path

/-- `path` is under a mask of a path that exists on the host. -/
def Masked : Prop := UnderSome (config.maskedPaths.filter host.present) path

def Writable : Prop := UnderSome (config.writablePaths ++ request.writablePaths) path

def ReadOnly : Prop :=
  UnderSome (config.readOnlyPaths ++ request.readOnlyPaths) path ∨ UnderSome (boundEntries host) path

variable {config host request path}

theorem sandboxAccess_masked (h : Masked config host path) :
    sandboxAccess config host request path = .privateEmpty := by
  unfold sandboxAccess
  rw [readMounts_bubblewrap, accessOf_append_under _ _ h]

theorem sandboxAccess_writable (hmask : ¬ Masked config host path)
    (h : Writable config request path) :
    sandboxAccess config host request path = .hostWritable := by
  unfold sandboxAccess
  rw [readMounts_bubblewrap, accessOf_append_not_under _ _ hmask, accessOf_append_under _ _ h]

theorem sandboxAccess_readOnly (hmask : ¬ Masked config host path)
    (hwritable : ¬ Writable config request path) (h : ReadOnly config host request path) :
    sandboxAccess config host request path = .hostReadOnly := by
  unfold sandboxAccess
  rw [readMounts_bubblewrap, accessOf_append_not_under _ _ hmask,
    accessOf_append_not_under _ _ hwritable]
  by_cases hpath : UnderSome (config.readOnlyPaths ++ request.readOnlyPaths) path
  · rw [accessOf_append_under _ _ hpath]
  · rw [accessOf_append_not_under _ _ hpath]
    rcases h with hread | hbound
    · exact absurd hread hpath
    · rw [accessOf_append_under _ _ hbound]

theorem sandboxAccess_private (hmask : ¬ Masked config host path)
    (hwritable : ¬ Writable config request path) (h : ¬ ReadOnly config host request path) :
    sandboxAccess config host request path ≠ .hostWritable ∧
      sandboxAccess config host request path ≠ .hostReadOnly := by
  unfold sandboxAccess
  rw [readMounts_bubblewrap, accessOf_append_not_under _ _ hmask,
    accessOf_append_not_under _ _ hwritable,
    accessOf_append_not_under _ _ (fun hread => h (Or.inl hread)),
    accessOf_append_not_under _ _ (fun hbound => h (Or.inr hbound))]
  exact accessOf_privateMounts path

end Access

/-- Masks win over writable paths, and those over read-only ones, however they nest; nothing
else shows the host. -/
theorem sandboxAccess_precedence (config : SandboxConfig) (host : HostFiles)
    (request : SandboxRequest) (path : String) :
    (sandboxAccess config host request path = .hostWritable ↔
      Writable config request path ∧ ¬ Masked config host path) ∧
    (sandboxAccess config host request path = .hostReadOnly ↔
      ReadOnly config host request path ∧ ¬ Writable config request path ∧
        ¬ Masked config host path) ∧
    (Masked config host path → sandboxAccess config host request path = .privateEmpty) := by
  by_cases hmask : Masked config host path
  · have hempty : sandboxAccess config host request path = .privateEmpty :=
      sandboxAccess_masked hmask
    simp [hempty, hmask]
  · by_cases hwritable : Writable config request path
    · simp [sandboxAccess_writable hmask hwritable, hwritable, hmask]
    · by_cases hread : ReadOnly config host request path
      · simp [sandboxAccess_readOnly hmask hwritable hread, hwritable, hread, hmask]
      · have hprivate := sandboxAccess_private hmask hwritable hread
        simp [hprivate.1, hprivate.2, hwritable, hread, hmask]

/-- The default mask covers the configuration, also where the request asks to write. -/
theorem sandboxAccess_precedence_sample :
    sandboxAccess {} ⟨fun _ => true, fun _ => none⟩
      ⟨"/bin/true", [], "/etc", ["/etc"], ["/"], false⟩ "/etc/ai-orchestrator/config.yaml" =
        .privateEmpty :=
  (sandboxAccess_precedence {} ⟨fun _ => true, fun _ => none⟩
    ⟨"/bin/true", [], "/etc", ["/etc"], ["/"], false⟩ "/etc/ai-orchestrator/config.yaml").2.2
    ⟨"/etc/ai-orchestrator", List.mem_cons_self, by decide +kernel⟩

/-! ## Agent runs -/

/-- What `CliAdapter.run` asks for: the scratch directory is writable in both modes, the task
directory only in a writing stage. -/
def cliSandboxRequest (executable : String) (args : List String) (writing : Bool)
    (taskDirectory directory : String) : SandboxRequest where
  executable := executable
  args := args
  cwd := taskDirectory
  writablePaths := if writing then [taskDirectory, directory] else [directory]
  readOnlyPaths := if writing then [] else [taskDirectory]
  network := true

section CliRun

variable {config : SandboxConfig} {host : HostFiles} {executable : String} {args : List String}
  {taskDirectory directory path : String}

/-- A writing stage writes the whole task directory but for what is masked. -/
theorem cliSandboxRequest_writing (hmask : ¬ Masked config host path)
    (h : isUnder path taskDirectory = true) :
    sandboxAccess config host (cliSandboxRequest executable args true taskDirectory directory)
      path = .hostWritable := by
  apply sandboxAccess_writable hmask
  refine ⟨taskDirectory, ?_, h⟩
  exact List.mem_append_right _ List.mem_cons_self

/-- A reading stage reads it, and writes there only below its scratch directory or where the
operator lets every command write. -/
theorem cliSandboxRequest_reading (hmask : ¬ Masked config host path)
    (h : isUnder path taskDirectory = true) (hscratch : isUnder path directory = false)
    (hoperator : ¬ UnderSome config.writablePaths path) :
    sandboxAccess config host (cliSandboxRequest executable args false taskDirectory directory)
      path = .hostReadOnly := by
  apply sandboxAccess_readOnly hmask
  · intro hwritable
    rcases hwritable with ⟨ancestor, hmem, hunder⟩
    rcases List.mem_append.mp hmem with hconfigured | hrequested
    · exact hoperator ⟨ancestor, hconfigured, hunder⟩
    · have hsame : ancestor = directory := List.mem_singleton.mp hrequested
      rw [hsame, hscratch] at hunder
      exact Bool.false_ne_true hunder
  · left
    exact ⟨taskDirectory, List.mem_append_right _ List.mem_cons_self, h⟩

end CliRun

end Orchestrator
