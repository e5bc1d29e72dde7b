import Orchestrator.Execution.Stages.StageSupport
import Orchestrator.Kit.Utf16

/-! # Delivery support

The classification of delivery errors, external operations under a durable intent
record, and the Linear writes of the delivery stages (`delivery/delivery-support.ts`).
-/

namespace Orchestrator

open Kit TaskState

structure DeliveryConfig where
  pollIntervalSeconds : Nat := 120
  retryIntervalSeconds : Nat := 300
  requiredChecksTimeoutMinutes : Nat := 180
  draftPullRequests : Bool := false
  linearComments : Bool := true
  deriving DecidableEq, Repr

/-- The values that comments are identified by. -/
inductive CommentIdentity
  | heads (heads : Heads)
  | commits (commits : List String)
  | message (message : String)
  deriving DecidableEq, Repr

/-- `DeliveryDependencies`; `digest` is the hash of the stable JSON. -/
structure DeliveryDependencies extends StageDependencies where
  delivery : DeliveryConfig := {}
  digest : CommentIdentity → String

/-! ## Errors -/

def StageError.message : StageError → String
  | .leaseOwnership taskId => s!"Task {taskId} is leased by another worker"
  | .workspaceBlocked message => message
  | .remoteUnavailable message => message
  | .gitHub _ _ _ message => message
  | .linearSync message => message
  | .deliveryRejected message => message
  | .other message => message

def manualDeliveryIntervention (message : String)
    (reason : String := "Delivery requires manual intervention") : StageOutcome :=
  manualIntervention message reason

/-- The time of the next attempt: the provider's hint, if it lies in the future. -/
def retryAt (deps : DeliveryDependencies) (hint : Option Instant) : StageProc Instant := do
  let now ← service .clock
  let fallback := now + deps.delivery.retryIntervalSeconds * 1000
  match hint with
  | none => pure fallback
  | some hint => do
      let later ← service .clock
      pure (if later < hint then hint else fallback)

/-- Maps delivery errors to stage outcomes; unknown errors are rethrown. -/
def classifyDeliveryError (deps : DeliveryDependencies) (failure : StageError) :
    StageProc (StageOutcome × FailureCategory) := do
  let message := deps.redactSecrets failure.message
  let wait (hint : Option Instant) (reason : String) (category : FailureCategory) :
      StageProc (StageOutcome × FailureCategory) := do
    let untilTime ← retryAt deps hint
    pure (.wait { untilTime, reason, lastError := some (some message) }, category)
  match failure with
  | .gitHub .transient _ retryAfter _ => wait retryAfter "GitHub unavailable" .providerUnavailable
  | .gitHub .rateLimit _ retryAfter _ => wait retryAfter "GitHub rate limit" .rateLimit
  | .gitHub _ _ _ _ =>
      pure (manualDeliveryIntervention message "GitHub rejected a delivery request",
        .providerRejected)
  | .remoteUnavailable _ => wait none "Git remote unavailable" .providerUnavailable
  | .linearSync _ => wait none "Linear unavailable" .linearUnavailable
  | .workspaceBlocked _ => pure (manualDeliveryIntervention message, .workspaceIntegrity)
  | _ => .throw failure

/-! ## External operations -/

/-- Runs an external side effect under a durable intent record. `effect` is told whether the
record is new; a succeeded record returns its stored response, as `repeated`. -/
def idempotentOperation (task : Task) (operationType : ExternalOperationType) (key : String)
    (effect : Bool → StageProc OperationResponse) :
    StageProc (Option OperationResponse × Bool) := do
  let (before, created) ← database (.beginExternalOperation operationType key)
  if before.taskId ≠ task.id then
    .throw (.workspaceBlocked s!"External operation {key} belongs to another task")
  else
    match before.status with
    | .succeeded => pure (before.response, true)
    | .pending => do
        let response ← effect created
        let _ ← database (.completeExternalOperation before.id response)
        pure (some response, false)

/-! ## Text -/

/-- `@` before a word character, and `#` before a digit, get a zero-width space. -/
def neutralize : List Char → List Char
  | [] => []
  | [character] => [character]
  | character :: next :: text =>
      let wordLike := next.isAlphanum || next = '_' || next = '-'
      if (character = '@' && wordLike) || (character = '#' && next.isDigit) then
        character :: '\u200b' :: neutralize (next :: text)
      else character :: neutralize (next :: text)

/-- Text from issues and model output, as it is shown on GitHub or Linear. -/
def untrustedText (deps : DeliveryDependencies) (value : String) (limit : Nat) : String :=
  let redacted := deps.stripControl (deps.redactSecrets value)
  let cleaned := trimText (String.ofList (neutralize redacted.toList))
  if limit < utf16Length cleaned.toList then
    utf16Slice limit cleaned ++ "…"
  else cleaned

def shortSha (sha : String) : String := utf16Slice 12 sha

/-! ## Linear writes -/

/-- A failed Linear call is retried later. -/
def linearCall {α : Type} (operation : String) (body : StageProc α) : StageProc α :=
  body.tryCatch fun failure =>
    .throw (.linearSync s!"Linear {operation} failed: {failure.message}")

structure LinearCommentInput where
  event : String
  identity : CommentIdentity
  body : String

/-- The identity of a milestone comment. -/
def commentKey (deps : DeliveryDependencies) (task : Task) (input : LinearCommentInput) : String :=
  s!"kelolakelas-orchestrator:{task.id}:{input.event}:{deps.digest input.identity}"

/-- The body with the key in it. -/
def commentBody (key body : String) : String :=
  body ++ "\n\n<sub>Orchestrator event `" ++ key ++ "`. The orchestrator never merges and " ++
    "never changes this issue's status.</sub>"

/-- The comment that an earlier run may have posted: its record was there already. -/
def existingComment (issueId key : String) (created : Bool) : StageProc (Option LinearComment) :=
  if created then pure none
  else do
    let comments ← service (.listComments issueId)
    pure (comments.find? fun comment => includes comment.body key)

/-- The effect of a milestone comment. -/
def postComment (issueId key body : String) (created : Bool) : StageProc OperationResponse :=
  linearCall "comment" do
    match ← existingComment issueId key created with
    | some comment => pure (.comment comment.id true)
    | none => do
        let id ← service (.createComment issueId body)
        pure (.comment id false)

/-- Posts a milestone comment at most once. -/
def syncLinearComment (deps : DeliveryDependencies) (task : Task) (input : LinearCommentInput) :
    StageProc Unit :=
  if !deps.delivery.linearComments then pure ()
  else do
    let key := commentKey deps task input
    let _ ← idempotentOperation task .linearComment key
      (postComment task.linearIssueId key (commentBody key input.body))
    pure ()

structure PullRequestLink where
  repository : String
  github : String
  number : Nat
  url : String

/-- Links a pull request to the Linear issue; a repeated call updates in place. -/
def syncLinearPullRequestLink (task : Task) (link : PullRequestLink) : StageProc Unit := do
  let key :=
    s!"kelolakelas-orchestrator:{task.id}:linear-attachment:{link.repository}:{link.number}"
  let title := s!"Pull request #{link.number} · {link.github}"
  let subtitle :=
    s!"{task.linearIdentifier} · {link.repository} · KelolaKelas AI orchestrator"
  let _ ← idempotentOperation task .linearAttachment key fun _ =>
    linearCall "attachment" do
      let id ← service (.attachLink task.linearIssueId link.url title subtitle)
      pure (.attachment id)
  pure ()

/-- A notification that never prevents a task from blocking. -/
def notifyLinearBestEffort (deps : DeliveryDependencies) (task : Task)
    (input : LinearCommentInput) : StageProc Unit :=
  (syncLinearComment deps task input).tryCatch fun _ => pure ()

/-! ## A sample -/

def sampleDelivery : DeliveryDependencies where
  config :=
    { timezone := "UTC"
      models := { tiers := [], analyzer := ⟨"strong", .high⟩, reviewer := ⟨"strong", .high⟩ } }
  commitAuthor := ⟨"Orchestrator", "orchestrator@localhost"⟩
  registry := [⟨"web", "acme/web", "origin", "main"⟩]
  contractDigest issue := issue.draftKey
  digest _ := ""

end Orchestrator
