import Orchestrator.Intake.DiscoverLinearIssues
import Orchestrator.Providers.GitHub

/-! # Lists from Linear

The loops of `listIssues` and `listComments` with the retries of `execute`, request by request
(`providers/linear.ts`). Only the answers end them: a server that always names a following page
keeps them asking.
-/

namespace Orchestrator

/-! ## Answers -/

/-- `pageInfo.endCursor`; a malformed answer may leave it out. -/
inductive EndCursor
  | missing
  | null
  | text (cursor : String)
  deriving DecidableEq, Repr

/-- What one request comes to. `failed` is what `execute` tries again: no answer in time, an HTTP
error, no JSON, or errors of the query. `broken` is an answer whose nodes or page information
cannot be read. -/
inductive LinearReply (α : Type)
  | failed (message : String)
  | noConnection
  | broken (message : String)
  | page (nodes : List α) (hasNextPage : Bool) (endCursor : EndCursor)

/-- An issue as Linear answers it. -/
structure IssueNode where
  id : String
  identifier : String
  description : Option String
  branchName : Option String
  createdAt : String
  stateType : Option String
  labels : Option (List String)
  blockedBy : Option (List String)
  projectDescription : Option String

def IssueNode.issue (node : IssueNode) : LinearIssue where
  id := node.id
  identifier := node.identifier
  description := node.description.getD ""
  branchName := node.branchName
  createdAt := node.createdAt
  stateType := node.stateType.getD "unknown"
  labels := node.labels.getD []
  blockedByIdentifiers := node.blockedBy.getD []
  projectDescription := node.projectDescription

/-- A comment; its body counts if it is a text. -/
structure CommentNode where
  id : String
  body : Option String

def CommentNode.comment (node : CommentNode) : LinearComment := ⟨node.id, node.body.getD ""⟩

/-! ## The loop -/

/-- Where the loop stands before a request: `attempt` requests for this page have failed. -/
inductive Listing (β : Type)
  | running (collected : List β) (after : EndCursor) (attempt : Nat)
  | returned (collected : List β)
  | threw (message : String)

def Listing.isRunning {β : Type} : Listing β → Bool
  | .running _ _ _ => true
  | _ => false

section Loop

variable {α β : Type} (maxRetries : Nat) (noConnection : String) (convert : α → β)

/-- One request and what follows from its answer. -/
def listingStep (reply : LinearReply α) : Listing β → Listing β
  | .running collected after attempt =>
      match reply with
      | .failed message =>
          if attempt < maxRetries then .running collected after (attempt + 1) else .threw message
      | .noConnection => .threw noConnection
      | .broken message => .threw message
      | .page nodes hasNextPage endCursor =>
          let collected := collected ++ nodes.map convert
          let after := if hasNextPage then endCursor else .null
          if after = .null then .returned collected else .running collected after 0
  | stopped => stopped

/-- The loop after the first `requests` answers. -/
def listing (replies : Nat → LinearReply α) : Nat → Listing β
  | 0 => .running [] .null 0
  | requests + 1 =>
      listingStep maxRetries noConnection convert (replies requests) (listing replies requests)

end Loop

/-- `listIssues`, after some answers. -/
def listIssues (maxRetries : Nat) (replies : Nat → LinearReply IssueNode) :
    Nat → Listing LinearIssue :=
  listing maxRetries "Linear response did not contain issues" IssueNode.issue replies

/-- `listComments`, after some answers. -/
def listComments (maxRetries : Nat) (replies : Nat → LinearReply CommentNode) :
    Nat → Listing LinearComment :=
  listing maxRetries "Linear response did not contain issue comments" CommentNode.comment replies

/-- The loop makes finitely many requests. -/
def Stops {β : Type} (listing : Nat → Listing β) : Prop :=
  ∃ requests, (listing requests).isRunning = false

/-! ## Answers that end it -/

namespace LinearReply

variable {α : Type}

def IsFailed (reply : LinearReply α) : Prop := ∃ message, reply = .failed message

/-- An answer that names a following page, be it the same one again. -/
def LeadsOn (reply : LinearReply α) : Prop :=
  ∃ nodes endCursor, reply = .page nodes true endCursor ∧ endCursor ≠ .null

/-- The last page, or an answer that cannot be read. -/
def IsFinal (reply : LinearReply α) : Prop := ¬ reply.IsFailed ∧ ¬ reply.LeadsOn

end LinearReply

/-- Some answer is final, or one request fails as often as it is tried. -/
def EndsSomewhere {α : Type} (maxRetries : Nat) (replies : Nat → LinearReply α) : Prop :=
  (∃ request, (replies request).IsFinal) ∨
    ∃ request, ∀ retry ≤ maxRetries, (replies (request + retry)).IsFailed

section Termination

variable {α β : Type} {maxRetries : Nat} {noConnection : String} {convert : α → β}
  {replies : Nat → LinearReply α}

theorem listingStep_failed (message : String) (collected : List β) (after : EndCursor)
    (attempt : Nat) :
    listingStep maxRetries noConnection convert (.failed message)
        (.running collected after attempt) =
      if attempt < maxRetries then .running collected after (attempt + 1) else .threw message :=
  rfl

/-- A page that leads on starts the next one with all its attempts. -/
theorem listingStep_leadsOn {reply : LinearReply α} (h : reply.LeadsOn) (collected : List β)
    (after : EndCursor) (attempt : Nat) :
    ∃ more next, listingStep maxRetries noConnection convert reply
      (.running collected after attempt) = .running more next 0 := by
  rcases h with ⟨nodes, endCursor, rfl, hcursor⟩
  refine ⟨collected ++ nodes.map convert, endCursor, ?_⟩
  simp [listingStep, hcursor]

theorem listingStep_final {reply : LinearReply α} (h : reply.IsFinal) (state : Listing β) :
    (listingStep maxRetries noConnection convert reply state).isRunning = false := by
  cases state with
  | returned collected => rfl
  | threw message => rfl
  | running collected after attempt =>
      cases reply with
      | failed message => exact absurd ⟨message, rfl⟩ h.1
      | noConnection => rfl
      | broken message => rfl
      | page nodes hasNextPage endCursor =>
          have hlast : (if hasNextPage then endCursor else EndCursor.null) = .null := by
            cases hasNextPage with
            | false => rfl
            | true =>
                by_cases hcursor : endCursor = .null
                · simp [hcursor]
                · exact absurd ⟨nodes, endCursor, rfl, hcursor⟩ h.2
          simp only [listingStep, hlast, if_true]
          rfl

/-- While every request so far was answered by a page that leads on or tried again, the loop is
running, and its attempts are the failures at the end. -/
theorem listing_running (h : ¬ EndsSomewhere maxRetries replies) (requests : Nat) :
    ∃ collected after attempt, listing maxRetries noConnection convert replies requests =
        .running collected after attempt ∧ attempt ≤ maxRetries ∧ attempt ≤ requests ∧
      ∀ request, requests - attempt ≤ request → request < requests →
        (replies request).IsFailed := by
  induction requests with
  | zero =>
      exact ⟨[], .null, 0, rfl, Nat.zero_le _, le_refl 0,
        fun _ _ hlt => absurd hlt (Nat.not_lt_zero _)⟩
  | succ requests ih =>
      rcases ih with ⟨collected, after, attempt, hstate, hbound, hcount, hfailures⟩
      have hnext : listing maxRetries noConnection convert replies (requests + 1) =
          listingStep maxRetries noConnection convert (replies requests)
            (.running collected after attempt) := by
        rw [← hstate]
        rfl
      by_cases hfailed : (replies requests).IsFailed
      · rcases hfailed with ⟨message, hreply⟩
        have hall : ∀ request, requests - attempt ≤ request → request < requests + 1 →
            (replies request).IsFailed := by
          intro request hlow hhigh
          rcases Nat.lt_succ_iff_lt_or_eq.mp hhigh with hlt | heq
          · exact hfailures request hlow hlt
          · rw [heq]
            exact ⟨message, hreply⟩
        -- With no attempt left the failures would be as many in a row as end the loop.
        have hroom : attempt < maxRetries := by
          by_contra hfull
          have hsame : attempt = maxRetries := by omega
          apply h
          right
          refine ⟨requests - attempt, ?_⟩
          intro retry hretry
          apply hall
          · omega
          · omega
        refine ⟨collected, after, attempt + 1, ?_, hroom, by omega, ?_⟩
        · rw [hnext, hreply, listingStep_failed, if_pos hroom]
        · intro request hlow hhigh
          apply hall request
          · omega
          · exact hhigh
      -- The reply leads on, and the attempts start again at 0.
      · have hleads : (replies requests).LeadsOn := by
          by_contra hlast
          exact h (Or.inl ⟨requests, hfailed, hlast⟩)
        rcases @listingStep_leadsOn _ _ maxRetries noConnection convert _ hleads collected after
          attempt with ⟨more, next, hstep⟩
        refine ⟨more, next, 0, by rw [hnext, hstep], Nat.zero_le _, Nat.zero_le _, ?_⟩
        intro request hlow hhigh
        exact absurd hhigh (by omega)

/-- Failures in a row use up the attempts of one page. -/
theorem listing_retries {request : Nat}
    (h : ∀ retry ≤ maxRetries, (replies (request + retry)).IsFailed) {failures : Nat}
    (hfailures : failures ≤ maxRetries + 1) :
    (listing maxRetries noConnection convert replies (request + failures)).isRunning = false ∨
      ∃ collected after attempt, listing maxRetries noConnection convert replies
        (request + failures) = .running collected after attempt ∧ failures ≤ attempt ∧
          (failures = 0 ∨ attempt ≤ maxRetries) := by
  induction failures with
  | zero =>
      cases hstate : listing maxRetries noConnection convert replies (request + 0) with
      | running collected after attempt =>
          exact Or.inr ⟨collected, after, attempt, rfl, Nat.zero_le _, Or.inl rfl⟩
      | returned collected => exact Or.inl rfl
      | threw message => exact Or.inl rfl
  | succ failures ih =>
      have hnext : listing maxRetries noConnection convert replies (request + (failures + 1)) =
          listingStep maxRetries noConnection convert (replies (request + failures))
            (listing maxRetries noConnection convert replies (request + failures)) := rfl
      rcases h failures (by omega) with ⟨message, hreply⟩
      rw [hnext, hreply]
      rcases ih (by omega) with hstopped | ⟨collected, after, attempt, hstate, hcount, _⟩
      · left
        cases hstate : listing maxRetries noConnection convert replies (request + failures) with
        | running collected after attempt =>
            rw [hstate] at hstopped
            cases hstopped
        | returned collected => rfl
        | threw message => rfl
      · rw [hstate, listingStep_failed]
        by_cases hroom : attempt < maxRetries
        · rw [if_pos hroom]
          exact Or.inr ⟨collected, after, attempt + 1, rfl, by omega, Or.inr (by omega)⟩
        · rw [if_neg hroom]
          exact Or.inl rfl

theorem stops_iff :
    Stops (listing maxRetries noConnection convert replies) ↔ EndsSomewhere maxRetries replies := by
  constructor
  · intro hstops
    by_contra hnever
    rcases hstops with ⟨requests, hstopped⟩
    rcases @listing_running _ _ _ noConnection convert _ hnever requests with
      ⟨collected, after, attempt, hstate, _⟩
    rw [hstate] at hstopped
    cases hstopped
  · intro hends
    rcases hends with ⟨request, hfinal⟩ | ⟨request, hfailed⟩
    · exact ⟨request + 1, listingStep_final hfinal _⟩
    · have hlast := @listing_retries _ _ _ noConnection convert _ _ hfailed _
        (le_refl (maxRetries + 1))
      rcases hlast with hstopped | ⟨_, _, attempt, _, hcount, hbound⟩
      · exact ⟨_, hstopped⟩
      · omega

end Termination

/-- The two loops stop exactly on the answers that end them; nothing of their own does. -/
theorem linearListings_stop (maxRetries : Nat) (issues : Nat → LinearReply IssueNode)
    (comments : Nat → LinearReply CommentNode) :
    (Stops (listIssues maxRetries issues) ↔ EndsSomewhere maxRetries issues) ∧
      (Stops (listComments maxRetries comments) ↔ EndsSomewhere maxRetries comments) :=
  ⟨stops_iff, stops_iff⟩

/-- A server that answers with the same cursor again and again. -/
theorem linearListings_endless :
    ¬ Stops (listIssues 2 fun _ => .page [] true (.text "cursor")) ∧
      ¬ Stops (listComments 2 fun _ => .page [] true (.text "cursor")) := by
  have hleads : ∀ {α : Type}, (LinearReply.page ([] : List α) true (.text "cursor")).LeadsOn :=
    ⟨[], .text "cursor", rfl, by decide⟩
  have hnever : ∀ {α : Type}, ¬ EndsSomewhere 2 fun _ : Nat =>
      LinearReply.page ([] : List α) true (.text "cursor") := by
    intro α hends
    rcases hends with ⟨_, hfinal⟩ | ⟨_, hfailed⟩
    · exact hfinal.2 hleads
    · rcases hfailed 0 (Nat.zero_le 2) with ⟨message, heq⟩
      cases heq
  exact ⟨fun hstops => hnever (stops_iff.mp hstops), fun hstops => hnever (stops_iff.mp hstops)⟩

end Orchestrator
