import Orchestrator.Execution.DiffPolicy
import Orchestrator.Kit.Rewrite
import Orchestrator.Kit.Utf16

/-! # Redaction

Known secrets, and what the credential patterns match, are replaced by a marker before a
text is logged, persisted or published (`redactSecrets` of `execution/secrets.ts`). A
pattern is known by what its replacement does: it replaces segments of the text.
-/

namespace Orchestrator

open Kit

/-- `[REDACTED]`. -/
def redactedMarker : Marker Char := ⟨'[', "REDACTED".toList, ']'⟩

/-- The replacement of all matches of a credential pattern. -/
structure RedactionRule where
  replace : String → String
  segments : ∀ text : String,
    Replaced redactedMarker.text text.toList (replace text).toList

/-- `redacted.split(secret).join('[REDACTED]')`. -/
def redactSecret (redacted secret : String) : String :=
  String.ofList (replaceWord secret.toList redactedMarker.text redacted.toList)

/-- Longer values first, so that a secret that contains another is replaced whole. -/
def longestFirst (knownSecrets : List String) : List String :=
  knownSecrets.insertionSort fun left right =>
    utf16Length right.toList ≤ utf16Length left.toList

def redactSecrets (rules : List RedactionRule) (text : String) (knownSecrets : List String) :
    String :=
  let redacted := (longestFirst knownSecrets).foldl redactSecret text
  rules.foldl (fun redacted rule => rule.replace redacted) redacted

/-! ## Secrets that the marker keeps apart -/

/-- The marker has no part in the secret. -/
structure Redactable (secret : String) : Prop where
  nonempty : secret ≠ ""
  opening : '[' ∉ secret.toList
  closing : ']' ∉ secret.toList
  inner : includes "REDACTED" secret = false

theorem Redactable.separates {secret : String} (h : Redactable secret) :
    redactedMarker.Separates secret.toList where
  nonempty := by
    intro hnil
    exact h.nonempty (String.toList_eq_nil_iff.mp hnil)
  opening := h.opening
  closing := h.closing
  inner := includes_eq_false_iff.mp h.inner

/-- A text in which segments were replaced has no secret that the text does not have. -/
theorem Redactable.of_replaced {secret : String} (h : Redactable secret) {text outcome : List Char}
    (hreplaced : Replaced redactedMarker.text text outcome)
    (hgone : ¬ secret.toList <:+: text) : ¬ secret.toList <:+: outcome := by
  intro hoccurs
  exact hgone (hreplaced.occurs h.separates hoccurs)

theorem replaced_redactSecret (redacted secret : String) :
    Replaced redactedMarker.text redacted.toList (redactSecret redacted secret).toList := by
  unfold redactSecret
  rw [String.toList_ofList]
  exact replaced_replaceWord _ _ _

/-- What is gone stays gone, whatever is replaced afterwards. -/
theorem Redactable.not_infix_foldl {secret : String} (h : Redactable secret) (others : List String)
    {text : String} (hgone : ¬ secret.toList <:+: text.toList) :
    ¬ secret.toList <:+: (others.foldl redactSecret text).toList := by
  induction others generalizing text with
  | nil => exact hgone
  | cons other others ih => exact ih (h.of_replaced (replaced_redactSecret text other) hgone)

theorem Redactable.not_infix_rules {secret : String} (h : Redactable secret)
    (rules : List RedactionRule) {text : String} (hgone : ¬ secret.toList <:+: text.toList) :
    ¬ secret.toList <:+: (rules.foldl (fun redacted rule => rule.replace redacted) text).toList := by
  induction rules generalizing text with
  | nil => exact hgone
  | cons rule rules ih => exact ih (h.of_replaced (rule.segments text) hgone)

/-- A secret is gone once its turn has come. -/
theorem Redactable.not_infix_of_mem {secret : String} (h : Redactable secret)
    {secrets : List String} (hmem : secret ∈ secrets) (text : String) :
    ¬ secret.toList <:+: (secrets.foldl redactSecret text).toList := by
  induction secrets generalizing text with
  | nil => cases hmem
  | cons first secrets ih =>
      rcases List.mem_cons.mp hmem with rfl | hrest
      · have hgone : ¬ secret.toList <:+: (redactSecret text secret).toList := by
          unfold redactSecret
          rw [String.toList_ofList]
          exact not_infix_replaceWord h.separates text.toList
        exact h.not_infix_foldl secrets hgone
      · exact ih hrest _

theorem Redactable.not_infix_redactSecrets {secret : String} (h : Redactable secret)
    {knownSecrets : List String} (hmem : secret ∈ knownSecrets) (rules : List RedactionRule)
    (text : String) : ¬ secret.toList <:+: (redactSecrets rules text knownSecrets).toList := by
  unfold redactSecrets
  apply h.not_infix_rules
  apply h.not_infix_of_mem
  unfold longestFirst
  exact (List.mem_insertionSort _).mpr hmem

/-- No known secret is left in a redacted text, so that no line of it is reported for one. -/
theorem redactSecrets_hides {knownSecrets : List String}
    (hsecrets : ∀ secret ∈ knownSecrets, Redactable secret) (rules : List RedactionRule)
    (secretRules : List SecretRule) (text : String) :
    (∀ secret ∈ knownSecrets, includes (redactSecrets rules text knownSecrets) secret = false) ∧
      detectSecrets secretRules (redactSecrets rules text knownSecrets) knownSecrets =
        (secretRules.filter (·.test (redactSecrets rules text knownSecrets))).map (·.rule) := by
  have hgone : ∀ secret ∈ knownSecrets,
      includes (redactSecrets rules text knownSecrets) secret = false := by
    intro secret hmem
    exact includes_eq_false_iff.mpr ((hsecrets secret hmem).not_infix_redactSecrets hmem rules text)
  refine ⟨hgone, ?_⟩
  unfold detectSecrets
  have hnone : knownSecrets.any (includes (redactSecrets rules text knownSecrets)) = false := by
    rw [List.any_eq_false]
    intro secret hmem
    rw [hgone secret hmem]
    exact Bool.false_ne_true
  rw [hnone, if_neg Bool.false_ne_true, List.append_nil]

/-- A rule that finds nothing. -/
def idleRule : RedactionRule where
  replace text := text
  segments text := .refl _ text.toList

/-- One secret contains the other. -/
def sampleSecrets : List String := ["postgres-9", "admin:postgres-9"]

theorem redactable_sampleSecrets : ∀ secret ∈ sampleSecrets, Redactable secret := by
  intro secret hmem
  rcases List.mem_cons.mp hmem with rfl | hrest
  · constructor <;> decide
  · rcases List.mem_singleton.mp hrest with rfl
    constructor <;> decide

theorem redactSecrets_hides_sample :
    includes (redactSecrets [idleRule] "as admin:postgres-9" sampleSecrets) "postgres-9" = false :=
  (redactSecrets_hides redactable_sampleSecrets [idleRule] [] "as admin:postgres-9").1 "postgres-9"
    List.mem_cons_self

end Orchestrator
