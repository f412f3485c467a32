import Pallium.Core.Substitution
import Pallium.Relay.View

/-!
# Redaction of payloads

`redact_sensitive` as the sequence of its substitutions.  The compiled patterns
are given by what they match, and the replacers' judgements of a match by their
verdicts.  No substitution removes a text altogether or writes a character that
a rendered payload must not have.
-/

namespace Pallium.Relay

open Pallium.Substitution Pallium.Text

/-- A character that `_render_safe` accepts. -/
def renderChar (c : Char) : Bool :=
  !((isControl c && !(c == '\n' || c == '\r' || c == '\t')) || isSeparator c)

/-- A character that `_single_line_render_safe` accepts. -/
def singleLineChar (c : Char) : Bool := !(isControl c || isSeparator c)

theorem renderSafe_iff {value : String} : renderSafe value ↔ Allows renderChar value := by
  rw [renderSafe, List.not_any_eq_all_not]
  rfl

theorem singleLineRenderSafe_iff {value : String} :
    singleLineRenderSafe value ↔ Allows singleLineChar value := by
  rw [singleLineRenderSafe, List.not_any_eq_all_not]
  rfl

theorem singleLineChar_of_isDigit {c : Char} (hdigit : c.isDigit) : singleLineChar c := by
  obtain ⟨hlow, hhigh⟩ := Char.isDigit_iff_toNat.mp hdigit
  change 48 ≤ c.toNat at hlow
  change c.toNat ≤ 57 at hhigh
  simp only [singleLineChar, isControl, isSeparator, Bool.not_eq_true', Bool.or_eq_false_iff,
    decide_eq_false_iff_not, Bool.and_eq_false_iff, beq_eq_false_iff_ne]
  omega

theorem renderChar_of_singleLineChar {c : Char} (hsafe : singleLineChar c) : renderChar c := by
  simp only [singleLineChar, Bool.not_eq_true', Bool.or_eq_false_iff] at hsafe
  simp [renderChar, hsafe.1, hsafe.2]

/-- The compiled patterns of the redaction and the verdicts of its replacers. -/
structure Redaction where
  privateKeyBlock : Pattern
  sensitiveHeader : Pattern
  bearer : Pattern
  apiKeyHeader : Pattern
  envVarSecret : Pattern
  envVarYamlSecret : Pattern
  connectionString : Pattern
  basicAuthUrl : Pattern
  anthropicKey : Pattern
  openaiProjKey : Pattern
  openaiGenericKey : Pattern
  githubToken : Pattern
  slackTokenStrict : Pattern
  slackTokenFallback : Pattern
  awsKeyId : Pattern
  jwt : Pattern
  tierBToken : Pattern
  /-- Whether the right-hand side of an assignment is kept, as a placeholder, code or prose. -/
  keepsAssignment : String → Match → Bool
  /-- Whether a token of the text is a probable secret next to a cue. -/
  probableSecret : String → Match → Bool

namespace Redaction

variable (redaction : Redaction)

def envVarSecretReplacer (separator : String) (found : Match) : String :=
  if redaction.keepsAssignment separator found then found.text
  else if separator = ":" then found.group 1 ++ separator ++ " [REDACTED]"
  else found.group 1 ++ separator ++ "[REDACTED]"

def tierBMaxInputLen : ℕ := 1000000

def redactProbableSecrets (text : String) : String :=
  if tierBMaxInputLen < text.length then text
  else redaction.tierBToken.sub (fun found =>
    if redaction.probableSecret text found then
      "[REDACTED-" ++ toString found.text.length ++ "c]"
    else found.text) text

/-- The substitutions of `redact_sensitive` in the order in which they are made. -/
def passes : List (String → String) :=
  [redaction.privateKeyBlock.sub fun _ => "[REDACTED KEY BLOCK]",
    redaction.sensitiveHeader.sub fun found => found.group 1 ++ ": [REDACTED]",
    redaction.bearer.sub fun _ => "Bearer [REDACTED]",
    redaction.apiKeyHeader.sub (redaction.envVarSecretReplacer "="),
    redaction.envVarSecret.sub (redaction.envVarSecretReplacer "="),
    redaction.envVarYamlSecret.sub (redaction.envVarSecretReplacer ":"),
    redaction.connectionString.sub fun found => found.group 1 ++ "://[REDACTED]",
    redaction.basicAuthUrl.sub fun found =>
      found.group 1 ++ "://" ++ found.group 2 ++ ":[REDACTED]@",
    redaction.anthropicKey.sub fun _ => "[REDACTED]",
    redaction.openaiProjKey.sub fun _ => "[REDACTED]",
    redaction.openaiGenericKey.sub fun _ => "[REDACTED]",
    redaction.githubToken.sub fun _ => "[REDACTED]",
    redaction.slackTokenStrict.sub fun _ => "[REDACTED]",
    redaction.slackTokenFallback.sub fun _ => "[REDACTED]",
    redaction.awsKeyId.sub fun _ => "[REDACTED]",
    redaction.jwt.sub fun _ => "[REDACTED]",
    redaction.redactProbableSecrets]

def redactSensitive (text : String) : String :=
  if text = "" then text else redaction.passes.foldl (fun out pass => pass out) text

end Redaction

/-- A payload that can be rendered: there is some text, and all of it is safe. -/
def Rendered (value : String) : Prop := value ≠ "" ∧ Allows renderChar value

instance (value : String) : Decidable (Rendered value) :=
  inferInstanceAs (Decidable (_ ∧ _))

section Safety

variable {redaction : Redaction}

variable {marker value : String}

theorem allows_renderChar_append_marker {text : String} (htext : Allows renderChar text)
    (hmarker : Allows renderChar marker) : Allows renderChar (text ++ marker) :=
  allows_append.mpr ⟨htext, hmarker⟩

theorem append_ne_empty (text : String) (hmarker : marker ≠ "") :
    text ++ marker ≠ "" := by
  simp [hmarker]

variable (pattern : Pattern)

theorem rendered_sub_marker {front : Match → String}
    (hfront : ∀ found, Allows renderChar found.text → Allows renderChar (front found))
    (hmarker : Rendered marker) (hvalue : Rendered value) :
    Rendered (pattern.sub (fun found => front found ++ marker) value) :=
  ⟨pattern.sub_ne_empty (fun found _ => append_ne_empty (front found) hmarker.1) hvalue.1,
    pattern.allows_sub (fun found hfound =>
      allows_renderChar_append_marker (hfront found hfound) hmarker.2) hvalue.2⟩

theorem rendered_sub_constant (hmarker : Rendered marker) (hvalue : Rendered value) :
    Rendered (pattern.sub (fun _ => marker) value) :=
  ⟨pattern.sub_ne_empty (fun _ _ => hmarker.1) hvalue.1,
    pattern.allows_sub (fun _ _ => hmarker.2) hvalue.2⟩

theorem rendered_sub_envVar {separator : String} (hseparator : Allows renderChar separator)
    (hvalue : Rendered value) :
    Rendered (pattern.sub (redaction.envVarSecretReplacer separator) value) := by
  refine ⟨pattern.sub_ne_empty (fun found hfound => ?_) hvalue.1,
    pattern.allows_sub (fun found hfound => ?_) hvalue.2⟩
  · unfold Redaction.envVarSecretReplacer
    split
    · exact hfound
    · split
      · exact append_ne_empty _ (by decide)
      · exact append_ne_empty _ (by decide)
  · have hname : Allows renderChar (found.group 1 ++ separator) :=
      allows_append.mpr ⟨found.allows_group hfound 1, hseparator⟩
    unfold Redaction.envVarSecretReplacer
    split
    · exact hfound
    · split
      · exact allows_append.mpr ⟨hname, by decide⟩
      · exact allows_append.mpr ⟨hname, by decide⟩

theorem rendered_redactProbableSecrets (hvalue : Rendered value) :
    Rendered (redaction.redactProbableSecrets value) := by
  unfold Redaction.redactProbableSecrets
  split
  · exact hvalue
  · refine ⟨redaction.tierBToken.sub_ne_empty (fun found hfound => ?_) hvalue.1,
      redaction.tierBToken.allows_sub (fun found hfound => ?_) hvalue.2⟩
    · split
      · exact append_ne_empty _ (by decide)
      · exact hfound
    · split
      · have hdigits : Allows renderChar (toString found.text.length) :=
          allows_toString_nat (fun c hdigit =>
            renderChar_of_singleLineChar (singleLineChar_of_isDigit hdigit)) _
        exact allows_append.mpr ⟨allows_append.mpr ⟨by decide, hdigits⟩, by decide⟩
      · exact hfound

theorem rendered_pass {pass : String → String} (hpass : pass ∈ redaction.passes)
    (hvalue : Rendered value) : Rendered (pass value) := by
  have hgroup : ∀ index, ∀ found : Match, Allows renderChar found.text →
      Allows renderChar (found.group index) := fun index found hfound =>
    found.allows_group hfound index
  have hbasic : ∀ found : Match, Allows renderChar found.text →
      Allows renderChar (found.group 1 ++ "://" ++ found.group 2) := fun found hfound =>
    allows_append.mpr ⟨allows_append.mpr ⟨hgroup 1 found hfound, by decide⟩, hgroup 2 found hfound⟩
  have htoken : ∀ pattern : Pattern, Rendered (pattern.sub (fun _ => "[REDACTED]") value) :=
    fun pattern => rendered_sub_constant pattern (by decide) hvalue
  simp only [Redaction.passes, List.mem_cons, List.not_mem_nil, or_false] at hpass
  rcases hpass with rfl | rfl | rfl | rfl | rfl | rfl | rfl | rfl | rfl | rfl | rfl | rfl | rfl |
    rfl | rfl | rfl | rfl
  · exact rendered_sub_constant _ (by decide) hvalue
  · exact rendered_sub_marker _ (hgroup 1) (by decide) hvalue
  · exact rendered_sub_constant _ (by decide) hvalue
  · exact rendered_sub_envVar _ (by decide) hvalue
  · exact rendered_sub_envVar _ (by decide) hvalue
  · exact rendered_sub_envVar _ (by decide) hvalue
  · exact rendered_sub_marker _ (hgroup 1) (by decide) hvalue
  · exact rendered_sub_marker _ hbasic (by decide) hvalue
  · exact htoken _
  · exact htoken _
  · exact htoken _
  · exact htoken _
  · exact htoken _
  · exact htoken _
  · exact htoken _
  · exact htoken _
  · exact rendered_redactProbableSecrets hvalue

theorem rendered_redactSensitive (redaction : Redaction) (hvalue : Rendered value) :
    Rendered (redaction.redactSensitive value) := by
  have hfold : ∀ passes : List (String → String), (∀ pass ∈ passes, pass ∈ redaction.passes) →
      ∀ text, Rendered text → Rendered (passes.foldl (fun out pass => pass out) text) := by
    intro passes
    induction passes with
    | nil => exact fun _ text htext => htext
    | cons pass rest ih =>
      intro hmem text htext
      apply ih (List.forall_mem_cons.mp hmem).2
      exact rendered_pass (hmem pass List.mem_cons_self) htext
  rw [Redaction.redactSensitive, if_neg hvalue.1]
  exact hfold redaction.passes (fun _ hpass => hpass) value hvalue

end Safety

end Pallium.Relay
