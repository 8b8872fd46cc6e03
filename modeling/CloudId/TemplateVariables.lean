import CloudId.Templates
import CloudId.Library.Substitution

/-! The variables of a template. `substitute_variables` replaces the placeholders one after
another, so that a later replacement sees the values of the earlier ones. -/
namespace CloudId
open Substitution

/-- The variables, in the order of their replacement. -/
inductive TemplateVariable where
  | hostname
  | shortHostname
  | ip
  | instanceId
  | availabilityZone
  | hostnameEncoded
  | domainSuffix
  | templateName
  deriving DecidableEq

def TemplateVariable.placeholder : TemplateVariable → String
  | .hostname => "\x7b\x7bHOSTNAME\x7d\x7d"
  | .shortHostname => "\x7b\x7bSHORT_HOSTNAME\x7d\x7d"
  | .ip => "\x7b\x7bIP\x7d\x7d"
  | .instanceId => "\x7b\x7bINSTANCE_ID\x7d\x7d"
  | .availabilityZone => "\x7b\x7bAVAILABILITY_ZONE\x7d\x7d"
  | .hostnameEncoded => "\x7b\x7bHOSTNAME_ENCODED\x7d\x7d"
  | .domainSuffix => "\x7b\x7bDOMAIN_SUFFIX\x7d\x7d"
  | .templateName => "\x7b\x7bTEMPLATE_NAME\x7d\x7d"

def templateVariables : List TemplateVariable :=
  [.hostname, .shortHostname, .ip, .instanceId, .availabilityZone, .hostnameEncoded, .domainSuffix,
    .templateName]

/-- What `substitute_variables` puts for a variable. -/
def variableValue (hostname ip instanceId availabilityZone domainSuffix templateName : String) :
    TemplateVariable → String
  | .hostname => hostname
  | .shortHostname =>
    Text.trimEndMatches ((Text.stripSuffix hostname domainSuffix).getD hostname) '.'
  | .ip => ip
  | .instanceId => instanceId
  | .availabilityZone => availabilityZone
  | .hostnameEncoded => urlEncodeSimple hostname
  | .domainSuffix => domainSuffix
  | .templateName => templateName

def TemplateVariable.pattern (name : TemplateVariable) : List Char :=
  name.placeholder.toList

theorem mem_template_variables (name : TemplateVariable) : name ∈ templateVariables := by
  cases name <;> decide

/-- The placeholders do not overlap: a brace is only at their ends. -/
theorem placeholders_separate : NonOverlapping TemplateVariable.pattern := by
  have some_char : ∀ i ∈ templateVariables, i.pattern ≠ [] := by decide
  have same : ∀ i ∈ templateVariables, ∀ j ∈ templateVariables, i.pattern <+: j.pattern → i = j := by
    decide +kernel
  have apart : ∀ i ∈ templateVariables, ∀ j ∈ templateVariables, ∀ rest ∈ i.pattern.tails,
      rest ≠ [] → rest ≠ i.pattern → ¬ rest <+: j.pattern ∧ ¬ j.pattern <+: rest := by
    decide +kernel
  exact ⟨fun i => some_char i (mem_template_variables i),
    fun i j => same i (mem_template_variables i) j (mem_template_variables j),
    fun i j rest part => apart i (mem_template_variables i) j (mem_template_variables j) rest
      ((List.mem_tails _ _).mpr part)⟩

variable (values : TemplateVariable → String) (content : String)

/-- The content with each placeholder of it replaced, and everything else kept. -/
def substituteAtOnce : String :=
  String.ofList (atOnce (fun name => (values name).toList) TemplateVariable.pattern
    templateVariables content.toList)

/-- The content after some replacements. -/
def replaceInTurn (done : List TemplateVariable) : String :=
  done.foldl (fun text name => Text.replace text name.placeholder (values name)) content

/-- The content as characters and placeholders, with the values of some in their place. -/
def filledContent (done : List TemplateVariable) : List (Char ⊕ TemplateVariable) :=
  fill (fun name => (values name).toList) done
    (parse TemplateVariable.pattern templateVariables content.toList)

/-- The result is the content substituted at once, and every replacement finds its placeholder
as often as the content has it, and so nowhere in inserted or joined text. -/
structure SubstitutesOnce (result : String) : Prop where
  at_once : result = substituteAtOnce values content
  once : ∀ done name rest, templateVariables = done ++ name :: rest →
    occurrences name.pattern (replaceInTurn values content done).toList =
      occurrences name.pattern content.toList

theorem replace_in_turn_eq (done : List TemplateVariable) :
    replaceInTurn values content done = String.ofList
      (sequential (fun name => (values name).toList) TemplateVariable.pattern done
        content.toList) := by
  induction done generalizing content with
  | nil => exact String.ofList_toList.symm
  | cons name done step =>
    rw [replaceInTurn, List.foldl_cons, ← replaceInTurn, step, Text.replace, String.toList_ofList]
    rfl

variable {content}

theorem substitute_variables_eq (hostname ip instanceId availabilityZone domainSuffix
    templateName : String) :
    substituteVariables content hostname ip instanceId availabilityZone domainSuffix templateName =
      replaceInTurn (variableValue hostname ip instanceId availabilityZone domainSuffix templateName)
        content templateVariables := rfl

/-- **Substituted values are never rescanned exactly when no placeholder is spelled before its
turn.**  For every content and all values: the result is the content substituted at once, with
no inserted or joined text replaced, if and only if at the turn of each variable, in the
content with the earlier values filled in and the other placeholders whole, no characters
spell its placeholder. -/
theorem substitutes_once_iff (content hostname ip instanceId availabilityZone domainSuffix
    templateName : String) :
    SubstitutesOnce (variableValue hostname ip instanceId availabilityZone domainSuffix templateName)
        content (substituteVariables content hostname ip instanceId availabilityZone domainSuffix
          templateName) ↔
      ∀ done name rest, templateVariables = done ++ name :: rest →
        ¬ name.pattern.map Sum.inl <:+: filledContent
          (variableValue hostname ip instanceId availabilityZone domainSuffix templateName)
          content done := by
  have generic := @sequential_once_iff _ _ _ (fun name => (variableValue hostname ip instanceId
    availabilityZone domainSuffix templateName name).toList) templateVariables placeholders_separate
    (by decide) content.toList mem_template_variables
  rw [substitute_variables_eq]
  constructor
  · intro substitutes
    refine generic.mp ⟨?_, fun done name rest shape => ?_⟩
    · have same := substitutes.at_once
      rwa [replace_in_turn_eq, substituteAtOnce, String.ofList_inj] at same
    · have found := substitutes.once done name rest shape
      rwa [replace_in_turn_eq, String.toList_ofList] at found
  · intro unspelled
    obtain ⟨same, once⟩ := generic.mpr unspelled
    refine ⟨?_, fun done name rest shape => ?_⟩
    · rw [replace_in_turn_eq, same, substituteAtOnce]
    · rw [replace_in_turn_eq, String.toList_ofList]
      exact once done name rest shape

/-- A leased hostname that is a placeholder is replaced in its turn by the address. -/
theorem leased_hostname_rescanned : ¬ ∀ content hostname ip instanceId availabilityZone domainSuffix
    templateName, SubstitutesOnce
      (variableValue hostname ip instanceId availabilityZone domainSuffix templateName) content
      (substituteVariables content hostname ip instanceId availabilityZone domainSuffix
        templateName) := by
  intro always
  have substitutes := always "host=\x7b\x7bHOSTNAME\x7d\x7d" "\x7b\x7bIP\x7d\x7d.g10.lo" "10.0.0.5"
    "\x7b\x7bIP\x7d\x7d" "rack1" ".g10.lo" "base.ks"
  exact absurd substitutes.at_once (by decide +kernel)

end CloudId
