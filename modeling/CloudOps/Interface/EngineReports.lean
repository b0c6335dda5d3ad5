import CloudOps.Computation.Program
import CloudOps.Interface.Policies

/-!
# What the engine reports

The engine takes any JSON. Here each rule is read without looking at what its values are:
a finding it reports names the resource, its own rule id, and the action of its policy
(`Policy.rule_reports`). So the findings of a resource come from different rules, and those
of a request whose resources have different ids differ in resource or rule.
-/

set_option autoImplicit false

namespace CloudOps.Interface

open CloudOps.Computation CloudOps.Model

namespace Policy

/-- The action the engine recommends for a violation. -/
def action : Policy → ActionType
  | lowUtilization => .manualReview
  | missingTags => .addMissingTag
  | publicStorage => .restrictPublicStorage
  | missingAlarms => .createAlarm
  | unhealthyService => .restartUnhealthyService
  | missingBackup => .enableBackupPolicy
  | repeatedErrors => .restartUnhealthyService
  | elevatedLatency => .createAlarm
  | failureRateIncrease => .createAlarm

/-- The finding reports a violation of the policy by the resource. -/
structure Reports (p : Policy) (resourceId : String) (finding : FindingOut) : Prop where
  resourceId : finding.resourceId = resourceId
  ruleId : finding.ruleId = p.ruleId
  actionType : finding.recommendation.actionType = p.action

/-- Whatever is found reports the policy. -/
def Finds (p : Policy) (resourceId : String) (outcome : Except PyError (Option FindingOut)) :
    Prop :=
  ∀ finding, outcome = .ok (some finding) → p.Reports resourceId finding

variable {p : Policy} {resourceId : String} {finding : FindingOut}
  {outcome outcome' : Except PyError (Option FindingOut)}

/-- A rule may find nothing. -/
theorem finds_none : p.Finds resourceId (pure none) := by
  intro finding h
  cases h

/-- A rule finds what it may report. -/
theorem finds_some (h : p.Reports resourceId finding) :
    p.Finds resourceId (pure (some finding)) := by
  intro finding' heq
  cases heq
  exact h

/-- A branching finds what its branches find. -/
theorem finds_ite {b : Bool} (h : p.Finds resourceId outcome) (h' : p.Finds resourceId outcome') :
    p.Finds resourceId (if b then outcome else outcome') := by
  cases b with
  | true => exact h
  | false => exact h'

/-- A computation finds what its rest finds on every value. -/
theorem finds_bind {α : Type} {x : Except PyError α} {f : α → Except PyError (Option FindingOut)}
    (h : ∀ a, p.Finds resourceId (f a)) : p.Finds resourceId (x >>= f) := by
  cases x with
  | error e => intro finding heq; cases heq
  | ok a => exact h a

/-- **What a rule reports**, on any payload.
SRCLINE: services/diagnostics/app/engine.py:23-215 -/
theorem rule_reports (p : Policy) (numerals : PyNumerals) (resource : ResourcePayload) :
    p.Finds resource.id (p.rule numerals resource) := by
  cases p with
  | lowUtilization =>
      refine finds_bind fun cpu => finds_bind fun periods => finds_ite finds_none ?_
      exact finds_ite (finds_some ⟨rfl, rfl, rfl⟩) finds_none
  | missingTags => exact finds_ite finds_none (finds_some ⟨rfl, rfl, rfl⟩)
  | publicStorage =>
      refine finds_ite finds_none ?_
      split
      · exact finds_some ⟨rfl, rfl, rfl⟩
      · exact finds_none
  | missingAlarms =>
      refine finds_ite finds_none (finds_ite (finds_bind fun len => ?_) finds_none)
      exact finds_ite (finds_some ⟨rfl, rfl, rfl⟩) finds_none
  | unhealthyService =>
      show Finds _ _ (ruleUnhealthyService resource)
      unfold ruleUnhealthyService
      split
      · exact finds_some ⟨rfl, rfl, rfl⟩
      · exact finds_none
  | missingBackup =>
      refine finds_ite finds_none ?_
      split
      · exact finds_ite (finds_some ⟨rfl, rfl, rfl⟩) finds_none
      · exact finds_none
  | repeatedErrors =>
      refine finds_bind fun rate => finds_bind fun count => ?_
      exact finds_ite (finds_some ⟨rfl, rfl, rfl⟩) finds_none
  | elevatedLatency =>
      exact finds_bind fun p99 => finds_ite (finds_some ⟨rfl, rfl, rfl⟩) finds_none
  | failureRateIncrease =>
      exact finds_bind fun delta => finds_ite (finds_some ⟨rfl, rfl, rfl⟩) finds_none

/-- Every rule has an identity of the table. -/
theorem ruleId_mem (p : Policy) : p.ruleId ∈ POLICY_RULE_IDS := by cases p <;> decide

/-- No two rules have one identity. -/
theorem nodup_ruleId : (all.map ruleId).Nodup := by decide

end Policy

section Engine

variable {numerals : PyNumerals} {resource : ResourcePayload} {resources : List ResourcePayload}
  {findings : List FindingOut}

/-- The rules of the engine are those of the policies. -/
theorem RULES_eq : RULES numerals = Policy.all.map (·.rule numerals) := rfl

/-- The loop over the rules reports some of the policies, in order. -/
theorem evaluateRules_reports {policies : List Policy}
    (h : evaluateRules resource (policies.map (·.rule numerals)) = .ok findings) :
    ∃ found : List Policy, found.Sublist policies ∧
      List.Forall₂ (fun p finding => p.Reports resource.id finding) found findings := by
  induction policies generalizing findings with
  | nil =>
      cases h
      exact ⟨[], .slnil, .nil⟩
  | cons p policies ih =>
      obtain ⟨result, hresult, h⟩ := bind_ok h
      obtain ⟨rest, hrest, h⟩ := bind_ok h
      obtain ⟨found, hsub, hreports⟩ := ih hrest
      cases h
      cases result with
      | none => exact ⟨found, hsub.cons p, hreports⟩
      | some finding =>
          exact ⟨p :: found, hsub.cons_cons p, .cons (p.rule_reports numerals resource finding
            hresult) hreports⟩

/-- **What the engine reports of a resource**: violations of policies, each at most once.
SRCLINE: services/diagnostics/app/engine.py:218-237 -/
theorem evaluate_reports (h : evaluate numerals resource = .ok findings) :
    (findings.map (·.ruleId)).Nodup ∧
      ∀ finding ∈ findings, ∃ p : Policy, p.Reports resource.id finding := by
  rw [evaluate, RULES_eq] at h
  obtain ⟨found, hsub, hreports⟩ := evaluateRules_reports h
  have hids : findings.map (·.ruleId) = found.map Policy.ruleId := by
    clear hsub h
    induction hreports with
    | nil => rfl
    | cons hreport _ ih => rw [List.map_cons, List.map_cons, hreport.ruleId, ih]
  refine ⟨hids ▸ Policy.nodup_ruleId.sublist (hsub.map _), fun finding hmem => ?_⟩
  clear hids hsub h
  induction hreports with
  | nil => exact absurd hmem List.not_mem_nil
  | cons hreport _ ih =>
      rcases List.mem_cons.mp hmem with rfl | hmem
      · exact ⟨_, hreport⟩
      · exact ih hmem

/-- What the engine reports of a request is about its resources. -/
theorem evaluateAll_reports (h : evaluateAll numerals resources = .ok findings) :
    ∀ finding ∈ findings, ∃ resource ∈ resources, ∃ p : Policy, p.Reports resource.id finding := by
  induction resources generalizing findings with
  | nil =>
      cases h
      simp
  | cons resource resources ih =>
      obtain ⟨found, hfound, h⟩ := bind_ok h
      obtain ⟨rest, hrest, h⟩ := bind_ok h
      cases h
      intro finding hmem
      rcases List.mem_append.mp hmem with hmem | hmem
      · exact ⟨resource, List.mem_cons_self, (evaluate_reports hfound).2 finding hmem⟩
      · obtain ⟨resource', hmem', hreport⟩ := ih hrest finding hmem
        exact ⟨resource', List.mem_cons_of_mem _ hmem', hreport⟩

/-- **The findings of a request differ in resource or rule**, if its resources have different
ids.
SRCLINE: services/diagnostics/app/main.py:48-50 -/
theorem nodup_evaluateAll (hdistinct : (resources.map (·.id)).Nodup)
    (h : evaluateAll numerals resources = .ok findings) :
    (findings.map fun f => (f.resourceId, f.ruleId)).Nodup := by
  induction resources generalizing findings with
  | nil =>
      cases h
      exact List.nodup_nil
  | cons resource resources ih =>
      obtain ⟨found, hfound, h⟩ := bind_ok h
      obtain ⟨rest, hrest, h⟩ := bind_ok h
      cases h
      obtain ⟨hnot, hdistinct⟩ := List.nodup_cons.mp hdistinct
      obtain ⟨hids, hreports⟩ := evaluate_reports hfound
      have hhead : (found.map fun f => (f.resourceId, f.ruleId)).Nodup := by
        refine List.Nodup.of_map Prod.snd ?_
        rw [List.map_map]
        exact hids
      rw [List.map_append, List.nodup_append']
      refine ⟨hhead, ih hdistinct hrest, ?_⟩
      -- a later finding is about another resource
      intro key hkey hkey'
      obtain ⟨finding, hmem, rfl⟩ := List.mem_map.mp hkey
      obtain ⟨finding', hmem', heq⟩ := List.mem_map.mp hkey'
      obtain ⟨p, hreport⟩ := hreports finding hmem
      obtain ⟨resource', hresource', p', hreport'⟩ := evaluateAll_reports hrest finding' hmem'
      have hsame : resource'.id = resource.id := by
        rw [← hreport'.resourceId, ← hreport.resourceId]
        exact congrArg Prod.fst heq
      exact hnot (List.mem_map.mpr ⟨resource', hresource', hsame⟩)

end Engine

end CloudOps.Interface
