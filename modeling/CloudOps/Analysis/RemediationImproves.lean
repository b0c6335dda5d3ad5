import CloudOps.Interface.Policies
import CloudOps.Interface.ResourceActions

/-!
# Remediation never makes the diagnosis worse

The actions are TypeScript, the diagnosis is Python; the two meet in the policies of a
typed resource. One action violates no policy anew (`effect_improves`), and the action made
for a policy ends its violation (`effect_remedies`). Improvement is transitive, so both carry
over to a list of actions in any order: what one action remedied no later one brings back.
-/

set_option autoImplicit false

namespace CloudOps.Analysis

open CloudOps.Computation CloudOps.Model CloudOps.Interface

/-- Every policy that `r'` violates was violated by `r`. -/
def Improves (type : ResourceType) (name : String) (r r' : ResourceState) : Prop :=
  ∀ p : Policy, p.Violated type name r' → p.Violated type name r

/-- The rules that must be silent after an action has been applied. -/
def REMEDIED_RULES : List (ActionType × String) :=
  [(.restrictPublicStorage, "s3.public_access"), (.createAlarm, "cloudwatch.missing_alarms"),
    (.restartUnhealthyService, "service.unhealthy"),
    (.restartUnhealthyService, "app.repeated_errors"),
    (.enableBackupPolicy, "resource.missing_backup")]

/-- The policies an action is made for. -/
def remedied : ActionType → List Policy
  | .restrictPublicStorage => [.publicStorage]
  | .createAlarm => [.missingAlarms]
  | .restartUnhealthyService => [.unhealthyService, .repeatedErrors]
  | .enableBackupPolicy => [.missingBackup]
  | _ => []

/-- An action type remedies the rules of the table. -/
theorem mem_remedied {t : ActionType} {p : Policy} (h : (t, p.ruleId) ∈ REMEDIED_RULES) :
    p ∈ remedied t := by
  cases p <;> cases t <;> revert h <;> simp [REMEDIED_RULES, remedied, Policy.ruleId]

variable {type : ResourceType} {name id : String} {r r' r'' : ResourceState}
  {action : RemediationAction}

/-- A resource that stays as it is improves. -/
theorem Improves.refl : Improves type name r r := fun _ h => h

/-- Improving twice is improving. -/
theorem Improves.trans (h : Improves type name r r') (h' : Improves type name r' r'') :
    Improves type name r r'' := fun p hp => h p (h' p hp)

/-- An alarm has been added. -/
theorem withAlarm_ne_nil (alarms : List String) (alarm : String) : withAlarm alarms alarm ≠ [] := by
  unfold withAlarm
  split
  · next h => exact List.ne_nil_of_mem h
  · simp

/-- The planned tag is `Owner`, never `Environment`. -/
theorem tags_planned (h : PlannedFor id action) (htype : action.actionType = .addMissingTag) :
    tagKey action = "Owner" ∧ tagValue action = "platform" := by
  simp only [tagKey, tagValue, h.params, htype]
  exact ⟨rfl, rfl⟩

/-- Setting the planned tag completes a required tag and changes no other.
SRCLINE: apps/api/src/services/remediation-service.ts:256-257 -/
theorem tags_improve (h : PlannedFor id action) (htype : action.actionType = .addMissingTag) :
    Improves type name r (effect r action) := by
  obtain ⟨hkey, hvalue⟩ := tags_planned h htype
  rw [effect_addMissingTag htype, hkey, hvalue]
  have henv : (r.next.tags.set "Owner" "platform").get? "Environment" =
      r.tags.get? "Environment" := Dict.get?_set_ne (by decide)
  have hprod : Production name (r.next.tags.set "Owner" "platform") → Production name r.tags := by
    unfold Production
    rw [henv]
    exact fun h => h
  intro p hp
  cases p with
  | missingTags =>
      obtain ⟨tag, hmem, htag⟩ := hp
      refine ⟨tag, hmem, ?_⟩
      have hne : tag ≠ "Owner" := by
        rintro rfl
        simp at htag
      rw [Dict.get?_set_ne hne] at htag
      exact htag
  | missingAlarms => exact ⟨hp.1, hp.2.1, hprod hp.2.2⟩
  | missingBackup => exact ⟨hp.1, hp.2.1, hprod hp.2.2⟩
  | _ => exact hp

/-- **One planned action violates no policy anew.**
SRCLINE: packages/shared/src/remediation/engine.ts:11-99 -/
theorem effect_improves (h : PlannedFor id action) : Improves type name r (effect r action) := by
  rcases mem_allowlisted.mp h.allowlisted with htype | htype | htype | htype | htype
  · exact tags_improve h htype
  · intro p hp
    rw [effect_createAlarm htype] at hp
    cases p with
    | missingAlarms => exact absurd hp.2.1 (withAlarm_ne_nil _ _)
    | _ => exact hp
  · intro p hp
    rw [effect_enableBackupPolicy htype] at hp
    cases p with
    | missingBackup => exact absurd hp.2.1 (by simp)
    | _ => exact hp
  · intro p hp
    rw [effect_restartUnhealthyService htype] at hp
    cases p with
    | unhealthyService => simp [Policy.Violated] at hp
    | repeatedErrors =>
        obtain ⟨hrate, hcount⟩ := hp
        refine ⟨?_, hcount⟩
        exact hrate.trans_le (min_le_left _ _)
    | _ => exact hp
  · intro p hp
    rw [effect_restrictPublicStorage htype] at hp
    cases p with
    | publicStorage => exact absurd hp.2 (by simp)
    | _ => exact hp

/-- **An action ends the violation of the policies it is made for.**
SRCLINE: packages/shared/src/remediation/engine.ts:26-97 -/
theorem effect_remedies {p : Policy} (hp : p ∈ remedied action.actionType) :
    ¬ p.Violated type name (effect r action) := by
  intro hv
  cases htype : action.actionType with
  | createAlarm =>
      rw [effect_createAlarm htype] at hv
      obtain rfl : p = .missingAlarms := by simpa [htype, remedied] using hp
      exact withAlarm_ne_nil _ _ hv.2.1
  | enableBackupPolicy =>
      rw [effect_enableBackupPolicy htype] at hv
      obtain rfl : p = .missingBackup := by simpa [htype, remedied] using hp
      simp [Policy.Violated] at hv
  | restartUnhealthyService =>
      rw [effect_restartUnhealthyService htype] at hv
      rcases (by simpa [htype, remedied] using hp : p = .unhealthyService ∨ p = .repeatedErrors)
        with rfl | rfl
      · simp [Policy.Violated] at hv
      · have hle : min (r.metrics.errorRate.getD 0) (1 / 100) ≤ 1 / 100 := min_le_right _ _
        have hrate : 5 / 100 < min (r.metrics.errorRate.getD 0) (1 / 100) := hv.1
        linarith
  | restrictPublicStorage =>
      rw [effect_restrictPublicStorage htype] at hv
      obtain rfl : p = .publicStorage := by simpa [htype, remedied] using hp
      simp [Policy.Violated] at hv
  | _ => simp [htype, remedied] at hp

/-- A list of planned actions violates no policy anew. -/
theorem foldl_effect_improves {actions : List RemediationAction}
    (h : ∀ action ∈ actions, PlannedFor id action) :
    Improves type name r (actions.foldl effect r) := by
  induction actions generalizing r with
  | nil => exact .refl
  | cons action actions ih =>
      have hhead : Improves type name r (effect r action) :=
        effect_improves (h action List.mem_cons_self)
      exact hhead.trans (ih fun a ha => h a (List.mem_cons_of_mem _ ha))

/-- A list of planned actions ends the violation of every policy one of them is made for. -/
theorem foldl_effect_remedies {actions : List RemediationAction}
    (h : ∀ action ∈ actions, PlannedFor id action) {action : RemediationAction}
    (hmem : action ∈ actions) {p : Policy} (hp : p ∈ remedied action.actionType) :
    ¬ p.Violated type name (actions.foldl effect r) := by
  obtain ⟨before, after, rfl⟩ := List.append_of_mem hmem
  rw [List.foldl_append, List.foldl_cons]
  intro hv
  refine effect_remedies hp (foldl_effect_improves (fun a ha => h a ?_) p hv)
  exact List.mem_append_right _ (List.mem_cons_of_mem _ ha)

/-- **Remediation never makes the diagnosis worse.** Planned actions for a typed resource, in
any order and with any repetition, apply without error; the engine evaluates the resource
before and after; afterwards it reports no rule it did not report before, and none of the
rules an applied action is made for.
SRCLINE: services/diagnostics/app/engine.py:18-237,
packages/shared/src/remediation/engine.ts:11-99 -/
theorem remediation_never_worsens_diagnosis (numerals : PyNumerals) (id : String)
    (type : ResourceType) (region name : String) (r : ResourceState)
    (actions : List RemediationAction) (h : ∀ action ∈ actions, PlannedFor id action) :
    ∃ r' before after, applyActions r actions = .ok r' ∧
      evaluate numerals (payload id type region name r) = .ok before ∧
      evaluate numerals (payload id type region name r') = .ok after ∧
      after.map (·.ruleId) ⊆ before.map (·.ruleId) ∧
      ∀ action ∈ actions, ∀ ruleId, (action.actionType, ruleId) ∈ REMEDIED_RULES →
        ruleId ∉ after.map (·.ruleId) := by
  have happly : applyActions r actions = .ok (actions.foldl effect r) :=
    applyActions_eq_foldl fun action ha => (h action ha).allowlisted
  obtain ⟨before, hbefore, hbeforeIds⟩ := evaluate_payload numerals id type region name r
  obtain ⟨after, hafter, hafterIds⟩ :=
    evaluate_payload numerals id type region name (actions.foldl effect r)
  refine ⟨_, before, after, happly, hbefore, hafter, fun ruleId hmem => ?_, ?_⟩
  · obtain ⟨p, hid, hv⟩ := (hafterIds ruleId).mp hmem
    exact (hbeforeIds ruleId).mpr ⟨p, hid, foldl_effect_improves h p hv⟩
  · intro action ha ruleId hrule hmem
    obtain ⟨p, rfl, hv⟩ := (hafterIds ruleId).mp hmem
    exact foldl_effect_remedies h ha (mem_remedied hrule) hv

/-- A public bucket without tags, backup or alarms, and with a fifth of its requests failing. -/
def publicBucket : ResourceState :=
  ⟨Dict.empty, ⟨some true, some false, none, none, none, none, none⟩,
    ⟨none, none, some (1 / 5), some 40, none, none, none⟩⟩

/-- The actions that restrict the bucket and give it its alarm. -/
def bucketActions : List RemediationAction :=
  [⟨.restrictPublicStorage, "r-1", "f-1", defaultParams .restrictPublicStorage "r-1"⟩,
    ⟨.createAlarm, "r-1", "f-2", defaultParams .createAlarm "r-1"⟩]

/-- The actions on a public bucket take its findings away and bring none. -/
theorem remediation_never_worsens_diagnosis_bucket :
    ∃ r' before after, applyActions publicBucket bucketActions = .ok r' ∧
      evaluate ⟨fun _ => none, fun _ => none⟩
        (payload "r-1" .s3 "eu-west-1" "prod-assets" publicBucket) = .ok before ∧
      evaluate ⟨fun _ => none, fun _ => none⟩
        (payload "r-1" .s3 "eu-west-1" "prod-assets" r') = .ok after ∧
      after.map (·.ruleId) ⊆ before.map (·.ruleId) ∧
      ∀ action ∈ bucketActions, ∀ ruleId, (action.actionType, ruleId) ∈ REMEDIED_RULES →
        ruleId ∉ after.map (·.ruleId) :=
  remediation_never_worsens_diagnosis _ "r-1" .s3 "eu-west-1" "prod-assets" publicBucket
    bucketActions (by
      intro action ha
      simp only [bucketActions, List.mem_cons, List.not_mem_nil, or_false] at ha
      rcases ha with rfl | rfl
      · exact ⟨by decide, rfl, rfl⟩
      · exact ⟨by decide, rfl, rfl⟩)

end CloudOps.Analysis
