import CloudOps.Analysis.PlanRequests
import CloudOps.Analysis.RemediationImproves
import CloudOps.Interface.Changes
import CloudOps.Model.RemediationService

/-!
# What planned actions make of a resource

The parameters of a planned action are a function of its type and its resource, so there is
one change for each type. These changes commute and may be repeated: a plan's effect on a
resource depends on the set of its action types alone.

The planned tag is always `Owner`. Tag remediation is complete exactly when no other required
tag is missing.
-/

set_option autoImplicit false

namespace CloudOps.Analysis

open CloudOps.Computation CloudOps.Model CloudOps.Interface CloudOps.Model.RemediationService

variable {r r' : ResourceState} {id : String} {action : RemediationAction}

/-! ## The order of the actions -/

/-- The change a planned action of a type makes.
SRCLINE: apps/api/src/services/remediation-service.ts:254-263 -/
def plannedChange (id : String) : ActionType → Change
  | .addMissingTag => .tag "Owner" "platform"
  | .createAlarm => .alarm (id ++ "-health")
  | .enableBackupPolicy => .backup
  | .restartUnhealthyService => .restart
  | _ => .restrict

/-- A planned action makes the planned change of its type. -/
theorem changeOf_planned (h : PlannedFor id action) :
    changeOf action = some (plannedChange id action.actionType) := by
  unfold changeOf
  rcases mem_allowlisted.mp h.allowlisted with htype | htype | htype | htype | htype
  · obtain ⟨hkey, hvalue⟩ := tags_planned h htype
    rw [htype, hkey, hvalue]
    rfl
  · have halarm : alarmName action = id ++ "-health" := by
      unfold alarmName
      rw [h.params, htype]
      rfl
    rw [htype, halarm]
    rfl
  · rw [htype]; rfl
  · rw [htype]; rfl
  · rw [htype]; rfl

/-- **Planned changes commute.** There is one tag and one alarm among them. -/
theorem plannedChange_comm (s : ResourceState) (t t' : ActionType) :
    changes.apply (changes.apply s (plannedChange id t)) (plannedChange id t') =
      changes.apply (changes.apply s (plannedChange id t')) (plannedChange id t) := by
  unfold plannedChange
  cases t <;> cases t' <;> rfl

/-- Planned actions make the changes of their types. -/
theorem filterMap_changeOf_planned {actions : List RemediationAction}
    (h : ∀ action ∈ actions, PlannedFor id action) :
    actions.filterMap changeOf = (actions.map (·.actionType)).map (plannedChange id) := by
  induction actions with
  | nil => rfl
  | cons action actions ih =>
      rw [List.filterMap_cons_some (changeOf_planned (h action List.mem_cons_self))]
      rw [ih fun a ha => h a (List.mem_cons_of_mem _ ha)]
      rfl

/-- **A plan's effect on a resource depends only on the set of its action types.** Two lists of
planned actions for one resource, with the same types in any order and with any repetition,
both apply without error, and to the same tags, config and metrics.
SRCLINE: packages/shared/src/remediation/engine.ts:11-99,
apps/api/src/services/remediation-service.ts:254-263 -/
theorem effect_of_types (id : String) (r : ResourceState)
    (actions others : List RemediationAction) (h : ∀ action ∈ actions, PlannedFor id action)
    (hothers : ∀ action ∈ others, PlannedFor id action)
    (htypes : ∀ t, t ∈ actions.map (·.actionType) ↔ t ∈ others.map (·.actionType)) :
    ∃ r', applyActions r actions = .ok r' ∧ applyActions r others = .ok r' := by
  have hallow : ∀ action ∈ actions, action.actionType ∈ ALLOWLISTED_ACTIONS :=
    fun action ha => (h action ha).allowlisted
  have hallow' : ∀ action ∈ others, action.actionType ∈ ALLOWLISTED_ACTIONS :=
    fun action ha => (hothers action ha).allowlisted
  refine ⟨_, applyActions_eq_foldl hallow, ?_⟩
  rw [applyActions_eq_foldl hallow', foldl_effect_eq_applyAll hallow,
    foldl_effect_eq_applyAll hallow', filterMap_changeOf_planned h,
    filterMap_changeOf_planned hothers]
  refine congrArg Except.ok (Overwriting.applyAll_eq_of_mem_iff ?_ fun change => ?_).symm
  · intro s a ha b hb
    obtain ⟨t, -, rfl⟩ := List.mem_map.mp ha
    obtain ⟨t', -, rfl⟩ := List.mem_map.mp hb
    exact plannedChange_comm s t t'
  · rw [List.mem_map, List.mem_map]
    constructor
    · rintro ⟨t, ht, rfl⟩
      exact ⟨t, (htypes t).mp ht, rfl⟩
    · rintro ⟨t, ht, rfl⟩
      exact ⟨t, (htypes t).mpr ht, rfl⟩

/-- The bucket's actions the other way round, with one made twice. -/
theorem effect_of_types_bucket :
    ∃ r', applyActions publicBucket bucketActions = .ok r' ∧
      applyActions publicBucket (bucketActions.reverse ++ bucketActions) = .ok r' := by
  have hplanned : ∀ action ∈ bucketActions, PlannedFor "r-1" action := by
    intro action ha
    simp only [bucketActions, List.mem_cons, List.not_mem_nil, or_false] at ha
    rcases ha with rfl | rfl
    · exact ⟨by decide, rfl, rfl⟩
    · exact ⟨by decide, rfl, rfl⟩
  refine effect_of_types "r-1" publicBucket bucketActions _ hplanned (fun action ha => ?_)
    fun t => ?_
  · rcases List.mem_append.mp ha with ha | ha
    · exact hplanned action (List.mem_reverse.mp ha)
    · exact hplanned action ha
  · simp

/-! ## Missing tags -/

/-- The tags that were set keep their values, and the rule for missing tags is silent.
SRCLINE: services/diagnostics/app/engine.py:53-70 -/
structure TagsRemediated (id : String) (type : ResourceType) (region name : String)
    (r r' : ResourceState) : Prop where
  kept : ∀ tag value, r.tags.get? tag = some value → value ≠ "" → r'.tags.get? tag = some value
  silent : ruleMissingTags (payload id type region name r') = .ok none

/-- The rule for missing tags is silent on a resource that has them all. -/
theorem ruleMissingTags_none_iff (type : ResourceType) (region name : String) :
    ruleMissingTags (payload id type region name r) = .ok none ↔
      ∀ tag ∈ REQUIRED_TAGS, (r.tags.get? tag).getD "" ≠ "" := by
  obtain ⟨result, hrun, hsome, -⟩ := decides_missingTags id type region name r
  rw [hrun]
  constructor
  · intro h tag htag hempty
    obtain rfl : result = none := by simpa using h
    have hviolated : Policy.missingTags.Violated type name r := ⟨tag, htag, hempty⟩
    exact absurd (hsome.mpr hviolated) (by simp)
  · intro h
    cases result with
    | none => rfl
    | some finding =>
        obtain ⟨tag, htag, hempty⟩ := hsome.mp rfl
        exact absurd hempty (h tag htag)

/-- What the rule for missing tags recommends. -/
theorem ruleMissingTags_some {out : FindingOut} {resource : ResourcePayload}
    (h : ruleMissingTags resource = .ok (some out)) :
    out.resourceId = resource.id ∧ out.ruleId = "resource.missing_tags" ∧
      out.recommendation.actionType = .addMissingTag := by
  unfold ruleMissingTags at h
  simp only [pure, Except.pure] at h
  split at h
  · exact absurd h (by simp)
  · obtain rfl := Option.some_injective _ (Except.ok.inj h)
    exact ⟨rfl, rfl, rfl⟩

/-- **The action planned for a finding** whose recommendations agree with `ACTION_BY_RULE`: it
does not matter whether there is one.
SRCLINE: apps/api/src/services/remediation-service.ts:62-76 -/
theorem planAction_of_agree {recs : List Recommendation} {finding : Finding}
    {actionType : ActionType} (hrule : ACTION_BY_RULE finding.ruleId = some actionType)
    (hrecs : ∀ rec ∈ recs, rec.findingId = finding.id → rec.actionType = actionType)
    (hallow : actionType = .manualReview ∨ actionType ∈ ALLOWLISTED_ACTIONS) :
    planAction recs finding = .ok (if actionType = .manualReview then none else some {
      actionType := actionType
      resourceId := finding.resourceId
      findingId := finding.id
      params := defaultParams actionType finding.resourceId }) := by
  have htype : (((recs.find? fun rec => rec.findingId == finding.id).map (·.actionType)).orElse
      fun _ => ACTION_BY_RULE finding.ruleId).getD .manualReview = actionType := by
    cases hrec : recs.find? fun rec => rec.findingId == finding.id with
    | none =>
        rw [hrule]
        rfl
    | some rec =>
        have hid : rec.findingId = finding.id := by simpa using List.find?_some hrec
        exact hrecs rec (List.mem_of_find?_eq_some hrec) hid
  exact planAction_of_type htype hallow

/-- The action planned for a finding of missing tags. -/
theorem planAction_missingTags {recs : List Recommendation} {finding : Finding}
    (hrule : finding.ruleId = "resource.missing_tags")
    (hrecs : ∀ rec ∈ recs, rec.findingId = finding.id → rec.actionType = .addMissingTag) :
    planAction recs finding = .ok (some {
      actionType := .addMissingTag
      resourceId := finding.resourceId
      findingId := finding.id
      params := defaultParams .addMissingTag finding.resourceId }) := by
  have htable : ACTION_BY_RULE finding.ruleId = some .addMissingTag := by
    rw [hrule]
    rfl
  rw [planAction_of_agree htable hrecs (Or.inr (mem_allowlisted.mpr (Or.inl rfl)))]
  rfl

/-- Setting `Owner` completes the tags exactly when the others are there. -/
theorem tagsRemediated_iff {type : ResourceType} {region name : String}
    (hfires : ruleMissingTags (payload id type region name r) ≠ .ok none)
    (htags : r'.tags = r.tags.set "Owner" "platform") :
    TagsRemediated id type region name r r' ↔
      ∀ tag ∈ REQUIRED_TAGS, tag ≠ "Owner" → (r.tags.get? tag).getD "" ≠ "" := by
  constructor
  · rintro ⟨-, hsilent⟩ tag htag hne
    have hset := (ruleMissingTags_none_iff type region name).mp hsilent tag htag
    rw [htags, Dict.get?_set_ne hne] at hset
    exact hset
  · intro h
    -- the rule fires, so it is the owner that is missing
    have howner : (r.tags.get? "Owner").getD "" = "" := by
      by_contra howner
      refine hfires ((ruleMissingTags_none_iff type region name).mpr fun tag htag => ?_)
      by_cases hne : tag = "Owner"
      · rw [hne]; exact howner
      · exact h tag htag hne
    constructor
    · intro tag value hvalue hset
      have hne : tag ≠ "Owner" := by
        rintro rfl
        rw [hvalue] at howner
        exact hset howner
      rw [htags, Dict.get?_set_ne hne]
      exact hvalue
    · refine (ruleMissingTags_none_iff type region name).mpr fun tag htag => ?_
      rw [htags]
      by_cases hne : tag = "Owner"
      · rw [hne, Dict.get?_set_self]
        decide
      · rw [Dict.get?_set_ne hne]
        exact h tag htag hne

/-- **When tag remediation is complete and non-destructive.** For a resource on which the rule
for missing tags fires, `createPlan` plans one action for the stored finding, with or without
its recommendation, and the action applies. The tags that were set keep their values and the
rule falls silent exactly if every required tag but `Owner` was there.
SRCLINE: services/diagnostics/app/engine.py:53-70,
apps/api/src/services/remediation-service.ts:62-77, 254-263,
packages/shared/src/remediation/engine.ts:27-41 -/
theorem missing_tags_remediated_iff (id : String) (type : ResourceType) (region name : String)
    (r : ResourceState) (out : FindingOut) (recs : List Recommendation) (finding : Finding)
    (hfires : ruleMissingTags (payload id type region name r) = .ok (some out))
    (hrule : finding.ruleId = out.ruleId) (hresource : finding.resourceId = out.resourceId)
    (hrecs : ∀ rec ∈ recs, rec.findingId = finding.id →
      rec.actionType = out.recommendation.actionType) :
    ∃ action r' result, planAction recs finding = .ok (some action) ∧
      action.actionType = .addMissingTag ∧ action.resourceId = id ∧
      applySimulatedAction r action = .ok (r', result) ∧
      (TagsRemediated id type region name r r' ↔
        ∀ tag ∈ REQUIRED_TAGS, tag ≠ "Owner" → (r.tags.get? tag).getD "" ≠ "") := by
  obtain ⟨hid, hout, htype⟩ := ruleMissingTags_some hfires
  rw [hout] at hrule
  rw [htype] at hrecs
  have hplan := planAction_missingTags hrule hrecs
  rw [hresource, hid] at hplan
  let action : RemediationAction := {
    actionType := .addMissingTag
    resourceId := id
    findingId := finding.id
    params := defaultParams .addMissingTag id }
  have happly : ∃ message, applySimulatedAction r action =
      .ok (effect r action, simulatedResult action message) :=
    applySimulatedAction_ok (mem_allowlisted.mpr (Or.inl rfl))
  obtain ⟨message, happly⟩ := happly
  refine ⟨action, _, _, hplan, rfl, rfl, happly, tagsRemediated_iff ?_ ?_⟩
  · rw [hfires]
    simp
  · rw [effect_addMissingTag rfl]
    rfl

/-- An instance whose only tag is its owner. -/
def ownedInstance : ResourceState :=
  ⟨⟨[("Owner", "alice")], by simp⟩, ⟨none, none, none, none, none, none, none⟩,
    ⟨none, none, none, none, none, none, none⟩⟩

/-- An instance that lacks its owner alone. -/
def unownedInstance : ResourceState :=
  ⟨⟨[("Environment", "staging"), ("CostCenter", "42"), ("Service", "web")], by decide⟩,
    ⟨none, none, none, none, none, none, none⟩, ⟨none, none, none, none, none, none, none⟩⟩

/-- The stored finding of missing tags. -/
def untaggedFinding : Finding where
  id := "f-1"
  workspaceId := "w-1"
  jobId := "j-1"
  resourceId := "r-1"
  ruleId := "resource.missing_tags"
  severity := "low"
  title := "Resource is missing required operational tags"
  description := ""
  evidence := "{}"
  correlationId := "c-1"
  createdAt := 0

/-- The planned action takes the instance from its owner, and the rule still fires. -/
theorem owner_replaced :
    ∃ out action r' result,
      ruleMissingTags (payload "r-1" .ec2 "eu-west-1" "web" ownedInstance) = .ok (some out) ∧
      untaggedFinding.ruleId = out.ruleId ∧ untaggedFinding.resourceId = out.resourceId ∧
      planAction [] untaggedFinding = .ok (some action) ∧
      applySimulatedAction ownedInstance action = .ok (r', result) ∧
      ownedInstance.tags.get? "Owner" = some "alice" ∧
      r'.tags.get? "Owner" = some "platform" ∧
      ruleMissingTags (payload "r-1" .ec2 "eu-west-1" "web" r') ≠ .ok none ∧
      ¬ TagsRemediated "r-1" .ec2 "eu-west-1" "web" ownedInstance r' := by
  refine ⟨_, _, _, _, rfl, rfl, rfl, planAction_missingTags rfl (by simp), rfl, rfl, rfl, ?_, ?_⟩
  · rw [ne_eq, ruleMissingTags_none_iff]
    exact fun h => h "Service" (by decide) rfl
  · rintro ⟨hkept, -⟩
    exact absurd (hkept "Owner" "alice" rfl (by decide)) (by decide)

/-- An instance without an owner, its other tags given, is remediated. -/
theorem missing_tags_remediated_iff_unowned :
    ∃ action r' result, planAction [] untaggedFinding = .ok (some action) ∧
      action.actionType = .addMissingTag ∧ action.resourceId = "r-1" ∧
      applySimulatedAction unownedInstance action = .ok (r', result) ∧
      (TagsRemediated "r-1" .ec2 "eu-west-1" "web" unownedInstance r' ↔
        ∀ tag ∈ REQUIRED_TAGS, tag ≠ "Owner" →
          (unownedInstance.tags.get? tag).getD "" ≠ "") :=
  missing_tags_remediated_iff "r-1" .ec2 "eu-west-1" "web" unownedInstance _ [] untaggedFinding rfl
    rfl rfl (by simp)

end CloudOps.Analysis
