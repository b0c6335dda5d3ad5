import CloudOps.Computation.Overwrites
import CloudOps.Interface.ResourceActions

/-!
# Actions as changes with targets

What an allowlisted action does to a resource is a `Change`: it sets a tag, adds an alarm,
or sets one of three switches. Changes of different targets do not meet, and a change
replaces what its target holds: they are `Overwriting` updates. A change is in place where
making it would alter nothing; `applyAll_keeps_iff` and `applyAll_eq_self_iff` say when a
list of changes leaves a resource as it is.
-/

set_option autoImplicit false

namespace CloudOps.Interface

open CloudOps.Computation CloudOps.Model

/-- What the five actions do. -/
inductive Change
  | tag (key value : String)
  | alarm (name : String)
  | backup
  | restart
  | restrict
  deriving DecidableEq

/-- The part of a resource a change is about. -/
inductive Target
  | tag (key : String)
  | alarm (name : String)
  | backup
  | health
  | publicAccess
  deriving DecidableEq

namespace Change

def target : Change → Target
  | .tag key _ => .tag key
  | .alarm name => .alarm name
  | .backup => .backup
  | .restart => .health
  | .restrict => .publicAccess

/-- Makes a change to a resource. -/
def apply (r : ResourceState) : Change → ResourceState
  | .tag key value => { r.next with tags := r.next.tags.set key value }
  | .alarm name => { r.next with config := { r.next.config with
      alarms := some (withAlarm (r.config.alarms.getD []) name) } }
  | .backup => { r.next with config := { r.next.config with backupEnabled := some true } }
  | .restart => { r.next with
      config := { r.next.config with healthCheckStatus := some .healthy }
      metrics := { r.next.metrics with
        errorRate := some (min (r.metrics.errorRate.getD 0) (1 / 100)) } }
  | .restrict => { r.next with config := { r.next.config with publicAccess := some false } }

end Change

/-- The change an action makes, `none` if it is not allowlisted. -/
def changeOf (action : RemediationAction) : Option Change :=
  match action.actionType with
  | .addMissingTag => some (.tag (tagKey action) (tagValue action))
  | .createAlarm => some (.alarm (alarmName action))
  | .enableBackupPolicy => some .backup
  | .restartUnhealthyService => some .restart
  | .restrictPublicStorage => some .restrict
  | _ => none

variable {r : ResourceState} {action : RemediationAction} {alarms : List String}
  {alarm alarm' : String}

/-- Every allowlisted action makes a change. -/
theorem exists_changeOf (h : action.actionType ∈ ALLOWLISTED_ACTIONS) :
    ∃ change, changeOf action = some change := by
  unfold changeOf
  rcases mem_allowlisted.mp h with h | h | h | h | h <;> rw [h] <;> exact ⟨_, rfl⟩

/-- **An allowlisted action makes its change.**
SRCLINE: packages/shared/src/remediation/engine.ts:26-97 -/
theorem effect_eq_change (h : action.actionType ∈ ALLOWLISTED_ACTIONS) :
    ∃ change, changeOf action = some change ∧ effect r action = change.apply r := by
  unfold changeOf
  rcases mem_allowlisted.mp h with h | h | h | h | h <;> rw [h]
  · exact ⟨_, rfl, effect_addMissingTag h⟩
  · exact ⟨_, rfl, effect_createAlarm h⟩
  · exact ⟨_, rfl, effect_enableBackupPolicy h⟩
  · exact ⟨_, rfl, effect_restartUnhealthyService h⟩
  · exact ⟨_, rfl, effect_restrictPublicStorage h⟩

/-! ## Alarms -/

/-- The alarms are the old ones and the one added. -/
@[simp] theorem mem_withAlarm :
    alarm' ∈ withAlarm alarms alarm ↔ alarm' ∈ alarms ∨ alarm' = alarm := by
  unfold withAlarm
  split
  · next h =>
    refine ⟨Or.inl, ?_⟩
    rintro (h' | rfl)
    · exact h'
    · exact h
  · simp

/-- Adding an alarm changes nothing exactly when it is there. -/
theorem withAlarm_eq_self_iff : withAlarm alarms alarm = alarms ↔ alarm ∈ alarms := by
  unfold withAlarm
  split
  · next h => simp [h]
  · next h => simp [h]

/-- Adding an alarm twice is adding it once. -/
@[simp] theorem withAlarm_withAlarm :
    withAlarm (withAlarm alarms alarm) alarm = withAlarm alarms alarm := by
  rw [withAlarm_eq_self_iff, mem_withAlarm]
  exact Or.inr rfl

/-- An alarm that is there commutes with the others. -/
theorem withAlarm_comm (h : alarm ∈ alarms) :
    withAlarm (withAlarm alarms alarm) alarm' = withAlarm (withAlarm alarms alarm') alarm := by
  rw [withAlarm_eq_self_iff.mpr h, withAlarm_eq_self_iff.mpr (mem_withAlarm.mpr (Or.inl h))]

/-! ## Changes overwrite their targets -/

/-- A target is present: a change of it is made in place. -/
def HasTarget (r : ResourceState) : Target → Prop
  | .tag key => (r.tags.get? key).isSome
  | .alarm name => name ∈ r.config.alarms.getD []
  | _ => True

/-- **Changes overwrite their targets and nothing else.** -/
def changes : Overwriting ResourceState Change Target where
  apply := Change.apply
  target := Change.target
  norm := ResourceState.next
  Has := HasTarget
  apply_norm := by
    intro s a
    cases a <;> rfl
  norm_apply := by
    intro s a
    cases a <;> rfl
  absorb := by
    intro s a b h
    cases a <;> cases b <;> simp_all [Change.target, Change.apply, ResourceState.next]
  comm := by
    intro s a b h hhas
    cases a <;> cases b <;> simp_all [Change.target, Change.apply, ResourceState.next, HasTarget]
    case tag.tag => exact Dict.set_comm h hhas
    case alarm.alarm => exact withAlarm_comm hhas
  has_apply := by
    intro s t b h
    cases t <;> cases b <;> simp_all [HasTarget, Change.apply, ResourceState.next]
    case tag.tag => rw [Dict.get?_set]; split <;> simp [h]
  has_of_inEffect := by
    intro s a h
    cases a <;> simp_all [HasTarget, Change.apply, Change.target, ResourceState.next]
    case tag => rw [Dict.set_eq_self_iff.mp h]; rfl
    case alarm => exact withAlarm_eq_self_iff.mp h
  inEffect_apply := by
    intro s a b h
    cases a <;> cases b <;> simp_all [Change.target, Change.apply, ResourceState.next]
    case tag.tag => rw [Dict.set_eq_self_iff, Dict.set_eq_self_iff, Dict.get?_set_ne h]
    case alarm.alarm => simp [withAlarm_eq_self_iff, h]

/-- Allowlisted actions are applied as their changes. -/
theorem foldl_effect_eq_applyAll {actions : List RemediationAction}
    (h : ∀ action ∈ actions, action.actionType ∈ ALLOWLISTED_ACTIONS) :
    actions.foldl effect r = changes.applyAll r (actions.filterMap changeOf) := by
  induction actions generalizing r with
  | nil => rfl
  | cons action actions ih =>
      obtain ⟨change, hchange, heffect⟩ := effect_eq_change (r := r) (h action List.mem_cons_self)
      rw [List.foldl_cons, List.filterMap_cons_some hchange, heffect]
      exact ih fun a ha => h a (List.mem_cons_of_mem _ ha)

/-- Allowlisted actions make changes. -/
theorem filterMap_changeOf_ne_nil {actions : List RemediationAction} (hne : actions ≠ [])
    (h : ∀ action ∈ actions, action.actionType ∈ ALLOWLISTED_ACTIONS) :
    actions.filterMap changeOf ≠ [] := by
  obtain ⟨action, actions, rfl⟩ := List.exists_cons_of_ne_nil hne
  obtain ⟨change, hchange⟩ := exists_changeOf (h action List.mem_cons_self)
  rw [List.filterMap_cons_some hchange]
  exact List.cons_ne_nil _ _

/-! ## Changes that are in place -/

section InPlace

variable {r' : ResourceState} {c : Change} {cs : List Change}

/-- The change is in place: to make it again alters neither tags nor config. -/
def Change.Holds (r : ResourceState) : Change → Prop
  | .tag key value => r.tags.get? key = some value
  | .alarm name => name ∈ r.config.alarms.getD []
  | .backup => r.config.backupEnabled = some true
  | .restart => r.config.healthCheckStatus = some .healthy
  | .restrict => r.config.publicAccess = some false

/-- To restart the service again would not change its error rate. -/
def Recovered (r : ResourceState) : Prop := ∃ rate ≤ 1 / 100, some rate = r.metrics.errorRate

/-- Capping the error rate changes nothing exactly when it is given and within the cap. -/
theorem min_errorRate_iff {rate? : Option ℚ} :
    some (min (rate?.getD 0) (1 / 100)) = rate? ↔ ∃ rate ≤ 1 / 100, some rate = rate? := by
  cases rate? with
  | none => simp
  | some rate => simp

/-- **When a change is in effect**: it is in place, and a restart finds the service recovered. -/
theorem inEffect_iff : changes.InEffect r c ↔ c.Holds r ∧ (c = .restart → Recovered r) := by
  obtain ⟨tags, ⟨_, _, alarms, _, _, _, _⟩, ⟨_, _, errorRate, _, _, _, _⟩⟩ := r
  show c.apply _ = ResourceState.next _ ↔ _
  cases c with
  | tag key value => simp [Change.apply, ResourceState.next, Change.Holds, Dict.set_eq_self_iff]
  | alarm name => simp [Change.apply, ResourceState.next, Change.Holds, withAlarm_eq_self_iff]
  | backup => simp [Change.apply, ResourceState.next, Change.Holds, eq_comm]
  | restart =>
      simp only [Change.apply, ResourceState.next, Change.Holds, Recovered, ResourceState.mk.injEq,
        ResourceConfig.mk.injEq, ResourceMetrics.mk.injEq, true_and, and_true, forall_const,
        min_errorRate_iff, @eq_comm _ (some HealthCheckStatus.healthy)]
  | restrict => simp [Change.apply, ResourceState.next, Change.Holds, eq_comm]

/-- The changes are in place: the resource has a list of alarms, and every change that no later
one overwrites is in place. -/
structure InPlace (r : ResourceState) (cs : List Change) : Prop where
  alarms : r.config.alarms.isSome
  holds : ∀ pre c post, cs = pre ++ c :: post → (∀ d ∈ post, d.target ≠ c.target) → c.Holds r

/-- The next state is the same exactly when there is a list of alarms. -/
theorem next_eq_self_iff : r.next = r ↔ r.config.alarms.isSome := by
  obtain ⟨tags, ⟨_, _, alarms, _, _, _, _⟩, metrics⟩ := r
  cases alarms with
  | none => simp [ResourceState.next]
  | some alarms => simp [ResourceState.next]

/-- The last restart of a list is not overwritten. -/
theorem exists_last_restart (h : .restart ∈ cs) : ∃ pre post, cs = pre ++ .restart :: post ∧
    ∀ d ∈ post, d.target ≠ Change.target .restart := by
  obtain ⟨post, pre, hsplit, hlast⟩ := List.eq_append_cons_of_mem (List.mem_reverse.mpr h)
  refine ⟨pre.reverse, post.reverse, ?_, fun d hd => ?_⟩
  · rw [← List.reverse_reverse cs, hsplit]
    simp
  · have hne : d ≠ .restart := by
      rintro rfl
      exact hlast (List.mem_reverse.mp hd)
    cases d with
    | restart => exact absurd rfl hne
    | _ => simp [Change.target]

/-- **When changes leave a resource as it is**, its metrics included. -/
theorem applyAll_eq_self_iff (h : cs ≠ []) : changes.applyAll r cs = r ↔
    InPlace r cs ∧ (.restart ∈ cs → Recovered r) := by
  rw [Overwriting.applyAll_eq_self_iff h]
  show r.next = r ∧ _ ↔ _
  rw [next_eq_self_iff]
  constructor
  · rintro ⟨halarms, heffect⟩
    refine ⟨⟨halarms, fun pre c post hsplit hpost =>
      (inEffect_iff.mp (heffect pre c post hsplit hpost)).1⟩, fun hmem => ?_⟩
    obtain ⟨pre, post, hsplit, hpost⟩ := exists_last_restart hmem
    exact (inEffect_iff.mp (heffect pre _ post hsplit hpost)).2 rfl
  · rintro ⟨hplace, hrecovered⟩
    refine ⟨hplace.alarms, fun pre c post hsplit hpost => ?_⟩
    refine inEffect_iff.mpr ⟨hplace.holds pre c post hsplit hpost, ?_⟩
    rintro rfl
    exact hrecovered (by simp [hsplit])

/-- Tags and config after a change depend on tags and config before it. -/
theorem apply_congr (htags : r'.tags = r.tags) (hconfig : r'.config = r.config) :
    (c.apply r').tags = (c.apply r).tags ∧ (c.apply r').config = (c.apply r).config := by
  cases c <;> simp [Change.apply, ResourceState.next, htags, hconfig]

/-- Tags and config after changes do not depend on the metrics. -/
theorem applyAll_congr (htags : r'.tags = r.tags) (hconfig : r'.config = r.config) :
    (changes.applyAll r' cs).tags = (changes.applyAll r cs).tags ∧
      (changes.applyAll r' cs).config = (changes.applyAll r cs).config := by
  induction cs generalizing r r' with
  | nil => exact ⟨htags, hconfig⟩
  | cons c cs ih =>
      obtain ⟨htags', hconfig'⟩ := apply_congr (c := c) htags hconfig
      exact ih htags' hconfig'

/-- The resource with its service at rest: a restart leaves its metrics alone. -/
def atRest (r : ResourceState) : ResourceState :=
  { r with metrics := { r.metrics with errorRate := some 0 } }

/-- A change leaves the metrics alone once the error rate is zero. -/
theorem metrics_apply (h : r.metrics.errorRate = some 0) : (c.apply r).metrics = r.metrics := by
  obtain ⟨tags, config, ⟨_, _, errorRate, _, _, _, _⟩⟩ := r
  cases c with
  | restart =>
      obtain rfl : errorRate = some 0 := h
      simp [Change.apply, ResourceState.next]
  | _ => rfl

/-- Changes leave the metrics alone once the error rate is zero. -/
theorem metrics_applyAll (h : r.metrics.errorRate = some 0) :
    (changes.applyAll r cs).metrics = r.metrics := by
  induction cs generalizing r with
  | nil => rfl
  | cons c cs ih =>
      have hmetrics : (c.apply r).metrics = r.metrics := metrics_apply h
      exact (ih (hmetrics ▸ h)).trans hmetrics

/-- **When changes leave tags and config as they are**: when they are in place. -/
theorem applyAll_keeps_iff (h : cs ≠ []) : ((changes.applyAll r cs).tags = r.tags ∧
    (changes.applyAll r cs).config = r.config) ↔ InPlace r cs := by
  have hcongr : (changes.applyAll (atRest r) cs).tags = (changes.applyAll r cs).tags ∧
      (changes.applyAll (atRest r) cs).config = (changes.applyAll r cs).config :=
    applyAll_congr rfl rfl
  obtain ⟨htags, hconfig⟩ := hcongr
  have hmetrics : (changes.applyAll (atRest r) cs).metrics = (atRest r).metrics :=
    metrics_applyAll rfl
  have hrest : changes.applyAll (atRest r) cs = atRest r ↔ InPlace (atRest r) cs := by
    rw [applyAll_eq_self_iff h]
    exact and_iff_left fun _ => ⟨0, by norm_num, rfl⟩
  have hplace : InPlace (atRest r) cs ↔ InPlace r cs :=
    ⟨fun hp => ⟨hp.alarms, hp.holds⟩, fun hp => ⟨hp.alarms, hp.holds⟩⟩
  rw [← hplace, ← hrest, ← htags, ← hconfig]
  constructor
  · rintro ⟨ht, hc⟩
    calc changes.applyAll (atRest r) cs
        = ⟨(changes.applyAll (atRest r) cs).tags, (changes.applyAll (atRest r) cs).config,
          (changes.applyAll (atRest r) cs).metrics⟩ := rfl
      _ = atRest r := by rw [ht, hc, hmetrics]; rfl
  · intro heq
    rw [heq]
    exact ⟨rfl, rfl⟩

end InPlace

end CloudOps.Interface
