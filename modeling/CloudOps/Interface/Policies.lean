import CloudOps.Model.PolicyEngine

/-!
# What the policies say of a typed resource

The policy engine works on JSON; here each of its rules is a predicate on the typed
resource, `Policy.Violated`. `evaluate_payload` connects the two: on the payload of a
typed resource the engine raises nothing, and the ids of its findings are those of the
violated policies.
-/

set_option autoImplicit false

namespace CloudOps.Interface

open CloudOps.Computation CloudOps.Model

/-- The policies, one for each rule of the engine. -/
inductive Policy
  | lowUtilization | missingTags | publicStorage | missingAlarms | unhealthyService
  | missingBackup | repeatedErrors | elevatedLatency | failureRateIncrease
  deriving DecidableEq, Repr

namespace Policy

/-- The id under which the engine reports a violation. -/
def ruleId : Policy → String
  | lowUtilization => "ec2.low_utilization"
  | missingTags => "resource.missing_tags"
  | publicStorage => "s3.public_access"
  | missingAlarms => "cloudwatch.missing_alarms"
  | unhealthyService => "service.unhealthy"
  | missingBackup => "resource.missing_backup"
  | repeatedErrors => "app.repeated_errors"
  | elevatedLatency => "api.elevated_latency"
  | failureRateIncrease => "reliability.failure_rate_increase"

/-- The policies in the order of `RULES`. -/
def all : List Policy :=
  [lowUtilization, missingTags, publicStorage, missingAlarms, unhealthyService, missingBackup,
    repeatedErrors, elevatedLatency, failureRateIncrease]

/-- The list of rules is complete. -/
theorem mem_all (p : Policy) : p ∈ all := by cases p <;> decide

end Policy

/-- The production hints of a resource: its `Environment` tag and its name. -/
def Production (name : String) (tags : StringRecord) : Prop :=
  pyLower ((tags.get? "Environment").getD "") ∈ PRODUCTION_HINTS ∨
    pyIn "prod" (pyLower name) = true

/-- When a typed resource violates a policy. -/
def Policy.Violated (type : ResourceType) (name : String) (r : ResourceState) : Policy → Prop
  | .lowUtilization => type = .ec2 ∧ r.metrics.cpuUtilizationAvg.getD 0 < 10 ∧
      3 ≤ truncate (r.metrics.consecutiveLowUtilizationPeriods.getD 0)
  | .missingTags => ∃ tag ∈ REQUIRED_TAGS, (r.tags.get? tag).getD "" = ""
  | .publicStorage => type = .s3 ∧ r.config.publicAccess = some true
  | .missingAlarms => type ≠ .cloudwatch ∧ r.config.alarms.getD [] = [] ∧ Production name r.tags
  | .unhealthyService => r.config.healthCheckStatus = some .unhealthy
  | .missingBackup => (type = .ec2 ∨ type = .s3) ∧ r.config.backupEnabled = some false ∧
      Production name r.tags
  | .repeatedErrors => 5 / 100 < r.metrics.errorRate.getD 0 ∧
      10 < truncate (r.metrics.errorCount.getD 0)
  | .elevatedLatency => 1000 < r.metrics.p99LatencyMs.getD 0
  | .failureRateIncrease => 1 / 10 < r.metrics.failureRateDelta.getD 0

/-- The outcome of a rule decides `P`: nothing is raised, and something is found exactly if
`P`, under the rule id `ruleId`. -/
def Decides (outcome : Except PyError (Option FindingOut)) (ruleId : String) (P : Prop) : Prop :=
  ∃ result, outcome = .ok result ∧ (result.isSome ↔ P) ∧
    ∀ finding ∈ result, finding.ruleId = ruleId

section Decides

variable {rest : Except PyError (Option FindingOut)} {finding : FindingOut} {ruleId : String}
  {P : Prop} {b : Bool}

/-- Finding nothing decides a property that fails. -/
theorem Decides.clears (hP : ¬ P) : Decides (pure none) ruleId P :=
  ⟨none, rfl, by simpa using hP, by simp⟩

/-- Finding something decides a property that holds. -/
theorem Decides.finds (hP : P) (hid : finding.ruleId = ruleId) :
    Decides (pure (some finding)) ruleId P :=
  ⟨some finding, rfl, by simpa using hP, by simpa using hid⟩

/-- A rule that ends in one test. -/
theorem Decides.test (hP : b = true ↔ P) (hid : finding.ruleId = ruleId) :
    Decides (if b then pure (some finding) else pure none) ruleId P := by
  cases b with
  | true => exact Decides.finds (hP.mp rfl) hid
  | false => exact Decides.clears fun h => Bool.false_ne_true (hP.mpr h)

/-- A rule that leaves early. -/
theorem Decides.unless (hP : b = true → ¬ P) (hrest : b = false → Decides rest ruleId P) :
    Decides (if b then pure none else rest) ruleId P := by
  cases b with
  | true => exact Decides.clears (hP rfl)
  | false => exact hrest rfl

end Decides

/-! ## Reading a typed resource through its payload -/

section Typed

variable (numerals : PyNumerals) (id : String) (type : ResourceType) (region name : String)
  (r : ResourceState)

/-- The engine takes a resource for production exactly when it is. -/
theorem isProd_payload :
    isProd (payload id type region name r) = true ↔ Production name r.tags := by
  simp [isProd, payload, Production]

variable {numerals} in
/-- The default of an absent metric. -/
theorem pyFloat_zero : pyFloat numerals (.int 0) = .ok (.fin 0) := by
  have hpos : ∀ m n : ℕ, m < n → 0 < 2 ^ n - 2 ^ m := fun m n h =>
    Nat.sub_pos_of_lt (Nat.pow_lt_pow_right one_lt_two h)
  have hzero : Int.natAbs 0 < 2 ^ 1024 - 2 ^ 970 := hpos 970 1024 (by omega)
  rw [pyFloat, if_pos hzero]
  simp [pure, Except.pure]

variable {numerals} in
/-- `float(metrics.get(key) or 0)` reads a typed number, `0` if it is absent. -/
theorem pyFloat_number {d : Dict String PyVal} {key : String} {q : Option ℚ}
    (h : d.get? key = q.map pyNumber) :
    pyFloat numerals ((pyGet d key).or (.int 0)) = .ok (.fin (q.getD 0)) := by
  rw [pyGet, h]
  cases q with
  | none => exact pyFloat_zero
  | some q =>
      by_cases hq : q = 0
      · subst hq; exact pyFloat_zero
      · simp [PyVal.or, PyVal.truthy, pyFloat, pyNumber, hq, pure, Except.pure]

variable {numerals} in
/-- `int(metrics.get(key) or 0)` truncates a typed number, `0` if it is absent. -/
theorem pyInt_number {d : Dict String PyVal} {key : String} {q : Option ℚ}
    (h : d.get? key = q.map pyNumber) :
    pyInt numerals ((pyGet d key).or (.int 0)) = .ok (truncate (q.getD 0)) := by
  rw [pyGet, h]
  cases q with
  | none => simp [PyVal.or, PyVal.truthy, pyInt, truncate, pure, Except.pure]
  | some q =>
      by_cases hq : q = 0
      · subst hq; simp [PyVal.or, PyVal.truthy, pyInt, pyNumber, truncate, pure, Except.pure]
      · simp [PyVal.or, PyVal.truthy, pyInt, pyNumber, hq, pure, Except.pure]

/-! ## The rules, one by one

Each proof reads the fields the rule reads and splits as the rule does. -/

/-- The rule about low utilization decides its policy.
SRCLINE: services/diagnostics/app/engine.py:23-50 -/
theorem decides_lowUtilization :
    Decides (ruleLowUtilization numerals (payload id type region name r))
      Policy.lowUtilization.ruleId (Policy.lowUtilization.Violated type name r) := by
  have hcpu : pyFloat numerals (metricOrZero (payload id type region name r) "cpuUtilizationAvg") =
      .ok (.fin (r.metrics.cpuUtilizationAvg.getD 0)) :=
    pyFloat_number (Dict.get?_ofFields (by simp) (by simp))
  have hperiods : pyInt numerals (metricOrZero (payload id type region name r)
      "consecutiveLowUtilizationPeriods") =
      .ok (truncate (r.metrics.consecutiveLowUtilizationPeriods.getD 0)) :=
    pyInt_number (Dict.get?_ofFields (by simp) (by simp))
  unfold ruleLowUtilization
  rw [hcpu, hperiods]
  refine Decides.unless (fun htype hv => ?_) fun htype => Decides.test ?_ rfl
  · obtain ⟨rfl, -⟩ := hv
    simp [payload, ResourceType.name] at htype
  · have htype : type = .ec2 := by
      cases type <;> simp_all [payload, ResourceType.name]
    simp [Policy.Violated, htype, PyFloat.ltNum]

/-- The rule about missing tags decides its policy.
SRCLINE: services/diagnostics/app/engine.py:53-70 -/
theorem decides_missingTags :
    Decides (ruleMissingTags (payload id type region name r))
      Policy.missingTags.ruleId (Policy.missingTags.Violated type name r) := by
  refine Decides.unless (fun hempty hv => ?_) fun hsome => Decides.finds ?_ rfl
  · obtain ⟨tag, hmem, htag⟩ := hv
    have hmissing : tag ∈ missingTags r.tags := by simp [missingTags, hmem, htag]
    have hnil : missingTags r.tags = [] := List.isEmpty_iff.mp hempty
    rw [hnil] at hmissing
    exact absurd hmissing List.not_mem_nil
  · obtain ⟨tag, htag⟩ := List.exists_mem_of_ne_nil (missingTags r.tags) (by
      intro hnil; simp [payload, hnil] at hsome)
    simp only [missingTags, List.mem_filter, beq_iff_eq] at htag
    exact ⟨tag, htag⟩

/-- The rule about public storage decides its policy.
SRCLINE: services/diagnostics/app/engine.py:73-91 -/
theorem decides_publicStorage :
    Decides (rulePublicS3 (payload id type region name r))
      Policy.publicStorage.ruleId (Policy.publicStorage.Violated type name r) := by
  have hpublic : pyGet (payload id type region name r).config "publicAccess" =
      (r.config.publicAccess.map .bool).getD .none :=
    congrArg (Option.getD · PyVal.none) (Dict.get?_ofFields (by simp) (by simp))
  unfold rulePublicS3
  rw [hpublic]
  refine Decides.unless (fun htype hv => ?_) fun htype => ?_
  · obtain ⟨rfl, -⟩ := hv
    simp [payload, ResourceType.name] at htype
  · have htype : type = .s3 := by
      cases type <;> simp_all [payload, ResourceType.name]
    cases h : r.config.publicAccess with
    | none => exact Decides.clears (by simp [Policy.Violated, h])
    | some b =>
        cases b with
        | false => exact Decides.clears (by simp [Policy.Violated, h])
        | true => exact Decides.finds ⟨htype, h⟩ rfl

/-- The rule about missing alarms decides its policy.
SRCLINE: services/diagnostics/app/engine.py:94-113 -/
theorem decides_missingAlarms :
    Decides (ruleMissingAlarms (payload id type region name r))
      Policy.missingAlarms.ruleId (Policy.missingAlarms.Violated type name r) := by
  have halarms : (pyGet (payload id type region name r).config "alarms").or (.list []) =
      .list ((r.config.alarms.getD []).map .str) := by
    rw [pyGet, show (payload id type region name r).config.get? "alarms" =
      r.config.alarms.map fun alarms => .list (alarms.map .str) from
        Dict.get?_ofFields (by simp) (by simp)]
    rcases r.config.alarms with _ | _ | _ <;> rfl
  unfold ruleMissingAlarms
  rw [halarms]
  refine Decides.unless (fun htype hv => ?_) fun htype => ?_
  · have hne := hv.1
    cases type <;> simp_all [payload, ResourceType.name]
  · have htype : type ≠ .cloudwatch := by
      rintro rfl; simp [payload, ResourceType.name] at htype
    by_cases hprod : isProd (payload id type region name r)
    · have hprod' := (isProd_payload id type region name r).mp hprod
      simp only [hprod, if_true]
      refine Decides.test ?_ rfl
      simp [Policy.Violated, htype, hprod']
    · rw [if_neg hprod]
      exact Decides.clears fun hv => hprod ((isProd_payload id type region name r).mpr hv.2.2)

/-- The rule about unhealthy services decides its policy.
SRCLINE: services/diagnostics/app/engine.py:116-133 -/
theorem decides_unhealthyService :
    Decides (ruleUnhealthyService (payload id type region name r))
      Policy.unhealthyService.ruleId (Policy.unhealthyService.Violated type name r) := by
  have hstatus : pyGet (payload id type region name r).config "healthCheckStatus" =
      (r.config.healthCheckStatus.map fun status => .str status.name).getD .none :=
    congrArg (Option.getD · PyVal.none) (Dict.get?_ofFields (by simp) (by simp))
  unfold ruleUnhealthyService
  rw [hstatus]
  cases h : r.config.healthCheckStatus with
  | none => exact Decides.clears (by simp [Policy.Violated, h])
  | some status =>
      cases status with
      | healthy => exact Decides.clears (by simp [Policy.Violated, h])
      | unhealthy => exact Decides.finds h rfl
      | unknown => exact Decides.clears (by simp [Policy.Violated, h])

/-- The rule about missing backups decides its policy.
SRCLINE: services/diagnostics/app/engine.py:136-154 -/
theorem decides_missingBackup :
    Decides (ruleMissingBackup (payload id type region name r))
      Policy.missingBackup.ruleId (Policy.missingBackup.Violated type name r) := by
  have hbackup : pyGet (payload id type region name r).config "backupEnabled" =
      (r.config.backupEnabled.map .bool).getD .none :=
    congrArg (Option.getD · PyVal.none) (Dict.get?_ofFields (by simp) (by simp))
  unfold ruleMissingBackup
  rw [hbackup]
  refine Decides.unless (fun htype hv => ?_) fun htype => ?_
  · rcases hv.1 with rfl | rfl <;> simp [payload, ResourceType.name, STATEFUL_TYPES] at htype
  · have htype : type = .ec2 ∨ type = .s3 := by
      cases type <;> simp_all [payload, ResourceType.name, STATEFUL_TYPES]
    cases h : r.config.backupEnabled with
    | none => exact Decides.clears (by simp [Policy.Violated, h])
    | some b =>
        cases b with
        | true => exact Decides.clears (by simp [Policy.Violated, h])
        | false =>
            refine Decides.test ?_ rfl
            rw [isProd_payload]
            simp [Policy.Violated, htype, h]

/-- The rule about repeated errors decides its policy.
SRCLINE: services/diagnostics/app/engine.py:157-175 -/
theorem decides_repeatedErrors :
    Decides (ruleRepeatedErrors numerals (payload id type region name r))
      Policy.repeatedErrors.ruleId (Policy.repeatedErrors.Violated type name r) := by
  have hrate : pyFloat numerals (metricOrZero (payload id type region name r) "errorRate") =
      .ok (.fin (r.metrics.errorRate.getD 0)) :=
    pyFloat_number (Dict.get?_ofFields (by simp) (by simp))
  have hcount : pyInt numerals (metricOrZero (payload id type region name r) "errorCount") =
      .ok (truncate (r.metrics.errorCount.getD 0)) :=
    pyInt_number (Dict.get?_ofFields (by simp) (by simp))
  unfold ruleRepeatedErrors
  rw [hrate, hcount]
  exact Decides.test (by simp [Policy.Violated, PyFloat.gtNum]) rfl

/-- The rule about elevated latency decides its policy.
SRCLINE: services/diagnostics/app/engine.py:178-195 -/
theorem decides_elevatedLatency :
    Decides (ruleElevatedLatency numerals (payload id type region name r))
      Policy.elevatedLatency.ruleId (Policy.elevatedLatency.Violated type name r) := by
  have hlatency : pyFloat numerals (metricOrZero (payload id type region name r) "p99LatencyMs") =
      .ok (.fin (r.metrics.p99LatencyMs.getD 0)) :=
    pyFloat_number (Dict.get?_ofFields (by simp) (by simp))
  unfold ruleElevatedLatency
  rw [hlatency]
  exact Decides.test (by simp [Policy.Violated, PyFloat.gtNum]) rfl

/-- The rule about a rising failure rate decides its policy.
SRCLINE: services/diagnostics/app/engine.py:198-215 -/
theorem decides_failureRateIncrease :
    Decides (ruleFailureRateIncrease numerals (payload id type region name r))
      Policy.failureRateIncrease.ruleId (Policy.failureRateIncrease.Violated type name r) := by
  have hdelta : pyFloat numerals (metricOrZero (payload id type region name r)
      "failureRateDelta") = .ok (.fin (r.metrics.failureRateDelta.getD 0)) :=
    pyFloat_number (Dict.get?_ofFields (by simp) (by simp))
  unfold ruleFailureRateIncrease
  rw [hdelta]
  exact Decides.test (by simp [Policy.Violated, PyFloat.gtNum]) rfl

/-- The rule behind a policy. -/
def Policy.rule : Policy → ResourcePayload → Except PyError (Option FindingOut)
  | .lowUtilization => ruleLowUtilization numerals
  | .missingTags => ruleMissingTags
  | .publicStorage => rulePublicS3
  | .missingAlarms => ruleMissingAlarms
  | .unhealthyService => ruleUnhealthyService
  | .missingBackup => ruleMissingBackup
  | .repeatedErrors => ruleRepeatedErrors numerals
  | .elevatedLatency => ruleElevatedLatency numerals
  | .failureRateIncrease => ruleFailureRateIncrease numerals

/-- **Each rule decides its policy** on the payload of a typed resource.
SRCLINE: services/diagnostics/app/engine.py:23-215 -/
theorem decides_policy (p : Policy) :
    Decides (p.rule numerals (payload id type region name r)) p.ruleId
      (p.Violated type name r) := by
  cases p with
  | lowUtilization => exact decides_lowUtilization numerals id type region name r
  | missingTags => exact decides_missingTags id type region name r
  | publicStorage => exact decides_publicStorage id type region name r
  | missingAlarms => exact decides_missingAlarms id type region name r
  | unhealthyService => exact decides_unhealthyService id type region name r
  | missingBackup => exact decides_missingBackup id type region name r
  | repeatedErrors => exact decides_repeatedErrors numerals id type region name r
  | elevatedLatency => exact decides_elevatedLatency numerals id type region name r
  | failureRateIncrease => exact decides_failureRateIncrease numerals id type region name r

/-- The loop over the rules of a list of policies finds the violated ones. -/
theorem evaluateRules_payload (policies : List Policy) :
    ∃ findings, evaluateRules (payload id type region name r)
        (policies.map (·.rule numerals)) = .ok findings ∧
      ∀ ruleId, ruleId ∈ findings.map (·.ruleId) ↔
        ∃ p ∈ policies, p.ruleId = ruleId ∧ p.Violated type name r := by
  induction policies with
  | nil => exact ⟨[], rfl, by simp⟩
  | cons p policies ih =>
      obtain ⟨findings, hrun, hids⟩ := ih
      obtain ⟨result, hresult, hsome, hid⟩ := decides_policy numerals id type region name r p
      refine ⟨result.toList ++ findings, ?_, fun ruleId => ?_⟩
      · simp only [List.map_cons, evaluateRules, hresult, hrun]
        rfl
      · cases result with
        | none =>
            have hclear : ¬ p.Violated type name r := by simpa using hsome
            simp [hids, hclear]
        | some finding =>
            have hv : p.Violated type name r := by simpa using hsome
            have hfid : finding.ruleId = p.ruleId := hid finding rfl
            simp [hids, hv, hfid, eq_comm]

/-- **The engine on a typed resource**: it raises nothing, and the ids of its findings are
those of the violated policies.
SRCLINE: services/diagnostics/app/engine.py:231-237 -/
theorem evaluate_payload :
    ∃ findings, evaluate numerals (payload id type region name r) = .ok findings ∧
      ∀ ruleId, ruleId ∈ findings.map (·.ruleId) ↔
        ∃ p : Policy, p.ruleId = ruleId ∧ p.Violated type name r := by
  obtain ⟨findings, hrun, hids⟩ := evaluateRules_payload numerals id type region name r Policy.all
  exact ⟨findings, hrun, fun ruleId => by simp [hids, Policy.mem_all]⟩

end Typed

end CloudOps.Interface
