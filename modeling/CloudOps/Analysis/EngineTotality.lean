import CloudOps.Interface.EngineReports

/-!
# When the engine answers

A rule converts the values it reads before it looks at their types. `float`, `int` and `len`
refuse some JSON, and a rule that raises takes the whole request with it. `Readable` says which
values each rule can read; `analyze_answers_iff` says that the engine answers exactly the
requests whose resources are all readable.
-/

set_option autoImplicit false

namespace CloudOps.Analysis

open CloudOps.Computation CloudOps.Model CloudOps.Interface

/-! ## Values that can be converted -/

/-- `float(v or 0)` converts the value. -/
def FloatReadable (numerals : PyNumerals) : PyVal → Prop
  | .none | .bool _ | .float _ => True
  | .int n => n.natAbs < 2 ^ 1024 - 2 ^ 970
  | .str s => s = "" ∨ (numerals.float s).isSome
  | .list items => items = []
  | .dict entries => entries = []

/-- `int(v or 0)` converts the value. -/
def IntReadable (numerals : PyNumerals) : PyVal → Prop
  | .none | .bool _ | .int _ => True
  | .float x => ∃ q, x = .fin q
  | .str s => s = "" ∨ (numerals.int s).isSome
  | .list items => items = []
  | .dict entries => entries = []

/-- `len(v or [])` measures the value. -/
def Sized : PyVal → Prop
  | .none | .str _ | .list _ | .dict _ => True
  | .bool b => b = false
  | .int n => n = 0
  | .float x => x = .fin 0

/-- What a rule can read of a resource.
SRCLINE: services/diagnostics/app/engine.py:23-215 -/
def Readable (numerals : PyNumerals) (resource : ResourcePayload) : Policy → Prop
  | .lowUtilization =>
      FloatReadable numerals (pyGet resource.metrics "cpuUtilizationAvg") ∧
        IntReadable numerals (pyGet resource.metrics "consecutiveLowUtilizationPeriods")
  | .missingAlarms => resource.type ≠ "cloudwatch" → isProd resource = true →
      Sized (pyGet resource.config "alarms")
  | .repeatedErrors => FloatReadable numerals (pyGet resource.metrics "errorRate") ∧
      IntReadable numerals (pyGet resource.metrics "errorCount")
  | .elevatedLatency => FloatReadable numerals (pyGet resource.metrics "p99LatencyMs")
  | .failureRateIncrease => FloatReadable numerals (pyGet resource.metrics "failureRateDelta")
  | .missingTags | .publicStorage | .unhealthyService | .missingBackup => True

/-! ## Computations that raise nothing -/

/-- Nothing is raised. -/
def Quiet {α : Type} (x : Except PyError α) : Prop := ∃ a, x = .ok a

section Quiet

variable {α β : Type} {x y : Except PyError α} {f : α → Except PyError β} {a : α} {b : Bool}

/-- A value raises nothing. -/
@[simp] theorem quiet_ok : Quiet (.ok a : Except PyError α) := ⟨a, rfl⟩

/-- A pure value raises nothing. -/
@[simp] theorem quiet_pure : Quiet (pure a : Except PyError α) := ⟨a, rfl⟩

/-- An error is raised. -/
@[simp] theorem not_quiet_error (e : PyError) : ¬ Quiet (.error e : Except PyError α) := by
  rintro ⟨a, h⟩
  cases h

/-- What is thrown is raised. -/
@[simp] theorem not_quiet_throw (e : PyError) : ¬ Quiet (throw e : Except PyError α) :=
  not_quiet_error e

/-- A sequence raises nothing if its parts raise nothing. -/
theorem quiet_bind_iff : Quiet (x >>= f) ↔ ∃ a, x = .ok a ∧ Quiet (f a) := by
  cases x with
  | error e => simp [bind, Except.bind]
  | ok a => simp [bind, Except.bind]

/-- What follows raises nothing anyway. -/
theorem quiet_bind_of_quiet (h : ∀ a, Quiet (f a)) : Quiet (x >>= f) ↔ Quiet x := by
  rw [quiet_bind_iff]
  exact exists_congr fun a => and_iff_left (h a)

/-- A branching raises nothing if neither branch does. -/
theorem quiet_ite (hx : Quiet x) (hy : Quiet y) : Quiet (if b then x else y) := by
  cases b with
  | true => exact hx
  | false => exact hy

end Quiet

section Conversions

variable {numerals : PyNumerals} {v : PyVal}

/-- `or` gives its second operand where the first is falsy. -/
theorem or_of_falsy (h : v.truthy = false) (w : PyVal) : v.or w = w := by
  rw [PyVal.or, h]
  rfl

/-- `or` gives its first operand where that is truthy. -/
theorem or_of_truthy (h : v.truthy = true) (w : PyVal) : v.or w = v := by
  rw [PyVal.or, h]
  rfl

/-- An integer converts to a float exactly when it rounds to a finite one. -/
theorem quiet_pyFloat_int {n : ℤ} :
    Quiet (pyFloat numerals (.int n)) ↔ FloatReadable numerals (.int n) := by
  unfold FloatReadable
  by_cases hn : n.natAbs < 2 ^ 1024 - 2 ^ 970
  · rw [pyFloat, if_pos hn]
    exact iff_of_true quiet_pure hn
  · rw [pyFloat, if_neg hn]
    exact iff_of_false (not_quiet_throw _) hn

/-- What counts as false is zero to both conversions. -/
theorem readable_of_falsy (h : v.truthy = false) :
    FloatReadable numerals v ∧ IntReadable numerals v := by
  cases v with
  | none => exact ⟨trivial, trivial⟩
  | bool b => exact ⟨trivial, trivial⟩
  | int n =>
      obtain rfl : n = 0 := by simpa [PyVal.truthy] using h
      exact ⟨quiet_pyFloat_int.mp ⟨_, pyFloat_zero⟩, trivial⟩
  | float x =>
      have hx : x = .fin 0 := by simpa [PyVal.truthy] using h
      exact ⟨trivial, 0, hx⟩
  | str s =>
      have hs : s = "" := by simpa [PyVal.truthy] using h
      exact ⟨Or.inl hs, Or.inl hs⟩
  | list items =>
      have hitems : items = [] := by simpa [PyVal.truthy] using h
      exact ⟨hitems, hitems⟩
  | dict entries =>
      have hentries : entries = [] := by simpa [PyVal.truthy] using h
      exact ⟨hentries, hentries⟩

/-- What counts as false is empty to `len`. -/
theorem sized_of_falsy (h : v.truthy = false) : Sized v := by
  cases v with
  | bool b => exact h
  | int n => simpa [PyVal.truthy, Sized] using h
  | float x => simpa [PyVal.truthy, Sized] using h
  | _ => trivial

/-- `float` refuses null, lists, objects, integers beyond the floats, and strings that are no
numerals. -/
theorem quiet_pyFloat_of_truthy (h : v.truthy = true) :
    Quiet (pyFloat numerals v) ↔ FloatReadable numerals v := by
  cases v with
  | none => cases h
  | bool b => exact iff_of_true ⟨_, rfl⟩ trivial
  | int n => exact quiet_pyFloat_int
  | float x => exact iff_of_true ⟨_, rfl⟩ trivial
  | str s =>
      have hne : s ≠ "" := by simpa [PyVal.truthy] using h
      unfold FloatReadable pyFloat
      cases hs : numerals.float s with
      | none => simp [hne, hs]
      | some x => simp [hs]
  | list items =>
      exact iff_of_false (not_quiet_throw _) (by simpa [PyVal.truthy, FloatReadable] using h)
  | dict entries =>
      exact iff_of_false (not_quiet_throw _) (by simpa [PyVal.truthy, FloatReadable] using h)

/-- `int` refuses null, lists, objects, floats that are not finite, and strings that are no
numerals. -/
theorem quiet_pyInt_of_truthy (h : v.truthy = true) :
    Quiet (pyInt numerals v) ↔ IntReadable numerals v := by
  cases v with
  | none => cases h
  | bool b => exact iff_of_true ⟨_, rfl⟩ trivial
  | int n => exact iff_of_true ⟨_, rfl⟩ trivial
  | float x =>
      cases x with
      | fin q => exact iff_of_true ⟨_, rfl⟩ ⟨q, rfl⟩
      | posInf => exact iff_of_false (not_quiet_throw _) (by simp [IntReadable])
      | negInf => exact iff_of_false (not_quiet_throw _) (by simp [IntReadable])
      | nan => exact iff_of_false (not_quiet_throw _) (by simp [IntReadable])
  | str s =>
      have hne : s ≠ "" := by simpa [PyVal.truthy] using h
      unfold IntReadable pyInt
      cases hs : numerals.int s with
      | none => simp [hne, hs]
      | some n => simp [hs]
  | list items =>
      exact iff_of_false (not_quiet_throw _) (by simpa [PyVal.truthy, IntReadable] using h)
  | dict entries =>
      exact iff_of_false (not_quiet_throw _) (by simpa [PyVal.truthy, IntReadable] using h)

/-- **When `float(v or 0)` converts.** -/
theorem quiet_pyFloat_iff :
    Quiet (pyFloat numerals (v.or (.int 0))) ↔ FloatReadable numerals v := by
  by_cases h : v.truthy = true
  · rw [or_of_truthy h]
    exact quiet_pyFloat_of_truthy h
  · rw [or_of_falsy (Bool.eq_false_iff.mpr h)]
    exact iff_of_true ⟨_, pyFloat_zero⟩ (readable_of_falsy (Bool.eq_false_iff.mpr h)).1

/-- **When `int(v or 0)` converts.** -/
theorem quiet_pyInt_iff : Quiet (pyInt numerals (v.or (.int 0))) ↔ IntReadable numerals v := by
  by_cases h : v.truthy = true
  · rw [or_of_truthy h]
    exact quiet_pyInt_of_truthy h
  · rw [or_of_falsy (Bool.eq_false_iff.mpr h)]
    exact iff_of_true ⟨0, rfl⟩ (readable_of_falsy (Bool.eq_false_iff.mpr h)).2

/-- **When `len(v or [])` measures.** -/
theorem quiet_pyLen_iff : Quiet (pyLen (v.or (.list []))) ↔ Sized v := by
  by_cases h : v.truthy = true
  · rw [or_of_truthy h]
    cases v with
    | none => cases h
    | bool b =>
        exact iff_of_false (not_quiet_throw _) (by simpa [PyVal.truthy, Sized] using h)
    | int n => exact iff_of_false (not_quiet_throw _) (by simpa [PyVal.truthy, Sized] using h)
    | float x => exact iff_of_false (not_quiet_throw _) (by simpa [PyVal.truthy, Sized] using h)
    | str s => exact iff_of_true ⟨_, rfl⟩ trivial
    | list items => exact iff_of_true ⟨_, rfl⟩ trivial
    | dict entries => exact iff_of_true ⟨_, rfl⟩ trivial
  · rw [or_of_falsy (Bool.eq_false_iff.mpr h)]
    exact iff_of_true ⟨0, rfl⟩ (sized_of_falsy (Bool.eq_false_iff.mpr h))

end Conversions

/-! ## The rules -/

section Rules

variable {numerals : PyNumerals} {resource : ResourcePayload} {key : String}

/-- A metric or zero converts to a float exactly when `float(v or 0)` converts its value. -/
theorem quiet_float_metric_iff : Quiet (pyFloat numerals (metricOrZero resource key)) ↔
    FloatReadable numerals (pyGet resource.metrics key) := quiet_pyFloat_iff

/-- A metric or zero converts to an integer exactly when `int(v or 0)` converts its value. -/
theorem quiet_int_metric_iff : Quiet (pyInt numerals (metricOrZero resource key)) ↔
    IntReadable numerals (pyGet resource.metrics key) := quiet_pyInt_iff

/-- Two conversions one after the other, and nothing that raises after them. -/
theorem quiet_bind_bind_iff {α β γ : Type} {x : Except PyError α} {y : Except PyError β}
    {f : α → β → Except PyError γ} (h : ∀ a b, Quiet (f a b)) :
    Quiet (x >>= fun a => y >>= f a) ↔ Quiet x ∧ Quiet y := by
  rw [quiet_bind_iff]
  constructor
  · rintro ⟨a, hx, hy⟩
    exact ⟨⟨a, hx⟩, (quiet_bind_of_quiet (h a)).mp hy⟩
  · rintro ⟨⟨a, hx⟩, hy⟩
    exact ⟨a, hx, (quiet_bind_of_quiet (h a)).mpr hy⟩

/-- **When a rule raises nothing**: exactly if it can read what it reads.
SRCLINE: services/diagnostics/app/engine.py:23-215 -/
theorem quiet_rule_iff (p : Policy) :
    Quiet (p.rule numerals resource) ↔ Readable numerals resource p := by
  cases p with
  | lowUtilization =>
      refine Iff.trans (quiet_bind_bind_iff fun cpu periods => ?_)
        (and_congr quiet_float_metric_iff quiet_int_metric_iff)
      exact quiet_ite quiet_pure (quiet_ite quiet_pure quiet_pure)
  | missingTags => exact iff_of_true (quiet_ite quiet_pure quiet_pure) trivial
  | publicStorage =>
      refine iff_of_true (quiet_ite quiet_pure ?_) trivial
      split <;> exact quiet_pure
  | missingAlarms =>
      show Quiet (ruleMissingAlarms resource) ↔ _
      unfold ruleMissingAlarms Readable
      by_cases htype : resource.type = "cloudwatch"
      · simp [htype]
      · by_cases hprod : isProd resource = true
        · simp only [beq_false_of_ne htype, hprod, ne_eq, htype, not_false_eq_true, forall_const]
          rw [← quiet_pyLen_iff]
          exact quiet_bind_of_quiet fun len => quiet_ite quiet_pure quiet_pure
        · simp [htype, hprod]
  | unhealthyService =>
      show Quiet (ruleUnhealthyService resource) ↔ True
      unfold ruleUnhealthyService
      refine iff_of_true ?_ trivial
      split <;> exact quiet_pure
  | missingBackup =>
      refine iff_of_true (quiet_ite quiet_pure ?_) trivial
      split
      · exact quiet_ite quiet_pure quiet_pure
      · exact quiet_pure
  | repeatedErrors =>
      refine Iff.trans (quiet_bind_bind_iff fun rate count => ?_)
        (and_congr quiet_float_metric_iff quiet_int_metric_iff)
      exact quiet_ite quiet_pure quiet_pure
  | elevatedLatency =>
      refine Iff.trans (quiet_bind_of_quiet fun p99 => ?_) quiet_float_metric_iff
      exact quiet_ite quiet_pure quiet_pure
  | failureRateIncrease =>
      refine Iff.trans (quiet_bind_of_quiet fun delta => ?_) quiet_float_metric_iff
      exact quiet_ite quiet_pure quiet_pure

/-- The loop over the rules raises nothing exactly if none of them does. -/
theorem quiet_evaluateRules_iff
    (rules : List (ResourcePayload → Except PyError (Option FindingOut))) :
    Quiet (evaluateRules resource rules) ↔ ∀ rule ∈ rules, Quiet (rule resource) := by
  induction rules with
  | nil => exact iff_of_true quiet_pure (by simp)
  | cons rule rules ih =>
      rw [List.forall_mem_cons, ← ih]
      exact quiet_bind_bind_iff fun _ _ => quiet_pure

/-- The engine raises nothing for a resource exactly when every rule can read it.
SRCLINE: services/diagnostics/app/engine.py:231-237 -/
theorem quiet_evaluate_iff :
    Quiet (evaluate numerals resource) ↔ ∀ p, Readable numerals resource p := by
  rw [evaluate, quiet_evaluateRules_iff, RULES_eq, List.forall_mem_map]
  simp only [quiet_rule_iff]
  exact ⟨fun h p => h p p.mem_all, fun h p _ => h p⟩

/-- The loop over the resources raises nothing exactly if it can evaluate each of them. -/
theorem quiet_evaluateAll_iff (resources : List ResourcePayload) :
    Quiet (evaluateAll numerals resources) ↔
      ∀ resource ∈ resources, Quiet (evaluate numerals resource) := by
  induction resources with
  | nil => exact iff_of_true quiet_pure (by simp)
  | cons resource resources ih =>
      rw [List.forall_mem_cons, ← ih]
      exact quiet_bind_bind_iff fun _ _ => quiet_pure

/-- A response holds the findings of every resource. -/
theorem evaluateAll_subset {resources : List ResourcePayload} {findings : List FindingOut}
    (h : evaluateAll numerals resources = .ok findings) :
    ∀ resource ∈ resources, ∃ found, evaluate numerals resource = .ok found ∧
      found ⊆ findings := by
  induction resources generalizing findings with
  | nil => simp
  | cons resource resources ih =>
      obtain ⟨found, hfound, h⟩ := bind_ok h
      obtain ⟨rest, hrest, h⟩ := bind_ok h
      cases h
      rw [List.forall_mem_cons]
      refine ⟨⟨found, hfound, List.subset_append_left _ _⟩, fun resource' hmem => ?_⟩
      obtain ⟨found', hfound', hsub⟩ := ih hrest resource' hmem
      exact ⟨found', hfound', fun finding hfinding =>
        List.mem_append_right _ (hsub hfinding)⟩

end Rules

/-! ## The endpoint -/

/-- No rule raises on a resource of the request, and the response holds the findings of all
of them.
SRCLINE: services/diagnostics/app/main.py:42-53 -/
structure Answers (numerals : PyNumerals) (request : AnalyzeRequest) : Prop where
  rules : ∀ resource ∈ request.resources, ∀ rule ∈ RULES numerals, Quiet (rule resource)
  response : ∃ response, analyze numerals request = .ok response ∧
    ∀ resource ∈ request.resources, ∃ found, evaluate numerals resource = .ok found ∧
      found ⊆ response.findings

/-- **When the engine answers a request**: exactly if every rule can read every resource of it.
SRCLINE: services/diagnostics/app/engine.py:18-237, services/diagnostics/app/main.py:42-53 -/
theorem analyze_answers_iff (numerals : PyNumerals) (request : AnalyzeRequest) :
    Answers numerals request ↔
      ∀ resource ∈ request.resources, ∀ p, Readable numerals resource p := by
  have hevaluate : ∀ resource, Quiet (evaluate numerals resource) ↔
      ∀ rule ∈ RULES numerals, Quiet (rule resource) :=
    fun resource => quiet_evaluateRules_iff _
  constructor
  · intro h resource hmem
    exact quiet_evaluate_iff.mp ((hevaluate resource).mpr (h.rules resource hmem))
  · intro h
    have hquiet : ∀ resource ∈ request.resources, Quiet (evaluate numerals resource) :=
      fun resource hmem => quiet_evaluate_iff.mpr (h resource hmem)
    obtain ⟨findings, hfindings⟩ := (quiet_evaluateAll_iff request.resources).mpr hquiet
    refine ⟨fun resource hmem => (hevaluate resource).mp (hquiet resource hmem),
      { findings := findings }, ?_, evaluateAll_subset hfindings⟩
    unfold analyze
    rw [hfindings]
    rfl

/-- A public bucket, and a function whose error rate is a list. -/
def oddRequest : AnalyzeRequest where
  workspaceId := "w-1"
  correlationId := "c-1"
  resources := [
    { id := "r-1", type := "s3", region := "eu-west-1", name := "assets", tags := Dict.empty
      config := ⟨[("publicAccess", .bool true)], by decide⟩, metrics := Dict.empty },
    { id := "r-2", type := "lambda", region := "eu-west-1", name := "resize", tags := Dict.empty
      config := Dict.empty, metrics := ⟨[("errorRate", .list [.int 1])], by decide⟩ }]

/-- The list makes the rule for repeated errors raise, and the bucket goes unreported. -/
theorem list_metric_raises :
    ∃ bucket function, oddRequest.resources = [bucket, function] ∧
      ruleRepeatedErrors ⟨fun _ => none, fun _ => none⟩ function = .error .typeError ∧
      (∃ finding, rulePublicS3 bucket = .ok (some finding)) ∧
      (∀ response, analyze ⟨fun _ => none, fun _ => none⟩ oddRequest ≠ .ok response) ∧
      ¬ Answers ⟨fun _ => none, fun _ => none⟩ oddRequest := by
  refine ⟨_, _, rfl, rfl, ⟨_, rfl⟩, fun response h => ?_, fun h => ?_⟩
  · obtain ⟨findings, hfindings, -⟩ := bind_ok h
    obtain ⟨found, hfound⟩ := (quiet_evaluateAll_iff _).mp ⟨findings, hfindings⟩ _
      (List.mem_cons_of_mem _ List.mem_cons_self)
    have hreadable := quiet_evaluate_iff.mp ⟨found, hfound⟩ .repeatedErrors
    exact absurd hreadable.1 (List.cons_ne_nil _ _)
  · have hreadable := (analyze_answers_iff _ _).mp h _
      (List.mem_cons_of_mem _ List.mem_cons_self) .repeatedErrors
    exact absurd hreadable.1 (List.cons_ne_nil _ _)

end CloudOps.Analysis
