import CloudOps.Model.Providers

/-!
# What the providers make of an inventory query

The mock provider filters its inventory by type and by region. The AWS provider chooses by type
which services it asks and never looks at the region; for an empty list of types it asks none. So
the mock provider honours every query, and the AWS provider those for which this makes no
difference: all it lists is in the region anyway, and nothing is there that an empty list of types
leaves out.
-/

set_option autoImplicit false

namespace CloudOps.Analysis

open CloudOps.Computation CloudOps.Model

/-- The item is one the query asks for: of one of its types, any type if it lists none, and in its
region, if it has one. -/
structure Admits (query : InventoryQuery) (item : ListedResource) : Prop where
  type : ∀ types, query.types = some types → types = [] ∨ item.type ∈ types
  region : ∀ region, query.region = some region → item.region = region

/-- A provider honours a query: it returns only items that the query asks for, and drops none of
its unfiltered listing that the query asks for. -/
def Honours (provider : CloudProvider) (query : InventoryQuery) : Prop :=
  ∃ all listed, provider.listResources .all = .ok all ∧
    provider.listResources query = .ok listed ∧
    (∀ item ∈ listed, Admits query item) ∧ ∀ item ∈ all, Admits query item → item ∈ listed

/-! ## The mock provider -/

section Mock

variable {types : Option (List ResourceType)} {region : Option String} {query : InventoryQuery}
  {items : List ListedResource} {item : ListedResource}

/-- The filter by types keeps what has one of them, and everything where none is asked for. -/
theorem mem_byTypes : item ∈ MockAwsProvider.byTypes types items ↔
    item ∈ items ∧ ∀ list, types = some list → list = [] ∨ item.type ∈ list := by
  unfold MockAwsProvider.byTypes
  split
  · simp
  · simp
  · rename_i list hne
    have hnil : list ≠ [] := hne
    simp [hnil]

/-- The filter by region keeps what is in it. -/
theorem mem_byRegion (hregion : region ≠ some "") :
    item ∈ MockAwsProvider.byRegion region items ↔
      item ∈ items ∧ ∀ wanted, region = some wanted → item.region = wanted := by
  unfold MockAwsProvider.byRegion
  split
  · simp
  · rename_i wanted
    have hne : wanted ≠ "" := fun h => hregion (congrArg some h)
    simp [hne]

/-- What the mock provider returns: the items of its inventory that the query asks for. -/
theorem mem_mock_listResources (hregion : query.region ≠ some "") :
    item ∈ MockAwsProvider.listResources query ↔ item ∈ buildMockInventory ∧ Admits query item := by
  unfold MockAwsProvider.listResources
  rw [mem_byRegion hregion, mem_byTypes]
  constructor
  · rintro ⟨⟨hmem, htype⟩, hwanted⟩
    exact ⟨hmem, htype, hwanted⟩
  · rintro ⟨hmem, hadmits⟩
    exact ⟨⟨hmem, hadmits.type⟩, hadmits.region⟩

/-- **The mock provider honours every query.**
SRCLINE: packages/shared/src/providers/mock.ts:285-296 -/
theorem mock_honours {awsRegion : String} {cloud : AwsCloud} (hregion : query.region ≠ some "") :
    Honours (createCloudProvider .mock awsRegion cloud) query := by
  refine ⟨_, _, rfl, rfl, fun item hmem => ?_, fun item hmem hadmits => ?_⟩
  · exact ((mem_mock_listResources hregion).mp hmem).2
  · have hall : item ∈ buildMockInventory := hmem
    exact (mem_mock_listResources hregion).mpr ⟨hall, hadmits⟩

end Mock

/-! ## The AWS provider -/

/-- The four listings are answered. -/
structure Answered (cloud : AwsCloud) : Prop where
  instances : ∃ out, cloud.describeInstances = .ok out
  buckets : ∃ out, cloud.listBuckets = .ok out
  functions : ∃ out, cloud.listFunctions = .ok out
  metrics : ∃ out, cloud.listMetrics = .ok out

/-- The region a bucket is in, as far as the account tells. -/
def BucketIn (cloud : AwsCloud) (awsRegion name region : String) : Prop :=
  (∃ location, cloud.getBucketLocation name = .ok location ∧
    region = if location.getD "" = "" then "us-east-1" else location.getD "") ∨
  ∃ err, cloud.getBucketLocation name = .error err ∧ region = awsRegion

/-- The account has something of the type in the region. -/
def Has (cloud : AwsCloud) (awsRegion : String) : ResourceType → String → Prop
  | .ec2, region => region = awsRegion ∧ ∃ out, cloud.describeInstances = .ok out ∧
      ∃ reservation ∈ out.getD [], reservation.getD [] ≠ []
  | .s3, region => ∃ out, cloud.listBuckets = .ok out ∧
      ∃ bucket ∈ out.getD [], BucketIn cloud awsRegion (bucket.getD "unknown") region
  | .lambda, region => region = awsRegion ∧ ∃ out, cloud.listFunctions = .ok out ∧
      out.getD [] ≠ []
  | .cloudwatch, region => region = awsRegion ∧ ∃ out, cloud.listMetrics = .ok out ∧
      out.getD [] ≠ []

section Aws

variable {p : AwsProvider} {query : InventoryQuery} {items : ResourceType → List ListedResource}
  {item : ListedResource}

/-- The listing of one type. -/
def listType (p : AwsProvider) : ResourceType → Except ProviderError (List ListedResource)
  | .ec2 => p.listEc2
  | .s3 => p.listS3
  | .lambda => p.listLambda
  | .cloudwatch => p.listAlarms

/-- The region of a bucket is where the account has it. -/
theorem bucketRegion_eq_iff {name region : String} :
    p.bucketRegion name = region ↔ BucketIn p.cloud p.region name region := by
  unfold AwsProvider.bucketRegion BucketIn send
  cases p.cloud.getBucketLocation name with
  | ok location =>
      constructor
      · intro h
        exact Or.inl ⟨location, rfl, h.symm⟩
      · rintro (⟨location', hsame, h⟩ | ⟨err, hsame, -⟩)
        · cases hsame
          exact h.symm
        · cases hsame
  | error err =>
      constructor
      · intro h
        exact Or.inr ⟨err, rfl, h.symm⟩
      · rintro (⟨location, hsame, -⟩ | ⟨err', hsame, h⟩)
        · cases hsame
        · exact h.symm

/-- Items that a listing makes of its answer, all in one region. -/
theorem region_of_map {α : Type} {list : List α} {f : α → ListedResource}
    {awsRegion region : String} (hf : ∀ a, (f a).region = awsRegion) :
    (∃ item ∈ list.map f, item.region = region) ↔ region = awsRegion ∧ list ≠ [] := by
  constructor
  · rintro ⟨item, hmem, rfl⟩
    obtain ⟨a, ha, rfl⟩ := List.mem_map.mp hmem
    exact ⟨hf a, List.ne_nil_of_mem ha⟩
  · rintro ⟨rfl, hne⟩
    obtain ⟨a, ha⟩ := List.exists_mem_of_ne_nil _ hne
    exact ⟨f a, List.mem_map_of_mem ha, hf a⟩

/-- The instances are those of all reservations. -/
theorem listEc2_eq {out} (h : p.cloud.describeInstances = .ok out) :
    p.listEc2 = .ok ((out.getD []).flatMap fun reservation =>
      (reservation.getD []).map p.ec2Resource) := by
  unfold AwsProvider.listEc2
  rw [h]
  rfl

/-- The buckets are those of the account. -/
theorem listS3_eq {out} (h : p.cloud.listBuckets = .ok out) :
    p.listS3 = .ok ((out.getD []).map p.s3Resource) := by
  unfold AwsProvider.listS3
  rw [h]
  rfl

/-- The functions are those of the account. -/
theorem listLambda_eq {out} (h : p.cloud.listFunctions = .ok out) :
    p.listLambda = .ok ((out.getD []).map p.lambdaResource) := by
  unfold AwsProvider.listLambda
  rw [h]
  rfl

/-- The metrics are the first twenty of the account. -/
theorem listAlarms_eq {out} (h : p.cloud.listMetrics = .ok out) :
    p.listAlarms = .ok (((out.getD []).take 20).zipIdx.map p.metricResource) := by
  unfold AwsProvider.listAlarms
  rw [h]
  rfl

/-- **What the listing of a type returns**: items of the type, in the regions in which the account
has it.
SRCLINE: packages/shared/src/providers/aws.ts:109-291 -/
theorem listType_ok (h : Answered p.cloud) (type : ResourceType) :
    ∃ items, listType p type = .ok items ∧ (∀ item ∈ items, item.type = type) ∧
      ∀ region, (∃ item ∈ items, item.region = region) ↔ Has p.cloud p.region type region := by
  cases type with
  | ec2 =>
      obtain ⟨out, hout⟩ := h.instances
      refine ⟨_, listEc2_eq hout, fun item hmem => ?_, fun region => ?_⟩
      · obtain ⟨reservation, -, hmem⟩ := List.mem_flatMap.mp hmem
        obtain ⟨inst, -, rfl⟩ := List.mem_map.mp hmem
        rfl
      · have hone : ∀ list : List Ec2Instance, (∃ item ∈ list.map p.ec2Resource,
            item.region = region) ↔ region = p.region ∧ list ≠ [] :=
          fun list => region_of_map fun _ => rfl
        simp only [Has, hout, List.mem_flatMap]
        constructor
        · rintro ⟨item, ⟨reservation, hreservation, hmem⟩, hregion⟩
          obtain ⟨hsame, hne⟩ := (hone _).mp ⟨item, hmem, hregion⟩
          exact ⟨hsame, out, rfl, reservation, hreservation, hne⟩
        · rintro ⟨hsame, out', hout', reservation, hreservation, hne⟩
          cases hout'
          obtain ⟨item, hmem, hregion⟩ := (hone _).mpr ⟨hsame, hne⟩
          exact ⟨item, ⟨reservation, hreservation, hmem⟩, hregion⟩
  | s3 =>
      obtain ⟨out, hout⟩ := h.buckets
      refine ⟨_, listS3_eq hout, fun item hmem => ?_, fun region => ?_⟩
      · obtain ⟨bucket, -, rfl⟩ := List.mem_map.mp hmem
        rfl
      · simp only [Has, hout, List.mem_map]
        constructor
        · rintro ⟨item, ⟨bucket, hbucket, rfl⟩, hregion⟩
          exact ⟨out, rfl, bucket, hbucket, bucketRegion_eq_iff.mp hregion⟩
        · rintro ⟨out', hout', bucket, hbucket, hregion⟩
          cases hout'
          exact ⟨_, ⟨bucket, hbucket, rfl⟩, bucketRegion_eq_iff.mpr hregion⟩
  | lambda =>
      obtain ⟨out, hout⟩ := h.functions
      refine ⟨_, listLambda_eq hout, fun item hmem => ?_, fun region => ?_⟩
      · obtain ⟨fn, -, rfl⟩ := List.mem_map.mp hmem
        rfl
      · have hone : ∀ fn, (p.lambdaResource fn).region = p.region := fun _ => rfl
        rw [region_of_map hone]
        simp [Has, hout]
  | cloudwatch =>
      obtain ⟨out, hout⟩ := h.metrics
      refine ⟨_, listAlarms_eq hout, fun item hmem => ?_, fun region => ?_⟩
      · obtain ⟨metric, -, rfl⟩ := List.mem_map.mp hmem
        rfl
      · have hone : ∀ metric, (p.metricResource metric).region = p.region := fun _ => rfl
        rw [region_of_map hone]
        simp [Has, hout]

/-- What the AWS provider returns: the listings of the types it looks for.
SRCLINE: packages/shared/src/providers/aws.ts:80-95 -/
theorem listResources_ok (h : ∀ type, listType p type = .ok (items type)) :
    ∃ listed, p.listResources query = .ok listed ∧
      ∀ item, item ∈ listed ↔ ∃ type ∈ AwsProvider.typesOf query, item ∈ items type := by
  have hpart : ∀ (type : ResourceType) (list : Except ProviderError (List ListedResource)),
      list = .ok (items type) → (if type ∈ AwsProvider.typesOf query then list else pure []) =
        .ok (if type ∈ AwsProvider.typesOf query then items type else []) := by
    intro type list hlist
    split
    · exact hlist
    · rfl
  let part (type : ResourceType) : List ListedResource :=
    if type ∈ AwsProvider.typesOf query then items type else []
  have hlisted : p.listResources query =
      .ok (part .ec2 ++ part .s3 ++ part .lambda ++ part .cloudwatch) := by
    unfold AwsProvider.listResources
    dsimp only
    rw [hpart .ec2 p.listEc2 (h .ec2), hpart .s3 p.listS3 (h .s3),
      hpart .lambda p.listLambda (h .lambda), hpart .cloudwatch p.listAlarms (h .cloudwatch)]
    rfl
  refine ⟨_, hlisted, fun item => ?_⟩
  have hmem : ∀ type, item ∈ part type ↔
      type ∈ AwsProvider.typesOf query ∧ item ∈ items type := by
    intro type
    by_cases htype : type ∈ AwsProvider.typesOf query
    · simp [part, htype]
    · simp [part, htype]
  simp only [List.mem_append, hmem]
  constructor
  · rintro (((hec2 | hs3) | hlambda) | halarms)
    · exact ⟨.ec2, hec2⟩
    · exact ⟨.s3, hs3⟩
    · exact ⟨.lambda, hlambda⟩
    · exact ⟨.cloudwatch, halarms⟩
  · rintro ⟨type, htype⟩
    cases type with
    | ec2 => exact Or.inl (Or.inl (Or.inl htype))
    | s3 => exact Or.inl (Or.inl (Or.inr htype))
    | lambda => exact Or.inl (Or.inr htype)
    | cloudwatch => exact Or.inr htype

/-- The query asks for the type: no list of types, and an empty one, ask for every type. -/
theorem mem_typesOf {type : ResourceType} (hne : query.types ≠ some []) :
    type ∈ AwsProvider.typesOf query ↔
      ∀ types, query.types = some types → types = [] ∨ type ∈ types := by
  unfold AwsProvider.typesOf
  cases htypes : query.types with
  | none => cases type <;> simp
  | some types =>
      have hnil : types ≠ [] := fun h => hne (htypes.trans (congrArg some h))
      simp [hnil]

/-- **When the AWS provider honours a query.**
SRCLINE: packages/shared/src/providers/aws.ts:80-95 -/
theorem aws_honours_iff (h : Answered p.cloud) :
    Honours (createCloudProvider .aws p.region p.cloud) query ↔
      (∀ region, query.region = some region → ∀ type ∈ AwsProvider.typesOf query,
        ∀ r, Has p.cloud p.region type r → r = region) ∧
      (query.types = some [] → ∀ type r, Has p.cloud p.region type r →
        ∃ region, query.region = some region ∧ r ≠ region) := by
  choose items hitems htype hhas using listType_ok h
  obtain ⟨all, hall, hmemAll⟩ := @listResources_ok p .all items hitems
  obtain ⟨listed, hlisted, hmemListed⟩ := @listResources_ok p query items hitems
  have hhonours : Honours (createCloudProvider .aws p.region p.cloud) query ↔
      (∀ item ∈ listed, Admits query item) ∧ ∀ item ∈ all, Admits query item → item ∈ listed := by
    constructor
    · rintro ⟨all', listed', hall', hlisted', hhonours⟩
      cases hall.symm.trans hall'
      cases hlisted.symm.trans hlisted'
      exact hhonours
    · exact fun hhonours => ⟨all, listed, hall, hlisted, hhonours⟩
  rw [hhonours]
  constructor
  · rintro ⟨honly, hkeeps⟩
    refine ⟨fun region hregion type htypes r hr => ?_, fun hempty type r hr => ?_⟩
    · obtain ⟨item, hitem, rfl⟩ := (hhas type r).mpr hr
      exact (honly item ((hmemListed item).mpr ⟨type, htypes, hitem⟩)).region region hregion
    · obtain ⟨item, hitem, rfl⟩ := (hhas type r).mpr hr
      by_contra hno
      -- otherwise the query asks for the item, and no type is listed
      have hadmits : Admits query item := by
        refine ⟨fun types htypes => Or.inl ?_, fun region hregion => ?_⟩
        · exact Option.some.inj (htypes.symm.trans hempty)
        · by_contra hne
          exact hno ⟨region, hregion, hne⟩
      have hany : type ∈ AwsProvider.typesOf .all := by cases type <;> decide
      have hin := hkeeps item ((hmemAll item).mpr ⟨type, hany, hitem⟩) hadmits
      obtain ⟨type', hlist, -⟩ := (hmemListed item).mp hin
      have hnone : AwsProvider.typesOf query = [] := by rw [AwsProvider.typesOf, hempty]; rfl
      rw [hnone] at hlist
      exact List.not_mem_nil hlist
  · rintro ⟨hregions, hempty⟩
    constructor
    · intro item hin
      obtain ⟨type, hlist, hitem⟩ := (hmemListed item).mp hin
      have hr : Has p.cloud p.region type item.region := (hhas type _).mp ⟨item, hitem, rfl⟩
      refine ⟨fun types htypes => Or.inr ?_, fun region hregion =>
        hregions region hregion type hlist _ hr⟩
      rw [AwsProvider.typesOf, htypes] at hlist
      exact (htype type item hitem).symm ▸ hlist
    · intro item hin hadmits
      obtain ⟨type, -, hitem⟩ := (hmemAll item).mp hin
      refine (hmemListed item).mpr ⟨type, ?_, hitem⟩
      by_cases hnil : query.types = some []
      · have hr : Has p.cloud p.region type item.region := (hhas type _).mp ⟨item, hitem, rfl⟩
        obtain ⟨region, hregion, hne⟩ := hempty hnil type _ hr
        exact absurd (hadmits.region region hregion) hne
      · refine (mem_typesOf hnil).mpr fun types htypes => ?_
        have hasked := hadmits.type types htypes
        rwa [htype type item hitem] at hasked

end Aws

/-! ## Both providers -/

/-- **When both providers honour a query**: if it names a region, all that the account has of the
types looked for is there; and if its list of types is empty, the account has nothing in the
region, or nothing at all if the query names none.
SRCLINE: packages/shared/src/providers/mock.ts:285-296,
packages/shared/src/providers/aws.ts:80-95 -/
theorem providers_honour_iff {query : InventoryQuery} {region : String} {cloud : AwsCloud}
    (hanswered : Answered cloud) (hregion : query.region ≠ some "") :
    (∀ mode, Honours (createCloudProvider mode region cloud) query) ↔
      (∀ wanted, query.region = some wanted → ∀ type ∈ AwsProvider.typesOf query,
        ∀ r, Has cloud region type r → r = wanted) ∧
      (query.types = some [] → ∀ type r, Has cloud region type r →
        ∃ wanted, query.region = some wanted ∧ r ≠ wanted) := by
  have haws := @aws_honours_iff ⟨region, cloud⟩ query hanswered
  constructor
  · intro h
    exact haws.mp (h .aws)
  · intro h mode
    cases mode with
    | aws => exact haws.mpr h
    | mock => exact mock_honours hregion

/-- An account with one instance and nothing else. -/
def oneInstance : AwsCloud where
  describeInstances := .ok (some [some [⟨some "i-1", none, none, some "running"⟩]])
  getMetricStatistics _ := .ok none
  listBuckets := .ok none
  getBucketLocation _ := .ok none
  getBucketTagging _ := .ok none
  getPublicAccessBlock _ := .ok none
  listFunctions := .ok none
  listTags _ := .ok none
  listMetrics := .ok none

/-- The account answers every listing. -/
theorem oneInstance_answered : Answered oneInstance := ⟨⟨_, rfl⟩, ⟨_, rfl⟩, ⟨_, rfl⟩, ⟨_, rfl⟩⟩

/-- Both providers honour a query for the region they are set to. -/
theorem providers_honour_same_region :
    Honours (createCloudProvider .mock "us-east-1" oneInstance) ⟨none, some "us-east-1"⟩ ∧
      Honours (createCloudProvider .aws "us-east-1" oneInstance) ⟨none, some "us-east-1"⟩ := by
  have hboth : ∀ mode,
      Honours (createCloudProvider mode "us-east-1" oneInstance) ⟨none, some "us-east-1"⟩ := by
    refine (providers_honour_iff oneInstance_answered (by decide)).mpr ⟨?_, nofun⟩
    intro wanted hwanted type _ r hr
    cases hwanted
    cases type with
    | ec2 => exact hr.1
    | s3 =>
        obtain ⟨out, hout, bucket, hbucket, -⟩ := hr
        cases hout
        exact absurd hbucket List.not_mem_nil
    | lambda => exact hr.1
    | cloudwatch => exact hr.1
  exact ⟨hboth .mock, hboth .aws⟩

/-- **Another region, and an empty list of types.** Asked for `us-west-2`, the AWS provider returns
the instance of `us-east-1`; asked for no type in particular, by an empty list, it returns
nothing. -/
theorem aws_ignores_region :
    ¬ Honours (createCloudProvider .aws "us-east-1" oneInstance) ⟨none, some "us-west-2"⟩ ∧
      ¬ Honours (createCloudProvider .aws "us-east-1" oneInstance) ⟨some [], none⟩ := by
  have hhas : Has oneInstance "us-east-1" .ec2 "us-east-1" :=
    ⟨rfl, _, rfl, _, List.mem_cons_self, by simp⟩
  constructor
  · intro h
    have hregions := ((@aws_honours_iff ⟨"us-east-1", oneInstance⟩ _ oneInstance_answered).mp h).1
    exact absurd (hregions "us-west-2" rfl .ec2 (by decide) _ hhas) (by decide)
  · intro h
    have hempty := ((@aws_honours_iff ⟨"us-east-1", oneInstance⟩ _ oneInstance_answered).mp h).2
    obtain ⟨wanted, hwanted, -⟩ := hempty rfl .ec2 _ hhas
    cases hwanted

end CloudOps.Analysis
