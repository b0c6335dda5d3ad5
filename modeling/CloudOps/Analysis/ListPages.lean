import Mathlib.Data.String.Basic
import CloudOps.Computation.Pagination
import CloudOps.Model.QueryService

/-!
# The pages of the lists

Every list sorts by one key, `createdAt` or `name`, that documents may share. What the driver
promises of a sort is an order of the key; documents with one key may stand otherwise in the next
query. `execIn` performs a call with the documents in a given order, and `Allows` says which orders
the driver may choose; the database of the model chooses one of them (`exec_allowed`).

A page is a query of its own. So the pages together show every document once, exactly if no
documents of one key are on both sides of a page boundary (`pages_partition_iff`).
-/

set_option autoImplicit false

namespace CloudOps.Analysis

open CloudOps.Computation CloudOps.Model

/-! ## What a sort promises -/

/-- The documents at the positions. -/
def arrange {δ : Type} (docs : List δ) (positions : List ℕ) : List δ :=
  positions.filterMap fun i => docs[i]?

/-- A sort by the key may put the documents at these positions, in this order. -/
def MaySort {δ κ : Type} [LinearOrder κ] (key : δ → κ) (docs : List δ) (positions : List ℕ) :
    Prop :=
  ∃ order : List (Fin docs.length),
    IsOrder (fun i => key (docs.get i)) (List.finRange docs.length) order ∧
      positions = order.map Fin.val

/-- The key of `.sort({ createdAt: -1 })`. -/
def newestKey {δ : Type} (createdAt : δ → Time) (document : δ) : Timeᵒᵈ :=
  OrderDual.toDual (createdAt document)

/-- Performs one call; the documents of a list are sorted into the order of the positions. -/
def execIn (positions : List ℕ) : (op : DbOp) → Database → op.Reply × Database
  | .listJobs ws query page, db => (page.take (arrange (db.jobsOf ws query) positions), db)
  | .listResources regex ws query page, db =>
    (page.take (arrange (db.resourcesOf regex ws query) positions), db)
  | .listFindings ws query page, db => (page.take (arrange (db.findingsOf ws query) positions), db)
  | .listRecommendations ws query page, db =>
    (page.take (arrange (db.recommendationsOf ws query) positions), db)
  | .listAudits ws query page, db => (page.take (arrange (db.auditsOf ws query) positions), db)
  | op, db => op.exec db

/-- The database, with the order in which a sort leaves the documents. -/
def sortedAs (positions : List ℕ) : Handler DbOp DbOp.Reply Database := ⟨execIn positions⟩

/-- The orders a call may leave its documents in. -/
def Allows : DbOp → Database → List ℕ → Prop
  | .listJobs ws query _, db, positions =>
    MaySort (newestKey (·.createdAt)) (db.jobsOf ws query) positions
  | .listResources regex ws query _, db, positions =>
    MaySort (·.name) (db.resourcesOf regex ws query) positions
  | .listFindings ws query _, db, positions =>
    MaySort (newestKey (·.createdAt)) (db.findingsOf ws query) positions
  | .listRecommendations ws query _, db, positions =>
    MaySort (newestKey (·.createdAt)) (db.recommendationsOf ws query) positions
  | .listAudits ws query _, db, positions =>
    MaySort (newestKey (·.createdAt)) (db.auditsOf ws query) positions
  | _, _, _ => True

section Sorting

variable {δ κ : Type} [LinearOrder κ] {key : δ → κ} {docs : List δ}

/-- Arranging by positions is reading them off. -/
theorem arrange_map (docs : List δ) (order : List (Fin docs.length)) :
    arrange docs (order.map Fin.val) = order.map docs.get := by
  induction order with
  | nil => rfl
  | cons i order ih =>
      show arrange docs (i.val :: order.map Fin.val) = docs.get i :: order.map docs.get
      rw [← ih]
      exact List.filterMap_cons_some (List.getElem?_eq_getElem i.isLt)

/-- The stable sort of the model leaves the documents in an order the key allows. -/
theorem exists_maySort (key : δ → κ) (docs : List δ) :
    ∃ positions, MaySort key docs positions ∧
      arrange docs positions = docs.mergeSort fun a b => key a ≤ key b := by
  let order := (List.finRange docs.length).mergeSort fun i j => key (docs.get i) ≤ key (docs.get j)
  refine ⟨order.map Fin.val, ⟨order, isOrder_mergeSort _ _, rfl⟩, ?_⟩
  have hget : (List.finRange docs.length).map docs.get = docs := by simp
  rw [arrange_map]
  conv_rhs => rw [← hget]
  exact List.map_mergeSort fun i _ j _ => rfl

/-- **The database of the model is one of those the driver allows**: whatever the call, its sort
leaves the documents in an order that is allowed. -/
theorem exec_allowed (op : DbOp) (db : Database) :
    ∃ positions, Allows op db positions ∧ op.exec db = execIn positions op db := by
  have hsorted : ∀ {δ κ : Type} [LinearOrder κ] (key : δ → κ) (docs : List δ) (page : Page),
      ∃ positions, MaySort key docs positions ∧
        (page.take (docs.mergeSort fun a b => key a ≤ key b), db) =
          (page.take (arrange docs positions), db) := by
    intro δ κ _ key docs page
    obtain ⟨positions, hmay, hsort⟩ := exists_maySort key docs
    exact ⟨positions, hmay, by rw [hsort]⟩
  cases op with
  | listJobs ws query page =>
      exact hsorted (newestKey (·.createdAt)) (db.jobsOf ws query) page
  | listResources regex ws query page =>
      exact hsorted (·.name) (db.resourcesOf regex ws query) page
  | listFindings ws query page =>
      exact hsorted (newestKey (·.createdAt)) (db.findingsOf ws query) page
  | listRecommendations ws query page =>
      exact hsorted (newestKey (·.createdAt)) (db.recommendationsOf ws query) page
  | listAudits ws query page =>
      exact hsorted (newestKey (·.createdAt)) (db.auditsOf ws query) page
  | _ => exact ⟨[], trivial, rfl⟩

end Sorting

/-! ## The pages of one list -/

/-- The positions that page `n`, counted from one, takes out of an order. -/
def onPage (limit n : ℕ) (positions : List ℕ) : List ℕ := (Page.mk n limit).take positions

/-- The pages of a list partition its documents. Whatever order each query is answered in, page
`n` has the documents at the positions that it takes out of its order, with the number of all; and
pages `1` to `⌈total / limit⌉` take every position once. -/
def Partitions {δ κ : Type} [LinearOrder κ] (key : δ → κ) (docs : List δ) (db : Database)
    (limit : ℕ) (list : Page → DbProg (Listing δ)) : Prop :=
  ∀ orders : ℕ → List ℕ, (∀ n, MaySort key docs (orders n)) →
    (∀ n, 1 ≤ n → (list ⟨n, limit⟩).run (sortedAs (orders n)) db =
      (.ok ⟨arrange docs (onPage limit n (orders n)), n, limit, docs.length⟩, db)) ∧
    ((List.range' 1 (pageCount docs.length limit)).flatMap fun n =>
      onPage limit n (orders n)).Perm (List.range docs.length)

section Pages

variable {δ κ : Type} [LinearOrder κ] {key : δ → κ} {docs : List δ} {db : Database} {limit : ℕ}
  {list : Page → DbProg (Listing δ)}

/-- A page is a block of the order. -/
theorem take_eq_block {α : Type} (hlimit : 1 ≤ limit) (n : ℕ) (order : List α) :
    (Page.mk (n + 1) limit).take order = block limit n order := by
  unfold Page.take block
  dsimp only
  rw [if_neg (by omega), Nat.add_sub_cancel]

/-- The documents of a page are those at its positions. -/
theorem arrange_take (page : Page) {positions : List ℕ} (hmay : MaySort key docs positions) :
    page.take (arrange docs positions) = arrange docs (page.take positions) := by
  obtain ⟨order, -, rfl⟩ := hmay
  have hmap : ∀ {α : Type} (f : Fin docs.length → α), page.take (order.map f) =
      (page.take order).map f := by
    intro α f
    unfold Page.take
    split
    · exact List.map_drop.symm
    · rw [List.map_take, List.map_drop]
  rw [arrange_map, hmap, hmap, arrange_map]

/-- The positions that the pages take out of orders of the documents. -/
theorem onPages_eq_shown (hlimit : 1 ≤ limit) (orders : ℕ → List (Fin docs.length)) (pages : ℕ) :
    ((List.range' 1 pages).flatMap fun n => onPage limit n ((orders n).map Fin.val)) =
      (shown limit pages fun n => orders (n + 1)).map Fin.val := by
  unfold shown onPage
  rw [List.map_flatMap, List.range'_eq_map_range, List.flatMap_map]
  refine List.flatMap_congr fun n _ => ?_
  rw [Nat.add_comm 1 n, take_eq_block hlimit]
  unfold block
  rw [List.map_take, List.map_drop]

/-- Pages that partition the documents have each of them once among their items. -/
theorem Partitions.items_perm (h : Partitions key docs db limit list) {orders : ℕ → List ℕ}
    (horders : ∀ n, MaySort key docs (orders n)) :
    ((List.range' 1 (pageCount docs.length limit)).flatMap fun n =>
      arrange docs (onPage limit n (orders n))).Perm docs := by
  have hpositions := (h orders horders).2.filterMap fun i => docs[i]?
  rw [List.filterMap_flatMap] at hpositions
  have hall : (List.range docs.length).filterMap (fun i => docs[i]?) = docs := by
    have hval : (List.finRange docs.length).map Fin.val = List.range docs.length := by simp
    have harrange := arrange_map docs (List.finRange docs.length)
    rw [hval] at harrange
    exact harrange.trans (by simp)
  rwa [hall] at hpositions

/-- **When the pages of a list partition its documents**: exactly if no documents of one key are on
both sides of a page boundary. -/
theorem partitions_iff (hlimit : 1 ≤ limit)
    (hrun : ∀ (positions : List ℕ) (page : Page), (list page).run (sortedAs positions) db =
      (.ok ⟨page.take (arrange docs positions), page.page, page.limit, docs.length⟩, db)) :
    Partitions key docs db limit list ↔ ¬ TieAcross key docs limit := by
  have hget : (List.finRange docs.length).map docs.get = docs := by simp
  have hlength : (List.finRange docs.length).length = docs.length := List.length_finRange
  have hval : (List.finRange docs.length).map Fin.val = List.range docs.length := by simp
  have hties : TieAcross (fun i => key (docs.get i)) (List.finRange docs.length) limit ↔
      TieAcross key docs limit := by
    rw [← tieAcross_map, hget]
  have hshown := @shown_perm_iff _ _ _ (fun i => key (docs.get i)) _ _ hlimit
    (List.nodup_finRange docs.length)
  rw [hties, hlength] at hshown
  rw [← hshown]
  constructor
  · intro h orders horders
    have hpages := (h (fun n => (orders (n - 1)).map Fin.val)
      fun n => ⟨_, horders (n - 1), rfl⟩).2
    rw [onPages_eq_shown hlimit fun n => orders (n - 1), ← hval] at hpages
    exact (List.map_perm_map_iff Fin.val_injective).mp hpages
  · intro h positions hmay
    refine ⟨fun n _ => ?_, ?_⟩
    · rw [hrun, arrange_take _ (hmay n)]
      rfl
    · choose orders horders hpositions using hmay
      have hpages := h (fun n => orders (n + 1)) fun n => horders (n + 1)
      simp only [hpositions]
      rw [onPages_eq_shown hlimit, ← hval]
      exact hpages.map Fin.val

end Pages

/-! ## The five lists -/

/-- **When pagination partitions the result**, for each of the five lists: exactly if no documents
of one `createdAt`, or of one `name`, are on both sides of a page boundary.
SRCLINE: apps/api/src/services/job-service.ts:65-75,
apps/api/src/services/resource-service.ts:54-71, apps/api/src/services/query-service.ts:9-53 -/
theorem pages_partition_iff {limit : ℕ} (hlimit : 1 ≤ limit) (db : Database)
    (workspaceId : String) :
    (∀ query : JobQuery,
      Partitions (newestKey (·.createdAt)) (db.jobsOf workspaceId query) db limit
          (JobService.list workspaceId query) ↔
        ¬ TieAcross (newestKey (·.createdAt)) (db.jobsOf workspaceId query) limit) ∧
    (∀ (regex : String → String → Bool) (query : ResourceQuery),
      Partitions (·.name) (db.resourcesOf regex workspaceId query) db limit
          (ResourceService.list regex workspaceId query) ↔
        ¬ TieAcross (·.name) (db.resourcesOf regex workspaceId query) limit) ∧
    (∀ query : FindingQuery,
      Partitions (newestKey (·.createdAt)) (db.findingsOf workspaceId query) db limit
          (listFindings workspaceId query) ↔
        ¬ TieAcross (newestKey (·.createdAt)) (db.findingsOf workspaceId query) limit) ∧
    (∀ query : RecommendationQuery,
      Partitions (newestKey (·.createdAt)) (db.recommendationsOf workspaceId query) db limit
          (listRecommendations workspaceId query) ↔
        ¬ TieAcross (newestKey (·.createdAt)) (db.recommendationsOf workspaceId query) limit) ∧
    ∀ query : AuditQuery,
      Partitions (newestKey (·.createdAt)) (db.auditsOf workspaceId query) db limit
          (listAuditEvents workspaceId query) ↔
        ¬ TieAcross (newestKey (·.createdAt)) (db.auditsOf workspaceId query) limit := by
  refine ⟨fun query => ?_, fun regex query => ?_, fun query => ?_, fun query => ?_,
    fun query => ?_⟩
  · exact partitions_iff hlimit fun _ _ => rfl
  · exact partitions_iff hlimit fun _ _ => rfl
  · exact partitions_iff hlimit fun _ _ => rfl
  · exact partitions_iff hlimit fun _ _ => rfl
  · exact partitions_iff hlimit fun _ _ => rfl

/-- An event of workspace `ws` at the instant `0`. -/
def eventOf (action : String) : AuditEvent where
  workspaceId := "ws"
  actorId := "operator"
  action := action
  resourceType := "RemediationPlan"
  resourceId := none
  correlationId := "c-0"
  metadata := .empty
  createdAt := 0

/-- Two events of one instant. -/
def tiedStore : Database :=
  { Database.empty with audits := [eventOf "plan.approve", eventOf "plan.execute"] }

/-- Two events of one instant fit on one page, which is the whole list. -/
theorem one_page_partitions :
    Partitions (newestKey (·.createdAt)) (tiedStore.auditsOf "ws" ⟨none, none⟩) tiedStore 2
      (listAuditEvents "ws" ⟨none, none⟩) := by
  refine ((pages_partition_iff (by decide) tiedStore "ws").2.2.2.2 ⟨none, none⟩).mpr ?_
  rintro ⟨event, -, k, hlow, hhigh⟩
  have htwo : upTo (newestKey (·.createdAt)) (tiedStore.auditsOf "ws" ⟨none, none⟩)
      (newestKey (·.createdAt) event) ≤ 2 := List.countP_le_length
  omega

/-- **A document on two pages.** Both events are of one instant. Where the second query has them in
the other order, its page shows the first event again, and no page shows the second. -/
theorem second_page_repeats :
    MaySort (newestKey (·.createdAt)) (tiedStore.auditsOf "ws" ⟨none, none⟩) [0, 1] ∧
    MaySort (newestKey (·.createdAt)) (tiedStore.auditsOf "ws" ⟨none, none⟩) [1, 0] ∧
    (listAuditEvents "ws" ⟨none, none⟩ ⟨1, 1⟩).run (sortedAs [0, 1]) tiedStore =
      (.ok ⟨[eventOf "plan.approve"], 1, 1, 2⟩, tiedStore) ∧
    (listAuditEvents "ws" ⟨none, none⟩ ⟨2, 1⟩).run (sortedAs [1, 0]) tiedStore =
      (.ok ⟨[eventOf "plan.approve"], 2, 1, 2⟩, tiedStore) ∧
    ¬ Partitions (newestKey (·.createdAt)) (tiedStore.auditsOf "ws" ⟨none, none⟩) tiedStore 1
      (listAuditEvents "ws" ⟨none, none⟩) := by
  have hfirst : MaySort (newestKey (·.createdAt)) (tiedStore.auditsOf "ws" ⟨none, none⟩) [0, 1] :=
    ⟨[⟨0, by decide⟩, ⟨1, by decide⟩], ⟨by decide, by decide⟩, rfl⟩
  have hsecond : MaySort (newestKey (·.createdAt)) (tiedStore.auditsOf "ws" ⟨none, none⟩) [1, 0] :=
    ⟨[⟨1, by decide⟩, ⟨0, by decide⟩], ⟨by decide, by decide⟩, rfl⟩
  refine ⟨hfirst, hsecond, rfl, rfl, fun h => ?_⟩
  have hpages := (h (fun n => if n = 2 then [1, 0] else [0, 1]) fun n => ?_).2
  · exact absurd hpages (by decide)
  · by_cases hn : n = 2
    · simpa [hn] using hsecond
    · simpa [hn] using hfirst

end CloudOps.Analysis
