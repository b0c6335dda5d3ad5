import CloudOps.Model.QueryService

/-!
# The search for resource names

`ResourceService.list` escapes the text it searches for. Read as a regular expression, the escaped
text is the text itself, character by character: the search takes no operator from a request, and
finds the names that contain the text.
-/

set_option autoImplicit false

namespace CloudOps.Analysis

open CloudOps.Computation CloudOps.Model CloudOps.Model.ResourceService

variable {fold : Char → Char} {q name : String}

/-- The pattern is the quoted text. -/
theorem namePattern_toList (q : String) : (namePattern q).toList = Regex.quote q.toList :=
  String.toList_ofList

/-- The pattern finds the names that contain the text, up to folding. -/
theorem nameSearch_iff :
    nameSearch fold q name = true ↔ q.toList.map fold <:+: name.toList.map fold := by
  unfold nameSearch
  rw [namePattern_toList, Regex.compile_quote]
  exact Regex.found_literals

/-- The resources of a list: those whose type and region are asked for, and whose name contains
the text. -/
theorem resourcesOf_nameSearch (db : Database) (workspaceId : String)
    (type region : Option String) :
    db.resourcesOf (nameSearch fold) workspaceId ⟨type, region, some q⟩ =
      db.resources.filter fun r => r.workspaceId == workspaceId &&
        (matchesField type r.type.name && matchesField region r.region &&
          decide (q.toList.map fold <:+: r.name.toList.map fold)) := by
  have hname : ∀ name : String, (decide (q = "") || nameSearch fold q name) =
      decide (q.toList.map fold <:+: name.toList.map fold) := by
    intro name
    rw [Bool.eq_iff_iff, Bool.or_eq_true, decide_eq_true_eq, decide_eq_true_eq, nameSearch_iff]
    constructor
    · rintro (rfl | hinfix)
      · exact List.nil_infix
      · exact hinfix
    · exact Or.inr
  unfold Database.resourcesOf ResourceQuery.filter
  simp only [hname]

/-- **The search for names is literal.** Whatever the text `q`, its pattern is read as the
characters of `q` and nothing else; so it is never ill-formed, matches a name exactly when the name
contains `q` up to folding, and the list has the resources with such names.
SRCLINE: apps/api/src/services/resource-service.ts:54-71, docs/threat-model.md:33-37 -/
theorem name_search_literal (fold : Char → Char) (q : String) :
    Regex.read (namePattern q).toList = some (q.toList.map .literal) ∧
    (∃ r, Regex.compile (namePattern q).toList = some r ∧ ∀ name : String,
      r.found fold name.toList = true ↔ q.toList.map fold <:+: name.toList.map fold) ∧
    ∀ (db : Database) (workspaceId : String) (type region : Option String) (page : Page),
      let docs := db.resources.filter fun r => r.workspaceId == workspaceId &&
        (matchesField type r.type.name && matchesField region r.region &&
          decide (q.toList.map fold <:+: r.name.toList.map fold))
      (ResourceService.list (nameSearch fold) workspaceId ⟨type, region, some q⟩ page).run database
        db = (.ok ⟨page.take (docs.mergeSort fun a b => a.name ≤ b.name), page.page, page.limit,
          docs.length⟩, db) := by
  refine ⟨?_, ⟨Regex.literals q.toList, ?_, fun name => Regex.found_literals⟩, ?_⟩
  · rw [namePattern_toList]
    exact Regex.read_quote q.toList
  · rw [namePattern_toList]
    exact Regex.compile_quote q.toList
  · intro db workspaceId type region page docs
    have hdocs : db.resourcesOf (nameSearch fold) workspaceId ⟨type, region, some q⟩ = docs :=
      resourcesOf_nameSearch db workspaceId type region
    rw [← hdocs]
    rfl

end CloudOps.Analysis
