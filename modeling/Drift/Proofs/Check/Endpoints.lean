import Drift.Proofs.Check.Difference
import Mathlib.Data.List.Forall2

namespace Drift.Check

/-- An element whose key came before is passed over, and might as well not be there. -/
theorem firstByKey_repeated {α : Type} {key : α → String} {x : α} {before : List α} {seen : List String}
    (old : key x ∈ seen ∨ key x ∈ before.map key) (after : List α) :
    firstByKey key seen (before ++ x :: after) = firstByKey key seen (before ++ after) := by
  induction before generalizing seen with
  | nil =>
    have contained : seen.contains (key x) = true := by simpa using old
    rw [List.nil_append, List.nil_append, firstByKey, if_pos contained]
  | cons y before ih =>
    rw [List.cons_append, List.cons_append, firstByKey, firstByKey]
    by_cases contained : seen.contains (key y) = true
    · rw [if_pos contained, if_pos contained]
      apply ih
      rcases old with old | old
      · exact .inl old
      · rcases List.mem_cons.1 old with same | old
        · exact .inl (same ▸ List.contains_iff_mem.1 contained)
        · exact .inr old
    · rw [if_neg contained, if_neg contained, ih]
      rcases old with old | old
      · exact .inl (List.mem_cons_of_mem _ old)
      · rcases List.mem_cons.1 old with same | old
        · exact .inl (same ▸ List.mem_cons_self)
        · exact .inr old

theorem absentFrom_repeated {e : Endpoint} {before : List Endpoint} (old : e.key ∈ before.map Endpoint.key)
    (others after : List Endpoint) :
    absentFrom others (before ++ e :: after) = absentFrom others (before ++ after) := by
  rw [absentFrom, absentFrom, firstByKey_repeated (.inr old)]

theorem absentFrom_congr {others same : List Endpoint}
    (keys : ∀ k, k ∈ others.map Endpoint.key ↔ k ∈ same.map Endpoint.key) (es : List Endpoint) :
    absentFrom others es = absentFrom same es := by
  rw [absentFrom, absentFrom]
  congr 1
  funext e
  rw [Bool.eq_iff_iff, Bool.not_eq_true', Bool.not_eq_true', ← Bool.not_eq_true, ← Bool.not_eq_true,
    List.contains_iff_mem, List.contains_iff_mem, keys]

theorem keys_repeated {e : Endpoint} {before : List Endpoint} (old : e.key ∈ before.map Endpoint.key)
    (after : List Endpoint) (k : String) :
    k ∈ (before ++ e :: after).map Endpoint.key ↔ k ∈ (before ++ after).map Endpoint.key := by
  rw [List.map_append, List.map_append, List.map_cons, List.mem_append, List.mem_append, List.mem_cons]
  constructor
  · rintro (mem | rfl | mem)
    · exact .inl mem
    · exact .inl old
    · exact .inr mem
  · rintro (mem | mem)
    · exact .inl mem
    · exact .inr (.inr mem)

/-- The keys that the others lack, each once, in the order in which they first occur. -/
def keysBeyond (others es : List Endpoint) : List String :=
  (es.map Endpoint.key).eraseDups.filter (· ∉ others.map Endpoint.key)

theorem mem_keysBeyond {others es : List Endpoint} {k : String} :
    k ∈ keysBeyond others es ↔ k ∈ es.map Endpoint.key ∧ k ∉ others.map Endpoint.key := by
  rw [keysBeyond, List.mem_filter, List.mem_eraseDups, decide_eq_true_eq]

theorem firsts_of_known {es : List Endpoint} {keys : List String} (known : ∀ k ∈ keys, k ∈ es.map Endpoint.key) :
    List.Forall₂ (fun k e => es.find? (·.key == k) = some e) keys
      (keys.filterMap fun k => es.find? (·.key == k)) := by
  induction keys with
  | nil => exact .nil
  | cons k keys ih =>
    obtain ⟨e, mem, same⟩ := List.mem_map.1 (known k (by simp))
    obtain ⟨first, found⟩ : ∃ first, es.find? (·.key == k) = some first := by
      rw [← Option.isSome_iff_exists, List.find?_isSome]
      exact ⟨e, mem, beq_iff_eq.2 same⟩
    rw [List.filterMap_cons, found]
    exact .cons found (ih fun k later => known k (by simp [later]))

theorem absentFrom_firsts (others es : List Endpoint) :
    List.Forall₂ (fun k e => es.find? (·.key == k) = some e) (keysBeyond others es) (absentFrom others es) := by
  have filtered : (es.map Endpoint.key).eraseDups.filter (fun k => !(others.map Endpoint.key).contains k) =
      keysBeyond others es := by
    rw [keysBeyond]
    congr 1
    funext k
    rw [Bool.eq_iff_iff]
    simp
  rw [absentFrom_eq, filtered]
  exact firsts_of_known fun k mem => (mem_keysBeyond.1 mem).1

theorem absentFrom_eq_nil_iff {others es : List Endpoint} :
    absentFrom others es = [] ↔ ∀ k ∈ es.map Endpoint.key, k ∈ others.map Endpoint.key := by
  have sameLength := (absentFrom_firsts others es).length_eq
  rw [← List.length_eq_zero_iff, ← sameLength, List.length_eq_zero_iff, List.eq_nil_iff_forall_not_mem]
  simp only [mem_keysBeyond, not_and, not_not]

structure ReportsMissing (e : Endpoint) (f : Finding) : Prop where
  kind : f.kind = .missingEndpoint
  severity : f.severity = .error
  subject : f.subject = "api"
  message : f.message = s!"API endpoint {e.method} {e.path} is documented but not implemented"
  remedy : f.remedy = s!"Implement handler for {e.method} {e.path} or remove from API documentation"

structure ReportsUndocumented (e : Endpoint) (f : Finding) : Prop where
  kind : f.kind = .undocumentedEndpoint
  severity : f.severity = .warning
  subject : f.subject = "api"
  message : f.message = s!"API endpoint {e.method} {e.path} is implemented but not documented (found in " ++
    s!"{Files.baseName e.file}:{Text.intText e.line})"
  remedy : f.remedy = s!"Add {e.method} {e.path} to API documentation (OpenAPI/ARCHITECTURE.md)"

theorem missing_reports (e : Endpoint) : ReportsMissing e (missing e) := ⟨rfl, rfl, rfl, rfl, rfl⟩

theorem undocumented_reports (e : Endpoint) : ReportsUndocumented e (undocumented e) := by
  refine ⟨rfl, rfl, rfl, ?_, rfl⟩
  simp [undocumented, location, String.append_assoc, ToString.toString]

/-- For each of some keys, in their order, what is said of the first endpoint that has it. -/
def ToldFirst (reports : Endpoint → Finding → Prop) (es : List Endpoint) : List String → List Finding → Prop :=
  List.Forall₂ fun k f => ∃ e, es.find? (·.key == k) = some e ∧ reports e f

theorem toldFirst_map {reports : Endpoint → Finding → Prop} {tell : Endpoint → Finding} (told : ∀ e, reports e (tell e))
    (others es : List Endpoint) : ToldFirst reports es (keysBeyond others es) ((absentFrom others es).map tell) := by
  rw [ToldFirst, List.forall₂_map_right_iff]
  exact (absentFrom_firsts others es).imp fun k e found => ⟨e, found, told e⟩

theorem filter_missing (documented implemented : List Endpoint) :
    (endpoints documented implemented).filter (·.kind = .missingEndpoint) =
      (absentFrom implemented documented).map missing := by
  have all : ∀ f ∈ (absentFrom implemented documented).map missing, decide (f.kind = .missingEndpoint) = true := by
    intro f mem
    obtain ⟨e, -, rfl⟩ := List.mem_map.1 mem
    rfl
  have none : ∀ f ∈ (absentFrom documented implemented).map undocumented,
      ¬ decide (f.kind = .missingEndpoint) = true := by
    intro f mem
    obtain ⟨e, -, rfl⟩ := List.mem_map.1 mem
    exact Bool.false_ne_true
  rw [endpoints, List.filter_append, List.filter_eq_self.2 all, List.filter_eq_nil_iff.2 none, List.append_nil]

/-- The comparison comes to one error for each documented key that is not implemented, then to one warning for
each implemented key that is not documented, in the order in which the keys first occur and told by the first
endpoint that has them. It comes to nothing exactly if both sides have the same keys. An endpoint whose key came
before changes nothing, and the order of what is implemented does not touch what is said to be missing. -/
theorem endpoints_difference (documented implemented : List Endpoint) :
    (∃ missed extra, endpoints documented implemented = missed ++ extra ∧
      ToldFirst ReportsMissing documented (keysBeyond implemented documented) missed ∧
      ToldFirst ReportsUndocumented implemented (keysBeyond documented implemented) extra) ∧
    (endpoints documented implemented = [] ↔
      ∀ k, k ∈ documented.map Endpoint.key ↔ k ∈ implemented.map Endpoint.key) ∧
    (∀ before e after, e.key ∈ before.map Endpoint.key →
      endpoints (before ++ e :: after) implemented = endpoints (before ++ after) implemented ∧
      endpoints documented (before ++ e :: after) = endpoints documented (before ++ after)) ∧
    ∀ shuffled, implemented.Perm shuffled →
      (endpoints documented shuffled).filter (·.kind = .missingEndpoint) =
        (endpoints documented implemented).filter (·.kind = .missingEndpoint) := by
  refine ⟨?_, ?_, ?_, ?_⟩
  · exact ⟨_, _, rfl, toldFirst_map missing_reports _ _, toldFirst_map undocumented_reports _ _⟩
  · rw [endpoints, List.append_eq_nil_iff, List.map_eq_nil_iff, List.map_eq_nil_iff, absentFrom_eq_nil_iff,
      absentFrom_eq_nil_iff]
    constructor
    · intro both k
      exact ⟨both.1 k, both.2 k⟩
    · intro same
      exact ⟨fun k => (same k).1, fun k => (same k).2⟩
  · intro before e after old
    have keys := keys_repeated old after
    constructor
    · rw [endpoints, endpoints, absentFrom_repeated old, absentFrom_congr keys]
    · rw [endpoints, endpoints, absentFrom_repeated old, absentFrom_congr keys]
  · intro shuffled perm
    have keys : ∀ k, k ∈ shuffled.map Endpoint.key ↔ k ∈ implemented.map Endpoint.key :=
      fun k => (perm.map Endpoint.key).symm.mem_iff
    rw [filter_missing, filter_missing, absentFrom_congr keys]

end Drift.Check
