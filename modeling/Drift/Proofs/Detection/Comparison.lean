import Drift.Proofs.Check.Difference
import Drift.Proofs.Detection.Reading
import Drift.Proofs.Route.Canonical

namespace Drift

def DeclaredRoute.key (r : DeclaredRoute) : String := r.verb.upper ++ " " ++ String.ofList (Route.canonical r.segments)

theorem DeclaredRoute.key_injective (r s : DeclaredRoute) (h : r.key = s.key) : r = s := by
  obtain ⟨v, ss, _⟩ := r
  obtain ⟨w, ts, _⟩ := s
  have texts : v.upper.toList ++ ' ' :: Route.canonical ss = w.upper.toList ++ ' ' :: Route.canonical ts := by
    have lists := congrArg String.toList h
    simpa [key] using lists
  have parts : v = w ∧ Route.canonical ss = Route.canonical ts := by
    cases v <;> cases w <;> first | exact ⟨rfl, by simpa [Verb.upper] using texts⟩ | simp [Verb.upper] at texts
  obtain ⟨rfl, paths⟩ := parts
  cases Route.canonical_injective paths
  rfl

theorem DeclaredRoute.key_inCode (l : Language) (file : String) (r : DeclaredRoute) (n : Nat) :
    (r.inCode l file n).key = r.key := by
  rw [Endpoint.key, key, inCode, r.verb.upper_upper, Route.normalize, DeclaredRoute.path, String.toList_ofList,
    Route.normalizeChars_write]

theorem DeclaredRoute.key_inDocument (source : String) (r : DeclaredRoute) (n : Nat) :
    (r.inDocument source n).key = r.key := by
  have path : (r.inDocument source n).path = String.ofList (Route.write .braces r.segments) := rfl
  have method : (r.inDocument source n).method = r.verb.upper := rfl
  rw [Endpoint.key, key, path, method, r.verb.upper_upper, Route.normalize, String.toList_ofList,
    Route.normalizeChars_write]

def DeclaredRoute.missed (r : DeclaredRoute) : Finding where
  kind := .missingEndpoint
  severity := .error
  subject := "api"
  message := s!"API endpoint {r.verb.upper} {r.path .braces} is documented but not implemented"
  remedy := s!"Implement handler for {r.verb.upper} {r.path .braces} or remove from API documentation"

/-- What is said of a route that only the program declares, the declaration ending at a line. -/
def DeclaredRoute.unexpected (l : Language) (file : String) (line : Nat) (r : DeclaredRoute) : Finding where
  kind := .undocumentedEndpoint
  severity := .warning
  subject := "api"
  message := s!"API endpoint {r.verb.upper} {r.path l.spelling} is implemented but not documented (found in " ++
    s!"{Files.baseName file}:{Text.natText line})"
  remedy := s!"Add {r.verb.upper} {r.path l.spelling} to API documentation (OpenAPI/ARCHITECTURE.md)"

theorem DeclaredRoute.undocumented_inCode (l : Language) (file : String) (line : Nat) (r : DeclaredRoute) :
    Check.undocumented (r.inCode l file line) = r.unexpected l file line := by
  have number : Text.intText line = Text.natText line := by
    rw [Text.intText, Text.intChars, if_neg (by omega), Int.natAbs_natCast, Text.natText]
  simp [Check.undocumented, Check.location, inCode, unexpected, toString, number, String.append_assoc]

/-- The comparison of a document with a program, each of which declares a list of routes: one error for each
route that only the document has, one warning for each that only the program has, and nothing else. So it is
silent exactly if the two declare the same routes. -/
theorem drift_of_declared_routes (l : Language) (source file : String) (documented implemented : List DeclaredRoute) :
    Check.endpoints (Document.outlineEndpoints source (outline documented))
        (l.endpoints file (program l implemented)) =
      (documented.eraseDups.filter fun r => !implemented.contains r).map DeclaredRoute.missed ++
      ((implemented.eraseDups.filter fun r => !documented.contains r).map fun r =>
        r.unexpected l file (l.declarationLength * (implemented.idxOf r + 1))) ∧
    (Check.endpoints (Document.outlineEndpoints source (outline documented))
        (l.endpoints file (program l implemented)) = [] ↔ ∀ r, r ∈ documented ↔ r ∈ implemented) := by
  have inDocument := DeclaredRoute.key_inDocument source
  have inCode : ∀ r n, (r.inCode l file (l.declarationLength * n)).key = DeclaredRoute.key r := fun r n =>
    r.key_inCode l file _
  have exact : Check.endpoints (Document.outlineEndpoints source (outline documented))
        (l.endpoints file (program l implemented)) =
      (documented.eraseDups.filter fun r => !implemented.contains r).map DeclaredRoute.missed ++
      ((implemented.eraseDups.filter fun r => !documented.contains r).map fun r =>
        r.unexpected l file (l.declarationLength * (implemented.idxOf r + 1))) := by
    rw [Check.endpoints, outlineEndpoints_outline, endpoints_program,
      Check.absentFrom_shown DeclaredRoute.key_injective inDocument (Check.keys_shown inCode implemented 1),
      Check.absentFrom_shown DeclaredRoute.key_injective inCode (Check.keys_shown inDocument documented 1),
      List.map_map, List.map_map]
    simp only [← DeclaredRoute.undocumented_inCode, Nat.add_comm 1]
    rfl
  refine ⟨exact, ?_⟩
  rw [exact, List.append_eq_nil_iff, List.map_eq_nil_iff, List.map_eq_nil_iff, List.filter_eq_nil_iff,
    List.filter_eq_nil_iff]
  simp only [List.mem_eraseDups, Bool.not_eq_true', Bool.not_eq_false, List.contains_iff_mem]
  exact ⟨fun ⟨onlyDocument, onlyCode⟩ r => ⟨onlyDocument r, onlyCode r⟩,
    fun same => ⟨fun r => (same r).1, fun r => (same r).2⟩⟩

end Drift
