import Drift.Proofs.Route.Pairing
import Drift.Proofs.Source.Scan
import Drift.Source.CSharp

namespace Drift.Source.CSharp

open Route

abbrev Numbered := Nat × Line

def Line.isType : Line → Bool
  | .type _ => true
  | _ => false

def Line.isDeclaration : Line → Bool
  | .type _ | .method _ => true
  | _ => false

def markOf : Numbered → Option Mark
  | (n, .attribute methods path) => some ⟨methods, path.map String.ofList, n⟩
  | _ => none

def attributesBehind (earlier : List Numbered) : List Mark :=
  (earlier.rtakeWhile fun i => !i.2.isDeclaration).filterMap markOf

def routeOf (attributes : List Mark) : Option Pending := Pairing.run (attributes.map .annotate)

def upToType (earlier : List Numbered) : List Numbered := earlier.rdropWhile fun i => !i.2.isType

def classRoute (earlier : List Numbered) : List Char :=
  match (upToType earlier).getLast? with
  | some (_, .type typeName) =>
    match routeOf (attributesBehind (upToType earlier).dropLast) with
    | some route => Text.replace "[controller]".toList (controllerToken typeName) route.path.toList
    | none => []
  | _ => []

def pathBelow (base : List Char) : List Char → List Char
  | '~' :: '/' :: path => '/' :: path
  | '/' :: path => '/' :: path
  | path => Route.join base path

def emitted (file : String) (earlier : List Numbered) : Numbered → List Endpoint
  | (n, .minimal verb path args) =>
    [endpoint .csharp file n verb path (handlerName (Text.trimLeftWhile (· == ',') args))]
  | (n, .method fn) =>
    match routeOf (attributesBehind earlier) with
    | some route =>
      let path := Text.replace "[action]".toList (Text.lower fn) route.path.toList
      route.methods.map fun m => endpoint .csharp file n m.toList (pathBelow (classRoute earlier) path) fn
    | none => []
  | _ => []

def classified (text : List Char) : List Numbered :=
  (Text.numberedLines text).map fun (n, line) => (n, Line.of (Text.trim line))

theorem methodPath_eq (base path fn : List Char) :
    methodPath base path fn = pathBelow base (Text.replace "[action]".toList (Text.lower fn) path) := by
  rw [methodPath]
  generalize Text.replace "[action]".toList (Text.lower fn) path = written
  fun_cases pathBelow base written with
  | case1 path => rfl
  | case2 path => rfl
  | case3 _ notRoot notRooted =>
    have tilde : "~/".toList.isPrefixOf written = false := by
      rw [← Bool.not_eq_true, List.isPrefixOf_iff_prefix]
      intro starts
      obtain ⟨rest, shape⟩ := starts
      exact notRoot rest shape.symm
    have slash : written.head? ≠ some '/' := by
      intro head
      obtain ⟨rest, shape⟩ := List.head?_eq_some_iff.1 head
      exact notRooted rest shape
    simp only [tilde, slash, Bool.false_eq_true, if_false]

variable {earlier : List Numbered} {i : Numbered}

theorem attributesBehind_declaration (declares : i.2.isDeclaration = true) (earlier : List Numbered) :
    attributesBehind (earlier ++ [i]) = [] := by
  rw [attributesBehind, List.rtakeWhile_concat_neg _ _ _ (by simp [declares])]
  rfl

theorem attributesBehind_other (other : i.2.isDeclaration = false) (earlier : List Numbered) :
    attributesBehind (earlier ++ [i]) = attributesBehind earlier ++ (markOf i).toList := by
  rw [attributesBehind, List.rtakeWhile_concat_pos _ _ _ (by simp [other]), List.filterMap_append, attributesBehind]
  cases mark : markOf i <;> simp [mark]

theorem classRoute_other (other : i.2.isType = false) (earlier : List Numbered) :
    classRoute (earlier ++ [i]) = classRoute earlier := by
  have same : upToType (earlier ++ [i]) = upToType earlier :=
    List.rdropWhile_concat_pos _ _ _ (by simp [other])
  rw [classRoute, same, classRoute]

theorem classRoute_type (n : Nat) (typeName : List Char) (earlier : List Numbered) :
    classRoute (earlier ++ [(n, .type typeName)]) =
      ((routeOf (attributesBehind earlier)).map fun route =>
        Text.replace "[controller]".toList (controllerToken typeName) route.path.toList).getD [] := by
  have all : upToType (earlier ++ [(n, .type typeName)]) = earlier ++ [(n, .type typeName)] :=
    List.rdropWhile_concat_neg _ _ _ (by simp [Line.isType])
  rw [classRoute, all, List.getLast?_concat, List.dropLast_concat]
  dsimp only
  cases routeOf (attributesBehind earlier) <;> rfl

theorem routeOf_concat (attributes : List Mark) (a : Mark) :
    routeOf (attributes ++ [a]) = Pairing.annotate (routeOf attributes) a.methods a.path a.line := by
  rw [routeOf, List.map_append, List.map_singleton, Pairing.run_concat]
  rfl

def stateAfter (earlier : List Numbered) : Java.State where
  base := classRoute earlier
  pairing := routeOf (attributesBehind earlier)

theorem stateAfter_passed (other : i.2.isDeclaration = false) (unmarked : markOf i = none) (earlier : List Numbered) :
    stateAfter (earlier ++ [i]) = stateAfter earlier := by
  have noType : i.2.isType = false := by
    cases line : i.2 <;> simp_all [Line.isType, Line.isDeclaration]
  rw [stateAfter, attributesBehind_other other, unmarked, classRoute_other noType, Option.toList_none, List.append_nil,
    stateAfter]

theorem step_stateAfter (file : String) (earlier : List Numbered) (n : Nat) (l : Line) :
    step file n (stateAfter earlier) l = (stateAfter (earlier ++ [(n, l)]), emitted file earlier (n, l)) := by
  match l with
  | .minimal verb path args =>
    rw [stateAfter_passed rfl rfl]
    rfl
  | .attribute methods path =>
    have mark : markOf (n, .attribute methods path) = some ⟨methods, path.map String.ofList, n⟩ := rfl
    rw [stateAfter, stateAfter, attributesBehind_other rfl, classRoute_other rfl, mark, Option.toList_some, routeOf_concat]
    rfl
  | .type typeName =>
    rw [stateAfter, stateAfter, attributesBehind_declaration rfl, classRoute_type]
    rfl
  | .method fn =>
    rw [stateAfter, stateAfter, attributesBehind_declaration rfl, classRoute_other rfl, step, emitted]
    simp only [Pairing.consume]
    cases routeOf (attributesBehind earlier) with
    | none => rfl
    | some route =>
      simp only [methodPath_eq]
      rfl
  | .other =>
    rw [stateAfter_passed rfl rfl]
    rfl

/-- What a C# file declares, line by line: a minimal API is an endpoint of its own, and a method has the routes of the
attribute lines behind the declaration before it, below the route of the nearest class. -/
theorem endpoints_nearest (file : String) (text : List Char) :
    endpoints file text = (withEarlier (classified text)).flatMap fun (earlier, line) => emitted file earlier line := by
  have start : ({} : Java.State) = stateAfter [] := rfl
  rw [endpoints, scanLines, start]
  exact scan_of_history (fun earlier n line => step_stateAfter file earlier n (Line.of (Text.trim line))) _

end Drift.Source.CSharp
