import Drift.Document.OpenApi
import Drift.Proofs.Outcome

namespace Drift.Document.OpenApi

variable {s : Store} {shared : List Value} {op op' item item' : Entries}

/-- The operations of a path with their methods. What is no mapping has no fields. -/
def operations (s : Store) (item : Entries) : List (String × Entries) :=
  item.filterMap fun (key, v) => (methodOf key).map fun method => (method, (s.entries? v).getD [])

/-- The second operation has the shared parameters in front of its own, and all else as the first one has it. -/
structure TakesOver (s : Store) (shared : List Value) (op op' : Entries) : Prop where
  parameters : itemsOf s (field "parameters" op') = shared ++ itemsOf s (field "parameters" op)
  others : ∀ name, name ≠ "parameters" → field name op' = field name op

/-- The second path has no shared parameters. Its operations are those of the first one and take over what the first
one shares. -/
structure Moved (s : Store) (shared : List Value) (item item' : Entries) : Prop where
  above : itemsOf s (field "parameters" item) = shared
  cleared : itemsOf s (field "parameters" item') = []
  operations : List.Forall₂ (fun x y => y.1 = x.1 ∧ TakesOver s shared x.2 y.2) (operations s item) (operations s item')

/-- The schema of the first parameter that is of the body, if there is such a parameter. -/
def bodyIn (s : Store) (vs : List Value) : Option (Option Value) :=
  vs.findSome? fun v => do
    let p ← s.entries? v
    if textOf (field "in" p) = "body" then some (field "schema" p) else none

/-- The operation tells of a request body, or has a parameter of its own for it. -/
def HasBody (s : Store) (op : Entries) : Prop :=
  (field "requestBody" op).filter (isTruthy s) ≠ none ∨ bodyIn s (itemsOf s (field "parameters" op)) ≠ none

theorem pathEndpoints_eq (s : Store) (file : String) (path : Value) (item : Entries) :
    pathEndpoints s file path item = (operations s item).mapM fun x =>
      operationEndpoint s file path x.1 (itemsOf s (field "parameters" item)) x.2 := by
  rw [operations, ← mapM_filterMap, pathEndpoints]
  congr 1
  congr 1
  funext entry
  obtain ⟨key, v⟩ := entry
  dsimp only
  cases methodOf key <;> rfl

def endpointWith (s : Store) (file : String) (path : Value) (method : String) (shared : List Value) (op : Entries)
    (body : Except Json.Failure (Option String)) : Except Json.Failure Endpoint := do
  let path ← wordOf path
  let request ← body
  let response ← responseBody s (field "responses" op)
  return {
    method
    path
    description := orElse (textOf (field "summary" op)) (textOf (field "description" op))
    file
    parameters := parameters s (shared ++ itemsOf s (field "parameters" op))
    requestBody := request
    responseBody := response }

variable (file : String) (path : Value) (method : String)

theorem operationEndpoint_eq (shared : List Value) (op : Entries) :
    operationEndpoint s file path method shared op = endpointWith s file path method shared op (requestBody s op) := rfl

/-- Parameters that are taken over are read as if they were shared. Of the endpoint only the request body can change. -/
theorem TakesOver.endpoint (takes : TakesOver s shared op op') :
    operationEndpoint s file path method [] op' = endpointWith s file path method shared op (requestBody s op') := by
  rw [operationEndpoint_eq, endpointWith, List.nil_append, takes.parameters, takes.others "responses" (by decide),
    takes.others "summary" (by decide), takes.others "description" (by decide)]
  rfl

theorem bodyIn_append (vs ws : List Value) : bodyIn s (vs ++ ws) = (bodyIn s vs).or (bodyIn s ws) :=
  List.findSome?_append

theorem requestBody_of_body {body : Value} (told : (field "requestBody" op).filter (isTruthy s) = some body)
    (other : (field "requestBody" op').filter (isTruthy s) = some body) : requestBody s op' = requestBody s op := by
  rw [requestBody, requestBody, told, other]

theorem requestBody_of_none (untold : (field "requestBody" op).filter (isTruthy s) = none) :
    requestBody s op = match bodyIn s (itemsOf s (field "parameters" op)) with
      | some schema => schemaText s schema
      | none => .ok none := by
  rw [requestBody, untold]
  rfl

theorem TakesOver.requestBody_of_none (takes : TakesOver s shared op op') (none : bodyIn s shared = none) :
    requestBody s op' = requestBody s op := by
  have same : field "requestBody" op' = field "requestBody" op := takes.others "requestBody" (by decide)
  cases told : (field "requestBody" op).filter (isTruthy s) with
  | some body => exact requestBody_of_body told (same ▸ told)
  | none =>
    rw [OpenApi.requestBody_of_none told, OpenApi.requestBody_of_none (same ▸ told), takes.parameters, bodyIn_append, none,
      Option.none_or]

theorem requestBody_of_bare (bare : ¬ HasBody s op) : requestBody s op = .ok none := by
  obtain ⟨untold, own⟩ := not_or.1 bare
  rw [requestBody_of_none (not_not.1 untold), not_not.1 own]

/-- An operation without a body of its own gets that of the parameters it takes over. -/
theorem TakesOver.requestBody_of_some (takes : TakesOver s shared op op') {schema : Option Value}
    (body : bodyIn s shared = some schema) (bare : ¬ HasBody s op) : requestBody s op' = schemaText s schema := by
  have untold : (field "requestBody" op').filter (isTruthy s) = none := by
    rw [takes.others "requestBody" (by decide)]
    exact not_not.1 (not_or.1 bare).1
  rw [OpenApi.requestBody_of_none untold, takes.parameters, bodyIn_append, body, Option.some_or]

theorem schemaText_eq_none_iff {schema : Option Value} :
    schemaText s schema = .ok none ↔ schema = none ∨ schema = some .null := by
  cases schema with
  | none => simp [schemaText]
  | some v =>
    have written (w : Value) : (some <$> Json.dataText s w : Except Json.Failure (Option String)) ≠ .ok none := by
      cases Json.dataText s w <;> nofun
    cases v <;> simp [schemaText, written]

theorem endpointWith_none {e : Endpoint} (read : endpointWith s file path method shared op (.ok none) = .ok e) :
    e.requestBody = none ∧ ∀ body, endpointWith s file path method shared op body =
      (fun request => { e with requestBody := request }) <$> body := by
  unfold endpointWith at read ⊢
  obtain ⟨word, spelled, read⟩ := ok_of_bind read
  obtain ⟨request, bare, read⟩ := ok_of_bind read
  obtain ⟨response, answered, read⟩ := ok_of_bind read
  cases bare
  cases read
  refine ⟨rfl, fun body => ?_⟩
  rw [spelled, answered]
  cases body <;> rfl

theorem map_requestBody_eq_self_iff {es : List Endpoint} (filled : es ≠ []) (bare : ∀ e ∈ es, e.requestBody = none)
    (body : Option String) :
    (es.map fun e => { e with requestBody := body }) = es ↔ body = none := by
  constructor
  · intro same
    obtain ⟨e, rest, rfl⟩ := List.exists_cons_of_ne_nil filled
    have first : body = e.requestBody := congrArg Endpoint.requestBody (List.cons_eq_cons.1 same).1
    rw [first, bare e (by simp)]
  · intro none
    have each : ∀ e ∈ es, { e with requestBody := body } = e := by
      intro e mem
      rw [none, ← bare e mem]
    rw [List.map_congr_left each, List.map_id']

/-- What a path shares can as well be written in front of the parameters of each of its operations: the endpoints are the
same, unless it shares a parameter of the body. An operation without a body of its own has none then either, and gets the
schema of the shared parameter for its request body only where that is written with the operation itself. So it makes a
difference whenever that parameter has a schema. -/
theorem pathEndpoints_moved (moved : Moved s shared item item') :
    (bodyIn s shared = none → pathEndpoints s file path item' = pathEndpoints s file path item) ∧
    ∀ schema es, bodyIn s shared = some schema → (∀ x ∈ operations s item, ¬ HasBody s x.2) →
      pathEndpoints s file path item = .ok es → es ≠ [] →
      (∀ e ∈ es, e.requestBody = none) ∧
      pathEndpoints s file path item' =
        (fun body => es.map fun e => { e with requestBody := body }) <$> schemaText s schema ∧
      (pathEndpoints s file path item' = .ok es ↔ schema = none ∨ schema = some .null) := by
  rw [pathEndpoints_eq, pathEndpoints_eq, moved.above, moved.cleared]
  constructor
  · intro none
    refine mapM_related moved.operations fun x _ y ⟨same, takes⟩ => ?_
    rw [same, takes.endpoint, takes.requestBody_of_none none, operationEndpoint_eq]
  · intro schema es body bare read filled
    have written : (operations s item').mapM (fun y => operationEndpoint s file path y.1 [] y.2) =
        (operations s item).mapM fun x => endpointWith s file path x.1 shared x.2 (schemaText s schema) := by
      refine mapM_related moved.operations fun x mem y ⟨same, takes⟩ => ?_
      rw [same, takes.endpoint, takes.requestBody_of_some body (bare x mem)]
    have none : ∀ e ∈ es, e.requestBody = none := by
      intro e mem
      obtain ⟨x, inside, made⟩ := mem_of_mapM read mem
      rw [operationEndpoint_eq, requestBody_of_bare (bare x inside)] at made
      exact (endpointWith_none file path x.1 made).1
    have all : (operations s item').mapM (fun y => operationEndpoint s file path y.1 [] y.2) =
        (fun body => es.map fun e => { e with requestBody := body }) <$> schemaText s schema := by
      rw [written]
      refine mapM_with (fun x mem e made => ?_) read filled
      rw [operationEndpoint_eq, requestBody_of_bare (bare x mem)] at made
      exact (endpointWith_none file path x.1 made).2 _
    refine ⟨none, all, ?_⟩
    rw [all, ← schemaText_eq_none_iff (s := s)]
    cases schemaText s schema with
    | error e => exact iff_of_false nofun nofun
    | ok body =>
      have same := map_requestBody_eq_self_iff filled none body
      exact ⟨fun equal => congrArg _ (same.1 (Except.ok.inj equal)), fun blank => congrArg _ (same.2 (Except.ok.inj blank))⟩

/-- Two parameters, one of the body and one of the query, each in a list of its own; and operations without parameters,
with the first list and with the second. -/
def petStore : Store where
  cells := #[
    .map [(.str "type", .str "object")],
    .map [(.str "name", .str "pet"), (.str "in", .str "body"), (.str "schema", .held 0)],
    .map [(.str "name", .str "tag")],
    .list [.held 1],
    .list [.held 2],
    .map [],
    .map [(.str "parameters", .held 3)],
    .map [(.str "parameters", .held 4)]]

def petItem (list : Nat) : Entries := [(.str "parameters", .held list), (.str "post", .held 5)]

theorem operations_petItem (list : Nat) : operations petStore (petItem list) = [("POST", [])] := by
  have post : methodOf (.str "post") = some "POST" := by decide +kernel
  have none : methodOf (.str "parameters") = none := by decide +kernel
  have bare : petStore.entries? (.held 5) = some [] := rfl
  simp [operations, petItem, post, none, bare]

theorem petItem_moved {list op : Nat} {vs : List Value} (listed : petStore.items? (.held list) = some vs)
    (taken : petStore.entries? (.held op) = some [(.str "parameters", .held list)]) :
    Moved petStore vs (petItem list) [(.str "post", .held op)] := by
  constructor
  case above => simp [petItem, field, Value.field, itemsOf, listed]
  case cleared => simp [field, Value.field, itemsOf]
  case operations =>
    have post : methodOf (.str "post") = some "POST" := by decide +kernel
    have after : operations petStore [(.str "post", .held op)] = [("POST", [(.str "parameters", .held list)])] := by
      simp [operations, post, taken]
    rw [operations_petItem, after]
    refine .cons ⟨rfl, ?_, ?_⟩ .nil
    · simp [field, Value.field, itemsOf, listed]
    · intro name other
      simp [field, Value.field, Ne.symm other]

theorem pathEndpoints_moved_pets :
    bodyIn petStore [.held 2] = none ∧ bodyIn petStore [.held 1] = some (some (.held 0)) ∧
    pathEndpoints petStore "a.yaml" (.str "/pets") [(.str "post", .held 7)] =
      pathEndpoints petStore "a.yaml" (.str "/pets") (petItem 4) ∧
    pathEndpoints petStore "a.yaml" (.str "/pets") (petItem 3) =
      .ok [{ method := "POST", path := "/pets", file := "a.yaml" }] ∧
    pathEndpoints petStore "a.yaml" (.str "/pets") [(.str "post", .held 6)] ≠
      .ok [{ method := "POST", path := "/pets", file := "a.yaml" }] := by
  have tags : Moved petStore [.held 2] (petItem 4) [(.str "post", .held 7)] := petItem_moved rfl rfl
  have body : Moved petStore [.held 1] (petItem 3) [(.str "post", .held 6)] := petItem_moved rfl rfl
  have bare : ∀ x ∈ operations petStore (petItem 3), ¬ HasBody petStore x.2 := by
    simp [operations_petItem, HasBody, field, Value.field, itemsOf, bodyIn]
  have alone : pathEndpoints petStore "a.yaml" (.str "/pets") (petItem 3) =
      .ok [{ method := "POST", path := "/pets", file := "a.yaml" }] := by decide +kernel
  refine ⟨rfl, rfl, (pathEndpoints_moved "a.yaml" (.str "/pets") tags).1 rfl, alone, ?_⟩
  rw [ne_eq, ((pathEndpoints_moved "a.yaml" (.str "/pets") body).2 (some (.held 0)) _ rfl bare alone (by simp)).2.2]
  simp

end Drift.Document.OpenApi
