import Drift.Proofs.Document.OpenApi.Bodies

namespace Drift.Document.OpenApi

variable {s : Store} {v schema : Value} {responses content op m : Entries} {ms : List Entries}

def schemaIn (m : Entries) : Option Value :=
  (field "schema" m).filter fun v => match v with
    | .null => false
    | _ => true

def mappingsOf (s : Store) (content : Entries) : List Entries := content.filterMap fun e => s.entries? e.2

/-- The media types that are mappings in the order of preference: JSON, a form, then all of them as they are written
down. -/
def mediaTypes (s : Store) (content : Entries) : List Entries :=
  (entriesOf s (field "application/json" content)).toList ++
    (entriesOf s (field "multipart/form-data" content)).toList ++ mappingsOf s content

/-- The places for a schema in a response: the response itself where it has the key, then its media types. -/
def places (s : Store) (v : Value) : List Entries :=
  (s.entries? v).toList.flatMap fun r =>
    (if (field "schema" r).isSome then [r] else []) ++ (entriesOf s (field "content" r)).toList.flatMap (mappingsOf s)

theorem schemaIn_eq_none_iff : schemaIn m = none ↔ field "schema" m = none ∨ field "schema" m = some .null := by
  unfold schemaIn
  cases field "schema" m with
  | none => simp
  | some v => cases v <;> simp [Option.filter_some]

theorem schemaText_of_schemaIn (told : schemaIn m = some schema) :
    schemaText s (field "schema" m) = some <$> Json.dataText s schema := by
  obtain ⟨found, other⟩ := Option.filter_eq_some_iff.1 told
  rw [found]
  refine schemaText_of_ne_null fun null => ?_
  rw [null] at other
  cases other

theorem schemaText_eq_none_iff_schemaIn : schemaText s (field "schema" m) = .ok none ↔ schemaIn m = none := by
  rw [schemaText_eq_none_iff, schemaIn_eq_none_iff]

theorem schemaText_first (available : ms.findSome? schemaIn = some schema) :
    schemaText s (ms.head?.bind (field "schema")) =
      if (ms.head?.bind schemaIn).isSome then some <$> Json.dataText s schema else .ok none := by
  cases ms with
  | nil => cases available
  | cons m ms =>
    rw [List.head?_cons, Option.bind_some, Option.bind_some]
    rw [List.findSome?_cons] at available
    cases told : schemaIn m with
    | some v =>
      rw [told] at available
      cases available
      exact schemaText_of_schemaIn told
    | none => exact schemaText_eq_none_iff_schemaIn.2 told

theorem firstMapping_eq_head? : firstMapping s content = (mappingsOf s content).head? :=
  List.head?_filterMap.symm

theorem mediaType_eq_head? : mediaType s content = (mediaTypes s content).head? := by
  rw [mediaTypes, List.append_assoc, List.head?_append, List.head?_append, Option.head?_toList, Option.head?_toList,
    ← firstMapping_eq_head?, mediaType]
  simp only [Option.orElse_eq_orElse, Option.orElse_eq_or]

theorem isTruthy_of_field {body : Value} {b : Entries} {name : String} (mapping : s.entries? body = some b)
    (has : (field name b).isSome) : isTruthy s body = true := by
  cases b with
  | nil => cases has
  | cons e b =>
    cases body with
    | held id =>
      unfold Store.entries? at mapping
      split at mapping
      case h_1 cell =>
        cases mapping
        simp only [isTruthy, cell, List.isEmpty_cons, Bool.not_false]
      case h_2 => cases mapping
    | _ => cases mapping

theorem requestSchema_of_content {body : Value} {b : Entries} (told : field "requestBody" op = some body)
    (mapping : s.entries? body = some b) (inside : entriesOf s (field "content" b) = some content) :
    requestSchema s op = (mediaTypes s content).head?.bind (field "schema") := by
  have has : (field "content" b).isSome := by
    rw [Option.isSome_iff_ne_none]
    intro none
    rw [none] at inside
    cases inside
  have truthy : (field "requestBody" op).filter (isTruthy s) = some body := by
    rw [told, Option.filter_some, if_pos (isTruthy_of_field mapping has)]
  rw [requestSchema, truthy, ← mediaType_eq_head?]
  simp only [mapping, inside, Option.bind_some]

theorem responseSchema_eq_head? : responseSchema s v = (places s v).head?.map (field "schema") := by
  unfold responseSchema places
  cases s.entries? v with
  | none => rfl
  | some r =>
    rw [Option.bind_eq_bind, Option.bind_some, Option.toList_some, List.flatMap_singleton]
    cases own : field "schema" r with
    | some schema =>
      rw [Option.isSome_some, if_pos rfl, List.singleton_append, List.head?_cons, Option.map_some, own]
    | none =>
      cases entriesOf s (field "content" r) with
      | none => rfl
      | some content =>
        rw [Option.isSome_none, if_neg Bool.false_ne_true, Option.toList_some, List.flatMap_singleton, List.nil_append,
          ← firstMapping_eq_head?, Option.map_eq_bind]
        rfl

theorem hasPlace_of_mem_places (mem : m ∈ places s v) : HasPlace s v := by
  rw [← responseSchema_isSome_iff, responseSchema_eq_head?, Option.isSome_map, List.isSome_head?]
  exact List.ne_nil_of_mem mem

theorem responsesSchema_first {e : Value × Value} {status : List Nat} (readable : Readable responses) (mem : e ∈ responses)
    (offer : Offer s e status) :
    ∃ f least m, Used s responses f least ∧ (places s f.2).head? = some m ∧
      responsesSchema s responses = field "schema" m := by
  rcases responsesSchema_used s readable with ⟨f, least, used, schema⟩ | ⟨without, -⟩
  · rw [responseSchema_eq_head?, Option.map_eq_some_iff] at schema
    obtain ⟨m, first, told⟩ := schema
    exact ⟨f, least, m, used, first, told.symm⟩
  · exact absurd offer (without e mem status)

/-- Where a request has a schema, the body is that schema in the order of preference if the preferred media type is the
one that has it, and without it there is none. Where a successful response has a schema, the body is the schema in the
first place of the offer with the least status, and there is none just if that place has none. -/
theorem schemas_of_bodies (s : Store) (op : Entries) :
    (∀ body b content schema, field "requestBody" op = some body → s.entries? body = some b →
      entriesOf s (field "content" b) = some content → (mediaTypes s content).findSome? schemaIn = some schema →
      requestBody s op = if ((mediaTypes s content).head?.bind schemaIn).isSome then some <$> Json.dataText s schema
        else .ok none) ∧
    (∀ responses e status, entriesOf s (field "responses" op) = some responses → e ∈ responses →
      statusCodes e.1 = .ok status → status.head? = some '2'.toNat → (∃ m ∈ places s e.2, (schemaIn m).isSome) →
      ¬ Readable responses ∧ responseBody s (field "responses" op) = .error .hugeNumber ∨
      ∃ f least m, Used s responses f least ∧ (places s f.2).head? = some m ∧
        responseBody s (field "responses" op) = schemaText s (field "schema" m) ∧
        (responseBody s (field "responses" op) = .ok none ↔ schemaIn m = none)) := by
  constructor
  · intro body b content schema told mapping inside available
    rw [requestBody_eq, requestSchema_of_content told mapping inside, schemaText_first available]
  · rintro responses e status found mem read starts ⟨m, place, -⟩
    by_cases readable : Readable responses
    · obtain ⟨f, least, m, used, first, told⟩ :=
        responsesSchema_first readable mem ⟨read, starts, hasPlace_of_mem_places place⟩
      have body := responseBody_of_readable readable found
      rw [told] at body
      refine .inr ⟨f, least, m, used, first, body, ?_⟩
      rw [body, schemaText_eq_none_iff_schemaIn]
    · exact .inl ⟨readable, responseBody_of_unreadable readable found⟩

/-- A schema in plain text, behind JSON without one or alone; each content as that of a body or a response. -/
def plainTextStore : Store where
  cells := #[
    .map [(.str "type", .str "object")],
    .map [],
    .map [(.str "schema", .held 0)],
    .map [(.str "application/json", .held 1), (.str "text/plain", .held 2)],
    .map [(.str "content", .held 3)],
    .map [(.str "text/plain", .held 2)],
    .map [(.str "content", .held 5)],
    .map [(.str "200", .held 4)]]

theorem schemas_of_bodies_plain :
    requestBody plainTextStore [(.str "requestBody", .held 6)] = some <$> Json.dataText plainTextStore (.held 0) ∧
    requestBody plainTextStore [(.str "requestBody", .held 4)] = .ok none ∧
    responseBody plainTextStore (field "responses" [(.str "responses", .held 7)]) = .ok none := by
  have alone := (schemas_of_bodies plainTextStore [(.str "requestBody", .held 6)]).1 (.held 6) _ _ (.held 0) rfl rfl rfl rfl
  have behind := (schemas_of_bodies plainTextStore [(.str "requestBody", .held 4)]).1 (.held 4) _ _ (.held 0) rfl rfl rfl rfl
  refine ⟨alone, behind, ?_⟩
  have status : statusCodes (.str "200") = .ok [50, 48, 48] :=
    congrArg Except.ok (by decide +kernel : Text.codes "200".toList = [50, 48, 48])
  have readable : Readable [(.str "200", .held 4)] := List.forall_mem_singleton.2 ⟨_, status⟩
  have place : ∃ m ∈ places plainTextStore (.held 4), (schemaIn m).isSome := ⟨[(.str "schema", .held 0)], .tail _ (.head _), rfl⟩
  obtain ⟨unread, -⟩ | ⟨f, least, m, used, first, -, body⟩ :=
    (schemas_of_bodies plainTextStore [(.str "responses", .held 7)]).2 _ _ [50, 48, 48] rfl (.head _) status rfl place
  · exact absurd readable unread
  · obtain rfl := List.mem_singleton.1 used.mem
    obtain rfl : [] = m := Option.some.inj first
    exact body.2 rfl

end Drift.Document.OpenApi
