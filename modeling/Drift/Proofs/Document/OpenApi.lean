import Drift.Document.OpenApi
import Drift.Proofs.Json.Failures
import Drift.Proofs.Outcome

namespace Drift.Document.OpenApi

open Json (Explains)

variable {s : Store}

def ExplainsIn (s : Store) (es : Entries) (e : Json.Failure) : Prop :=
  e ≠ .unsortedKeys ∧ (e = .badKey → ∃ x ∈ es, Json.HasOddKey s x.2)

theorem explainsIn_of_mem {es : Entries} {k w : Value} (mem : (k, w) ∈ es) (e : Json.Failure) (h : Explains s w e) :
    ExplainsIn s es e := ⟨h.1, fun bad => ⟨(k, w), mem, h.2 bad⟩⟩

theorem explains_of_entries? {es : Entries} {v : Value} (mapping : s.entries? v = some es) (e : Json.Failure)
    (h : ExplainsIn s es e) : Explains s v e := by
  have map : s.at? v = some (.map es) := by
    rw [Store.entries?] at mapping
    split at mapping
    · cases mapping
      assumption
    · cases mapping
  refine ⟨h.1, fun bad => ?_⟩
  obtain ⟨⟨k, w⟩, mem, odd⟩ := h.2 bad
  exact odd.inside (.entry map mem)

theorem explains_of_items? {items : List Value} {v w : Value} (list : s.items? v = some items) (mem : w ∈ items)
    (e : Json.Failure) (h : Explains s w e) : Explains s v e := by
  have list : s.at? v = some (.list items) := by
    rw [Store.items?] at list
    split at list
    · cases list
      assumption
    · cases list
  exact h.inside (.item list mem) e

theorem mem_of_field {name : String} {es : Entries} {v : Value} (found : field name es = some v) :
    ∃ k, (k, v) ∈ es := by
  rw [field] at found
  induction es with
  | nil => cases found
  | cons x es ih =>
    obtain ⟨k, w⟩ := x
    rw [Value.field.eq_def] at found
    split at found
    · contradiction
    · rename_i same
      cases same
      split at found
      · cases found
        exact ⟨_, List.mem_cons_self⟩
      · obtain ⟨k', mem⟩ := ih found
        exact ⟨k', List.mem_cons_of_mem _ mem⟩
    · rename_i same
      cases same
      obtain ⟨k', mem⟩ := ih found
      exact ⟨k', List.mem_cons_of_mem _ mem⟩

theorem explainsIn_of_field {name : String} {es inner : Entries} (found : entriesOf s (field name es) = some inner)
    (e : Json.Failure) (h : ExplainsIn s inner e) : ExplainsIn s es e := by
  rw [entriesOf, Option.bind_eq_some_iff] at found
  obtain ⟨v, here, mapping⟩ := found
  obtain ⟨k, mem⟩ := mem_of_field here
  exact explainsIn_of_mem mem e (explains_of_entries? mapping e h)

theorem explainsIn_of_firstMapping {es inner : Entries} (found : firstMapping s es = some inner) (e : Json.Failure)
    (h : ExplainsIn s inner e) : ExplainsIn s es e := by
  rw [firstMapping] at found
  obtain ⟨⟨k, v⟩, mem, mapping⟩ := List.exists_of_findSome?_eq_some found
  exact explainsIn_of_mem mem e (explains_of_entries? mapping e h)

theorem explainsIn_of_mediaType {content media : Entries} (found : mediaType s content = some media)
    (e : Json.Failure) (h : ExplainsIn s media e) : ExplainsIn s content e := by
  rw [mediaType] at found
  simp only [Option.orElse_eq_orElse, Option.orElse_eq_or, Option.or_eq_some_iff] at found
  rcases found with json | ⟨-, form | ⟨-, other⟩⟩
  · exact explainsIn_of_field json e h
  · exact explainsIn_of_field form e h
  · exact explainsIn_of_firstMapping other e h

theorem schemaText_failsWith (name : String) (es : Entries) :
    FailsWith (ExplainsIn s es) (schemaText s (field name es)) := by
  cases found : field name es with
  | none => exact .ok _
  | some v =>
    obtain ⟨k, mem⟩ := mem_of_field found
    cases v with
    | null => exact .ok _
    | _ => exact .map _ ((Json.dataText_failsWith _).mono (explainsIn_of_mem mem))

theorem explainsIn_of_itemsOf {name : String} {es : Entries} {v : Value} (mem : v ∈ itemsOf s (field name es))
    (e : Json.Failure) (h : Explains s v e) : ExplainsIn s es e := by
  rw [itemsOf] at mem
  cases found : field name es with
  | none =>
    rw [found] at mem
    cases mem
  | some list =>
    rw [found, Option.bind_some] at mem
    obtain ⟨k, here⟩ := mem_of_field found
    cases items : s.items? list with
    | none =>
      rw [items] at mem
      cases mem
    | some vs =>
      rw [items] at mem
      exact explainsIn_of_mem here e (explains_of_items? items mem e h)

theorem bodyParameter_failsWith {operation : Entries} {schema : Option Value}
    (found : bodyParameter s operation = some schema) :
    FailsWith (ExplainsIn s operation) (schemaText s schema) := by
  rw [bodyParameter] at found
  obtain ⟨v, mem, read⟩ := List.exists_of_findSome?_eq_some found
  simp only [Option.bind_eq_bind, Option.bind_eq_some_iff] at read
  obtain ⟨p, mapping, read⟩ := read
  split at read
  · cases read
    refine (schemaText_failsWith _ _).mono ?_
    exact fun e h => explainsIn_of_itemsOf mem e (explains_of_entries? mapping e h)
  · cases read

theorem requestBody_failsWith (operation : Entries) : FailsWith (ExplainsIn s operation) (requestBody s operation) := by
  rw [requestBody]
  split
  · rename_i body found
    have found := (Option.filter_eq_some_iff.1 found).1
    split
    · rename_i media read
      simp only [Option.bind_eq_some_iff] at read
      obtain ⟨content, ⟨b, mapping, inside⟩, typed⟩ := read
      obtain ⟨k, mem⟩ := mem_of_field found
      refine (schemaText_failsWith "schema" media).mono ?_
      intro e h
      have h := explainsIn_of_mediaType typed e h
      have h := explainsIn_of_field inside e h
      exact explainsIn_of_mem mem e (explains_of_entries? mapping e h)
    · exact .ok _
  · split
    · rename_i schema found
      exact bodyParameter_failsWith found
    · exact .ok _

theorem responseSchema_failsWith {v : Value} {schema : Option Value} (found : responseSchema s v = some schema) :
    FailsWith (Explains s v) (schemaText s schema) := by
  simp only [responseSchema, Option.bind_eq_bind, Option.bind_eq_some_iff] at found
  obtain ⟨r, mapping, found⟩ := found
  apply FailsWith.mono _ (explains_of_entries? mapping)
  split at found
  · rename_i own
    cases found
    rw [← own]
    exact schemaText_failsWith _ _
  · simp only [Option.bind_eq_some_iff] at found
    obtain ⟨content, inside, media, typed, found⟩ := found
    cases found
    refine (schemaText_failsWith _ _).mono ?_
    exact fun e h => explainsIn_of_field inside e (explainsIn_of_firstMapping typed e h)

theorem explainsIn_hugeNumber (es : Entries) (e : Json.Failure) (huge : e = .hugeNumber) : ExplainsIn s es e := by
  subst huge
  exact ⟨nofun, nofun⟩

theorem wordOf_failsWith (v : Value) : FailsWith (· = .hugeNumber) (wordOf v) := by
  unfold wordOf
  generalize v.chars? = word
  cases word with
  | some cs => exact .ok _
  | none => exact .error rfl

theorem statusCodes_failsWith (v : Value) : FailsWith (· = .hugeNumber) (statusCodes v) := by
  cases v with
  | _ => exact .map _ (wordOf_failsWith _)

theorem responseBody_failsWith (name : String) (operation : Entries) :
    FailsWith (ExplainsIn s operation) (responseBody s (field name operation)) := by
  rw [responseBody]
  split
  · exact .ok _
  · rename_i responses found
    suffices FailsWith (ExplainsIn s responses) _ from this.mono (explainsIn_of_field found)
    refine .bindOk (.mapM fun x _ => .bind ((statusCodes_failsWith x.1).mono (explainsIn_hugeNumber _)) fun _ => .ok _) ?_
    intro ordered read
    dsimp only
    split
    · rename_i schema chosen
      obtain ⟨⟨codes, r⟩, mem, shown⟩ := List.exists_of_findSome?_eq_some chosen
      have mem := (List.mergeSort_perm _ _).mem_iff.1 (List.mem_filter.1 mem).1
      obtain ⟨⟨k, r'⟩, inside, made⟩ := mem_of_mapM read mem
      obtain ⟨_, -, same⟩ := ok_of_bind made
      cases same
      exact (responseSchema_failsWith shown).mono (explainsIn_of_mem inside)
    · exact .ok _

theorem operationEndpoint_failsWith (file : String) (path : Value) (method : String) (shared : List Value)
    (operation : Entries) : FailsWith (ExplainsIn s operation) (operationEndpoint s file path method shared operation) :=
  .bind ((wordOf_failsWith path).mono (explainsIn_hugeNumber _)) fun _ => .bind (requestBody_failsWith operation) fun _ =>
    .bind (responseBody_failsWith "responses" operation) fun _ => .ok _

theorem pathEndpoints_failsWith (file : String) (path : Value) (item : Entries) :
    FailsWith (ExplainsIn s item) (pathEndpoints s file path item) := by
  refine .bind (.mapM fun x mem => ?_) fun _ => .ok _
  obtain ⟨key, v⟩ := x
  dsimp only
  split
  · exact .ok _
  · rename_i method _
    refine .map _ ?_
    cases mapping : s.entries? v with
    | none => exact (operationEndpoint_failsWith _ _ _ _ _).mono fun e h => ⟨h.1, fun bad => by simpa using h.2 bad⟩
    | some operation =>
      refine (operationEndpoint_failsWith _ _ _ _ _).mono ?_
      exact fun e h => explainsIn_of_mem mem e (explains_of_entries? mapping e h)

/-- Endpoints are not read because of numbers and depths, or because a mapping in the document has a key that is no
scalar of JSON. -/
theorem endpoints_failsWith (file : String) (document : Entries) :
    FailsWith (ExplainsIn s document) (endpoints s file document) := by
  rw [endpoints]
  split
  · exact .ok _
  · rename_i paths found
    suffices FailsWith (ExplainsIn s paths) _ from this.mono (explainsIn_of_field found)
    refine .bind (.mapM fun x mem => ?_) fun _ => .ok _
    obtain ⟨path, v⟩ := x
    dsimp only
    split
    · exact .ok _
    · rename_i item mapping
      refine (pathEndpoints_failsWith _ _ _).mono ?_
      exact fun e h => explainsIn_of_mem mem e (explains_of_entries? mapping e h)

end Drift.Document.OpenApi
