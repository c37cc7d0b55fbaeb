import Drift.Document.OpenApi
import Mathlib.Data.List.Forall2
import Mathlib.Data.List.Induction
import Mathlib.Data.List.Nodup

namespace Drift.Document.OpenApi

variable {s : Store} {qs : List Endpoint.Parameter} {p q : Endpoint.Parameter} {v : Value} {k : String × String}

def keyOf (p : Endpoint.Parameter) : String × String := (p.name, p.location)

def locationIn (es : Entries) : String :=
  match (field "in" es).bind Value.text? with
  | none => "query"
  | some "" => "query"
  | some location => location

/-- The name and the location of the parameter that a value is: a mapping with a text for its name, not of the body. -/
def keyIn (s : Store) (v : Value) : Option (String × String) := do
  let es ← s.entries? v
  let name ← (field "name" es).bind Value.text?
  if locationIn es = "body" then none else some (name, locationIn es)

structure Describes (s : Store) (es : Entries) (p : Endpoint.Parameter) : Prop where
  name : (field "name" es).bind Value.text? = some p.name
  location : p.location = locationIn es
  required : p.required = true ↔ field "required" es = some (.bool true)
  type : p.type = orElse (orElse (textOf (field "type" ((entriesOf s (field "schema" es)).getD [])))
    (textOf (field "type" es))) "string"
  description : p.description = textOf (field "description" es)

def LastOf (s : Store) (vs : List Value) (k : String × String) (p : Endpoint.Parameter) : Prop :=
  keyOf p = k ∧ ∃ before v after es, vs = before ++ v :: after ∧ s.entries? v = some es ∧ Describes s es p ∧
    ∀ w ∈ after, keyIn s w ≠ some k

theorem locationIn_eq (es : Entries) : orElse (textOf (field "in" es)) "query" = locationIn es := by
  unfold locationIn textOf
  split
  · rename_i absent
    rw [absent]
    rfl
  · rename_i blank
    rw [blank]
    rfl
  · rename_i location filled found
    have nonempty : location.isEmpty = false := by simpa using filled
    rw [found, Option.getD_some, orElse, nonempty]
    rfl

theorem keyIn_eq (s : Store) (v : Value) : keyIn s v = (parameterOf s v).map keyOf := by
  unfold keyIn parameterOf
  cases s.entries? v with
  | none => rfl
  | some es =>
    simp only [Option.bind_eq_bind, Option.bind_some, locationIn_eq]
    cases field "name" es with
    | none => rfl
    | some name =>
      simp only [Option.bind_some]
      cases name.text? with
      | none => rfl
      | some text => by_cases body : locationIn es = "body" <;> simp [body, keyOf]

theorem parameterOf_describes (declared : parameterOf s v = some p) :
    ∃ es, s.entries? v = some es ∧ Describes s es p := by
  unfold parameterOf at declared
  simp only [Option.bind_eq_bind, Option.bind_eq_some_iff, locationIn_eq] at declared
  obtain ⟨es, mapping, named, found, name, text, declared⟩ := declared
  by_cases body : locationIn es = "body"
  · rw [if_pos body] at declared
    cases declared
  · rw [if_neg body] at declared
    cases declared
    refine ⟨es, mapping, ?_, rfl, ?_, rfl, rfl⟩
    · rw [found]
      exact text
    · dsimp only
      split <;> simp_all

/-- A parameter takes the place of the first with its key, or comes last. -/
theorem setParameter_cases (qs : List Endpoint.Parameter) (p : Endpoint.Parameter) :
    (keyOf p ∉ qs.map keyOf ∧ setParameter qs p = qs ++ [p]) ∨
    ∃ before q after, qs = before ++ q :: after ∧ keyOf q = keyOf p ∧ keyOf p ∉ before.map keyOf ∧
      setParameter qs p = before ++ p :: after := by
  induction qs with
  | nil => exact .inl ⟨List.not_mem_nil, rfl⟩
  | cons q qs ih =>
    have same : (q.name = p.name ∧ q.location = p.location) ↔ keyOf q = keyOf p := by simp [keyOf]
    rw [setParameter]
    by_cases here : keyOf q = keyOf p
    · rw [if_pos (same.2 here)]
      exact .inr ⟨[], q, qs, rfl, here, List.not_mem_nil, rfl⟩
    · rw [if_neg (mt same.1 here)]
      rcases ih with ⟨new, put⟩ | ⟨before, r, after, rfl, found, apart, put⟩
      · exact .inl ⟨by simp [Ne.symm here, new], by rw [put, List.cons_append]⟩
      · exact .inr ⟨q :: before, r, after, rfl, found, by simp [Ne.symm here, apart], by rw [put, List.cons_append]⟩

theorem map_keyOf_setParameter (qs : List Endpoint.Parameter) (p : Endpoint.Parameter) :
    (setParameter qs p).map keyOf = if keyOf p ∈ qs.map keyOf then qs.map keyOf else qs.map keyOf ++ [keyOf p] := by
  rcases setParameter_cases qs p with ⟨new, put⟩ | ⟨before, q, after, rfl, found, -, put⟩
  · rw [put, if_neg new, List.map_append, List.map_singleton]
  · have known : keyOf p ∈ (before ++ q :: after).map keyOf := by simp [← found]
    rw [put, if_pos known, List.map_append, List.map_append, List.map_cons, List.map_cons, found]

theorem mem_setParameter (distinct : (qs.map keyOf).Nodup) :
    q ∈ setParameter qs p ↔ q = p ∨ q ∈ qs ∧ keyOf q ≠ keyOf p := by
  have other (rs : List Endpoint.Parameter) (apart : keyOf p ∉ rs.map keyOf) (mem : q ∈ rs) : keyOf q ≠ keyOf p := by
    intro same
    exact apart (same ▸ List.mem_map_of_mem mem)
  rcases setParameter_cases qs p with ⟨new, put⟩ | ⟨before, r, after, rfl, found, -, put⟩
  · have kept := other qs new
    rw [put, List.mem_append, List.mem_singleton]
    tauto
  · rw [List.map_append, List.map_cons, found, List.nodup_middle, List.nodup_cons] at distinct
    have kept := other (before ++ after) (by rw [List.map_append]; exact distinct.1)
    rw [put]
    grind

theorem parameters_concat (s : Store) (vs : List Value) (v : Value) :
    parameters s (vs ++ [v]) = match parameterOf s v with
      | none => parameters s vs
      | some p => setParameter (parameters s vs) p := by
  unfold parameters
  cases declared : parameterOf s v <;> simp [List.filterMap_append, declared]

theorem parameters_distinct (s : Store) (vs : List Value) : ((parameters s vs).map keyOf).Nodup := by
  induction vs using List.reverseRecOn with
  | nil => simp [parameters]
  | append_singleton vs v ih =>
    rw [parameters_concat]
    cases parameterOf s v with
    | none => exact ih
    | some p =>
      simp only [map_keyOf_setParameter]
      by_cases known : keyOf p ∈ (parameters s vs).map keyOf
      · rwa [if_pos known]
      · rw [if_neg known, ← List.concat_eq_append]
        exact ih.concat known

theorem eraseDups_concat (ks : List (String × String)) (k : String × String) :
    (ks ++ [k]).eraseDups = if k ∈ ks then ks.eraseDups else ks.eraseDups ++ [k] := by
  rw [List.eraseDups_append]
  by_cases mem : k ∈ ks <;> simp [List.removeAll, mem, List.eraseDups_cons]

theorem map_keyOf_parameters (s : Store) (vs : List Value) :
    (parameters s vs).map keyOf = (vs.filterMap (keyIn s)).eraseDups := by
  induction vs using List.reverseRecOn with
  | nil => rfl
  | append_singleton vs v ih =>
    rw [parameters_concat, List.filterMap_append, List.filterMap_cons, List.filterMap_nil, keyIn_eq]
    cases parameterOf s v with
    | none => simpa using ih
    | some p => simp only [map_keyOf_setParameter, ih, List.mem_eraseDups, Option.map_some, eraseDups_concat]

theorem mem_parameters_concat {vs : List Value} (declared : parameterOf s v = some q) :
    p ∈ parameters s (vs ++ [v]) ↔ p = q ∨ p ∈ parameters s vs ∧ keyOf p ≠ keyOf q := by
  rw [parameters_concat, declared]
  exact mem_setParameter (parameters_distinct s vs)

/-- A value that comes behind leaves all parameters with another key as they are described. -/
theorem LastOf.concat {vs : List Value} (last : LastOf s vs k p) (other : keyIn s v ≠ some k) :
    LastOf s (vs ++ [v]) k p := by
  obtain ⟨key, before, u, after, es, rfl, mapping, describes, none⟩ := last
  refine ⟨key, before, u, after ++ [v], es, by simp, mapping, describes, ?_⟩
  intro w mem
  rcases List.mem_append.1 mem with mem | mem
  · exact none w mem
  · rwa [List.mem_singleton.1 mem]

theorem lastOf_parameters {vs : List Value} (mem : p ∈ parameters s vs) : LastOf s vs (keyOf p) p := by
  induction vs using List.reverseRecOn with
  | nil => cases mem
  | append_singleton vs v ih =>
    cases declared : parameterOf s v with
    | none =>
      rw [parameters_concat, declared] at mem
      exact (ih mem).concat (by simp [keyIn_eq, declared])
    | some q =>
      rcases (mem_parameters_concat declared).1 mem with rfl | ⟨mem, other⟩
      · obtain ⟨es, mapping, describes⟩ := parameterOf_describes declared
        exact ⟨rfl, vs, v, [], es, rfl, mapping, describes, by simp⟩
      · exact (ih mem).concat (by simpa [keyIn_eq, declared] using other.symm)

/-- What later values say of their parameters stands, whatever came before. -/
theorem parameters_subset (s : Store) (shared own : List Value) : parameters s own ⊆ parameters s (shared ++ own) := by
  induction own using List.reverseRecOn with
  | nil => simp [parameters]
  | append_singleton own v ih =>
    intro p mem
    rw [← List.append_assoc]
    cases declared : parameterOf s v with
    | none =>
      rw [parameters_concat, declared] at mem ⊢
      exact ih mem
    | some q =>
      rw [mem_parameters_concat declared] at mem ⊢
      exact mem.imp_right fun ⟨mem, other⟩ => ⟨ih mem, other⟩

/-- The parameters of a path and of an operation put together: there is one for each name and location that a mapping
with a text for its name declares outside of the body, in the order in which these come first, and the last that
declares it describes it. So those of the operation all stand as it describes them, in the places that the path gave
them. -/
theorem parameters_merged (s : Store) (shared own : List Value) :
    List.Forall₂ (LastOf s (shared ++ own)) ((shared ++ own).filterMap (keyIn s)).eraseDups
      (parameters s (shared ++ own)) ∧
    ((parameters s (shared ++ own)).map keyOf).Nodup ∧
    (parameters s shared).map keyOf <+: (parameters s (shared ++ own)).map keyOf ∧
    parameters s own ⊆ parameters s (shared ++ own) := by
  refine ⟨?_, parameters_distinct s _, ?_, parameters_subset s shared own⟩
  · rw [← map_keyOf_parameters, List.forall₂_map_left_iff, List.forall₂_same]
    exact fun p mem => lastOf_parameters mem
  · rw [map_keyOf_parameters, map_keyOf_parameters, List.filterMap_append, List.eraseDups_append]
    exact List.prefix_append _ _

end Drift.Document.OpenApi
