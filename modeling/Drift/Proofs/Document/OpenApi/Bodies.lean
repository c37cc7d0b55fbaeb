import Drift.Proofs.Document.OpenApi
import Drift.Proofs.Document.OpenApi.Inheritance
import Drift.Proofs.Json.Reordered

namespace Drift.Document.OpenApi

variable {s : Store} {v : Value} {tells : Option Value} {responses op : Entries} {status : List Nat}

theorem schemaText_of_ne_null (other : v ≠ .null) : schemaText s (some v) = some <$> Json.dataText s v := by
  cases v with
  | null => exact absurd rfl other
  | _ => rfl

def requestSchema (s : Store) (op : Entries) : Option Value :=
  match (field "requestBody" op).filter (isTruthy s) with
  | some body =>
    (((s.entries? body).bind fun b => entriesOf s (field "content" b)).bind (mediaType s)).bind (field "schema")
  | none => (bodyIn s (itemsOf s (field "parameters" op))).join

theorem requestBody_eq (s : Store) (op : Entries) : requestBody s op = schemaText s (requestSchema s op) := by
  unfold requestBody requestSchema
  cases (field "requestBody" op).filter (isTruthy s) with
  | some body =>
    dsimp only
    cases ((s.entries? body).bind fun b => entriesOf s (field "content" b)).bind (mediaType s) <;> rfl
  | none =>
    have parameter : bodyParameter s op = bodyIn s (itemsOf s (field "parameters" op)) := rfl
    dsimp only
    rw [parameter]
    cases bodyIn s (itemsOf s (field "parameters" op)) <;> rfl

/-- A response is a mapping with a place for a schema: the key `schema`, or a media type that is a mapping. -/
def HasPlace (s : Store) (v : Value) : Prop :=
  ∃ r, s.entries? v = some r ∧ ((field "schema" r).isSome ∨
    ∃ content, entriesOf s (field "content" r) = some content ∧ ∃ e ∈ content, (s.entries? e.2).isSome)

/-- The entry is a successful response with a place for a schema, with the text of its status. -/
structure Offer (s : Store) (e : Value × Value) (status : List Nat) : Prop where
  read : statusCodes e.1 = .ok status
  successful : status.head? = some '2'.toNat
  place : HasPlace s e.2

structure Used (s : Store) (responses : Entries) (e : Value × Value) (status : List Nat) : Prop where
  mem : e ∈ responses
  offer : Offer s e status
  least : ∀ f ∈ responses, ∀ other, Offer s f other → ¬ other < status

def Readable (responses : Entries) : Prop := ∀ e ∈ responses, ∃ status, statusCodes e.1 = .ok status

theorem responseSchema_isSome_iff : (responseSchema s v).isSome ↔ HasPlace s v := by
  unfold responseSchema HasPlace
  cases s.entries? v with
  | none => simp
  | some r =>
    simp only [Option.bind_eq_bind, Option.bind_some, Option.some.injEq, exists_eq_left']
    cases field "schema" r with
    | some schema => simp
    | none =>
      simp only [Option.isSome_none, Bool.false_eq_true, false_or]
      cases entriesOf s (field "content" r) with
      | none => simp
      | some content => simp [firstMapping, Option.isSome_bind]

theorem statusCodes_error {e : Json.Failure} :
    statusCodes v = .error e ↔ (∀ status, statusCodes v ≠ .ok status) ∧ e = .hugeNumber := by
  cases read : statusCodes v with
  | ok status => simp
  | error d =>
    rw [statusCodes_failsWith v d read]
    simp [eq_comm]

def statused (e : Value × Value) : List Nat × Value := ((statusCodes e.1).toOption.getD [], e.2)

theorem statused_of_ok {e : Value × Value} (read : statusCodes e.1 = .ok status) : statused e = (status, e.2) := by
  rw [statused, read]
  rfl

def successful (responses : Entries) : List (List Nat × Value) :=
  ((responses.map statused).mergeSort fun a b => !decide (b.1 < a.1)).filter fun a => a.1.head? == some '2'.toNat

theorem mem_successful {a : List Nat × Value} (readable : Readable responses) :
    a ∈ successful responses ↔ ∃ e ∈ responses, statusCodes e.1 = .ok a.1 ∧ a.1.head? = some '2'.toNat ∧ a.2 = e.2 := by
  rw [successful, List.mem_filter, List.mem_mergeSort, List.mem_map, beq_iff_eq]
  constructor
  · rintro ⟨⟨e, mem, rfl⟩, starts⟩
    obtain ⟨status, read⟩ := readable e mem
    rw [statused_of_ok read] at starts ⊢
    exact ⟨e, mem, read, starts, rfl⟩
  · rintro ⟨e, mem, read, starts, same⟩
    refine ⟨⟨e, mem, ?_⟩, starts⟩
    rw [statused_of_ok read, ← same]

theorem pairwise_successful (responses : Entries) : (successful responses).Pairwise fun a b => ¬ b.1 < a.1 :=
  (pairwise_mergeSort_keys _).filter _

def responsesSchema (s : Store) (responses : Entries) : Option Value :=
  ((successful responses).findSome? fun a => responseSchema s a.2).join

theorem responseBody_of_readable (readable : Readable responses) (found : entriesOf s tells = some responses) :
    responseBody s tells = schemaText s (responsesSchema s responses) := by
  have ordered : (responses.mapM fun e : Value × Value => do return (← statusCodes e.1, e.2)) =
      Except.ok (responses.map statused) := by
    refine mapM_of_ok fun e mem => ?_
    obtain ⟨status, read⟩ := readable e mem
    rw [read, statused_of_ok read]
    rfl
  rw [responseBody, found]
  dsimp only
  rw [ordered]
  dsimp only [bind, Except.bind]
  rw [responsesSchema, successful]
  generalize List.findSome? _ _ = first
  cases first <;> rfl

theorem responseBody_of_unreadable (unread : ¬ Readable responses) (found : entriesOf s tells = some responses) :
    responseBody s tells = .error .hugeNumber := by
  have fails : (responses.mapM fun e : Value × Value => do return (← statusCodes e.1, e.2)) =
      Except.error Json.Failure.hugeNumber := by
    refine (mapM_error_iff (p := fun e => ∀ status, statusCodes e.1 ≠ .ok status) (d := .hugeNumber) ?_).2 ⟨?_, rfl⟩
    · intro e d
      rw [← statusCodes_error]
      exact error_of_bind_pure
    · simpa [Readable] using unread
  rw [responseBody, found]
  dsimp only
  rw [fails]
  rfl

/-- The schema is that of the response that is used. Without an offer there is none. -/
theorem responsesSchema_used (s : Store) (readable : Readable responses) :
    (∃ e status, Used s responses e status ∧ responseSchema s e.2 = some (responsesSchema s responses)) ∨
    (∀ e ∈ responses, ∀ status, ¬ Offer s e status) ∧ responsesSchema s responses = none := by
  rw [responsesSchema]
  cases first : (successful responses).findSome? fun a => responseSchema s a.2 with
  | none =>
    refine .inr ⟨fun e mem status offer => ?_, rfl⟩
    have inside := (mem_successful (a := (status, e.2)) readable).2 ⟨e, mem, offer.read, offer.successful, rfl⟩
    have none := List.findSome?_eq_none_iff.1 first _ inside
    have place := responseSchema_isSome_iff.2 offer.place
    rw [none] at place
    cases place
  | some schema =>
    obtain ⟨before, a, after, split, shown, passed⟩ := List.findSome?_eq_some_iff.1 first
    have inside : a ∈ successful responses := by simp [split]
    obtain ⟨e, mem, read, starts, same⟩ := (mem_successful readable).1 inside
    have place : HasPlace s e.2 := by
      rw [← same, ← responseSchema_isSome_iff, shown]
      rfl
    refine .inl ⟨e, a.1, ⟨mem, ⟨read, starts, place⟩, fun f there other offer => ?_⟩, same ▸ shown⟩
    have along := (mem_successful (a := (other, f.2)) readable).2 ⟨f, there, offer.read, offer.successful, rfl⟩
    have ordered := pairwise_successful responses
    rw [split, List.mem_append, List.mem_cons] at along
    rw [split] at ordered
    -- an offer in front of it would have been found, and one behind it has no lesser status
    rcases along with earlier | rfl | later
    · have none := passed _ earlier
      have place := responseSchema_isSome_iff.2 offer.place
      rw [none] at place
      cases place
    · exact List.lt_irrefl _
    · exact List.rel_of_pairwise_cons (List.pairwise_append.1 ordered).2.1 later

end Drift.Document.OpenApi
