import Drift.Proofs.Document.OpenApi.Bodies

namespace Drift

section Related

variable {α β γ δ : Type} {R : α → β → Prop} {Q : γ → δ → Prop}

theorem rel_bind {a : Option α} {b : Option β} {f : α → Option γ} {g : β → Option δ} (related : Option.Rel R a b)
    (each : ∀ x y, R x y → Option.Rel Q (f x) (g y)) : Option.Rel Q (a.bind f) (b.bind g) := by
  cases related with
  | some here => exact each _ _ here
  | none => exact .none

theorem rel_join {a : Option (Option α)} {b : Option (Option β)} (related : Option.Rel (Option.Rel R) a b) :
    Option.Rel R a.join b.join :=
  rel_bind related fun _ _ same => same

theorem rel_orElse {a c : Option α} {b d : Option β} (first : Option.Rel R a b) (second : Option.Rel R c d) :
    Option.Rel R (a <|> c) (b <|> d) := by
  cases first with
  | some here => exact .some here
  | none => exact second

theorem rel_findSome? {f : α → Option γ} {g : β → Option δ} {as : List α} {bs : List β} (related : List.Forall₂ R as bs)
    (each : ∀ x y, R x y → Option.Rel Q (f x) (g y)) : Option.Rel Q (as.findSome? f) (bs.findSome? g) := by
  induction related with
  | nil => exact .none
  | @cons a b as bs here _ ih =>
    have head := each a b here
    rw [List.findSome?_cons, List.findSome?_cons]
    generalize f a = x at head ⊢
    generalize g b = y at head ⊢
    cases head with
    | some same => exact .some same
    | none => exact ih

/-- Lists that are related element by element are so in the order of keys that are the same. -/
theorem forall₂_mergeSort {p : α → α → Bool} {q : β → β → Bool} {as : List α} {bs : List β}
    (related : List.Forall₂ R as bs) (same : ∀ a b a' b', R a b → R a' b' → q b b' = p a a') :
    List.Forall₂ R (as.mergeSort p) (bs.mergeSort q) := by
  -- both lists are the sides of one list of pairs, which is sorted as each of them is
  obtain ⟨ps, each, rfl, rfl⟩ : ∃ ps : List (α × β), (∀ x ∈ ps, R x.1 x.2) ∧ as = ps.map Prod.fst ∧ bs = ps.map Prod.snd := by
    induction related with
    | nil => exact ⟨[], by simp, rfl, rfl⟩
    | @cons a b as bs here _ ih =>
      obtain ⟨ps, each, rfl, rfl⟩ := ih
      exact ⟨(a, b) :: ps, List.forall_mem_cons.2 ⟨here, each⟩, rfl, rfl⟩
  have left := List.map_mergeSort (f := Prod.fst) (l := ps) (r := fun x y => p x.1 y.1) (s := p) fun _ _ _ _ => rfl
  have right := List.map_mergeSort (f := Prod.snd) (l := ps) (r := fun x y => p x.1 y.1) (s := q)
    fun x first y second => (same _ _ _ _ (each x first) (each y second)).symm
  rw [← left, ← right, List.forall₂_map_left_iff, List.forall₂_map_right_iff, List.forall₂_same]
  exact fun x mem => each x (List.mem_mergeSort.1 mem)

end Related

namespace Document.OpenApi

variable {s t : Store} {op op' m n : Entries} {v w : Value} {vs ws : List Value}

/-- The schemas of two mappings are the same but for the order of the entries of objects. -/
def SameSchema (s t : Store) (m n : Entries) : Prop := Option.Rel (SameButOrder s t) (field "schema" m) (field "schema" n)

def SameMedia (s t : Store) (c d : Entries) : Prop :=
  List.Forall₂ (fun x y => y.1 = x.1 ∧ Option.Rel (SameSchema s t) (s.entries? x.2) (t.entries? y.2)) c d

def SameContent (s t : Store) (m n : Entries) : Prop :=
  Option.Rel (SameMedia s t) (entriesOf s (field "content" m)) (entriesOf t (field "content" n))

def SameResponse (s t : Store) (v w : Value) : Prop :=
  Option.Rel (fun m n => SameSchema s t m n ∧ SameContent s t m n) (s.entries? v) (t.entries? w)

structure SameResponses (s t : Store) (es fs : Entries) : Prop where
  distinct : (es.filterMap fun e => (statusCodes e.1).toOption).Nodup
  some_order : ∃ ordered, ordered.Perm es ∧
    List.Forall₂ (fun e f => statusCodes f.1 = statusCodes e.1 ∧ SameResponse s t e.2 f.2) ordered fs

structure Rearranged (s t : Store) (op op' : Entries) : Prop where
  request : Option.Rel (fun v w => isTruthy t w = isTruthy s v ∧ Option.Rel (SameContent s t) (s.entries? v) (t.entries? w))
    (field "requestBody" op) (field "requestBody" op')
  parameters : List.Forall₂ (fun v w => Option.Rel (fun p q => textOf (field "in" q) = textOf (field "in" p) ∧ SameSchema s t p q)
      (s.entries? v) (t.entries? w))
    (itemsOf s (field "parameters" op)) (itemsOf t (field "parameters" op'))
  responses : Option.Rel (SameResponses s t) (entriesOf s (field "responses" op)) (entriesOf t (field "responses" op'))

theorem schemaText_same {a b : Option Value} (same : Option.Rel (SameButOrder s t) a b) : schemaText t b = schemaText s a := by
  cases same with
  | none => rfl
  | @some v w same =>
    have text := Json.dataText_reordered same
    obtain ⟨place, -, rfl⟩ := same
    by_cases null : v = .null
    · rw [null]
      rfl
    · have other : v.moved place ≠ .null := by
        cases v with
        | null => exact absurd rfl null
        | held id => exact nofun
        | _ => exact null
      rw [schemaText_of_ne_null null, schemaText_of_ne_null other, text]

theorem field_same {R : Value → Value → Prop} {c d : Entries} (same : List.Forall₂ (fun x y => y.1 = x.1 ∧ R x.2 y.2) c d)
    (name : String) : Option.Rel R (field name c) (field name d) := by
  induction same with
  | nil => exact .none
  | @cons x y c d here _ ih =>
    obtain ⟨k, v⟩ := x
    obtain ⟨k', w⟩ := y
    obtain ⟨rfl, related⟩ := here
    cases k' with
    | str key =>
      rw [field, field, Value.field, Value.field]
      split
      · exact .some related
      · exact ih
    | _ => exact ih

theorem entries_same {c d : Entries} (same : SameMedia s t c d) (name : String) :
    Option.Rel (SameSchema s t) (entriesOf s (field name c)) (entriesOf t (field name d)) := by
  have media := field_same (R := fun v w => Option.Rel (SameSchema s t) (s.entries? v) (t.entries? w)) same name
  exact rel_bind media fun _ _ same => same

theorem firstMapping_same {c d : Entries} (same : SameMedia s t c d) :
    Option.Rel (SameSchema s t) (firstMapping s c) (firstMapping t d) :=
  rel_findSome? same fun _ _ related => related.2

theorem mediaType_same {c d : Entries} (same : SameMedia s t c d) :
    Option.Rel (SameSchema s t) (mediaType s c) (mediaType t d) :=
  rel_orElse (entries_same same _) (rel_orElse (entries_same same _) (firstMapping_same same))

theorem bodyIn_same (same : List.Forall₂ (fun v w => Option.Rel (fun p q => textOf (field "in" q) = textOf (field "in" p) ∧
      SameSchema s t p q) (s.entries? v) (t.entries? w)) vs ws) :
    Option.Rel (Option.Rel (SameButOrder s t)) (bodyIn s vs) (bodyIn t ws) := by
  refine rel_findSome? same fun v w related => rel_bind related fun p q ⟨place, schema⟩ => ?_
  rw [place]
  split
  · exact .some schema
  · exact .none

theorem requestSchema_same (same : Rearranged s t op op') :
    Option.Rel (SameButOrder s t) (requestSchema s op) (requestSchema t op') := by
  have told : Option.Rel (fun v w => Option.Rel (SameContent s t) (s.entries? v) (t.entries? w))
      ((field "requestBody" op).filter (isTruthy s)) ((field "requestBody" op').filter (isTruthy t)) := by
    have request := same.request
    generalize field "requestBody" op = body at request ⊢
    generalize field "requestBody" op' = body' at request ⊢
    cases request with
    | none => exact .none
    | some related =>
      rw [Option.filter_some, Option.filter_some, related.1]
      split
      · exact .some related.2
      · exact .none
  unfold requestSchema
  generalize (field "requestBody" op).filter (isTruthy s) = body at told ⊢
  generalize (field "requestBody" op').filter (isTruthy t) = body' at told ⊢
  cases told with
  | none => exact rel_join (bodyIn_same same.parameters)
  | some content =>
    have media := rel_bind content fun m n (same : SameContent s t m n) => same
    exact rel_bind (rel_bind media fun _ _ same => mediaType_same same) fun _ _ schema => schema

theorem responseSchema_same (same : SameResponse s t v w) :
    Option.Rel (Option.Rel (SameButOrder s t)) (responseSchema s v) (responseSchema t w) := by
  refine rel_bind same fun m n ⟨schema, content⟩ => ?_
  unfold SameSchema at schema
  generalize field "schema" m = own at schema ⊢
  generalize field "schema" n = own' at schema ⊢
  cases schema with
  | some same => exact .some (.some same)
  | none => exact rel_bind content fun c d media => rel_bind (firstMapping_same media) fun _ _ schema => .some schema

theorem SameResponses.readable_iff {es fs : Entries} (same : SameResponses s t es fs) : Readable fs ↔ Readable es := by
  obtain ⟨ordered, perm, related⟩ := same.some_order
  have there : Readable fs ↔ Readable ordered := by
    unfold Readable
    clear same perm
    induction related with
    | nil => rfl
    | cons here _ ih => rw [List.forall_mem_cons, List.forall_mem_cons, here.1, ih]
  rw [there]
  exact forall_congr' fun e => by rw [perm.mem_iff]

theorem successful_same {es fs : Entries} (same : SameResponses s t es fs) (readable : Readable es) :
    List.Forall₂ (fun a b => b.1 = a.1 ∧ SameResponse s t a.2 b.2) (successful es) (successful fs) := by
  obtain ⟨ordered, perm, related⟩ := same.some_order
  have distinct : ((es.map statused).map Prod.fst).Nodup := by
    have texts : (es.map statused).map Prod.fst = es.filterMap fun e => (statusCodes e.1).toOption := by
      rw [List.map_map, ← List.filterMap_eq_map]
      refine List.filterMap_congr fun e mem => ?_
      obtain ⟨status, read⟩ := readable e mem
      rw [Function.comp_apply, Function.comp_apply, statused_of_ok read, read]
      rfl
    rw [texts]
    exact same.distinct
  have sorted := mergeSort_reordered (perm.symm.map statused) distinct
  have pairs : List.Forall₂ (fun a b => b.1 = a.1 ∧ SameResponse s t a.2 b.2) (ordered.map statused) (fs.map statused) := by
    rw [List.forall₂_map_left_iff, List.forall₂_map_right_iff]
    exact related.imp fun e f alike => ⟨by rw [statused, statused, alike.1], alike.2⟩
  unfold successful
  rw [sorted]
  refine List.rel_filter (fun a b alike => by simp only [alike.1]) (forall₂_mergeSort pairs ?_)
  rintro a b a' b' ⟨first, -⟩ ⟨second, -⟩
  rw [first, second]

theorem responsesSchema_same {es fs : Entries} (same : SameResponses s t es fs) (readable : Readable es) :
    Option.Rel (SameButOrder s t) (responsesSchema s es) (responsesSchema t fs) := by
  refine rel_join (rel_findSome? (successful_same same readable) fun a b response => ?_)
  exact responseSchema_same response.2

theorem responseBody_same {es fs : Entries} {v w : Option Value} (same : SameResponses s t es fs)
    (found : entriesOf s v = some es) (found' : entriesOf t w = some fs) : responseBody t w = responseBody s v := by
  by_cases readable : Readable es
  · rw [responseBody_of_readable readable found, responseBody_of_readable (same.readable_iff.2 readable) found',
      schemaText_same (responsesSchema_same same readable)]
  · rw [responseBody_of_unreadable readable found, responseBody_of_unreadable (mt same.readable_iff.1 readable) found']

theorem requestBody_rearranged (same : Rearranged s t op op') : requestBody t op' = requestBody s op := by
  rw [requestBody_eq, requestBody_eq, schemaText_same (requestSchema_same same)]

theorem responseBody_rearranged (same : Rearranged s t op op') :
    responseBody t (field "responses" op') = responseBody s (field "responses" op) := by
  have responses := same.responses
  cases here : entriesOf s (field "responses" op) with
  | none =>
    cases there : entriesOf t (field "responses" op') with
    | none => rw [responseBody, responseBody, here, there]
    | some fs =>
      rw [here, there] at responses
      cases responses
  | some es =>
    cases there : entriesOf t (field "responses" op') with
    | none =>
      rw [here, there] at responses
      cases responses
    | some fs =>
      rw [here, there] at responses
      cases responses with
      | some same => exact responseBody_same same here there

/-- An operation in another order has the same bodies. The response is the offer with the least status, and without an
offer there is no body. -/
theorem bodies_rearranged (same : Rearranged s t op op') :
    requestBody t op' = requestBody s op ∧
    responseBody t (field "responses" op') = responseBody s (field "responses" op) ∧
    ∀ responses, entriesOf s (field "responses" op) = some responses → Readable responses →
      (∃ e status schema, Used s responses e status ∧ responseSchema s e.2 = some schema ∧
        responseBody s (field "responses" op) = schemaText s schema) ∨
      (∀ e ∈ responses, ∀ status, ¬ Offer s e status) ∧ responseBody s (field "responses" op) = .ok none := by
  refine ⟨requestBody_rearranged same, responseBody_rearranged same, fun responses found readable => ?_⟩
  rw [responseBody_of_readable readable found]
  rcases responsesSchema_used s readable with ⟨e, status, used, schema⟩ | ⟨without, none⟩
  · exact .inl ⟨e, status, responsesSchema s responses, used, schema, rfl⟩
  · refine .inr ⟨without, ?_⟩
    rw [none]
    rfl

def orderStore : Store where
  cells := #[
    .map [(.str "type", .str "object"), (.str "example", .held 1)],
    .map [(.str "total", .int 5), (.str "id", .int 1)],
    .map [(.str "schema", .held 0)],
    .map [(.str "application/json", .held 2)],
    .map [(.str "content", .held 3)],
    .map [(.str "404", .held 6), (.str "200", .held 4)],
    .map []]

/-- The same with the entries of each object the other way round, the inner one in front of the outer one. -/
def otherOrderStore : Store where
  cells := #[
    .map [(.str "id", .int 1), (.str "total", .int 5)],
    .map [(.str "example", .held 0), (.str "type", .str "object")],
    .map [(.str "schema", .held 1)],
    .map [(.str "application/json", .held 2)],
    .map [(.str "content", .held 3)],
    .map [(.str "200", .held 4), (.str "404", .held 6)],
    .map []]

def orderOperation : Entries := [(.str "requestBody", .held 4), (.str "responses", .held 5)]

theorem orderSchema_same : SameButOrder orderStore otherOrderStore (.held 0) (.held 1) := by
  have object {es : Entries} (texts : ∀ e ∈ es, e.1.text?.isSome) (distinct : (es.map fun e => e.1.codes).Nodup) :
      IsObject es := ⟨texts, distinct⟩
  refine ⟨fun id => if id = 0 then 1 else if id = 1 then 0 else id, ⟨fun id _ => ?_, fun i j _ _ same => ?_, rfl⟩, rfl⟩
  · match id with
    | 0 | 1 | 5 => exact .some (.map (object (by decide +kernel) (by decide +kernel)) (.swap _ _ _))
    | 2 | 3 | 4 | 6 => exact .some (.map (object (by decide +kernel) (by decide +kernel)) (.refl _))
    | _ + 7 => exact .none
  · grind

theorem orderContent_same : SameContent orderStore otherOrderStore [(.str "content", .held 3)] [(.str "content", .held 3)] :=
  .some (.cons ⟨rfl, .some (.some orderSchema_same)⟩ .nil)

theorem orderOperation_rearranged : Rearranged orderStore otherOrderStore orderOperation orderOperation where
  request := .some ⟨rfl, .some orderContent_same⟩
  parameters := .nil
  responses := .some ⟨by decide +kernel, [(.str "200", .held 4), (.str "404", .held 6)], .swap _ _ _,
    .cons ⟨rfl, .some ⟨.none, orderContent_same⟩⟩ (.cons ⟨rfl, .some ⟨.none, .none⟩⟩ .nil)⟩

theorem bodies_rearranged_order :
    requestBody otherOrderStore orderOperation = requestBody orderStore orderOperation ∧
    requestBody orderStore orderOperation ≠ .ok none ∧
    ∃ e status schema, Used orderStore [(.str "404", .held 6), (.str "200", .held 4)] e status ∧
      responseSchema orderStore e.2 = some schema ∧
      responseBody otherOrderStore (field "responses" orderOperation) = schemaText orderStore schema := by
  obtain ⟨request, response, least⟩ := bodies_rearranged orderOperation_rearranged
  have missing : statusCodes (.str "404") = .ok [52, 48, 52] :=
    congrArg Except.ok (by decide +kernel : Text.codes "404".toList = [52, 48, 52])
  have status : statusCodes (.str "200") = .ok [50, 48, 48] :=
    congrArg Except.ok (by decide +kernel : Text.codes "200".toList = [50, 48, 48])
  have readable : Readable [(.str "404", .held 6), (.str "200", .held 4)] := by
    simp only [Readable, List.forall_mem_cons]
    exact ⟨⟨_, missing⟩, ⟨_, status⟩, by simp⟩
  have told : requestSchema orderStore orderOperation = some (.held 0) := rfl
  refine ⟨request, by simp [requestBody_eq, schemaText_eq_none_iff, told], ?_⟩
  rcases least _ rfl readable with ⟨e, status, schema, used, place, body⟩ | ⟨without, -⟩
  · exact ⟨e, status, schema, used, place, response.trans body⟩
  · refine absurd ⟨status, rfl, ?_⟩ (without (.str "200", .held 4) (by simp) _)
    exact responseSchema_isSome_iff.1 rfl

end Document.OpenApi

end Drift
