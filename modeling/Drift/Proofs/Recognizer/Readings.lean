import Drift.Recognizer.Source

namespace Drift.Recognizer

variable {α β : Type} {p : Char → Bool}

def Yields (r : Recognizer α) (R : Cursor → α → Cursor → Prop) : Prop :=
  ∀ (ρ : Type) (c : Cursor) (k : α → Cursor → Option ρ) (x : ρ), r ρ c k = some x →
    ∃ a c', R c a c' ∧ k a c' = some x

namespace Yields

variable {R S : Cursor → α → Cursor → Prop}

theorem mono {r : Recognizer α} (h : r.Yields R) (weaker : ∀ c a c', R c a c' → S c a c') : r.Yields S := by
  intro ρ c k x hx
  obtain ⟨a, c', holds, next⟩ := h ρ c k x hx
  exact ⟨a, c', weaker c a c' holds, next⟩

theorem of_first {r : Recognizer α} {c c' : Cursor} {a : α} (h : r.Yields R) (reading : r.first c = some (a, c')) :
    R c a c' := by
  obtain ⟨d, e, holds, next⟩ := h _ _ _ _ reading
  cases next
  exact holds

theorem of_atStart {r : Recognizer α} {a : α} {t : List Char} (h : r.Yields R) (reading : r.atStart t = some a) :
    ∃ c', R (.start t) a c' := by
  rw [Recognizer.atStart, Option.map_eq_some_iff] at reading
  obtain ⟨⟨d, c'⟩, reading, rfl⟩ := reading
  exact ⟨c', h.of_first reading⟩

theorem of_search {r : Recognizer α} {a : α} {t : List Char} (h : r.Yields R) (reading : r.search t = some a) :
    ∃ c c', R c a c' := by
  rw [Recognizer.search, Option.map_eq_some_iff] at reading
  obtain ⟨⟨d, c'⟩, reading, rfl⟩ := reading
  generalize (none : Option Char) = b at reading
  induction t generalizing b with
  | nil => exact ⟨_, c', h.of_first reading⟩
  | cons x t ih =>
    rw [searchFrom, Option.orElse_eq_orElse, Option.orElse_eq_or, Option.or_eq_some_iff] at reading
    rcases reading with here | ⟨-, later⟩
    · exact ⟨_, c', h.of_first here⟩
    · exact ih _ later

theorem of_mem_findAll {r : Recognizer α} {a : α} {t : List Char} (h : r.Yields R) (mem : a ∈ r.findAll t) :
    ∃ c c', R c a c' := by
  rw [Recognizer.findAll, List.mem_filterMap] at mem
  obtain ⟨piece, mem, read⟩ := mem
  rw [Sum.getRight?_eq_some_iff] at read
  subst read
  rw [Recognizer.pieces] at mem
  generalize (none : Option Char) = b, 0 = k at mem
  -- a piece is passed, or a reading, or a character where there is none
  induction t generalizing b k with
  | nil => cases k <;> cases mem
  | cons x t ih =>
    cases k with
    | succ k => exact ih _ _ mem
    | zero =>
      rw [piecesFrom] at mem
      cases reading : r.first ⟨b, x :: t⟩ with
      | none =>
        simp only [reading, List.mem_cons, reduceCtorEq, false_or] at mem
        exact ih _ _ mem
      | some found =>
        obtain ⟨d, c'⟩ := found
        simp only [reading, List.mem_cons, Sum.inr.injEq] at mem
        rcases mem with rfl | mem
        · exact ⟨_, c', h.of_first reading⟩
        · exact ih _ _ mem

theorem fail : (fail : Recognizer α).Yields R := by
  intro ρ c k x h
  cases h

theorem pure (a : α) : (Pure.pure a : Recognizer α).Yields fun c d c' => d = a ∧ c' = c :=
  fun _ c _ _ h => ⟨a, c, ⟨rfl, rfl⟩, h⟩

theorem bind {r : Recognizer α} {f : α → Recognizer β} {T : α → Cursor → β → Cursor → Prop} (head : r.Yields R)
    (tail : ∀ a, (f a).Yields (T a)) :
    (r >>= f).Yields fun c d c'' => ∃ a c', R c a c' ∧ T a c' d c'' := by
  intro ρ c k x h
  rw [bind_apply] at h
  obtain ⟨a, c', first, h⟩ := head _ _ _ _ h
  obtain ⟨d, c'', second, h⟩ := tail a _ _ _ _ h
  exact ⟨d, c'', ⟨a, c', first, second⟩, h⟩

theorem orElse {r s : Recognizer α} (left : r.Yields R) (right : s.Yields R) : (r <|> s).Yields R := by
  intro ρ c k x h
  rw [orElse_apply] at h
  cases hr : r ρ c k with
  | some y =>
    rw [hr] at h
    cases h
    exact left _ _ _ _ hr
  | none =>
    rw [hr] at h
    exact right _ _ _ _ h

theorem char : (char p).Yields fun c x c' => p x = true ∧ c.rest = x :: c'.rest := by
  intro ρ c k y h
  obtain ⟨b, t⟩ := c
  cases t with
  | nil => cases h
  | cons x t =>
    simp only [Recognizer.char] at h
    split at h
    · rename_i fits
      exact ⟨x, _, ⟨fits, rfl⟩, h⟩
    · cases h

theorem text (w : List Char) : (text w).Yields fun c _ c' => c.rest = w ++ c'.rest := by
  induction w with
  | nil => exact (pure ()).mono fun c _ c' h => by rw [h.2, List.nil_append]
  | cons x w ih =>
    refine (bind char fun _ => ih).mono ?_
    rintro c _ c'' ⟨y, c', ⟨same, first⟩, rest⟩
    rw [first, rest, eq_of_beq same, List.cons_append]

theorem oneOf (ws : List String) : (oneOf ws).Yields fun c w c' => w ∈ ws ∧ c.rest = w.toList ++ c'.rest := by
  induction ws with
  | nil => exact fail
  | cons w ws ih =>
    refine orElse ((bind (text w.toList) fun _ => pure w).mono ?_) (ih.mono ?_)
    · rintro c v c'' ⟨_, c', read, rfl, rfl⟩
      exact ⟨by simp, read⟩
    · exact fun c v c' h => ⟨List.mem_cons_of_mem w h.1, h.2⟩

theorem many (p : Char → Bool) :
    (Recognizer.many p).Yields fun c w c' => c.rest = w ++ c'.rest ∧ ∀ x ∈ w, p x = true := by
  intro ρ ⟨b, t⟩ k x h
  rw [Recognizer.many] at h
  dsimp only at h ⊢
  induction t generalizing b k x with
  | nil => exact ⟨[], _, ⟨rfl, by simp⟩, h⟩
  | cons y t ih =>
    rw [runsFrom] at h
    split at h
    · rename_i fits
      split at h
      · rename_i longer
        obtain ⟨w, c', ⟨read, all⟩, next⟩ := ih _ _ _ longer
        cases h
        exact ⟨y :: w, c', ⟨by rw [read, List.cons_append], List.forall_mem_cons.2 ⟨fits, all⟩⟩, next⟩
      · exact ⟨[], _, ⟨rfl, by simp⟩, h⟩
    · exact ⟨[], _, ⟨rfl, by simp⟩, h⟩

theorem fewest (p : Char → Bool) (stop : Option Char → Bool) :
    (Recognizer.fewest p stop).Yields fun c w c' => c.rest = w ++ c'.rest ∧ ∀ x ∈ w, p x = true := by
  intro ρ ⟨b, t⟩ k x h
  rw [Recognizer.fewest] at h
  dsimp only at h ⊢
  -- the reading either stops here or passes a character, so the induction is on the text
  induction t generalizing b k with
  | nil =>
    rw [shortRunsFrom] at h
    split at h
    · exact ⟨[], _, ⟨rfl, by simp⟩, h⟩
    · cases h
  | cons y t ih =>
    rw [shortRunsFrom] at h
    split at h
    · rename_i shorter
      cases h
      split at shorter
      · exact ⟨[], _, ⟨rfl, by simp⟩, shorter⟩
      · cases shorter
    · split at h
      · rename_i fits
        obtain ⟨w, c', ⟨read, all⟩, next⟩ := ih _ _ h
        exact ⟨y :: w, c', ⟨by rw [read, List.cons_append], List.forall_mem_cons.2 ⟨fits, all⟩⟩, next⟩
      · cases h

theorem run (p : Char → Bool) :
    (Recognizer.run p).Yields fun c w c' => c.rest = w ++ c'.rest ∧ ∀ x ∈ w, p x = true :=
  fun _ c _ _ h => ⟨_, _, ⟨by simp, fun x mem => List.all_eq_true.1 List.all_takeWhile x mem⟩, h⟩

theorem run1 (p : Char → Bool) :
    (Recognizer.run1 p).Yields fun c w c' => c.rest = w ++ c'.rest ∧ w ≠ [] ∧ ∀ x ∈ w, p x = true := by
  refine (bind char fun x => bind (run p) fun w => pure (x :: w)).mono ?_
  rintro c _ _ ⟨x, c', ⟨fits, first⟩, w, _, ⟨rest, all⟩, rfl, rfl⟩
  exact ⟨by rw [first, rest, List.cons_append], by simp, List.forall_mem_cons.2 ⟨fits, all⟩⟩

theorem fewest1 (p : Char → Bool) (stop : Option Char → Bool) :
    (Recognizer.fewest1 p stop).Yields fun c w c' => c.rest = w ++ c'.rest ∧ w ≠ [] ∧ ∀ x ∈ w, p x = true := by
  refine (bind char fun x => bind (fewest p stop) fun w => pure (x :: w)).mono ?_
  rintro c _ _ ⟨x, c', ⟨fits, first⟩, w, _, ⟨rest, all⟩, rfl, rfl⟩
  exact ⟨by rw [first, rest, List.cons_append], by simp, List.forall_mem_cons.2 ⟨fits, all⟩⟩

theorem skip {r : Recognizer α} (h : r.Yields R) : (skip r).Yields fun c _ c' => ∃ a, R c a c' := by
  refine (bind h fun _ => pure ()).mono ?_
  rintro c _ _ ⟨a, c', read, -, rfl⟩
  exact ⟨a, read⟩

theorem optional {r : Recognizer α} (h : r.Yields R) :
    (optional r).Yields fun c o c' => (∃ a, o = some a ∧ R c a c') ∨ o = none ∧ c' = c := by
  refine orElse ((bind h fun a => pure (some a)).mono ?_) ((pure none).mono fun _ _ _ => .inr)
  rintro c _ _ ⟨a, c', read, rfl, rfl⟩
  exact .inl ⟨a, rfl, read⟩

theorem sign (s : Char) : (sign s).Yields fun c _ c' => c.rest = s :: c'.rest :=
  (skip char).mono fun _ _ _ ⟨_, same, read⟩ => by rw [read, eq_of_beq same]

theorem gap : gap.Yields fun c _ c' => ∃ w, c.rest = w ++ c'.rest ∧ ∀ x ∈ w, Text.isBlank x = true := skip (run _)

theorem remainder : remainder.Yields fun c w _ => w = c.rest := fun _ _ _ _ h => ⟨_, _, rfl, h⟩

end Yields

class Forward (r : Recognizer α) : Prop where
  yields : r.Yields fun c _ c' => c'.rest <:+ c.rest

namespace Forward

theorem of_eq_append {r : Recognizer α} (h : r.Yields fun c _ c' => ∃ w, c.rest = w ++ c'.rest) : Forward r :=
  ⟨h.mono fun _ _ _ ⟨w, read⟩ => ⟨w, read.symm⟩⟩

instance pure (a : α) : Forward (Pure.pure a) :=
  ⟨(Yields.pure a).mono fun c _ _ h => h.2 ▸ List.suffix_refl c.rest⟩

instance bind (r : Recognizer α) (f : α → Recognizer β) [Forward r] [∀ a, Forward (f a)] : Forward (r >>= f) :=
  ⟨(Yields.bind (yields (r := r)) fun a => yields (r := f a)).mono fun _ _ _ ⟨_, _, first, second⟩ =>
    second.trans first⟩

instance orElse (r s : Recognizer α) [Forward r] [Forward s] : Forward (r <|> s) := ⟨Yields.orElse yields yields⟩

instance char (p : Char → Bool) : Forward (char p) :=
  of_eq_append (Yields.char.mono fun _ x _ h => ⟨[x], h.2⟩)

instance text (w : List Char) : Forward (text w) := of_eq_append ((Yields.text w).mono fun _ _ _ h => ⟨w, h⟩)

instance word (w : String) : Forward (word w) := text w.toList

instance oneOf (ws : List String) : Forward (oneOf ws) :=
  of_eq_append ((Yields.oneOf ws).mono fun _ w _ h => ⟨w.toList, h.2⟩)

instance many (p : Char → Bool) : Forward (many p) :=
  of_eq_append ((Yields.many p).mono fun _ w _ h => ⟨w, h.1⟩)

instance run (p : Char → Bool) : Forward (run p) :=
  of_eq_append ((Yields.run p).mono fun _ w _ h => ⟨w, h.1⟩)

instance fewest (p : Char → Bool) (stop : Option Char → Bool) : Forward (fewest p stop) :=
  of_eq_append ((Yields.fewest p stop).mono fun _ w _ h => ⟨w, h.1⟩)

instance skip (r : Recognizer α) [Forward r] : Forward (skip r) := bind r _

instance map (f : α → β) (r : Recognizer α) [Forward r] : Forward (f <$> r) := bind r fun a => Pure.pure (f a)

instance optional (r : Recognizer α) [Forward r] : Forward (optional r) :=
  orElse (some <$> r) (Pure.pure none)

instance many1 (p : Char → Bool) : Forward (many1 p) := bind _ _

instance run1 (p : Char → Bool) : Forward (run1 p) := bind _ _

instance fewest1 (p : Char → Bool) (stop : Option Char → Bool) : Forward (fewest1 p stop) := bind _ _

instance upTo (stop : Char) : Forward (upTo stop) := bind _ _

instance repeatedOver (r : Recognizer Unit) [Forward r] (t : List Char) : Forward (repeatedOver r t) := by
  induction t with
  | nil => exact pure ()
  | cons x t ih => exact orElse _ _

instance repeated (r : Recognizer Unit) [Forward r] : Forward (repeated r) :=
  ⟨fun ρ c k x h => (repeatedOver r c.rest).yields ρ c k x h⟩

instance spanned (r : Recognizer Unit) [Forward r] : Forward (spanned r) := ⟨fun ρ c k x h => by
  obtain ⟨_, c', read, next⟩ := yields (r := r) _ _ _ _ h
  exact ⟨_, c', read, next⟩⟩

instance blanks : Forward blanks := skip _

instance blanks1 : Forward blanks1 := skip _

instance gap : Forward gap := skip _

instance gap1 : Forward gap1 := skip _

theorem of_test {r : Recognizer Unit} (test : Cursor → Bool)
    (h : ∀ (ρ : Type) (c : Cursor) (k : Unit → Cursor → Option ρ), r ρ c k = if test c then k () c else Option.none) :
    Forward r := ⟨fun ρ c k x hx => by
  rw [h] at hx
  split at hx
  · exact ⟨(), c, List.suffix_refl _, hx⟩
  · cases hx⟩

instance wordEdge : Forward wordEdge := of_test _ fun _ _ _ => rfl

instance ahead (p : Char → Bool) : Forward (ahead p) := of_test _ fun _ _ _ => rfl

instance atEnd : Forward atEnd := of_test _ fun _ _ _ => rfl

instance notAhead (r : Recognizer α) : Forward (notAhead r) := of_test _ fun _ _ _ => rfl

instance remainder : Forward remainder := ⟨fun _ _ _ _ h => ⟨_, _, List.nil_suffix, h⟩⟩

instance sign (c : Char) : Forward (sign c) := skip _

instance name (p q : Char → Bool) : Forward (name p q) := bind _ _

instance identifier : Forward identifier := name _ _

instance dollarIdentifier : Forward dollarIdentifier := name _ _

instance doubleQuoted : Forward doubleQuoted := bind _ _

instance plainQuoted : Forward plainQuoted := bind _ _

instance keyword (w : String) : Forward (keyword w) := bind _ _

instance keywords (ws : List String) : Forward (keywords ws) := repeated _

instance group (opening : Char) (p : Char → Bool) (closing : Char) : Forward (group opening p closing) := by
  unfold Recognizer.group
  split <;> infer_instance

end Forward

def Values (r : Recognizer α) (P : α → Prop) : Prop := r.Yields fun _ a _ => P a

namespace Values

variable {P : α → Prop} {Q : β → Prop}

theorem of_atStart {r : Recognizer α} {a : α} {t : List Char} (h : r.Values P) (reading : r.atStart t = some a) :
    P a := by
  obtain ⟨_, holds⟩ := Yields.of_atStart h reading
  exact holds

theorem of_search {r : Recognizer α} {a : α} {t : List Char} (h : r.Values P) (reading : r.search t = some a) : P a := by
  obtain ⟨_, _, holds⟩ := Yields.of_search h reading
  exact holds

theorem of_mem_findAll {r : Recognizer α} {a : α} {t : List Char} (h : r.Values P) (mem : a ∈ r.findAll t) : P a := by
  obtain ⟨_, _, holds⟩ := Yields.of_mem_findAll h mem
  exact holds

theorem pure {a : α} (h : P a) : (Pure.pure a : Recognizer α).Values P :=
  (Yields.pure a).mono fun _ _ _ same => same.1 ▸ h

theorem bind {r : Recognizer α} {f : α → Recognizer β} (head : r.Values P) (tail : ∀ a, P a → (f a).Values Q) :
    (r >>= f).Values Q := by
  intro ρ c k x h
  rw [bind_apply] at h
  obtain ⟨a, c', holds, h⟩ := head _ _ _ _ h
  exact tail a holds _ _ _ _ h

theorem after {r : Recognizer α} {f : α → Recognizer β} [Forward r] (tail : ∀ a, (f a).Values Q) :
    (r >>= f).Values Q :=
  bind (P := fun _ => True) ((Forward.yields (r := r)).mono fun _ _ _ _ => trivial) fun a _ => tail a

theorem optional {r : Recognizer α} (h : r.Values P) : (optional r).Values fun o => ∀ a ∈ o, P a :=
  Yields.orElse (bind h fun a holds => pure (by simpa using holds)) (pure (by simp))

theorem oneOf (ws : List String) : (oneOf ws).Values (· ∈ ws) := (Yields.oneOf ws).mono fun _ _ _ h => h.1

end Values

def Needs (r : Recognizer α) (x : Char) : Prop := r.Yields fun c _ _ => x ∈ c.rest

namespace Needs

variable {x : Char}

theorem word {w : String} (mem : x ∈ w.toList) : (word w).Needs x :=
  (Yields.text w.toList).mono fun _ _ _ read => by
    rw [read]
    exact List.mem_append_left _ mem

theorem bind {r : Recognizer α} {f : α → Recognizer β} [∀ a, Forward (f a)] (head : r.Needs x) : (r >>= f).Needs x :=
  (Yields.bind head fun a => Forward.yields (r := f a)).mono fun _ _ _ ⟨_, _, mem, _⟩ => mem

theorem after {r : Recognizer α} {f : α → Recognizer β} [Forward r] (tail : ∀ a, (f a).Needs x) : (r >>= f).Needs x :=
  (Yields.bind (Forward.yields (r := r)) tail).mono fun _ _ _ ⟨_, _, onward, mem⟩ => onward.subset mem

theorem first_eq_none {r : Recognizer α} {c : Cursor} (needs : r.Needs x) (absent : x ∉ c.rest) :
    r.first c = none := by
  cases h : r.first c with
  | none => rfl
  | some reading => exact absurd (Yields.of_first needs h) absent

theorem search_eq_none {r : Recognizer α} {t : List Char} (needs : r.Needs x) (absent : x ∉ t) :
    r.search t = none := by
  have all : ∀ b, searchFrom r b t = none := by
    induction t with
    | nil => exact fun b => needs.first_eq_none absent
    | cons y t ih =>
      intro b
      rw [searchFrom, needs.first_eq_none absent, ih fun mem => absent (List.mem_cons_of_mem y mem)]
      rfl
  rw [search, all, Option.map_none]

end Needs

end Drift.Recognizer
