import Drift.Recognizer.Source
import Drift.Text.Trim

namespace Drift.Recognizer

variable {α β : Type} {p : Char → Bool} {b : Option Char} {c c' c'' : Cursor}

theorem passed_cons (x : Char) (w : List Char) (b : Option Char) :
    ((x :: w).getLast? <|> b) = (w.getLast? <|> some x) := by
  rw [List.getLast?_cons]
  cases w.getLast? <;> rfl

def Refuses (r : Recognizer α) (c : Cursor) : Prop :=
  ∀ (ρ : Type) (k : α → Cursor → Option ρ), r ρ c k = none

def Reads (r : Recognizer α) (c : Cursor) (a : α) (c' : Cursor) : Prop :=
  ∀ (ρ : Type) (k : α → Cursor → Option ρ), r ρ c k = k a c'

def Prefers (r : Recognizer α) (c : Cursor) (a : α) (c' : Cursor) : Prop :=
  ∀ (ρ : Type) (k : α → Cursor → Option ρ) (x : ρ), k a c' = some x → r ρ c k = some x

theorem Reads.prefers {r : Recognizer α} {a : α} (h : r.Reads c a c') : r.Prefers c a c' := by
  intro ρ k x hx
  rw [h ρ k, hx]

namespace Refuses

theorem bind {r : Recognizer α} {f : α → Recognizer β} (none : r.Refuses c) : (r >>= f).Refuses c := by
  intro ρ k
  rw [bind_apply]
  exact none ρ _

theorem skip {r : Recognizer α} (none : r.Refuses c) : (skip r).Refuses c := none.bind

theorem after {r : Recognizer α} {f : α → Recognizer β} {a : α} (head : r.Reads c a c')
    (none : (f a).Refuses c') : (r >>= f).Refuses c := by
  intro ρ k
  rw [bind_apply, head ρ, none ρ]

theorem first {r : Recognizer α} (none : r.Refuses c) : r.first c = Option.none := none _ _

theorem atStart {r : Recognizer α} {t : List Char} (none : r.Refuses (.start t)) :
    r.atStart t = Option.none := by
  rw [Recognizer.atStart, none.first]
  rfl

theorem orElse {r s : Recognizer α} (left : r.Refuses c) (right : s.Refuses c) : (r <|> s).Refuses c := by
  intro ρ k
  rw [orElse_apply, left ρ k, right ρ k]
  rfl

theorem char_nil : (char p).Refuses ⟨b, []⟩ := fun _ _ => rfl

theorem char {x : Char} {t : List Char} (other : p x = false) : (Recognizer.char p).Refuses ⟨b, x :: t⟩ := by
  intro ρ k
  simp [Recognizer.char, other]

theorem sign {s x : Char} {t : List Char} (other : x ≠ s) : (sign s).Refuses ⟨b, x :: t⟩ :=
  skip (char (by simpa using other))

theorem text {w t : List Char} (other : ¬ w <+: t) : (text w).Refuses ⟨b, t⟩ := by
  induction w generalizing b t with
  | nil => exact absurd List.nil_prefix other
  | cons x w ih =>
    rw [Recognizer.text]
    cases t with
    | nil => exact bind char_nil
    | cons y t =>
      by_cases same : y = x
      · subst same
        intro ρ k
        rw [bind_apply]
        simp only [Recognizer.char, beq_self_eq_true, ↓reduceIte]
        exact ih (fun h => other (List.cons_prefix_cons.2 ⟨rfl, h⟩)) ρ k
      · exact bind (char (by simpa using same))

theorem oneOf {ws : List String} {t : List Char} (other : ∀ w ∈ ws, ¬ w.toList <+: t) :
    (oneOf ws).Refuses ⟨b, t⟩ := by
  induction ws with
  | nil => exact fun _ _ => rfl
  | cons w ws ih =>
    rw [Recognizer.oneOf]
    exact orElse (bind (text (other w (by simp)))) (ih fun v mem => other v (by simp [mem]))

end Refuses

namespace Reads

theorem pure {a : α} : (Pure.pure a : Recognizer α).Reads c a c := fun _ _ => rfl

theorem bind {r : Recognizer α} {f : α → Recognizer β} {a : α} {d : β} (head : r.Reads c a c')
    (tail : (f a).Reads c' d c'') : (r >>= f).Reads c d c'' := by
  intro ρ k
  rw [bind_apply, head ρ, tail ρ]

theorem skip {r : Recognizer α} {a : α} (h : r.Reads c a c') : (skip r).Reads c () c' := h.bind pure

theorem left {r s : Recognizer α} {a : α} (h : r.Reads c a c') (none : s.Refuses c) : (r <|> s).Reads c a c' := by
  intro ρ k
  rw [orElse_apply, h ρ k, none ρ k]
  cases k a c' <;> rfl

theorem right {r s : Recognizer α} {a : α} (none : r.Refuses c) (h : s.Reads c a c') : (r <|> s).Reads c a c' := by
  intro ρ k
  rw [orElse_apply, none ρ k, h ρ k]
  rfl

theorem optional_none {r : Recognizer α} (none : r.Refuses c) : (optional r).Reads c Option.none c :=
  right none.bind pure

theorem char {x : Char} {t : List Char} (fits : p x = true) : (char p).Reads ⟨b, x :: t⟩ x ⟨some x, t⟩ := by
  intro ρ k
  simp [Recognizer.char, fits]

theorem sign {s : Char} {t : List Char} : (sign s).Reads ⟨b, s :: t⟩ () ⟨some s, t⟩ :=
  skip (char (beq_self_eq_true s))

theorem text {w t : List Char} : (text w).Reads ⟨b, w ++ t⟩ () ⟨w.getLast? <|> b, t⟩ := by
  induction w generalizing b with
  | nil => exact pure
  | cons x w ih =>
    rw [passed_cons]
    exact bind (char (beq_self_eq_true x)) ih

theorem word {w : String} {t : List Char} : (word w).Reads ⟨b, w.toList ++ t⟩ () ⟨w.toList.getLast? <|> b, t⟩ :=
  text

theorem run {w t : List Char} (all : ∀ x ∈ w, p x = true) (stop : ∀ x ∈ t.head?, p x = false) :
    (run p).Reads ⟨b, w ++ t⟩ w ⟨w.getLast? <|> b, t⟩ := by
  have taken : t.takeWhile p = [] ∧ t.dropWhile p = t := by
    cases t with
    | nil => simp
    | cons x t => simp [stop x rfl]
  intro ρ k
  rw [Recognizer.run]
  simp only [List.takeWhile_append_of_pos all, List.dropWhile_append_of_pos all, taken, List.append_nil]

theorem run1 {x : Char} {w t : List Char} (fits : p x = true) (all : ∀ y ∈ w, p y = true)
    (stop : ∀ y ∈ t.head?, p y = false) :
    (run1 p).Reads ⟨b, x :: (w ++ t)⟩ (x :: w) ⟨w.getLast? <|> some x, t⟩ := by
  refine bind (char fits) (bind (run all stop) ?_)
  exact pure

theorem run1_append {w t : List Char} (nonempty : w ≠ []) (all : ∀ y ∈ w, p y = true)
    (stop : ∀ y ∈ t.head?, p y = false) : (Recognizer.run1 p).Reads ⟨b, w ++ t⟩ w ⟨w.getLast? <|> b, t⟩ := by
  cases w with
  | nil => exact absurd rfl nonempty
  | cons x w =>
    rw [passed_cons]
    exact run1 (all x (by simp)) (fun y mem => all y (by simp [mem])) stop

theorem run_until {stop : Char} {w t : List Char} (none : stop ∉ w) :
    (Recognizer.run (isNot stop)).Reads ⟨b, w ++ stop :: t⟩ w ⟨w.getLast? <|> b, stop :: t⟩ := by
  refine run (fun x mem => ?_) (by simp [isNot])
  rw [isNot, bne_iff_ne]
  rintro rfl
  exact none mem

theorem name {q : Char → Bool} {x : Char} {w t : List Char} (fits : p x = true) (all : ∀ y ∈ w, q y = true)
    (stop : ∀ y ∈ t.head?, q y = false) :
    (name p q).Reads ⟨b, x :: (w ++ t)⟩ (x :: w) ⟨w.getLast? <|> some x, t⟩ := by
  refine bind (char fits) (bind (run all stop) ?_)
  exact pure

theorem gap {w t : List Char} (blank : ∀ x ∈ w, Text.isBlank x = true) (stop : ∀ x ∈ t.head?, Text.isBlank x = false) :
    gap.Reads ⟨b, w ++ t⟩ () ⟨w.getLast? <|> b, t⟩ :=
  skip (run blank stop)

theorem gap_none {x : Char} {t : List Char} (other : Text.isBlank x = false) :
    Recognizer.gap.Reads ⟨b, x :: t⟩ () ⟨b, x :: t⟩ :=
  gap (w := []) (by simp) (by simpa using other)

theorem gap_space {x : Char} {t : List Char} (other : Text.isBlank x = false) :
    Recognizer.gap.Reads ⟨b, ' ' :: x :: t⟩ () ⟨some ' ', x :: t⟩ :=
  gap (w := [' ']) (List.all_eq_true.1 (by decide)) (by simpa using other)

theorem run_dropped {t : List Char} : ∃ b', (Recognizer.skip (Recognizer.run p)).Reads ⟨b, t⟩ () ⟨b', t.dropWhile p⟩ :=
  ⟨_, skip fun _ _ => rfl⟩

theorem gap_trimmed {t : List Char} : ∃ b', Recognizer.gap.Reads ⟨b, t⟩ () ⟨b', Text.trimLeftWhile Text.isBlank t⟩ :=
  run_dropped

theorem group_until {o c : Char} {w t : List Char} (none : c ∉ w) :
    (group o (isNot c) c).Reads ⟨b, o :: (w ++ c :: t)⟩ w ⟨some c, t⟩ := by
  rw [group, isNot, bne_self_eq_false, if_neg Bool.false_ne_true]
  exact bind sign (bind (run_until none) (bind sign pure))

theorem gap1 {w t : List Char} (nonempty : w ≠ []) (blank : ∀ x ∈ w, Text.isBlank x = true)
    (stop : ∀ x ∈ t.head?, Text.isBlank x = false) : gap1.Reads ⟨b, w ++ t⟩ () ⟨w.getLast? <|> b, t⟩ :=
  skip (run1_append nonempty blank stop)

theorem gap1_space {x : Char} {t : List Char} (other : Text.isBlank x = false) :
    Recognizer.gap1.Reads ⟨b, ' ' :: x :: t⟩ () ⟨some ' ', x :: t⟩ :=
  gap1 (w := [' ']) (by simp) (List.all_eq_true.1 (by decide)) (by simpa using other)

theorem doubleQuoted {w t : List Char} (none : '"' ∉ w) :
    doubleQuoted.Reads ⟨b, '"' :: (w ++ '"' :: t)⟩ w ⟨some '"', t⟩ :=
  bind sign (bind (run_until none) (bind sign pure))

theorem plainQuoted {q : Char} {w t : List Char} (quote : isPlainQuote q = true)
    (none : ∀ x ∈ w, isPlainQuote x = false) :
    plainQuoted.Reads ⟨b, q :: (w ++ q :: t)⟩ w ⟨some q, t⟩ := by
  refine bind (skip (char quote)) (bind (run (fun x mem => ?_) ?_) (bind (skip (char quote)) pure))
  · simp [none x mem]
  · simp [quote]

theorem remainder {t : List Char} : remainder.Reads ⟨b, t⟩ t ⟨t.getLast? <|> b, []⟩ := fun _ _ => rfl

theorem wordEdge (edge : c.before.any Text.isWord ≠ c.rest.head?.any Text.isWord) : wordEdge.Reads c () c := by
  intro ρ k
  simp [Recognizer.wordEdge, edge]

theorem wordEdge_start {w t : List Char} (nonempty : w ≠ []) (word : ∀ x ∈ w, Text.isWord x = true) :
    Recognizer.wordEdge.Reads (.start (w ++ t)) () (.start (w ++ t)) := by
  cases w with
  | nil => exact absurd rfl nonempty
  | cons x w => exact wordEdge (by simp [Cursor.start, word x])

end Reads

namespace Prefers

theorem bind {r : Recognizer α} {f : α → Recognizer β} {a : α} {d : β} (head : r.Prefers c a c')
    (tail : (f a).Prefers c' d c'') : (r >>= f).Prefers c d c'' := by
  intro ρ k x h
  rw [bind_apply]
  exact head ρ _ x (tail ρ k x h)

theorem after {r : Recognizer α} {f : α → Recognizer β} {a : α} {d : β} (head : r.Reads c a c')
    (tail : (f a).Prefers c' d c'') : (r >>= f).Prefers c d c'' :=
  bind head.prefers tail

theorem assoc {γ : Type} {r : Recognizer α} {f : α → Recognizer β} {g : β → Recognizer γ} {d : γ}
    (h : (r >>= fun a => f a >>= g).Prefers c d c') : ((r >>= f) >>= g).Prefers c d c' := h

theorem first {r : Recognizer α} {a : α} (h : r.Prefers c a c') : r.first c = some (a, c') := h _ _ _ rfl

theorem atStart {r : Recognizer α} {a : α} {t : List Char} (h : r.Prefers (.start t) a c') :
    r.atStart t = some a := by
  rw [Recognizer.atStart, h.first]
  rfl

theorem search {r : Recognizer α} {a : α} {t : List Char} (h : r.Prefers (.start t) a c') :
    r.search t = some a := by
  have here : r.first ⟨none, t⟩ = some (a, c') := h.first
  cases t <;> simp [Recognizer.search, searchFrom, here]

theorem left {r s : Recognizer α} {a : α} (h : r.Prefers c a c') : (r <|> s).Prefers c a c' := by
  intro ρ k x hx
  rw [orElse_apply, h ρ k x hx]
  rfl

theorem skip {r : Recognizer α} {a : α} (h : r.Prefers c a c') : (skip r).Prefers c () c' :=
  h.bind Reads.pure.prefers

theorem optional_some {r : Recognizer α} {a : α} (h : r.Prefers c a c') : (optional r).Prefers c (some a) c' :=
  left (h.bind Reads.pure.prefers)

theorem bind_optional_some {r : Recognizer α} {f : Option α → Recognizer β} {d : β}
    (there : (r >>= fun a => f (some a)).Prefers c d c'') : (optional r >>= f).Prefers c d c'' :=
  fun ρ k x h => left (r := r >>= fun a => f (some a)) (s := f Option.none) there ρ k x h

theorem many {w t : List Char} (all : ∀ x ∈ w, p x = true) (stop : ∀ x ∈ t.head?, p x = false) :
    (many p).Prefers ⟨b, w ++ t⟩ w ⟨w.getLast? <|> b, t⟩ := by
  intro ρ k y h
  rw [Recognizer.many]
  induction w generalizing b k with
  | nil =>
    cases t with
    | nil => exact h
    | cons x t => simpa [runsFrom, stop x rfl] using h
  | cons x w ih =>
    rw [passed_cons] at h
    rw [List.cons_append, runsFrom, if_pos (all x (by simp)),
      ih (fun z mem => all z (by simp [mem])) (fun t c => k (x :: t) c) h]

/-- The shortest text is read first: up to the place where what comes next succeeds, if it does so at none before. -/
theorem shortRuns {stop : Option Char → Bool} {w t : List Char} {ρ : Type} {k : List Char → Cursor → Option ρ} {y : ρ}
    (all : ∀ x ∈ w, p x = true) (stops : stop t.head? = true)
    (early : ∀ u x v, w = u ++ x :: v → stop (some x) = true → k u ⟨u.getLast? <|> b, x :: (v ++ t)⟩ = none)
    (here : k w ⟨w.getLast? <|> b, t⟩ = some y) : shortRunsFrom p stop b (w ++ t) k = some y := by
  induction w generalizing b k with
  | nil =>
    rw [List.nil_append]
    cases t with
    | nil =>
      have ends : stop Option.none = true := stops
      rwa [shortRunsFrom, if_pos ends]
    | cons x t =>
      have first : (if stop (some x) then k [] ⟨b, x :: t⟩ else Option.none) = some y := (if_pos stops).trans here
      rw [shortRunsFrom, first]
  | cons x w ih =>
    have none : (if stop (some x) then k [] ⟨b, x :: (w ++ t)⟩ else Option.none) = Option.none := by
      split
      · rename_i stopped
        exact early [] x w rfl stopped
      · rfl
    rw [List.cons_append, shortRunsFrom, none]
    simp only [all x (by simp), if_true]
    refine ih (fun z mem => all z (by simp [mem])) (fun u z v shape stopped => ?_) ?_
    · have later := early (x :: u) z v (by rw [shape, List.cons_append]) stopped
      rwa [passed_cons] at later
    · rwa [passed_cons] at here

theorem bind_fewest {stop : Option Char → Bool} {f : List Char → Recognizer β} {d : β} {w t : List Char}
    (all : ∀ x ∈ w, p x = true) (stops : stop t.head? = true)
    (early : ∀ u x v, w = u ++ x :: v → stop (some x) = true → (f u).Refuses ⟨u.getLast? <|> b, x :: (v ++ t)⟩)
    (tail : (f w).Prefers ⟨w.getLast? <|> b, t⟩ d c'') : (fewest p stop >>= f).Prefers ⟨b, w ++ t⟩ d c'' := by
  intro ρ k y h
  exact shortRuns all stops (fun u x v shape stopped => early u x v shape stopped ρ k) (tail ρ k y h)

theorem bind_upTo {stop : Char} {f : List Char → Recognizer β} {d : β} {w t : List Char}
    (early : ∀ u v, w = u ++ stop :: v → (f u).Refuses ⟨some stop, v ++ stop :: t⟩)
    (tail : (f w).Prefers ⟨some stop, t⟩ d c'') : (upTo stop >>= f).Prefers ⟨b, w ++ stop :: t⟩ d c'' := by
  refine bind_fewest (fun _ _ => rfl) (by simp) (fun u x v shape stopped => ?_) ?_
  · have same : x = stop := by simpa using stopped
    subst same
    exact .after (.char (beq_self_eq_true x)) (early u v shape)
  · exact after (.char (beq_self_eq_true stop)) tail

theorem fewest_none {stop : Option Char → Bool} {x : Char} {t : List Char} (stops : stop (some x) = true) :
    (fewest p stop).Prefers ⟨b, x :: t⟩ [] ⟨b, x :: t⟩ := by
  intro ρ k y h
  rw [fewest, shortRunsFrom, stops, if_pos rfl, h]

end Prefers

def Apart (v w : String) : Prop := ¬ v.toList <+: w.toList ∧ ¬ w.toList <+: v.toList

instance (v w : String) : Decidable (Apart v w) := inferInstanceAs (Decidable (_ ∧ _))

theorem Apart.not_start {v w : String} (apart : Apart v w) (t : List Char) : ¬ v.toList <+: w.toList ++ t := by
  intro h
  rcases List.prefix_or_prefix_of_prefix h (List.prefix_append w.toList t) with shorter | longer
  · exact apart.1 shorter
  · exact apart.2 longer

/-- Of words that are apart from each other the text decides for one. -/
theorem Reads.oneOf {ws : List String} {w : String} {t : List Char} (apart : ws.Pairwise Apart) (mem : w ∈ ws) :
    (oneOf ws).Reads ⟨b, w.toList ++ t⟩ w ⟨w.toList.getLast? <|> b, t⟩ := by
  induction ws with
  | nil => simp at mem
  | cons v ws ih =>
    rw [Recognizer.oneOf]
    obtain ⟨fromV, rest⟩ := List.pairwise_cons.1 apart
    rcases List.mem_cons.1 mem with rfl | mem
    · refine left (bind word pure) (.oneOf fun v later => ?_)
      exact Apart.not_start ⟨(fromV v later).2, (fromV v later).1⟩ t
    · exact right (.bind (.text ((fromV w mem).not_start t))) (ih rest mem)

end Drift.Recognizer
