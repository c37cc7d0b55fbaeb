import Drift.Proofs.Recognizer.Names
import Drift.Proofs.Text.Words

namespace Drift.Recognizer

variable {α β : Type} {b : Option Char} {c c' c'' : Cursor} {t w : List Char}

theorem Refuses.of_yields {r : Recognizer α} {R : Cursor → α → Cursor → Prop} (yields : r.Yields R)
    (never : ∀ a c', ¬ R c a c') : r.Refuses c := by
  intro ρ k
  cases reading : r ρ c k with
  | none => rfl
  | some x =>
    obtain ⟨a, c', holds, -⟩ := yields ρ c k x reading
    exact absurd holds (never a c')

/-- From the first place to the second `r` reads piece after piece, none of them empty, and there it reads no more. -/
inductive Chain (r : Recognizer Unit) : Cursor → Cursor → Prop
  | done {c : Cursor} : r.Refuses c → Chain r c c
  | piece {c c' c'' : Cursor} : r.Prefers c () c' → c'.rest.length < c.rest.length → Chain r c' c'' → Chain r c c''

/-- Any bound on the pieces will do that is not below the number of characters passed. -/
theorem Chain.prefers_repeatedOver {r : Recognizer Unit} (chain : Chain r c c') (bound : List Char)
    (enough : c.rest.length ≤ bound.length) : (repeatedOver r bound).Prefers c () c' := by
  induction chain generalizing bound with
  | done refused =>
    cases bound with
    | nil => exact Reads.pure.prefers
    | cons x bound => exact (Reads.right refused.bind .pure).prefers
  | piece reads less chain ih =>
    cases bound with
    | nil =>
      rw [List.length_nil] at enough
      omega
    | cons x bound =>
      rw [List.length_cons] at enough
      exact .left (.bind reads (ih bound (by omega)))

theorem Prefers.repeated {r : Recognizer Unit} (chain : Chain r c c') : (repeated r).Prefers c () c' := by
  intro ρ k x h
  exact chain.prefers_repeatedOver c.rest (Nat.le_refl _) ρ k x h

theorem Prefers.spanned {r : Recognizer Unit} {b' : Option Char} (h : r.Prefers ⟨b, w ++ t⟩ () ⟨b', t⟩) :
    (spanned r).Prefers ⟨b, w ++ t⟩ w ⟨b', t⟩ := by
  intro ρ k x hx
  refine h ρ _ x ?_
  have passed : (w ++ t).take ((w ++ t).length - t.length) = w := by simp
  simpa only [passed] using hx

def Definite (r : Recognizer Unit) : Prop := ∀ c, r.Refuses c ∨ ∃ c', r.Reads c () c' ∧ c'.rest.length < c.rest.length

namespace Definite

theorem sign (s : Char) : Definite (sign s) := by
  rintro ⟨b, t⟩
  cases t with
  | nil => exact .inl (.skip .char_nil)
  | cons x t =>
    by_cases same : x = s
    · subst same
      exact .inr ⟨_, .sign, Nat.lt_succ_self t.length⟩
    · exact .inl (.sign same)

theorem run1 (p : Char → Bool) : Definite (skip (run1 p)) := by
  rintro ⟨b, t⟩
  cases t with
  | nil => exact .inl (.skip (.bind .char_nil))
  | cons x t =>
    cases fits : p x with
    | false => exact .inl (.skip (.bind (.char fits)))
    | true =>
      have run : (run p).Reads ⟨some x, t⟩ (t.takeWhile p) ⟨(t.takeWhile p).getLast? <|> some x, t.dropWhile p⟩ := fun _ _ => rfl
      have shorter : (t.dropWhile p).length ≤ t.length := (List.dropWhile_suffix p).length_le
      exact .inr ⟨_, .skip (.bind (.char fits) (.bind run .pure)), Nat.lt_succ_of_le shorter⟩

theorem gap1 : Definite gap1 := run1 Text.isBlank

theorem bind {r s : Recognizer Unit} (head : Definite r) (tail : Definite s) : Definite (do r; s) := by
  intro c
  rcases head c with refused | ⟨c', first, less⟩
  · exact .inl refused.bind
  · rcases tail c' with refused | ⟨c'', second, more⟩
    · exact .inl (.after first refused)
    · exact .inr ⟨c'', .bind first second, Nat.lt_trans more less⟩

end Definite

section Pieces

variable {r : Recognizer Unit} {ρ : Type} {k : Unit → Cursor → Option ρ}

theorem repeatedOver_refused (refused : r.Refuses c) (bound : List Char) : repeatedOver r bound ρ c k = k () c := by
  cases bound with
  | nil => rfl
  | cons x bound => exact Reads.right refused.bind .pure ρ k

theorem repeatedOver_piece (reads : r.Reads c () c') (x : Char) (bound : List Char) :
    repeatedOver r (x :: bound) ρ c k = (repeatedOver r bound ρ c' k <|> k () c) := by
  rw [repeatedOver, orElse_apply, bind_apply, reads]
  rfl

/-- Any two bounds will do that are not below the number of characters. -/
theorem Definite.repeatedOver_eq (definite : Definite r) (bound bound' : List Char)
    (enough : c.rest.length ≤ bound.length) (enough' : c.rest.length ≤ bound'.length) : repeatedOver r bound ρ c k = repeatedOver r bound' ρ c k := by
  induction bound generalizing bound' c with
  | nil =>
    rcases definite c with refused | ⟨c', -, less⟩
    · rw [repeatedOver_refused refused, repeatedOver_refused refused]
    · rw [List.length_nil] at enough
      omega
  | cons x bound ih =>
    rcases definite c with refused | ⟨c', reads, less⟩
    · rw [repeatedOver_refused refused, repeatedOver_refused refused]
    · cases bound' with
      | nil =>
        rw [List.length_nil] at enough'
        omega
      | cons y bound' =>
        rw [List.length_cons] at enough enough'
        rw [repeatedOver_piece reads, repeatedOver_piece reads, ih bound' (by omega) (by omega)]

theorem Reads.repeated_none (refused : r.Refuses c) : (repeated r).Reads c () c := fun _ _ => repeatedOver_refused refused _

/-- Behind a piece the reading goes on, or it stops in front of the piece. -/
theorem Definite.repeated_piece (definite : Definite r) (reads : r.Reads c () c')
    (shorter : c'.rest.length < c.rest.length) : repeated r ρ c k = (repeated r ρ c' k <|> k () c) := by
  obtain ⟨x, t, shape⟩ := List.exists_cons_of_length_pos (Nat.zero_lt_of_lt shorter)
  rw [shape, List.length_cons] at shorter
  rw [repeated, shape, repeatedOver_piece reads, definite.repeatedOver_eq t c'.rest (by omega) (Nat.le_refl _)]
  rfl

end Pieces

def spaced (ws : List String) : List Char := ws.flatMap fun w => w.toList ++ [' ']

def Visible (ws : List String) : Prop := ∀ w ∈ ws, w.toList.head?.any (fun x => !Text.isBlank x) = true

instance (ws : List String) : Decidable (Visible ws) := inferInstanceAs (Decidable (∀ w ∈ ws, _))

theorem forall_spaced {p : Char → Prop} {ws : List String} (chars : ∀ w ∈ ws, ∀ c ∈ w.toList, p c) (space : p ' ') :
    ∀ c ∈ spaced ws, p c := by
  intro c mem
  obtain ⟨w, written, inside⟩ := List.mem_flatMap.1 mem
  rcases List.mem_append.1 inside with word | blank
  · exact chars w written c word
  · rwa [List.mem_singleton.1 blank]

theorem head_spaced {ws : List String} (visible : Visible ws) (next : ∀ x ∈ t.head?, Text.isBlank x = false) :
    ∀ x ∈ (spaced ws ++ t).head?, Text.isBlank x = false := by
  cases ws with
  | nil => exact next
  | cons w ws =>
    obtain ⟨y, first, word⟩ := (Option.any_eq_true _ _).1 (visible w (by simp))
    obtain ⟨u, shape⟩ := List.head?_eq_some_iff.1 first
    simpa [spaced, shape] using word

/-- Words are read one after the other up to a place where none of them stands. -/
theorem Prefers.keywords {ws ms : List String} (apart : ws.Pairwise Apart) (visible : Visible ws)
    (known : ∀ m ∈ ms, m ∈ ws) (stop : ∀ x ∈ t.head?, Text.isBlank x = false)
    (refused : ∀ b, (do Recognizer.skip (Recognizer.oneOf ws); gap1 : Recognizer Unit).Refuses ⟨b, t⟩) (b : Option Char) :
    ∃ b', (Recognizer.keywords ws).Prefers ⟨b, spaced ms ++ t⟩ () ⟨b', t⟩ := by
  have chain : ∀ b, ∃ b', Chain (do Recognizer.skip (Recognizer.oneOf ws); gap1) ⟨b, spaced ms ++ t⟩ ⟨b', t⟩ := by
    induction ms with
    | nil => exact fun b => ⟨b, .done (refused b)⟩
    | cons m ms ih =>
      intro b
      obtain ⟨mem, rest⟩ := List.forall_mem_cons.1 known
      obtain ⟨b', chain⟩ := ih rest (some ' ')
      have next : ∀ x ∈ (spaced ms ++ t).head?, Text.isBlank x = false := head_spaced (fun w mem => visible w (rest w mem)) stop
      have shape : spaced (m :: ms) ++ t = m.toList ++ ([' '] ++ (spaced ms ++ t)) := by simp [spaced]
      have piece : (do Recognizer.skip (Recognizer.oneOf ws); gap1 : Recognizer Unit).Prefers
          ⟨b, m.toList ++ ([' '] ++ (spaced ms ++ t))⟩ () ⟨some ' ', spaced ms ++ t⟩ :=
        .after (.skip (.oneOf apart mem)) (Reads.gap1 (by simp) Text.isBlank_space next).prefers
      rw [shape]
      exact ⟨b', .piece piece (by simp; omega) chain⟩
  obtain ⟨b', chain⟩ := chain b
  exact ⟨b', .repeated chain⟩

theorem Refuses.oneOf_class {p : Char → Bool} {ws : List String} {x : Char}
    (filled : ∀ w ∈ ws, w.toList ≠ []) (letters : ∀ w ∈ ws, ∀ c ∈ w.toList, p c = true) (other : p x = false) :
    (Recognizer.oneOf ws).Refuses ⟨b, x :: t⟩ := by
  refine .oneOf fun w mem starts => ?_
  obtain ⟨y, v, spelled⟩ := List.exists_cons_of_ne_nil (filled w mem)
  rw [spelled, List.cons_prefix_cons] at starts
  exact Text.ne_of_class (letters w mem y (by simp [spelled])) other starts.1

section Words

variable {p : Char → Bool} (noBlank : ∀ x, Text.isBlank x = true → p x = false) (fits : ∀ x ∈ w, p x = true)
  (stop : ∀ x ∈ t.head?, p x = false)

include noBlank fits stop

/-- A word of characters with the property `p` and blanks are read only where that word stands, and blanks behind it. -/
theorem Refuses.word_gap {ws : List String} (chars : ∀ w ∈ ws, ∀ x ∈ w.toList, p x = true)
    (other : String.ofList w ∈ ws → ∀ x ∈ t.head?, Text.isBlank x = false) :
    (do let v ← Recognizer.oneOf ws; gap1; Pure.pure v : Recognizer String).Refuses ⟨b, w ++ t⟩ := by
  have yields := Yields.bind (Yields.oneOf ws) fun v => Yields.bind (.skip (.run1 Text.isBlank)) fun _ => Yields.pure v
  refine .of_yields yields ?_
  rintro _ _ ⟨v, c', ⟨known, first⟩, -, c'', ⟨g, second, filled, blank⟩, -⟩
  have shape : w ++ t = v.toList ++ (g ++ c''.rest) := first.trans (by rw [second])
  obtain ⟨same, behind⟩ := Text.eq_of_append_gap noBlank fits stop (chars v known) filled blank shape
  obtain ⟨x, g, rfl⟩ := List.exists_cons_of_ne_nil filled
  have visible := other (by rwa [← same, String.ofList_toList]) x (by simp [behind])
  rw [blank x (by simp)] at visible
  cases visible

theorem Refuses.keyword {v : String} (chars : ∀ x ∈ v.toList, p x = true)
    (other : String.ofList w = v → ∀ x ∈ t.head?, Text.isBlank x = false) : (keyword v).Refuses ⟨b, w ++ t⟩ := by
  refine .of_yields (.keyword v) ?_
  rintro _ c' ⟨g, shape⟩
  obtain ⟨same, behind⟩ := Text.eq_of_append_gap noBlank fits stop chars g.nonempty g.fits shape
  obtain ⟨x, gap, blanks⟩ := List.exists_cons_of_ne_nil g.nonempty
  have visible := other (by rw [← same, String.ofList_toList]) x (by simp [behind, blanks])
  rw [g.fits x (by simp [blanks])] at visible
  cases visible

end Words

theorem Refuses.keyword_gap {ws : List String}
    (refused : (do let v ← Recognizer.oneOf ws; gap1; Pure.pure v : Recognizer String).Refuses c) :
    (do Recognizer.skip (Recognizer.oneOf ws); gap1 : Recognizer Unit).Refuses c :=
  fun ρ k => refused ρ fun _ c => k () c

def Spans (r : Recognizer α) (q : Char → Prop) : Prop :=
  r.Yields fun c _ c' => ∃ w, c.rest = w ++ c'.rest ∧ ∀ x ∈ w, q x

namespace Spans

variable {q : Char → Prop}

theorem pure (a : α) : (Pure.pure a : Recognizer α).Spans q :=
  (Yields.pure a).mono fun c _ c' same => ⟨[], by rw [same.2]; rfl, by simp⟩

theorem bind {r : Recognizer α} {f : α → Recognizer β} (head : r.Spans q) (tail : ∀ a, (f a).Spans q) :
    (r >>= f).Spans q := by
  refine (Yields.bind head tail).mono ?_
  rintro c _ c'' ⟨a, c', ⟨v, first, left⟩, w, rest, right⟩
  exact ⟨v ++ w, by rw [first, rest, List.append_assoc], List.forall_mem_append.2 ⟨left, right⟩⟩

theorem orElse {r s : Recognizer α} (left : r.Spans q) (right : s.Spans q) : (r <|> s).Spans q := Yields.orElse left right

theorem skip {r : Recognizer α} (h : r.Spans q) : (skip r).Spans q := h.bind fun _ => .pure ()

theorem optional {r : Recognizer α} (h : r.Spans q) : (optional r).Spans q :=
  orElse (h.bind fun a => .pure (some a)) (.pure none)

theorem char {p : Char → Bool} (fits : ∀ x, p x = true → q x) : (char p).Spans q :=
  Yields.char.mono fun _ x _ h => ⟨[x], h.2, by simpa using fits x h.1⟩

theorem sign {s : Char} (fits : q s) : (sign s).Spans q := by
  refine skip (char fun x same => ?_)
  rwa [eq_of_beq same]

theorem word {w : String} (fits : ∀ x ∈ w.toList, q x) : (word w).Spans q :=
  (Yields.text w.toList).mono fun _ _ _ read => ⟨w.toList, read, fits⟩

theorem run {p : Char → Bool} (fits : ∀ x, p x = true → q x) : (run p).Spans q :=
  (Yields.run p).mono fun _ w _ h => ⟨w, h.1, fun x mem => fits x (h.2 x mem)⟩

theorem gap (fits : ∀ x, Text.isBlank x = true → q x) : gap.Spans q := skip (run fits)

theorem gap1 (fits : ∀ x, Text.isBlank x = true → q x) : gap1.Spans q :=
  skip ((char fits).bind fun x => (run fits).bind fun w => .pure (x :: w))

theorem repeated {r : Recognizer Unit} (h : r.Spans q) : (repeated r).Spans q := by
  have bounded : ∀ bound, (repeatedOver r bound).Spans q := by
    intro bound
    induction bound with
    | nil => exact .pure ()
    | cons x bound ih => exact .orElse (h.bind fun _ => ih) (.pure ())
  exact fun ρ c k x reading => bounded c.rest ρ c k x reading

theorem spanned {r : Recognizer Unit} (h : r.Spans q) : (spanned r).Spans q := by
  intro ρ c k x reading
  obtain ⟨_, c', passed, next⟩ := h ρ c _ x reading
  exact ⟨_, c', passed, next⟩

end Spans

end Drift.Recognizer
