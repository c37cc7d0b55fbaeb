import Drift.Proofs.Text.Characters

namespace Drift.Text

variable {b c d : Char} {t u w : List Char}

theorem words_blank (blank : isBlank b = true) (t : List Char) : words (b :: t) = words t := by
  rw [words.eq_def]
  simp only [blank, if_true]

theorem words_single (word : isBlank c = false) : words [c] = [[c]] := by
  rw [words.eq_def]
  simp only [word, Bool.false_eq_true, if_false]

theorem words_last (word : isBlank c = false) (blank : isBlank d = true) (t : List Char) :
    words (c :: d :: t) = [c] :: words (d :: t) := by
  rw [words.eq_def]
  simp only [word, blank, Bool.false_eq_true, if_false, if_true]

theorem words_cons (word : isBlank c = false) (next : isBlank d = false) {ws : List (List Char)}
    (more : words (d :: t) = w :: ws) : words (c :: d :: t) = (c :: w) :: ws := by
  rw [words.eq_def]
  simp only [word, next, more, Bool.false_eq_true, if_false]

/-- A word at the front of a text, with a blank behind it or nothing. -/
theorem words_append_of_stop (filled : w ≠ []) (word : ∀ c ∈ w, isBlank c = false)
    (stop : ∀ c ∈ t.head?, isBlank c = true) : words (w ++ t) = w :: words t := by
  induction w with
  | nil => exact absurd rfl filled
  | cons c w ih =>
    obtain ⟨first, rest⟩ := List.forall_mem_cons.1 word
    cases w with
    | nil =>
      cases t with
      | nil => exact words_single first
      | cons d t => exact words_last first (stop d rfl) t
    | cons d w => exact words_cons first (rest d (by simp)) (ih (by simp) rest)

theorem words_word (filled : w ≠ []) (word : ∀ c ∈ w, isBlank c = false) : words w = [w] := by
  have alone := words_append_of_stop (t := []) filled word (by simp)
  rwa [List.append_nil] at alone

/-- The first word of a text that starts with no blank, and what stands behind it. -/
theorem words_of_head (filled : t ≠ []) (head : ∀ c ∈ t.head?, isBlank c = false) :
    words t = (t.takeWhile fun c => !isBlank c) :: words (t.dropWhile fun c => !isBlank c) := by
  have parts : (t.takeWhile fun c => !isBlank c) ++ (t.dropWhile fun c => !isBlank c) = t :=
    List.takeWhile_append_dropWhile
  have first : (t.takeWhile fun c => !isBlank c) ≠ [] := by
    obtain ⟨c, r, rfl⟩ := List.exists_cons_of_ne_nil filled
    simp [head c rfl]
  have stop : ∀ c ∈ (t.dropWhile fun c => !isBlank c).head?, isBlank c = true := by
    intro c mem
    have stopped := List.head?_dropWhile_not (fun c => !isBlank c) t
    rw [Option.mem_def.1 mem] at stopped
    simpa using stopped
  have read := words_append_of_stop first (fun c mem => by simpa using List.all_eq_true.1 List.all_takeWhile c mem) stop
  rwa [parts] at read

/-- A text that starts with a run of other characters than blanks has none of the words `ws` in front, if the run is none of
them and no character of theirs stands behind it. -/
theorem words_of_run {p : Char → Bool} (r : Run p) (noBlank : ∀ c, p c = true → isBlank c = false) {ws : List (List Char)}
    (other : r.text ∉ ws) (behind : ∀ c ∈ t.head?, ∀ w ∈ ws, c ∉ w) : ∃ w rest, words (r.text ++ t) = w :: rest ∧ w ∉ ws := by
  have filled : r.text ++ t ≠ [] := by simp [r.nonempty]
  have visible : ∀ c ∈ r.text, (!isBlank c) = true := fun c mem => by simp [noBlank c (r.fits c mem)]
  have head : ∀ c ∈ (r.text ++ t).head?, isBlank c = false := by
    obtain ⟨x, u, shape⟩ := List.exists_cons_of_ne_nil r.nonempty
    rw [shape]
    rintro _ ⟨⟩
    exact noBlank _ (r.fits _ (by simp [shape]))
  refine ⟨_, _, words_of_head filled head, fun mem => ?_⟩
  rw [List.takeWhile_append_of_pos visible] at mem
  cases t with
  | nil => exact other (by simpa using mem)
  | cons c t =>
    cases blank : isBlank c with
    | true => exact other (by simpa [blank] using mem)
    | false => exact behind c rfl _ mem (by simp [blank])

theorem eq_of_append_gap {p : Char → Bool} {v g r : List Char} (noBlank : ∀ c, isBlank c = true → p c = false)
    (fits : ∀ c ∈ w, p c = true) (stop : ∀ c ∈ t.head?, p c = false) (word : ∀ c ∈ v, p c = true) (filled : g ≠ [])
    (blank : ∀ c ∈ g, isBlank c = true) (shape : w ++ t = v ++ (g ++ r)) : v = w ∧ t = g ++ r := by
  have gapStop : ∀ c ∈ (g ++ r).head?, p c = false := by
    obtain ⟨c, g, rfl⟩ := List.exists_cons_of_ne_nil filled
    rintro _ ⟨⟩
    exact noBlank c (blank c (by simp))
  have same : v = w := by
    rw [← takeWhile_append_of_stop word gapStop, ← shape, takeWhile_append_of_stop fits stop]
  subst same
  exact ⟨rfl, List.append_cancel_left shape⟩

theorem exists_words (word : isBlank c = false) (t : List Char) : ∃ w ws, words (c :: t) = w :: ws :=
  ⟨_, _, words_of_head (by simp) (by simpa using word)⟩

theorem words_append_blank (blank : isBlank b = true) (t u : List Char) :
    words (t ++ b :: u) = words t ++ words u := by
  induction t with
  | nil => exact words_blank blank u
  | cons c t ih =>
    cases first : isBlank c with
    | true => rw [List.cons_append, words_blank first, words_blank first, ih]
    | false =>
      cases t with
      | nil => rw [List.cons_append, List.nil_append, words_last first blank, words_single first, words_blank blank]; rfl
      | cons d t =>
        cases second : isBlank d with
        | true =>
          rw [List.cons_append, List.cons_append, words_last first second, words_last first second, ← List.cons_append, ih]
          rfl
        | false =>
          obtain ⟨w, ws, more⟩ := exists_words second t
          rw [more, List.cons_append, List.cons_append] at ih
          rw [List.cons_append, List.cons_append, words_cons first second ih, words_cons first second more]
          rfl

theorem words_blank_append {g : List Char} (blank : ∀ c ∈ g, isBlank c = true) (t : List Char) :
    words (g ++ t) = words t := by
  induction g with
  | nil => rfl
  | cons c g ih =>
    obtain ⟨first, rest⟩ := List.forall_mem_cons.1 blank
    rw [List.cons_append, words_blank first, ih rest]

theorem words_append_gap {g : List Char} (filled : g ≠ []) (blank : ∀ c ∈ g, isBlank c = true) (t u : List Char) :
    words (t ++ (g ++ u)) = words t ++ words u := by
  obtain ⟨c, g, rfl⟩ := List.exists_cons_of_ne_nil filled
  obtain ⟨first, rest⟩ := List.forall_mem_cons.1 blank
  rw [List.cons_append, words_append_blank first, words_blank_append rest]

theorem mem_of_mem_words (inside : w ∈ words t) (mem : c ∈ w) : c ∈ t := by
  induction t generalizing w with
  | nil => cases inside
  | cons x t ih =>
    cases first : isBlank x with
    | true =>
      rw [words_blank first] at inside
      exact List.mem_cons_of_mem x (ih inside mem)
    | false =>
      cases t with
      | nil =>
        rw [words_single first, List.mem_singleton] at inside
        rwa [inside] at mem
      | cons d t =>
        cases second : isBlank d with
        | true =>
          rw [words_last first second, List.mem_cons] at inside
          rcases inside with rfl | inside
          · exact List.mem_cons.2 (.inl (List.mem_singleton.1 mem))
          · exact List.mem_cons_of_mem x (ih inside mem)
        | false =>
          obtain ⟨v, vs, more⟩ := exists_words second t
          rw [words_cons first second more, List.mem_cons] at inside
          rcases inside with rfl | inside
          · rcases List.mem_cons.1 mem with rfl | mem
            · exact List.mem_cons_self
            · exact List.mem_cons_of_mem x (ih (by simp [more]) mem)
          · exact List.mem_cons_of_mem x (ih (by simp [more, inside]) mem)

end Drift.Text
