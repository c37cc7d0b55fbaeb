import Drift.Text.Blank
import Drift.Text.Split
import Drift.Text.Word

namespace Drift.Text

@[ext]
structure Run (p : Char → Bool) where
  text : List Char
  nonempty : text ≠ []
  fits : ∀ c ∈ text, p c = true
  deriving DecidableEq

def Run.of {p : Char → Bool} (text : List Char) (checked : (!text.isEmpty && text.all p) = true) : Run p where
  text
  nonempty := by simp at checked; simp [checked]
  fits := by simp at checked; exact checked.2

theorem Run.exists_head {p : Char → Bool} (r : Run p) :
    ∃ c t, r.text = c :: t ∧ p c = true ∧ ∀ x ∈ t, p x = true := by
  obtain ⟨c, t, shape⟩ := List.exists_cons_of_ne_nil r.nonempty
  exact ⟨c, t, shape, List.forall_mem_cons.1 (shape ▸ r.fits)⟩

theorem Run.exists_last {p : Char → Bool} (r : Run p) : ∃ c, r.text.getLast? = some c ∧ p c = true :=
  ⟨_, List.getLast?_eq_some_getLast r.nonempty, r.fits _ (List.getLast_mem r.nonempty)⟩

theorem isBlank_nil : ∀ c ∈ ([] : List Char), isBlank c = true := by simp

theorem isBlank_space : ∀ c ∈ [' '], isBlank c = true := by
  simp
  decide

def Run.space : Run isBlank where
  text := [' ']
  nonempty := List.cons_ne_nil ' ' []
  fits := isBlank_space

def blankPoints : List Nat := blankRanges.flatMap fun r => List.range' r.1 (r.2 + 1 - r.1)

theorem mem_blankPoints {c : Char} (blank : isBlank c = true) : c.toNat ∈ blankPoints := by
  obtain ⟨r, mem, low, high⟩ := inRanges_iff.1 blank
  refine List.mem_flatMap.2 ⟨r, mem, List.mem_range'_1.2 ?_⟩
  omega

theorem isBlank_of_class {p : Char → Bool} (none : ∀ n ∈ blankPoints, p (Char.ofNat n) = false) {c : Char}
    (fits : p c = true) : isBlank c = false := by
  rw [Bool.eq_false_iff]
  intro blank
  have other := none _ (mem_blankPoints blank)
  rw [Char.ofNat_toNat, fits] at other
  cases other

theorem class_of_isBlank {p : Char → Bool} (none : ∀ c, p c = true → isBlank c = false) {c : Char}
    (blank : isBlank c = true) : p c = false := by
  rw [Bool.eq_false_iff]
  intro fits
  rw [none c fits] at blank
  cases blank

theorem ne_of_class {p : Char → Bool} {c x : Char} (fits : p c = true) (other : p x = false) : c ≠ x := by
  rintro rfl
  rw [fits] at other
  cases other

theorem isBlank_of_isWord {c : Char} (word : isWord c = true) : isBlank c = false :=
  isBlank_of_class (p := isWord) (by decide +kernel) word

theorem isWord_of_isBlank {c : Char} (blank : isBlank c = true) : isWord c = false :=
  class_of_isBlank (fun _ => isBlank_of_isWord) blank

theorem isLineBreak_of_not_blank {c : Char} (notBlank : isBlank c = false) : isLineBreak c = false := by
  rw [Bool.eq_false_iff]
  intro ends
  rw [isBlank_of_isLineBreak ends] at notBlank
  cases notBlank

theorem isLineBreak_of_isWord {c : Char} (word : isWord c = true) : isLineBreak c = false :=
  isLineBreak_of_not_blank (isBlank_of_isWord word)

theorem takeWhile_append_of_stop {p : Char → Bool} {w t : List Char} (fits : ∀ c ∈ w, p c = true)
    (stop : ∀ c ∈ t.head?, p c = false) : (w ++ t).takeWhile p = w := by
  have ended : t.takeWhile p = [] := by
    cases t with
    | nil => rfl
    | cons c t => simp [stop c rfl]
  rw [List.takeWhile_append_of_pos fits, ended, List.append_nil]

theorem dropWhile_of_head {p : Char → Bool} {cs : List Char} (head : ∀ c ∈ cs.head?, p c = false) :
    cs.dropWhile p = cs := by
  cases cs with
  | nil => rfl
  | cons c cs => simp [head c rfl]

/-- A text that starts with such a character starts with a run of them. -/
theorem exists_run {p : Char → Bool} {t : List Char} (head : t.head?.any p = true) :
    ∃ (r : Run p) (u : List Char), t = r.text ++ u ∧ ∀ c ∈ u.head?, p c = false := by
  obtain ⟨x, first, fits⟩ := (Option.any_eq_true _ _).1 head
  obtain ⟨u, rfl⟩ := List.head?_eq_some_iff.1 first
  refine ⟨⟨(x :: u).takeWhile p, by simp [fits], fun c mem => List.all_eq_true.1 List.all_takeWhile c mem⟩,
    (x :: u).dropWhile p, List.takeWhile_append_dropWhile.symm, fun c mem => ?_⟩
  have stop := List.head?_dropWhile_not p (x :: u)
  rwa [Option.mem_def.1 mem] at stop

theorem trim_eq_self {cs : List Char} (head : ∀ c ∈ cs.head?, isBlank c = false)
    (last : ∀ c ∈ cs.getLast?, isBlank c = false) : trim cs = cs := by
  have back : cs.reverse.dropWhile isBlank = cs.reverse := dropWhile_of_head (by simpa using last)
  rw [trim, trimWhile, trimLeftWhile, trimRightWhile, dropWhile_of_head head, back, List.reverse_reverse]

theorem head_trimLeft {cs : List Char} : ∀ c ∈ (trimLeftWhile isBlank cs).head?, isBlank c = false := by
  intro c mem
  have h := List.head?_dropWhile_not isBlank cs
  rw [trimLeftWhile] at mem
  rw [Option.mem_def.1 mem] at h
  exact h

theorem last_trimRight {cs : List Char} : ∀ c ∈ (trimRightWhile isBlank cs).getLast?, isBlank c = false := by
  intro c mem
  rw [trimRightWhile, List.getLast?_reverse] at mem
  exact head_trimLeft c mem

theorem trimRightWhile_prefix (p : Char → Bool) (cs : List Char) : trimRightWhile p cs <+: cs := by
  have ends : cs.reverse.dropWhile p <:+ cs.reverse := List.dropWhile_suffix p
  have turned := List.reverse_prefix.2 ends
  rwa [List.reverse_reverse] at turned

theorem head_trim {cs : List Char} : ∀ c ∈ (trim cs).head?, isBlank c = false := by
  intro c mem
  obtain ⟨w, shape⟩ := List.head?_eq_some_iff.1 mem
  obtain ⟨t, longer⟩ := trimRightWhile_prefix isBlank (trimLeftWhile isBlank cs)
  rw [← trimWhile, ← trim, shape] at longer
  have head : c ∈ (trimLeftWhile isBlank cs).head? := by simp [← longer]
  exact head_trimLeft c head

theorem trim_eq_self_iff {cs : List Char} :
    trim cs = cs ↔ (∀ c ∈ cs.head?, isBlank c = false) ∧ ∀ c ∈ cs.getLast?, isBlank c = false := by
  constructor
  · intro trimmed
    rw [← trimmed]
    exact ⟨head_trim, last_trimRight⟩
  · exact fun ⟨head, last⟩ => trim_eq_self head last

theorem trim_trimLeft (cs : List Char) : trim (trimLeftWhile isBlank cs) = trim cs := by
  rw [trim, trimWhile, trimLeftWhile, dropWhile_of_head head_trimLeft]
  rfl

theorem trim_blank_append {front cs : List Char} (blank : ∀ c ∈ front, isBlank c = true) :
    trim (front ++ cs) = trim cs := by
  rw [trim, trimWhile, trimLeftWhile, List.dropWhile_append_of_pos blank]
  rfl

theorem trimRight_append_blank {cs back : List Char} (blank : ∀ c ∈ back, isBlank c = true) :
    trimRightWhile isBlank (cs ++ back) = trimRightWhile isBlank cs := by
  rw [trimRightWhile, List.reverse_append, List.dropWhile_append_of_pos (by simpa using blank)]
  rfl

theorem trimLeft_append (cs ds : List Char) :
    trimLeftWhile isBlank (cs ++ ds) =
      if trimLeftWhile isBlank cs = [] then trimLeftWhile isBlank ds else trimLeftWhile isBlank cs ++ ds := by
  rw [trimLeftWhile, List.dropWhile_append, ← trimLeftWhile]
  simp only [List.isEmpty_iff]
  rfl

theorem trimLeft_append_visible {c : Char} (visible : isBlank c = false) (cs ds : List Char) :
    trimLeftWhile isBlank (cs ++ c :: ds) = trimLeftWhile isBlank cs ++ c :: ds := by
  have stop : trimLeftWhile isBlank (c :: ds) = c :: ds := dropWhile_of_head (by rintro _ ⟨⟩; exact visible)
  rw [trimLeft_append, stop]
  split
  · rename_i empty
    rw [empty]
    rfl
  · rfl

theorem trim_append_blank {cs back : List Char} (blank : ∀ c ∈ back, isBlank c = true) :
    trim (cs ++ back) = trim cs := by
  have gone : trimLeftWhile isBlank (back ++ []) = [] := List.dropWhile_append_of_pos blank
  rw [List.append_nil] at gone
  rw [trim, trimWhile, trimLeft_append, trim, trimWhile]
  split
  · rename_i empty
    rw [gone, empty]
  · exact trimRight_append_blank blank

theorem trimRightWhile_append_cons {p : Char → Bool} {c : Char} (stop : p c = false) (cs ds : List Char) :
    trimRightWhile p (cs ++ c :: ds) = cs ++ c :: trimRightWhile p ds := by
  simp only [trimRightWhile, List.reverse_append, List.reverse_cons, List.append_assoc, List.dropWhile_append,
    List.singleton_append, List.dropWhile_cons, stop]
  split
  · rename_i empty
    simp [List.isEmpty_iff.1 empty]
  · simp

theorem isBlank_of_trimLeft_nil {cs : List Char} (empty : trimLeftWhile isBlank cs = []) :
    ∀ c ∈ cs, isBlank c = true := by
  have parts : cs.takeWhile isBlank ++ trimLeftWhile isBlank cs = cs := List.takeWhile_append_dropWhile
  rw [empty, List.append_nil] at parts
  rw [← parts]
  exact List.all_eq_true.1 List.all_takeWhile

/-- In a text that ends with no blank something stands behind the blanks at every place. -/
theorem exists_trimLeft {front cs : List Char} (filled : cs ≠ [])
    (last : ∀ c ∈ (front ++ cs).getLast?, isBlank c = false) :
    ∃ c ds, trimLeftWhile isBlank cs = c :: ds ∧ c ∈ cs := by
  have more : trimLeftWhile isBlank cs ≠ [] := by
    intro empty
    have ends : (front ++ cs).getLast? = some (cs.getLast filled) := by
      rw [List.getLast?_append, List.getLast?_eq_some_getLast filled]
      rfl
    have stop := last _ ends
    rw [isBlank_of_trimLeft_nil empty _ (List.getLast_mem filled)] at stop
    cases stop
  obtain ⟨c, ds, left⟩ := List.exists_cons_of_ne_nil more
  exact ⟨c, ds, left, (List.dropWhile_sublist isBlank).subset (by rw [← trimLeftWhile, left]; simp)⟩

theorem trim_eq_nil_iff {cs : List Char} : trim cs = [] ↔ trimLeftWhile isBlank cs = [] := by
  constructor
  · intro empty
    cases left : trimLeftWhile isBlank cs with
    | nil => rfl
    | cons c ds =>
      have first : c ∈ (trimLeftWhile isBlank cs).head? := by simp [left]
      have stop : isBlank c = false := head_trimLeft c first
      have kept := trimRightWhile_append_cons stop [] ds
      rw [trim, trimWhile, left] at empty
      rw [List.nil_append, empty] at kept
      cases kept
  · intro empty
    rw [trim, trimWhile, empty]
    rfl

theorem trim_append_cons {c : Char} {cs : List Char} (head : ∀ x ∈ cs.head?, isBlank x = false)
    (stop : isBlank c = false) (ds : List Char) : trim (cs ++ c :: ds) = cs ++ c :: trimRightWhile isBlank ds := by
  have front : ∀ x ∈ (cs ++ c :: ds).head?, isBlank x = false := by
    cases cs with
    | nil =>
      rintro _ ⟨⟩
      exact stop
    | cons x cs => exact head
  rw [trim, trimWhile, trimLeftWhile, dropWhile_of_head front, trimRightWhile_append_cons stop]

theorem trimLeft_append_cons {b c : Char} (blank : isBlank b = true) (stop : isBlank c = false) (cs ds : List Char) :
    trimLeftWhile isBlank (cs ++ b :: c :: ds) =
      (if trim cs = [] then [] else trimLeftWhile isBlank cs ++ [b]) ++ c :: ds := by
  have first : trimLeftWhile isBlank (b :: c :: ds) = c :: ds := by simp [trimLeftWhile, blank, stop]
  rw [trimLeft_append, first]
  simp only [trim_eq_nil_iff]
  split <;> simp

theorem exists_trimRight (cs : List Char) :
    ∃ back, cs = trimRightWhile isBlank cs ++ back ∧ ∀ c ∈ back, isBlank c = true := by
  refine ⟨(cs.reverse.takeWhile isBlank).reverse, ?_, fun c mem => List.all_eq_true.1 List.all_takeWhile c (List.mem_reverse.1 mem)⟩
  rw [trimRightWhile, ← List.reverse_append, List.takeWhile_append_dropWhile, List.reverse_reverse]

theorem trim_trimRight (cs : List Char) : trim (trimRightWhile isBlank cs) = trim cs := by
  obtain ⟨back, whole, blank⟩ := exists_trimRight cs
  have same : trim (trimRightWhile isBlank cs ++ back) = trim (trimRightWhile isBlank cs) := trim_append_blank blank
  rwa [← whole, eq_comm] at same

theorem getLast_trim (cs : List Char) : (trim cs).getLast? = (trimRightWhile isBlank cs).getLast? := by
  rw [trim, trimWhile]
  cases left : trimLeftWhile isBlank cs with
  | nil =>
    have blank : trimRightWhile isBlank ([] ++ cs) = trimRightWhile isBlank [] :=
      trimRight_append_blank (isBlank_of_trimLeft_nil left)
    rw [← blank, List.nil_append]
  | cons c ds =>
    have parts : cs.takeWhile isBlank ++ trimLeftWhile isBlank cs = cs := List.takeWhile_append_dropWhile
    have first : c ∈ (trimLeftWhile isBlank cs).head? := by simp [left]
    have kept := trimRightWhile_append_cons (head_trimLeft c first) [] ds
    rw [← parts, left, trimRightWhile_append_cons (head_trimLeft c first), ← List.nil_append (c :: ds), kept]
    simp [List.getLast?_cons]

theorem trimRight_eq_nil_iff {cs : List Char} : trimRightWhile isBlank cs = [] ↔ trim cs = [] := by
  rw [← List.getLast?_eq_none_iff, ← getLast_trim, List.getLast?_eq_none_iff]

theorem count_trim {c : Char} (other : isBlank c = false) (cs : List Char) : (trim cs).count c = cs.count c := by
  have dropped : ∀ ds : List Char, (ds.dropWhile isBlank).count c = ds.count c := by
    intro ds
    have none : (ds.takeWhile isBlank).count c = 0 := by
      rw [List.count_eq_zero]
      intro mem
      rw [List.all_eq_true.1 List.all_takeWhile c mem] at other
      cases other
    have parts := congrArg (List.count c) (List.takeWhile_append_dropWhile (p := isBlank) (l := ds))
    rw [List.count_append, none, Nat.zero_add] at parts
    exact parts
  rw [trim, trimWhile, trimRightWhile, List.count_reverse, dropped, List.count_reverse, trimLeftWhile, dropped]

theorem trim_ending {x : Char} {w t : List Char} (head : isBlank x = false) (filled : t ≠ [])
    (last : ∀ c ∈ t.getLast?, isBlank c = false) : trim (x :: (w ++ t)) = x :: (w ++ t) := by
  apply trim_eq_self
  · rintro c ⟨⟩
    exact head
  · intro c mem
    apply last
    rw [List.getLast?_cons, List.getLast?_append, List.getLast?_eq_some_getLast filled] at mem
    rwa [List.getLast?_eq_some_getLast filled]

theorem trim_surrounded {front cs back : List Char} (frontBlank : ∀ c ∈ front, isBlank c = true)
    (backBlank : ∀ c ∈ back, isBlank c = true) (inner : ∀ c ∈ cs, isBlank c = false) :
    trim (front ++ cs ++ back) = cs := by
  rw [List.append_assoc, trim_blank_append frontBlank, trim_append_blank backBlank]
  exact trim_eq_self (fun c mem => inner c (List.mem_of_mem_head? mem)) fun c mem => inner c (List.mem_of_getLast? mem)

theorem trim_append_visible {c : Char} (visible : isBlank c = false) (cs ds : List Char) :
    trim (cs ++ c :: ds) = trimLeftWhile isBlank cs ++ c :: trimRightWhile isBlank ds := by
  rw [trim, trimWhile, trimLeft_append_visible visible, trimRightWhile_append_cons visible]

theorem getLast_trimLeft {c : Char} {cs : List Char} (last : c ∈ (trimLeftWhile isBlank cs).getLast?) : c ∈ cs.getLast? := by
  have parts : cs.takeWhile isBlank ++ trimLeftWhile isBlank cs = cs := List.takeWhile_append_dropWhile
  rw [← parts, List.getLast?_append, Option.mem_def.1 last]
  rfl

/-- A text that starts with no blank is parted at its first blanks, if something stands behind them. -/
theorem headWord_eq_some_iff {cs w rest : List Char} (head : ∀ c ∈ cs.head?, isBlank c = false) :
    headWord? cs = some (w, rest) ↔
      ∃ gap : Run isBlank, cs = w ++ (gap.text ++ rest) ∧ (∀ c ∈ w, isBlank c = false) ∧ rest ≠ [] ∧
        ∀ c ∈ rest.head?, isBlank c = false := by
  rw [headWord?, dropWhile_of_head head]
  constructor
  · intro parted
    split at parted
    · cases parted
    · rename_i filled
      simp only [Option.some.injEq, Prod.mk.injEq] at parted
      obtain ⟨rfl, rfl⟩ := parted
      have front := List.takeWhile_append_dropWhile (p := fun c => !isBlank c) (l := cs)
      generalize behind : cs.dropWhile (fun c => !isBlank c) = t at front filled
      have blank : ∀ c ∈ t.head?, isBlank c = true := by
        intro c mem
        have stopped := List.head?_dropWhile_not (fun c => !isBlank c) cs
        rw [behind, Option.mem_def.1 mem] at stopped
        simpa using stopped
      refine ⟨⟨t.takeWhile isBlank, ?_, fun c mem => ?_⟩, ?_, fun c mem => ?_, by simpa using filled, head_trimLeft⟩
      · cases t with
        | nil => simp at filled
        | cons c t => simp [blank c rfl]
      · exact List.all_eq_true.1 List.all_takeWhile c mem
      · rw [List.takeWhile_append_dropWhile, front]
      · simpa using List.all_eq_true.1 (List.all_takeWhile (p := fun c => !isBlank c) (l := cs)) c mem
  · rintro ⟨gap, rfl, word, filled, stop⟩
    obtain ⟨b, gapRest, shape⟩ := List.exists_cons_of_ne_nil gap.nonempty
    have blank : isBlank b = true := gap.fits b (by simp [shape])
    have first : (w ++ (gap.text ++ rest)).takeWhile (fun c => !isBlank c) = w := by
      rw [List.takeWhile_append_of_pos (by simpa using word), shape]
      simp [blank]
    have behind : (w ++ (gap.text ++ rest)).dropWhile (fun c => !isBlank c) = gap.text ++ rest := by
      rw [List.dropWhile_append_of_pos (by simpa using word), shape]
      simp [blank]
    rw [first, behind, List.dropWhile_append_of_pos gap.fits, dropWhile_of_head stop]
    simp [filled]

end Drift.Text
