import Drift.Text.Lines
import Drift.Text.Split

namespace Drift

theorem forall_of_all {α : Type} {p : α → Prop} [DecidablePred p] {xs : List α}
    (checked : (xs.all fun x => decide (p x)) = true) : ∀ x ∈ xs, p x := by
  simpa using checked

theorem forall_inner_of_all {α β : Type} {p : β → Prop} [DecidablePred p] {f : α → List β} {xs : List α}
    (checked : (xs.all fun x => (f x).all fun y => decide (p y)) = true) : ∀ x ∈ xs, ∀ y ∈ f x, p y := fun x mem =>
  forall_of_all (List.all_eq_true.1 checked x mem)

namespace Text

theorem mem_joinWith {sep : List Char} {parts : List (List Char)} {c : Char} (mem : c ∈ joinWith sep parts) :
    c ∈ sep ∨ ∃ part ∈ parts, c ∈ part := by
  induction parts with
  | nil => simp [joinWith] at mem
  | cons part parts ih =>
    cases parts with
    | nil => exact .inr ⟨part, by simp, by simpa [joinWith] using mem⟩
    | cons next parts =>
      simp only [joinWith, List.intercalate_cons_cons, List.mem_append] at mem ih
      rcases mem with (mem | mem) | mem
      · exact .inr ⟨part, by simp, mem⟩
      · exact .inl mem
      · rcases ih mem with mem | ⟨other, later, mem⟩
        · exact .inl mem
        · exact .inr ⟨other, by simp [later], mem⟩

theorem count_joinWith {c : Char} {sep : List Char} (other : c ∉ sep) (parts : List (List Char)) :
    (joinWith sep parts).count c = parts.flatten.count c := by
  induction parts with
  | nil => rfl
  | cons part parts ih =>
    cases parts with
    | nil => simp [joinWith]
    | cons next parts =>
      rw [joinWith] at ih ⊢
      rw [List.intercalate_cons_cons, List.count_append, List.count_append, ih, List.count_eq_zero.2 other, Nat.add_zero,
        ← List.count_append]
      rfl

theorem joinWith_eq_nil {sep : List Char} {parts : List (List Char)} (filled : ∀ part ∈ parts, part ≠ [])
    (h : joinWith sep parts = []) : parts = [] := by
  cases parts with
  | nil => rfl
  | cons part parts =>
    have empty : part = [] := by
      cases parts with
      | nil => simpa [joinWith] using h
      | cons next parts =>
        simp only [joinWith, List.intercalate_cons_cons, List.append_eq_nil_iff] at h
        exact h.1.1
    exact absurd empty (filled part (by simp))

theorem head_joinWith {sep : List Char} {parts : List (List Char)} {c : Char}
    (filled : ∀ part ∈ parts, part ≠ []) (head : c ∈ (joinWith sep parts).head?) :
    ∃ part ∈ parts, c ∈ part := by
  cases parts with
  | nil => simp [joinWith] at head
  | cons part parts =>
    refine ⟨part, by simp, ?_⟩
    have here := filled part (by simp)
    cases parts with
    | nil => exact List.mem_of_mem_head? (by simpa [joinWith] using head)
    | cons next parts =>
      simp only [joinWith, List.intercalate_cons_cons, List.append_assoc] at head
      cases part with
      | nil => exact absurd rfl here
      | cons d part =>
        have same : d = c := by simpa using head
        simp [same]

theorem last_joinWith {sep : List Char} {parts : List (List Char)} {c : Char}
    (filled : ∀ part ∈ parts, part ≠ []) (last : c ∈ (joinWith sep parts).getLast?) :
    ∃ part ∈ parts, c ∈ part := by
  induction parts with
  | nil => simp [joinWith] at last
  | cons part parts ih =>
    cases parts with
    | nil => exact ⟨part, by simp, List.mem_of_getLast? (by simpa [joinWith] using last)⟩
    | cons next parts =>
      have more : joinWith sep (next :: parts) ≠ [] := by
        intro h
        cases joinWith_eq_nil (fun part mem => filled part (by simp [mem])) h
      have later : c ∈ (joinWith sep (next :: parts)).getLast? := by
        simp only [joinWith, List.intercalate_cons_cons] at last more ⊢
        rw [List.getLast?_append, List.getLast?_eq_some_getLast more] at last
        rw [List.getLast?_eq_some_getLast more]
        exact last
      obtain ⟨other, mem, inside⟩ := ih (fun part mem => filled part (by simp [mem])) later
      exact ⟨other, by simp [mem], inside⟩

theorem joinWith_append (sep : List Char) {xs ys : List (List Char)} (left : xs ≠ []) (right : ys ≠ []) :
    joinWith sep (xs ++ ys) = joinWith sep xs ++ (sep ++ joinWith sep ys) := by
  induction xs with
  | nil => exact absurd rfl left
  | cons x xs ih =>
    cases xs with
    | nil =>
      obtain ⟨y, ys, rfl⟩ := List.exists_cons_of_ne_nil right
      simp [joinWith]
    | cons z xs =>
      have rest := ih (by simp)
      simp only [joinWith, List.cons_append, List.intercalate_cons_cons, List.append_assoc] at rest ⊢
      rw [rest]

/-- Parts that hold no separator are told apart when they are joined. -/
theorem joinWith_injective {c : Char} {xs ys : List (List Char)} (filled : ∀ x ∈ xs, x ≠ []) (filled' : ∀ y ∈ ys, y ≠ [])
    (free : ∀ x ∈ xs, c ∉ x) (free' : ∀ y ∈ ys, c ∉ y) (same : joinWith [c] xs = joinWith [c] ys) : xs = ys := by
  by_cases none : xs = [] ∨ ys = []
  · rcases none with rfl | rfl
    · exact (joinWith_eq_nil filled' same.symm).symm
    · exact joinWith_eq_nil filled same
  · rw [not_or] at none
    have parts := congrArg (List.splitOn c) same
    rwa [joinWith, joinWith, List.splitOn_intercalate c free none.1, List.splitOn_intercalate c free' none.2] at parts

def unlines (ls : List (List Char)) : List Char := ls.flatMap (· ++ ['\n'])

theorem lines_append_line {l : List Char} (whole : ∀ c ∈ l, isLineBreak c = false) (t : List Char) :
    lines (l ++ '\n' :: t) = l :: lines t := by
  induction l with
  | nil =>
    rw [List.nil_append, lines.eq_3]
    · rfl
    · simp
  | cons c l ih =>
    have rest := ih fun d mem => whole d (by simp [mem])
    have here : isLineBreak c = false := whole c (by simp)
    rw [List.cons_append, lines.eq_3]
    · simp [here, rest]
    · rintro u rfl
      simp [isLineBreak, inRanges, lineBreakRanges] at here

theorem lines_line {l : List Char} (filled : l ≠ []) (whole : ∀ c ∈ l, isLineBreak c = false) : lines l = [l] := by
  induction l with
  | nil => exact absurd rfl filled
  | cons c l ih =>
    have here : isLineBreak c = false := whole c (by simp)
    rw [lines.eq_3]
    · cases l with
      | nil => simp [here, lines]
      | cons d l => simp [here, ih (by simp) fun x mem => whole x (by simp [mem])]
    · rintro u rfl
      simp [isLineBreak, inRanges, lineBreakRanges] at here

theorem lines_unlines {ls : List (List Char)} (whole : ∀ l ∈ ls, ∀ c ∈ l, isLineBreak c = false) :
    lines (unlines ls) = ls := by
  induction ls with
  | nil => rfl
  | cons l ls ih =>
    have rest := ih fun k mem => whole k (by simp [mem])
    rw [unlines, List.flatMap_cons, List.append_assoc, List.singleton_append,
      lines_append_line (whole l (by simp)), ← unlines, rest]

theorem mem_lines_iff {cs l : List Char} : l ∈ lines cs ↔ ∃ n, (n, l) ∈ numberedLines cs := by
  constructor
  · intro mem
    rw [← List.zipIdx_map_fst 1 (lines cs)] at mem
    obtain ⟨⟨k, n⟩, inside, rfl⟩ := List.mem_map.1 mem
    exact ⟨n, List.mem_map.2 ⟨_, inside, rfl⟩⟩
  · rintro ⟨n, mem⟩
    obtain ⟨⟨k, m⟩, inside, same⟩ := List.mem_map.1 mem
    cases same
    exact List.fst_mem_of_mem_zipIdx inside

theorem mem_numberedLines_iff {cs l : List Char} {n : Nat} :
    (n, l) ∈ numberedLines cs ↔ 1 ≤ n ∧ (lines cs)[n - 1]? = some l := by
  rw [numberedLines, List.mem_map]
  constructor
  · rintro ⟨⟨k, m⟩, inside, same⟩
    cases same
    exact List.mem_zipIdx_iff_le_and_getElem?_sub.1 inside
  · exact fun placed => ⟨(l, n), List.mem_zipIdx_iff_le_and_getElem?_sub.2 placed, rfl⟩

theorem numberedLines_increasing (cs : List Char) : (numberedLines cs).Pairwise (·.1 < ·.1) := by
  have numbers : (numberedLines cs).map (·.1) = List.range' 1 (lines cs).length := by
    rw [numberedLines, List.map_map, ← List.zipIdx_map_snd 1 (lines cs)]
    rfl
  rw [← List.pairwise_map (R := (· < ·)), numbers]
  exact List.pairwise_lt_range'

theorem numberedLines_unlines {ls : List (List Char)} (whole : ∀ l ∈ ls, ∀ c ∈ l, isLineBreak c = false) :
    numberedLines (unlines ls) = (ls.zipIdx 1).map fun (l, n) => (n, l) := by
  rw [numberedLines, lines_unlines whole]

theorem numberedLines_line {l : List Char} (filled : l ≠ []) (whole : ∀ c ∈ l, isLineBreak c = false) :
    numberedLines l = [(1, l)] := by
  rw [numberedLines, lines_line filled whole]
  rfl

theorem contains_iff {part cs : List Char} : contains part cs = true ↔ part <:+: cs := by
  induction cs with
  | nil => simp [contains]
  | cons c cs ih => rw [contains, Bool.or_eq_true, List.isPrefixOf_iff_prefix, ih, List.infix_cons_iff]

theorem prefix_of_append_cons {part t u : List Char} {c : Char} (other : c ∉ part) (starts : part <+: t ++ c :: u) :
    part <+: t := by
  obtain ⟨back, whole⟩ := starts
  rw [List.append_eq_append_iff] at whole
  rcases whole with ⟨x, rfl, -⟩ | ⟨x, rfl, behind⟩
  · exact List.prefix_append part x
  · cases x with
    | nil => simp
    | cons d x =>
      cases behind
      simp at other

/-- The first occurrence of a character cuts a text in one way only. -/
theorem eq_of_append_cons {c : Char} {s t u v : List Char} (left : c ∉ s) (right : c ∉ t)
    (same : s ++ c :: u = t ++ c :: v) : s = t ∧ u = v := by
  induction s generalizing t with
  | nil =>
    cases t with
    | nil => exact ⟨rfl, List.tail_eq_of_cons_eq same⟩
    | cons d t =>
      cases same
      exact absurd List.mem_cons_self right
  | cons d s ih =>
    cases t with
    | nil =>
      cases same
      exact absurd List.mem_cons_self left
    | cons e t =>
      obtain ⟨rfl, rest⟩ := List.cons_eq_cons.1 same
      obtain ⟨rfl, behind⟩ := ih (fun mem => left (by simp [mem])) (fun mem => right (by simp [mem])) rest
      exact ⟨rfl, behind⟩

theorem infix_append_cons {part t u : List Char} {c : Char} (other : c ∉ part) (inside : part <:+: t ++ c :: u) :
    part <:+: t ∨ part <:+: u := by
  obtain ⟨front, back, whole⟩ := inside
  rw [List.append_assoc, List.append_eq_append_iff] at whole
  rcases whole with ⟨x, rfl, behind⟩ | ⟨x, rfl, behind⟩
  · rw [List.append_eq_append_iff] at behind
    rcases behind with ⟨y, rfl, -⟩ | ⟨y, rfl, behind⟩
    · exact .inl ⟨front, y, by simp⟩
    · cases y with
      | nil => exact .inl ⟨front, [], by simp⟩
      | cons d y =>
        cases behind
        simp at other
  · cases x with
    | nil =>
      cases part with
      | nil => exact .inl List.nil_infix
      | cons d part =>
        cases behind
        simp at other
    | cons d x =>
      cases behind
      exact .inr ⟨x, back, by simp⟩

/-- What starts with a character that a text lacks stands behind the text. -/
theorem infix_of_append {c : Char} {part t u : List Char} (other : c ∉ t) (inside : c :: part <:+: t ++ u) :
    c :: part <:+: u := by
  induction t with
  | nil => exact inside
  | cons d t ih =>
    rw [List.mem_cons, not_or] at other
    rcases List.infix_cons_iff.1 inside with front | behind
    · exact absurd (List.cons_prefix_cons.1 front).1 other.1
    · exact ih other.2 behind

theorem cutAtText_eq_none_iff {part cs : List Char} : cutAtText? part cs = none ↔ ¬ part <:+: cs := by
  induction cs with
  | nil => simp [cutAtText?]
  | cons c cs ih =>
    rw [cutAtText?, List.infix_cons_iff, ← List.isPrefixOf_iff_prefix]
    cases part.isPrefixOf (c :: cs) <;> simp [ih]

theorem cutAtText_eq_some {part cs before after : List Char} (cut : cutAtText? part cs = some (before, after)) :
    cs = before ++ after ∧ part <+: after := by
  induction cs generalizing before with
  | nil =>
    simp only [cutAtText?, List.isEmpty_iff] at cut
    split at cut
    · cases cut
      simp_all
    · cases cut
  | cons c cs ih =>
    rw [cutAtText?] at cut
    split at cut
    · rename_i starts
      cases cut
      exact ⟨rfl, List.isPrefixOf_iff_prefix.1 starts⟩
    · obtain ⟨⟨first, rest⟩, later, same⟩ := Option.map_eq_some_iff.1 cut
      cases same
      obtain ⟨rfl, starts⟩ := ih later
      exact ⟨rfl, starts⟩

theorem cutAtText_append {part cs before after : List Char} (cut : cutAtText? part cs = some (before, after))
    (t : List Char) : cutAtText? part (cs ++ t) = some (before, after ++ t) := by
  induction cs generalizing before with
  | nil =>
    obtain ⟨shape, starts⟩ := cutAtText_eq_some cut
    obtain ⟨rfl, rfl⟩ := List.append_eq_nil_iff.1 shape.symm
    obtain rfl := List.prefix_nil.1 starts
    cases t <;> rfl
  | cons c cs ih =>
    rw [List.cons_append, cutAtText?]
    rw [cutAtText?] at cut
    split at cut
    · rename_i starts
      cases cut
      have longer : part <+: c :: (cs ++ t) :=
        (List.isPrefixOf_iff_prefix.1 starts).trans (List.prefix_append (c :: cs) t)
      rw [if_pos (List.isPrefixOf_iff_prefix.2 longer)]
      rfl
    · rename_i here
      obtain ⟨⟨first, rest⟩, later, same⟩ := Option.map_eq_some_iff.1 cut
      cases same
      have absent : ¬ part <+: c :: (cs ++ t) := by
        intro starts
        obtain ⟨rfl, inside⟩ := cutAtText_eq_some later
        have short : part.length ≤ (c :: (first ++ after)).length :=
          Nat.le_trans inside.length_le (by simp; omega)
        exact here (List.isPrefixOf_iff_prefix.2
          (List.prefix_of_prefix_length_le starts (List.prefix_append (c :: (first ++ after)) t) short))
      rw [if_neg (mt List.isPrefixOf_iff_prefix.1 absent), ih later]
      rfl

theorem cutAtFirst_cons_of_ne {sep c : Char} (other : c ≠ sep) (cs : List Char) :
    cutAtFirst? sep (c :: cs) = (cutAtFirst? sep cs).map fun (before, after) => (c :: before, after) := by
  simp only [cutAtFirst?, List.dropWhile_cons, List.takeWhile_cons, bne_iff_ne.2 other, if_true]
  cases cs.dropWhile (· != sep) <;> rfl

theorem cutAtFirst_eq_some_iff {sep : Char} {cs before after : List Char} :
    cutAtFirst? sep cs = some (before, after) ↔ cs = before ++ sep :: after ∧ sep ∉ before := by
  induction cs generalizing before with
  | nil => simp [cutAtFirst?]
  | cons c cs ih =>
    by_cases here : c = sep
    · subst here
      cases before with
      | nil => simp [cutAtFirst?]
      | cons d before => simp +contextual [cutAtFirst?]
    · rw [cutAtFirst_cons_of_ne here, Option.map_eq_some_iff]
      constructor
      · rintro ⟨⟨first, rest⟩, later, same⟩
        cases same
        obtain ⟨rfl, free⟩ := ih.1 later
        exact ⟨rfl, by simp [free, Ne.symm here]⟩
      · rintro ⟨whole, free⟩
        cases before with
        | nil =>
          rw [List.nil_append, List.cons.injEq] at whole
          exact absurd whole.1 here
        | cons d before =>
          rw [List.cons_append, List.cons.injEq] at whole
          obtain ⟨rfl, rfl⟩ := whole
          exact ⟨(before, after), ih.2 ⟨rfl, fun mem => free (List.mem_cons_of_mem c mem)⟩, rfl⟩

theorem cutAtLast_eq_some_iff {sep : Char} {cs before after : List Char} :
    cutAtLast? sep cs = some (before, after) ↔ cs = before ++ sep :: after ∧ sep ∉ after := by
  rw [cutAtLast?, Option.map_eq_some_iff]
  constructor
  · rintro ⟨⟨last, first⟩, cut, same⟩
    cases same
    obtain ⟨turned, free⟩ := cutAtFirst_eq_some_iff.1 cut
    refine ⟨?_, by simpa using free⟩
    rw [← List.reverse_reverse cs, turned]
    simp
  · rintro ⟨rfl, free⟩
    exact ⟨(after.reverse, before.reverse), cutAtFirst_eq_some_iff.2 ⟨by simp, by simpa using free⟩, by simp⟩

end Text

end Drift
