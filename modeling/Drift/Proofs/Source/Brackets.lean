import Drift.Source.Go
import Mathlib.Order.Bounds.Basic

namespace Drift.Source

variable {o c x : Char} {t text : List Char} {d : Int} {n i j start : Nat}

def weight (o c x : Char) : Int := if x = o then 1 else if x = c then -1 else 0

def openBehind (o c : Char) (d : Int) (t : List Char) (n : Nat) : Int :=
  d + ((t.take n).count o - (t.take n).count c)

theorem openBehind_zero : openBehind o c d t 0 = d := by
  simp [openBehind]

theorem openBehind_succ (other : o ≠ c) :
    openBehind o c d (x :: t) (n + 1) = openBehind o c (d + weight o c x) t n := by
  rw [openBehind, openBehind, List.take_succ_cons, List.count_cons, List.count_cons, weight]
  by_cases opening : x = o
  · subst opening
    simp [other]
    omega
  · by_cases closing : x = c
    · subst closing
      simp [opening]
      omega
    · simp [opening, closing]

theorem closingFrom_cons (other : o ≠ c) (positive : 0 < d) :
    closingFrom [o] [c] d (x :: t) =
      if d + weight o c x = 0 then some 0 else (closingFrom [o] [c] (d + weight o c x) t).map (· + 1) := by
  rw [closingFrom, weight]
  by_cases opening : x = o
  · have more : d + 1 ≠ 0 := by omega
    simp [opening, more]
  · by_cases closing : x = c
    · subst closing
      have last : d + -1 = 0 ↔ d = 1 := by omega
      simp [opening, last, Int.sub_eq_add_neg]
    · have more : d ≠ 0 := by omega
      simp [opening, closing, more]

/-- An open bracket is closed for good at a place, or one stays open behind it. -/
theorem weight_left (positive : 0 < d) (more : d + weight o c x ≠ 0) : 0 < d + weight o c x := by
  unfold weight at more ⊢
  split at more <;> split <;> omega

/-- Up to the place that is found brackets stay open, and there the last one is closed. -/
theorem openBehind_of_closed (other : o ≠ c) (positive : 0 < d) (found : closingFrom [o] [c] d t = some i) :
    i < t.length ∧ openBehind o c d t (i + 1) = 0 ∧ ∀ n ≤ i, 0 < openBehind o c d t n := by
  induction t generalizing d i with
  | nil => cases found
  | cons x t ih =>
    rw [closingFrom_cons other positive] at found
    by_cases last : d + weight o c x = 0
    · rw [if_pos last] at found
      cases found
      refine ⟨Nat.zero_lt_succ _, ?_, ?_⟩
      · rw [openBehind_succ other, openBehind_zero, last]
      · intro n here
        rw [Nat.le_zero.1 here, openBehind_zero]
        exact positive
    · rw [if_neg last] at found
      obtain ⟨j, later, rfl⟩ := Option.map_eq_some_iff.1 found
      obtain ⟨within, zero, before⟩ := ih (weight_left positive last) later
      refine ⟨Nat.succ_lt_succ within, ?_, ?_⟩
      · rw [openBehind_succ other, zero]
      · intro n here
        cases n with
        | zero =>
          rw [openBehind_zero]
          exact positive
        | succ n =>
          rw [openBehind_succ other]
          exact before n (Nat.le_of_succ_le_succ here)

theorem openBehind_of_unclosed (other : o ≠ c) (positive : 0 < d) (none : closingFrom [o] [c] d t = none)
    (within : n ≤ t.length) : 0 < openBehind o c d t n := by
  induction t generalizing d n with
  | nil =>
    rw [Nat.le_zero.1 within, openBehind_zero]
    exact positive
  | cons x t ih =>
    rw [closingFrom_cons other positive] at none
    by_cases last : d + weight o c x = 0
    · rw [if_pos last] at none
      cases none
    · rw [if_neg last, Option.map_eq_none_iff] at none
      cases n with
      | zero =>
        rw [openBehind_zero]
        exact positive
      | succ n =>
        rw [openBehind_succ other]
        exact ih (weight_left positive last) none (Nat.le_of_succ_le_succ within)

def segment (text : List Char) (start j : Nat) : List Char := (text.drop start).take (j + 1 - start)

/-- The segment that ends at a place behind `start` closes as many brackets as it opens. -/
structure Matched (o c : Char) (text : List Char) (start j : Nat) : Prop where
  behind : start < j
  within : j < text.length
  counts : (segment text start j).count o = (segment text start j).count c

section Opened

variable (there : text[start]? = some o) (other : o ≠ c)

include there

theorem drop_opened : text.drop start = o :: text.drop (start + 1) := by
  obtain ⟨bound, here⟩ := List.getElem?_eq_some_iff.1 there
  rw [List.drop_eq_getElem_cons bound, here]

theorem findClosing_opened :
    findClosing text start [o] [c] = (closingFrom [o] [c] 1 (text.drop (start + 1))).map (start + 1 + ·) := by
  have first : closingFrom [o] [c] 0 (o :: text.drop (start + 1)) =
      (closingFrom [o] [c] 1 (text.drop (start + 1))).map (· + 1) := by simp [closingFrom]
  rw [findClosing, drop_opened there, first, Option.map_map]
  congr 1
  funext i
  simp only [Function.comp_apply]
  omega

include other

theorem openBehind_segment (behind : start ≤ i) :
    openBehind o c 1 (text.drop (start + 1)) (i - start) =
      (segment text start i).count o - (segment text start i).count c := by
  have length : i + 1 - start = i - start + 1 := by omega
  have first := openBehind_succ (d := 0) (x := o) (t := text.drop (start + 1)) (n := i - start) other
  rw [openBehind, Int.zero_add, ← drop_opened there, ← length] at first
  rw [segment, first, weight, if_pos rfl, Int.zero_add]

/-- Up to the place that is found, or to the end, more brackets are opened than closed. -/
theorem opened_before_closing (behind : start ≤ i) (within : i < text.length)
    (before : ∀ j ∈ findClosing text start [o] [c], i < j) :
    (segment text start i).count c < (segment text start i).count o := by
  rw [findClosing_opened there] at before
  have positive : 0 < openBehind o c 1 (text.drop (start + 1)) (i - start) := by
    cases found : closingFrom [o] [c] 1 (text.drop (start + 1)) with
    | none =>
      apply openBehind_of_unclosed other Int.one_pos found
      rw [List.length_drop]
      omega
    | some k =>
      have place : i < start + 1 + k := before _ (by rw [found]; rfl)
      exact (openBehind_of_closed other Int.one_pos found).2.2 _ (by omega)
  rw [openBehind_segment there other behind] at positive
  omega

theorem matched_of_found (found : findClosing text start [o] [c] = some j) : Matched o c text start j := by
  rw [findClosing_opened there] at found
  obtain ⟨i, place, rfl⟩ := Option.map_eq_some_iff.1 found
  obtain ⟨within, zero, -⟩ := openBehind_of_closed other Int.one_pos place
  rw [List.length_drop] at within
  have length : i + 1 = start + 1 + i - start := by omega
  rw [length, openBehind_segment there other (by omega)] at zero
  exact ⟨by omega, by omega, by omega⟩

theorem isLeast_of_found (found : findClosing text start [o] [c] = some j) :
    IsLeast { j | Matched o c text start j } j := by
  refine ⟨matched_of_found there other found, ?_⟩
  intro i matched
  by_contra earlier
  have opened := opened_before_closing there other (Nat.le_of_lt matched.behind) matched.within (by
    rintro k place
    cases found.symm.trans place
    omega)
  have counts := matched.counts
  omega

end Opened

/-- The arguments of a call end in front of the parenthesis that closes the last of the open ones. -/
theorem Go.callArgsFrom_eq (n : Nat) (t : List Char) :
    callArgsFrom n t = (closingFrom ['('] [')'] (n + 1) t).elim t (t.take ·) := by
  induction t generalizing n with
  | nil => rfl
  | cons x t ih =>
    have passed : ∀ m : Nat, ((closingFrom ['('] [')'] (m + 1) t).map (· + 1)).elim (x :: t) ((x :: t).take ·) =
        x :: callArgsFrom m t := by
      intro m
      rw [ih m]
      cases closingFrom ['('] [')'] (m + 1) t <;> rfl
    rw [closingFrom]
    by_cases opening : x = '('
    · have step : callArgsFrom n (x :: t) = x :: callArgsFrom (n + 1) t := by
        cases n <;> rw [callArgsFrom, if_pos opening]
      rw [step, if_pos (by rw [opening]), ← passed (n + 1)]
      rfl
    · rw [if_neg (by simpa using opening)]
      by_cases closing : x = ')'
      · rw [if_pos (by rw [closing])]
        cases n with
        | zero =>
          rw [callArgsFrom, if_neg opening, if_pos closing]
          rfl
        | succ m =>
          have more : ((m + 1 : Nat) : Int) + 1 ≠ 1 := by omega
          have level : ((m + 1 : Nat) : Int) + 1 - 1 = (m : Int) + 1 := by omega
          rw [callArgsFrom, if_neg opening, if_pos closing, if_neg more, level, passed m]
      · have step : callArgsFrom n (x :: t) = x :: callArgsFrom n t := by
          cases n <;> rw [callArgsFrom, if_neg opening, if_neg closing]
        rw [step, if_neg (by simpa using closing), passed n]

theorem Go.callArgs_eq (rest : List Char) :
    (∃ k, findClosing ('(' :: rest) 0 ['('] [')'] = some (k + 1) ∧ callArgs rest = rest.take k) ∨
      findClosing ('(' :: rest) 0 ['('] [')'] = none ∧ callArgs rest = rest := by
  rw [findClosing_opened rfl, callArgs, callArgsFrom_eq]
  cases found : closingFrom ['('] [')'] 1 rest with
  | none => exact .inr ⟨by simp [found], by simp [found]⟩
  | some k => exact .inl ⟨k, by simp [found, Nat.add_comm], by simp [found]⟩

/-- The bracket that closes an opening one stands at the first place up to which as many are closed as opened, and
there is none exactly if there is no such place; up to then more are opened than closed. The arguments of a call in Go
end at that same place. -/
theorem closing_at_first_match :
    (∀ (text : List Char) (start : Nat) (o c : Char), text[start]? = some o → o ≠ c →
      (∀ j, findClosing text start [o] [c] = some j ↔ IsLeast { j | Matched o c text start j } j) ∧
      (findClosing text start [o] [c] = none ↔ ¬ ∃ j, Matched o c text start j) ∧
      ∀ i, start ≤ i → i < text.length → (∀ j, findClosing text start [o] [c] = some j → i < j) →
        (segment text start i).count c < (segment text start i).count o) ∧
    ∀ rest, (∃ k, findClosing ('(' :: rest) 0 ['('] [')'] = some (k + 1) ∧ Go.callArgs rest = rest.take k) ∨
      findClosing ('(' :: rest) 0 ['('] [')'] = none ∧ Go.callArgs rest = rest := by
  refine ⟨fun text start o c there other => ?_, Go.callArgs_eq⟩
  have none_iff : findClosing text start [o] [c] = none ↔ ¬ ∃ j, Matched o c text start j := by
    constructor
    · rintro none ⟨j, matched⟩
      have opened := opened_before_closing there other (Nat.le_of_lt matched.behind) matched.within (by simp [none])
      have counts := matched.counts
      omega
    · intro unmatched
      cases found : findClosing text start [o] [c] with
      | none => rfl
      | some j => exact absurd ⟨j, matched_of_found there other found⟩ unmatched
  refine ⟨fun j => ⟨isLeast_of_found there other, fun least => ?_⟩, none_iff, ?_⟩
  · cases found : findClosing text start [o] [c] with
    | none => exact absurd ⟨j, least.1⟩ (none_iff.1 found)
    | some k => rw [(isLeast_of_found there other found).unique least]
  · exact fun i behind within before => opened_before_closing there other behind within before

/-- In `f(a(b)c)d` the first parenthesis is closed at the seventh place, behind the inner pair. -/
theorem closing_at_first_match_nested :
    "f(a(b)c)d".toList[1]? = some '(' ∧ '(' ≠ ')' ∧ findClosing "f(a(b)c)d".toList 1 ['('] [')'] = some 7 ∧
      IsLeast { j | Matched '(' ')' "f(a(b)c)d".toList 1 j } 7 := by
  have found : findClosing "f(a(b)c)d".toList 1 ['('] [')'] = some 7 := by decide
  have first := closing_at_first_match.1 "f(a(b)c)d".toList 1 '(' ')' (by decide) (by decide)
  exact ⟨by decide, by decide, found, (first.1 7).1 found⟩

end Drift.Source
