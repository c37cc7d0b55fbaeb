import Drift.Proofs.Recognizer.Preferred

namespace Drift.Recognizer

variable {α β : Type} {p : Char → Bool} {b : Option Char} {c c' c'' : Cursor} {t u w : List Char}

/-- `r` can read `a` up to `c'`: if what comes next succeeds there, it succeeds behind one reading or another. -/
def Allows (r : Recognizer α) (c : Cursor) (a : α) (c' : Cursor) : Prop :=
  ∀ (ρ : Type) (k : α → Cursor → Option ρ), (k a c').isSome = true → (r ρ c k).isSome = true

theorem Prefers.allows {r : Recognizer α} {a : α} (h : r.Prefers c a c') : r.Allows c a c' := by
  intro ρ k next
  obtain ⟨x, reads⟩ := Option.isSome_iff_exists.1 next
  rw [h ρ k x reads]
  rfl

namespace Allows

theorem first {r : Recognizer α} {a : α} (h : r.Allows c a c') : (r.first c).isSome = true := h _ _ rfl

theorem bind {r : Recognizer α} {f : α → Recognizer β} {a : α} {d : β} (head : r.Allows c a c')
    (tail : (f a).Allows c' d c'') : (r >>= f).Allows c d c'' :=
  fun ρ k next => head ρ _ (tail ρ k next)

theorem left {r s : Recognizer α} {a : α} (h : r.Allows c a c') : (r <|> s).Allows c a c' := by
  intro ρ k next
  obtain ⟨x, reads⟩ := Option.isSome_iff_exists.1 (h ρ k next)
  rw [orElse_apply, reads]
  rfl

theorem right {r s : Recognizer α} {a : α} (h : s.Allows c a c') : (r <|> s).Allows c a c' := by
  intro ρ k next
  rw [orElse_apply]
  cases r ρ c k with
  | some x => rfl
  | none => exact h ρ k next

theorem optional_some {r : Recognizer α} {a : α} (h : r.Allows c a c') : (optional r).Allows c (some a) c' :=
  left (h.bind Reads.pure.prefers.allows)

theorem optional_none {r : Recognizer α} : (optional r).Allows c none c := right Reads.pure.prefers.allows

theorem many (all : ∀ x ∈ w, p x = true) : (many p).Allows ⟨b, w ++ t⟩ w ⟨w.getLast? <|> b, t⟩ := by
  intro ρ k next
  rw [Recognizer.many]
  induction w generalizing b k with
  | nil =>
    cases t with
    | nil => exact next
    | cons x t =>
      rw [List.nil_append, runsFrom]
      split
      · split
        · rfl
        · exact next
      · exact next
  | cons x w ih =>
    rw [passed_cons] at next
    obtain ⟨y, reads⟩ := Option.isSome_iff_exists.1 (ih (fun z mem => all z (by simp [mem])) (fun s c => k (x :: s) c) next)
    rw [List.cons_append, runsFrom, if_pos (all x (by simp)), reads]
    rfl

end Allows

/-- Where a run can end, it ends there or earlier, and what comes next succeeds where it ends. -/
theorem shortRuns_shortest {q : Option Char → Bool} {ρ : Type} {k : List Char → Cursor → Option ρ}
    (all : ∀ x ∈ u, p x = true) (stops : q t.head? = true) (here : (k u ⟨u.getLast? <|> b, t⟩).isSome = true) :
    ∃ w t', u ++ t = w ++ t' ∧ w.length ≤ u.length ∧
      shortRunsFrom p q b (u ++ t) k = k w ⟨w.getLast? <|> b, t'⟩ ∧ (k w ⟨w.getLast? <|> b, t'⟩).isSome = true := by
  induction u generalizing b k with
  | nil =>
    refine ⟨[], t, rfl, Nat.le_refl _, ?_, here⟩
    obtain ⟨x, reads⟩ := Option.isSome_iff_exists.1 here
    cases t with
    | nil => exact if_pos stops
    | cons y t =>
      have first : (if q (some y) then k [] ⟨b, y :: t⟩ else none) = some x := (if_pos stops).trans reads
      rw [List.nil_append, shortRunsFrom, first]
      exact reads.symm
  | cons x u ih =>
    rw [List.cons_append, shortRunsFrom]
    cases first : (if q (some x) then k [] ⟨b, x :: (u ++ t)⟩ else none) with
    | some y =>
      have reads : k [] ⟨b, x :: (u ++ t)⟩ = some y := by
        split at first
        · exact first
        · cases first
      exact ⟨[], x :: (u ++ t), rfl, Nat.zero_le _, reads.symm, by rw [List.getLast?_nil]; simp [reads]⟩
    | none =>
      rw [passed_cons] at here
      obtain ⟨w, t', parts, shorter, read, next⟩ :=
        ih (k := fun s c => k (x :: s) c) (fun z mem => all z (by simp [mem])) here
      refine ⟨x :: w, t', by rw [parts, List.cons_append], Nat.succ_le_succ shorter, ?_, ?_⟩
      · rw [passed_cons, ← read]
        simp [all x]
      · rwa [passed_cons]

namespace Allows

theorem fewest {stop : Option Char → Bool} (all : ∀ x ∈ w, p x = true) (stops : stop t.head? = true) :
    (fewest p stop).Allows ⟨b, w ++ t⟩ w ⟨w.getLast? <|> b, t⟩ := by
  intro ρ k next
  obtain ⟨v, t', -, -, read, found⟩ := shortRuns_shortest all stops next
  rw [Recognizer.fewest, read]
  exact found

theorem fewest1 {stop : Option Char → Bool} (filled : w ≠ []) (all : ∀ x ∈ w, p x = true) (stops : stop t.head? = true) :
    (fewest1 p stop).Allows ⟨b, w ++ t⟩ w ⟨w.getLast? <|> b, t⟩ := by
  obtain ⟨x, w, rfl⟩ := List.exists_cons_of_ne_nil filled
  obtain ⟨first, rest⟩ := List.forall_mem_cons.1 all
  rw [passed_cons]
  exact bind (Reads.char first).prefers.allows (bind (fewest rest stops) Reads.pure.prefers.allows)

end Allows

theorem Reads.first_bind {r : Recognizer α} {f : α → Recognizer β} {a : α} (head : r.Reads c a c') :
    (r >>= f).first c = (f a).first c' := head _ _

theorem Reads.first_after {r : Recognizer α} {f : α → Recognizer β} {a : α} {x : Option (β × Cursor)} (head : r.Reads c a c')
    (tail : (f a).first c' = x) : (r >>= f).first c = x := head.first_bind.trans tail

/-- A text that can be cut at a sign, with something to read behind, is cut there or at an earlier one. -/
theorem upTo_shortest {stop : Char} {f : List Char → Recognizer β} (here : ((f u).first ⟨some stop, t⟩).isSome = true) :
    ∃ w t', u ++ stop :: t = w ++ stop :: t' ∧ w.length ≤ u.length ∧
      (upTo stop >>= f).first ⟨b, u ++ stop :: t⟩ = (f w).first ⟨some stop, t'⟩ ∧
      ((f w).first ⟨some stop, t'⟩).isSome = true := by
  have step : ∀ s b t', ((char (· == stop)) >>= fun _ => f s).first ⟨b, stop :: t'⟩ = (f s).first ⟨some stop, t'⟩ :=
    fun s b t' => Reads.first_bind (.char (beq_self_eq_true stop))
  obtain ⟨w, t', parts, shorter, read, found⟩ := shortRuns_shortest (p := fun _ => true) (q := (· == some stop)) (b := b)
    (k := fun s c => ((char (· == stop)) >>= fun _ => f s).first c) (t := stop :: t) (fun _ _ => rfl) (by simp)
    (by rw [step]; exact here)
  cases t' with
  | nil => cases found
  | cons x t' =>
    by_cases same : x = stop
    · subst same
      rw [step] at read found
      exact ⟨w, t', parts, shorter, read, found⟩
    · have refused : ((char (· == stop)) >>= fun _ => f w).first ⟨w.getLast? <|> b, x :: t'⟩ = none :=
        Refuses.first (.bind (.char (by simpa using same)))
      rw [refused] at found
      cases found

end Drift.Recognizer
