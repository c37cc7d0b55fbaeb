import Drift.Journal.Logged
import Mathlib.Data.List.Forall2

namespace Drift

variable {ε α β : Type}

theorem ok_of_bind {x : Except ε α} {f : α → Except ε β} {b : β} (h : (x >>= f) = .ok b) :
    ∃ a, x = .ok a ∧ f a = .ok b := by
  cases x with
  | error e => cases h
  | ok a => exact ⟨a, rfl, h⟩

theorem Logged.ok_of_bind {x : Logged ε α} {f : α → Logged ε β} {b : β} (h : (x >>= f).outcome = .ok b) :
    ∃ a, x.outcome = .ok a ∧ (f a).outcome = .ok b := by
  rw [outcome_bind] at h
  exact Drift.ok_of_bind h

theorem Logged.outcome_bind_of_ok {x : Logged ε α} {a : α} (h : x.outcome = .ok a) (f : α → Logged ε β) :
    (x >>= f).outcome = (f a).outcome := by
  rw [outcome_bind, h]
  rfl

theorem Logged.outcome_bind_of_error {x : Logged ε α} {e : ε} (h : x.outcome = .error e) (f : α → Logged ε β) :
    (x >>= f).outcome = .error e := by
  rw [outcome_bind, h]
  rfl

theorem mapError_ok {δ : Type} (f : ε → δ) (a : α) : (Except.ok a : Except ε α).mapError f = .ok a := rfl

theorem mapError_error {δ : Type} (f : ε → δ) (e : ε) : (Except.error e : Except ε α).mapError f = .error (f e) := rfl

theorem ok_of_mapError {δ : Type} {x : Except ε α} {f : ε → δ} {a : α} (h : x.mapError f = .ok a) : x = .ok a := by
  cases x with
  | error e => cases h
  | ok b =>
    cases h
    rfl

theorem error_of_mapError {δ : Type} {x : Except ε α} {f : ε → δ} {d : δ} (h : x.mapError f = .error d) :
    ∃ e, x = .error e ∧ f e = d := by
  cases x with
  | error e =>
    cases h
    exact ⟨e, rfl, rfl⟩
  | ok a => cases h

theorem ok_of_map {x : Except ε α} {f : α → β} {b : β} (h : x.map f = .ok b) : ∃ a, x = .ok a ∧ f a = b := by
  cases x with
  | error e => cases h
  | ok a =>
    cases h
    exact ⟨a, rfl, rfl⟩

section Related

variable {m : Type → Type} [Monad m] [LawfulMonad m] {γ : Type}

theorem mapM_related {R : α → β → Prop} {f : α → m γ} {g : β → m γ} {as : List α} {bs : List β}
    (related : List.Forall₂ R as bs) (each : ∀ a ∈ as, ∀ b, R a b → g b = f a) : bs.mapM g = as.mapM f := by
  induction related with
  | nil => rw [List.mapM_nil, List.mapM_nil]
  | cons here _ ih =>
    obtain ⟨first, rest⟩ := List.forall_mem_cons.1 each
    rw [List.mapM_cons, List.mapM_cons, first _ here, ih rest]

theorem mapM_congr {f g : α → m γ} {as : List α} (each : ∀ a ∈ as, g a = f a) : as.mapM g = as.mapM f := by
  refine mapM_related (List.forall₂_same.2 fun _ _ => rfl) ?_
  rintro a mem _ rfl
  exact each a mem

end Related

variable {f : α → Except ε β} {xs : List α} {ys : List β}

theorem mapM_cons_ok {x : α} (h : (x :: xs).mapM f = .ok ys) :
    ∃ y rest, f x = .ok y ∧ xs.mapM f = .ok rest ∧ ys = y :: rest := by
  rw [List.mapM_cons] at h
  cases first : f x with
  | error e => simp [first, bind, Except.bind] at h
  | ok y =>
    cases later : xs.mapM f with
    | error e => simp [first, later, bind, Except.bind] at h
    | ok rest =>
      simp only [first, later, bind, Except.bind, pure, Except.pure, Except.ok.injEq] at h
      exact ⟨y, rest, rfl, rfl, h.symm⟩

theorem ok_of_mapM (h : xs.mapM f = .ok ys) {x : α} (mem : x ∈ xs) : ∃ y, f x = .ok y := by
  induction xs generalizing ys with
  | nil => cases mem
  | cons z xs ih =>
    obtain ⟨y, rest, here, later, -⟩ := mapM_cons_ok h
    rcases List.mem_cons.1 mem with rfl | mem
    · exact ⟨y, here⟩
    · exact ih later mem

theorem mem_of_mapM (h : xs.mapM f = .ok ys) {y : β} (mem : y ∈ ys) : ∃ x ∈ xs, f x = .ok y := by
  induction xs generalizing ys with
  | nil =>
    cases h
    cases mem
  | cons z xs ih =>
    obtain ⟨y', rest, here, later, rfl⟩ := mapM_cons_ok h
    rcases List.mem_cons.1 mem with rfl | mem
    · exact ⟨z, by simp, here⟩
    · obtain ⟨x, inside, found⟩ := ih later mem
      exact ⟨x, by simp [inside], found⟩

theorem error_of_mapM {e : ε} (h : xs.mapM f = .error e) : ∃ x ∈ xs, f x = .error e := by
  induction xs with
  | nil => cases h
  | cons x xs ih =>
    rw [List.mapM_cons] at h
    cases first : f x with
    | error d =>
      simp only [first, bind, Except.bind, Except.error.injEq] at h
      exact ⟨x, by simp, by rw [first, h]⟩
    | ok y =>
      cases later : xs.mapM f with
      | error d =>
        simp only [first, later, bind, Except.bind, Except.error.injEq] at h
        obtain ⟨z, mem, fails⟩ := ih (by rw [later, h])
        exact ⟨z, by simp [mem], fails⟩
      | ok rest => simp [first, later, bind, Except.bind, pure, Except.pure] at h

theorem error_of_bind_pure {x : Except ε α} {g : α → β} {e : ε} :
    (x >>= fun a => pure (g a)) = .error e ↔ x = .error e := by
  cases x with
  | error d => simp [bind, Except.bind]
  | ok a => simp [bind, Except.bind, pure, Except.pure]

/-- If elements fail in one way only, and the list has one that fails, so does the whole. -/
theorem mapM_error_iff {p : α → Prop} {d e : ε} (fails : ∀ x e, f x = .error e ↔ p x ∧ e = d) :
    xs.mapM f = .error e ↔ (∃ x ∈ xs, p x) ∧ e = d := by
  constructor
  · intro h
    obtain ⟨x, mem, here⟩ := error_of_mapM h
    obtain ⟨holds, same⟩ := (fails x e).1 here
    exact ⟨⟨x, mem, holds⟩, same⟩
  · rintro ⟨⟨x, mem, holds⟩, rfl⟩
    cases read : xs.mapM f with
    | error c =>
      obtain ⟨z, -, here⟩ := error_of_mapM read
      rw [((fails z c).1 here).2]
    | ok ys =>
      obtain ⟨y, fine⟩ := ok_of_mapM read mem
      rw [(fails x _).2 ⟨holds, rfl⟩] at fine
      cases fine

theorem mapM_of_ok {k : α → β} (each : ∀ x ∈ xs, f x = .ok (k x)) : xs.mapM f = .ok (xs.map k) := by
  induction xs with
  | nil => rfl
  | cons x xs ih =>
    rw [List.mapM_cons, each x (by simp), ih fun z mem => each z (by simp [mem])]
    rfl

/-- To pass elements over while going through a list is to leave them out before. -/
theorem mapM_filterMap {γ : Type} (g : α → Option β) (f : β → Except ε γ) (xs : List α) :
    (do
      let found ← xs.mapM fun x => match g x with
        | none => .ok none
        | some y => some <$> f y
      return found.filterMap id) = (xs.filterMap g).mapM f := by
  induction xs with
  | nil => rfl
  | cons x xs ih =>
    rw [List.mapM_cons, bind_assoc]
    cases chosen : g x with
    | none =>
      rw [List.filterMap_cons_none chosen, ← ih]
      simp only [bind_assoc, pure_bind]
      rfl
    | some y =>
      rw [List.filterMap_cons_some chosen, List.mapM_cons, ← ih]
      simp only [bind_assoc, pure_bind]
      cases f y <;> rfl

/-- Where each element comes to what it came to before with the same addition, so does the list. -/
theorem mapM_with {γ : Type} {g : α → Except ε β} {k : β → γ → β} {added : Except ε γ}
    (each : ∀ x ∈ xs, ∀ y, f x = .ok y → g x = k y <$> added) (read : xs.mapM f = .ok ys) (filled : ys ≠ []) :
    xs.mapM g = (fun c => ys.map (k · c)) <$> added := by
  cases added with
  | error e =>
    cases xs with
    | nil =>
      cases read
      exact absurd rfl filled
    | cons x xs =>
      obtain ⟨y, rest, here, -, -⟩ := mapM_cons_ok read
      rw [List.mapM_cons, each x (by simp) y here]
      rfl
  | ok c =>
    -- with the addition at hand even the empty list comes through, and the induction ends there
    clear filled
    induction xs generalizing ys with
    | nil =>
      cases read
      rfl
    | cons x xs ih =>
      obtain ⟨first, rest⟩ := List.forall_mem_cons.1 each
      obtain ⟨y, zs, here, later, rfl⟩ := mapM_cons_ok read
      rw [List.mapM_cons, first y here, ih later rest]
      rfl

def answer (x : Except ε Bool) : Bool := x.toOption.getD false

theorem answer_eq_true_iff {x : Except ε Bool} : answer x = true ↔ x = .ok true := by
  cases x with
  | error e => simp [answer, Except.toOption]
  | ok b => simp [answer, Except.toOption]

variable {g : α → Except ε Bool}

theorem filterAuxM_ok_iff {done zs : List α} :
    xs.filterAuxM g done = .ok zs ↔
      (∀ x ∈ xs, ∃ b, g x = .ok b) ∧ zs = (xs.filter fun x => answer (g x)).reverse ++ done := by
  induction xs generalizing done with
  | nil => simp [List.filterAuxM, pure, Except.pure, eq_comm]
  | cons x xs ih =>
    rw [List.filterAuxM, List.forall_mem_cons]
    cases told : g x with
    | error e => simp [bind, Except.bind]
    | ok b =>
      simp only [bind, Except.bind, ih, List.filter_cons, told]
      cases b <;> simp [answer, Except.toOption]

/-- A filter comes to an end where each check has an answer, and keeps what the answer is yes for. -/
theorem filterM_ok_iff {zs : List α} :
    xs.filterM g = .ok zs ↔ (∀ x ∈ xs, ∃ b, g x = .ok b) ∧ zs = xs.filter fun x => answer (g x) := by
  rw [List.filterM]
  constructor
  · intro kept
    obtain ⟨turned, checked, rest⟩ := ok_of_bind kept
    cases rest
    obtain ⟨answered, rfl⟩ := filterAuxM_ok_iff.1 checked
    exact ⟨answered, by simp⟩
  · rintro ⟨answered, rfl⟩
    rw [filterAuxM_ok_iff.2 ⟨answered, rfl⟩]
    simp [bind, Except.bind, pure, Except.pure]

end Drift
