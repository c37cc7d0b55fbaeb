namespace Drift

variable {σ ε α β : Type}

def FailsWith (P : ε → Prop) (x : Except ε α) : Prop := ∀ e, x = .error e → P e

namespace FailsWith

variable {P : ε → Prop} {x y : Except ε α}

theorem ok (a : α) : FailsWith P (.ok a : Except ε α) := nofun

theorem error {e : ε} (holds : P e) : FailsWith P (.error e : Except ε α) := by
  rintro d ⟨⟩
  exact holds

theorem bindOk {f : α → Except ε β} (head : FailsWith P x) (tail : ∀ a, x = .ok a → FailsWith P (f a)) :
    FailsWith P (x >>= f) := by
  intro e fails
  cases x with
  | error d =>
    cases fails
    exact head e rfl
  | ok a => exact tail a rfl e fails

theorem bind {f : α → Except ε β} (head : FailsWith P x) (tail : ∀ a, FailsWith P (f a)) : FailsWith P (x >>= f) :=
  bindOk head fun a _ => tail a

theorem map (f : α → β) (h : FailsWith P x) : FailsWith P (f <$> x) := by
  intro e fails
  cases x with
  | error d =>
    cases fails
    exact h e rfl
  | ok a => cases fails

theorem ite {c : Prop} [Decidable c] (yes : FailsWith P x) (no : FailsWith P y) :
    FailsWith P (if c then x else y) := by
  split
  · exact yes
  · exact no

theorem mono {P' : ε → Prop} (h : FailsWith P x) (weaker : ∀ e, P e → P' e) : FailsWith P' x :=
  fun e fails => weaker e (h e fails)

theorem mapM {f : α → Except ε β} {as : List α} (each : ∀ a ∈ as, FailsWith P (f a)) : FailsWith P (as.mapM f) := by
  induction as with
  | nil => exact ok _
  | cons a as ih =>
    rw [List.mapM_cons]
    exact bind (each a (by simp)) fun _ => bind (ih fun a' mem => each a' (by simp [mem])) fun _ => ok _

end FailsWith

/-- From a state with `Inv` the computation gets to a state with `Inv` and a result with `Q`, or fails with `P`. -/
def Runs (Inv : σ → Prop) (P : ε → Prop) (Q : α → Prop) (x : StateT σ (Except ε) α) : Prop :=
  ∀ s, Inv s →
    match x.run s with
    | .ok (a, s') => Q a ∧ Inv s'
    | .error e => P e

namespace Runs

variable {Inv : σ → Prop} {P : ε → Prop} {Q : α → Prop} {R : β → Prop} {x : StateT σ (Except ε) α}

theorem of_error {s : σ} {e : ε} (h : Runs Inv P Q x) (start : Inv s) (fails : x.run s = .error e) : P e := by
  have holds := h s start
  rwa [fails] at holds

theorem of_ok {s s' : σ} {a : α} (h : Runs Inv P Q x) (start : Inv s) (result : x.run s = .ok (a, s')) :
    Q a ∧ Inv s' := by
  have holds := h s start
  rwa [result] at holds

theorem mono {Q' : α → Prop} (h : Runs Inv P Q x) (weaker : ∀ a, Q a → Q' a) : Runs Inv P Q' x := by
  intro s start
  cases run : x.run s with
  | error e => exact h.of_error start run
  | ok r =>
    obtain ⟨holds, kept⟩ := h.of_ok start run
    exact ⟨weaker _ holds, kept⟩

theorem pure {a : α} (holds : Q a) : Runs Inv P Q (Pure.pure a) := fun _ start => ⟨holds, start⟩

theorem fails {e : ε} (holds : P e) : Runs Inv P Q (throw e) := fun _ _ => holds

theorem bind {f : α → StateT σ (Except ε) β} (head : Runs Inv P Q x) (tail : ∀ a, Q a → Runs Inv P R (f a)) :
    Runs Inv P R (x >>= f) := by
  intro s start
  rw [StateT.run_bind]
  cases run : x.run s with
  | error e => exact head.of_error start run
  | ok r =>
    obtain ⟨holds, kept⟩ := head.of_ok start run
    exact tail r.1 holds r.2 kept

theorem state : Runs Inv P Inv get := fun _ start => ⟨start, start⟩

theorem change {f : σ → σ} (kept : ∀ s, Inv s → Inv (f s)) : Runs Inv P (fun _ => True) (modify f) :=
  fun s start => ⟨trivial, kept s start⟩

theorem changeGet {f : σ → α × σ} (kept : ∀ s, Inv s → Inv (f s).2) : Runs Inv P (fun _ => True) (modifyGet f) :=
  fun s start => ⟨trivial, kept s start⟩

theorem lift {y : Except ε α} (holds : ∀ e, y = .error e → P e) : Runs Inv P (fun _ => True) (liftM y) := by
  intro s start
  cases y with
  | error e => exact holds e rfl
  | ok a => exact ⟨trivial, start⟩

theorem ite {c : Prop} [Decidable c] {y : StateT σ (Except ε) α} (yes : c → Runs Inv P Q x)
    (no : ¬ c → Runs Inv P Q y) : Runs Inv P Q (if c then x else y) := by
  split
  · exact yes ‹c›
  · exact no ‹¬ c›

theorem mapM {f : α → StateT σ (Except ε) β} {as : List α} (each : ∀ a ∈ as, Runs Inv P (fun _ => True) (f a)) :
    Runs Inv P (fun _ => True) (as.mapM f) := by
  induction as with
  | nil => exact pure trivial
  | cons a as ih =>
    rw [List.mapM_cons]
    apply bind (each a (by simp))
    intro b _
    apply bind (ih fun a' mem => each a' (by simp [mem]))
    exact fun bs _ => pure trivial

theorem foldlM {f : β → α → StateT σ (Except ε) β} {as : List α} (b : β)
    (each : ∀ b, ∀ a ∈ as, Runs Inv P (fun _ => True) (f b a)) : Runs Inv P (fun _ => True) (as.foldlM f b) := by
  induction as generalizing b with
  | nil => exact pure trivial
  | cons a as ih =>
    rw [List.foldlM_cons]
    apply bind (each b a (by simp))
    intro b' _
    exact ih b' fun b a' mem => each b a' (by simp [mem])

end Runs

end Drift
