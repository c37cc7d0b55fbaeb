import Drift.Proofs.Recognizer.Preferred
import Drift.Text.Split

namespace Drift.Recognizer

variable {α : Type} {r : Recognizer α} {f : α → List Char} {b : Option Char} {t : List Char}

theorem mem_of_mem_piecesFrom {x : Char} {k : Nat} (mem : .inl x ∈ piecesFrom r b k t) : x ∈ t := by
  induction t generalizing b k with
  | nil => cases k <;> cases b <;> cases mem
  | cons y t ih =>
    cases k with
    | succ k => exact .tail _ (ih mem)
    | zero =>
      rw [piecesFrom] at mem
      split at mem
      · rcases List.mem_cons.1 mem with here | later
        · cases here
        · exact .tail _ (ih later)
      · rcases List.mem_cons.1 mem with here | later
        · cases here
          exact .head _
        · exact .tail _ (ih later)

def replaceFrom (r : Recognizer α) (f : α → List Char) (b : Option Char) (t : List Char) : List Char :=
  (piecesFrom r b 0 t).flatMap (Sum.elim ([·]) f)

theorem replace_eq_replaceFrom (t : List Char) : replace r f t = replaceFrom r f none t := rfl

@[simp] theorem replaceFrom_nil : replaceFrom r f b [] = [] := by
  cases b <;> rfl

@[simp] theorem replace_nil : replace r f [] = [] := rfl

theorem piecesFrom_passed (w t : List Char) (b : Option Char) :
    piecesFrom r b w.length (w ++ t) = piecesFrom r (w.getLast? <|> b) 0 t := by
  induction w generalizing b with
  | nil => rfl
  | cons x w ih =>
    rw [List.length_cons, List.cons_append, piecesFrom, ih, passed_cons]

theorem replaceFrom_cons {x : Char} (none : r.first ⟨b, x :: t⟩ = none) :
    replaceFrom r f b (x :: t) = x :: replaceFrom r f (some x) t := by
  simp [replaceFrom, piecesFrom, none]

theorem replaceFrom_reading {x : Char} {w : List Char} {a : α} {b' : Option Char}
    (reading : r.first ⟨b, x :: (w ++ t)⟩ = some (a, ⟨b', t⟩)) :
    replaceFrom r f b (x :: (w ++ t)) = f a ++ replaceFrom r f (w.getLast? <|> some x) t := by
  have passed : (w ++ t).length - t.length = w.length := by simp
  rw [replaceFrom, piecesFrom, reading]
  simp only [passed, piecesFrom_passed, List.flatMap_cons, Sum.elim_inr, replaceFrom]

theorem replaceFrom_passed {w : List Char} (none : ∀ x ∈ w, ∀ b t, r.first ⟨b, x :: t⟩ = none) :
    replaceFrom r f b (w ++ t) = w ++ replaceFrom r f (w.getLast? <|> b) t := by
  induction w generalizing b with
  | nil => rfl
  | cons x w ih =>
    rw [List.cons_append, replaceFrom_cons (none x (by simp) _ _), ih fun y mem => none y (by simp [mem]), passed_cons]
    rfl

def Forgetful (r : Recognizer α) : Prop := ∀ b t, r.first ⟨b, t⟩ = r.first ⟨none, t⟩

theorem Forgetful.char_bind {p : Char → Bool} {g : Char → Recognizer α} : Forgetful (char p >>= g) := by
  intro b t
  cases t <;> rfl

theorem Forgetful.sign_bind {s : Char} {g : Unit → Recognizer α} : Forgetful (sign s >>= g) := by
  intro b t
  cases t <;> rfl

theorem Forgetful.word_bind {w : String} {g : Unit → Recognizer α} (filled : w.toList ≠ []) : Forgetful (word w >>= g) := by
  obtain ⟨x, u, spelled⟩ := List.exists_cons_of_ne_nil filled
  have shape : (word w >>= g) = (char (· == x) >>= fun _ => text u >>= g) := by
    rw [word, spelled]
    rfl
  rw [shape]
  exact char_bind

namespace Forgetful

theorem piecesFrom_eq (forgetful : r.Forgetful) : piecesFrom r b 0 t = pieces r t := by
  cases t with
  | nil => rfl
  | cons x t => rw [pieces, piecesFrom, piecesFrom, forgetful b]

theorem replaceFrom_eq (forgetful : r.Forgetful) : replaceFrom r f b t = replace r f t := by
  rw [replaceFrom, forgetful.piecesFrom_eq, replace]

theorem replace_cons (forgetful : r.Forgetful) {x : Char} (none : r.first (.start (x :: t)) = none) :
    replace r f (x :: t) = x :: replace r f t := by
  rw [replace_eq_replaceFrom, replaceFrom_cons none, forgetful.replaceFrom_eq]

theorem replace_reading (forgetful : r.Forgetful) {x : Char} {w : List Char} {a : α} {b' : Option Char}
    (reading : r.first (.start (x :: (w ++ t))) = some (a, ⟨b', t⟩)) :
    replace r f (x :: (w ++ t)) = f a ++ replace r f t := by
  rw [replace_eq_replaceFrom, replaceFrom_reading reading, forgetful.replaceFrom_eq]

theorem replace_passed (forgetful : r.Forgetful) {w : List Char}
    (none : ∀ x ∈ w, ∀ t, r.first (.start (x :: t)) = none) : replace r f (w ++ t) = w ++ replace r f t := by
  rw [replace_eq_replaceFrom, replaceFrom_passed, forgetful.replaceFrom_eq]
  intro x mem b t
  rw [forgetful]
  exact none x mem t

theorem findAll_cons (forgetful : r.Forgetful) {x : Char} (none : r.first (.start (x :: t)) = none) :
    findAll r (x :: t) = findAll r t := by
  have here : r.first ⟨Option.none, x :: t⟩ = Option.none := none
  rw [findAll, pieces, piecesFrom, here, forgetful.piecesFrom_eq]
  rfl

theorem findAll_reading (forgetful : r.Forgetful) {x : Char} {w : List Char} {a : α} {b' : Option Char}
    (reading : r.first (.start (x :: (w ++ t))) = some (a, ⟨b', t⟩)) :
    findAll r (x :: (w ++ t)) = a :: findAll r t := by
  have here : r.first ⟨Option.none, x :: (w ++ t)⟩ = some (a, ⟨b', t⟩) := reading
  have passed : (w ++ t).length - t.length = w.length := by simp
  rw [findAll, pieces, piecesFrom, here]
  simp only [passed, piecesFrom_passed, forgetful.piecesFrom_eq]
  rfl

/-- Pieces with a separator between them are replaced one by one, if each is where it ends or a separator
follows. -/
theorem replace_joinWith (forgetful : r.Forgetful) {ι : Type} {sep : Char} {items : List ι}
    {text image : ι → List Char} (none : ∀ t, r.first (.start (sep :: t)) = none)
    (each : ∀ i ∈ items, ∀ t, (∀ x ∈ t.head?, x = sep) → replace r f (text i ++ t) = image i ++ replace r f t)
    (stop : ∀ x ∈ t.head?, x = sep) :
    replace r f (Text.joinWith [sep] (items.map text) ++ t) =
      Text.joinWith [sep] (items.map image) ++ replace r f t := by
  induction items with
  | nil => rfl
  | cons i items ih =>
    have first := each i (by simp)
    have rest := ih fun j mem => each j (by simp [mem])
    cases items with
    | nil => simpa [Text.joinWith] using first t stop
    | cons j items =>
      simp only [Text.joinWith, List.map_cons, List.intercalate_cons_cons, List.append_assoc,
        List.cons_append, List.nil_append] at rest ⊢
      rw [first _ (by simp), forgetful.replace_cons (none _), rest]

end Forgetful

end Drift.Recognizer
