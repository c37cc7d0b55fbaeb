import Drift.Json.Data
import Drift.Proofs.Run

namespace Drift

inductive Store.Holds (s : Store) (v w : Value) : Prop where
  | item {items : List Value} (list : s.at? v = some (.list items)) (mem : w ∈ items)
  | first {b : Value} (pair : s.at? v = some (.pair w b))
  | second {a : Value} (pair : s.at? v = some (.pair a w))
  | entry {entries : List (Value × Value)} {k : Value} (map : s.at? v = some (.map entries)) (mem : (k, w) ∈ entries)

inductive Store.Reaches (s : Store) : Value → Value → Prop where
  | here (v : Value) : s.Reaches v v
  | inside {u v w : Value} (holds : s.Holds u v) (further : s.Reaches v w) : s.Reaches u w

namespace Json

variable {s : Store}

def HasOddKey (s : Store) (v : Value) : Prop :=
  ∃ w entries k x, s.Reaches v w ∧ s.at? w = some (.map entries) ∧ (k, x) ∈ entries ∧ keyChars k = .error .badKey

theorem HasOddKey.inside {v w : Value} (holds : s.Holds v w) (odd : HasOddKey s w) : HasOddKey s v := by
  obtain ⟨u, entries, k, x, reached, rest⟩ := odd
  exact ⟨u, entries, k, x, .inside holds reached, rest⟩

def Explains (s : Store) (v : Value) (e : Failure) : Prop := e ≠ .unsortedKeys ∧ (e = .badKey → HasOddKey s v)

theorem Explains.inside {v w : Value} (holds : s.Holds v w) (e : Failure) (h : Explains s w e) : Explains s v e :=
  ⟨h.1, fun bad => (h.2 bad).inside holds⟩

theorem intChars_failsWith (n : Int) : FailsWith (· = .hugeNumber) (intChars n) := by
  unfold intChars
  generalize Value.intChars? n = digits
  cases digits with
  | some cs => exact .ok _
  | none => exact .error rfl

theorem scalarChars_failsWith (v : Value) : FailsWith (· = .hugeNumber) (scalarChars v) := by
  cases v with
  | int n => exact intChars_failsWith n
  | _ => exact .ok _

theorem keyChars_failsWith (k : Value) : FailsWith (fun e => e = .hugeNumber ∨ e = .badKey) (keyChars k) := by
  cases k with
  | int n => exact (FailsWith.map _ (intChars_failsWith n)).mono fun _ => .inl
  | bytes bs => exact .error (.inr rfl)
  | date d => exact .error (.inr rfl)
  | time t => exact .error (.inr rfl)
  | held id => exact .error (.inr rfl)
  | _ => exact .ok _

theorem explains_hugeNumber (v : Value) (e : Failure) (huge : e = .hugeNumber) : Explains s v e := by
  subst huge
  exact ⟨nofun, nofun⟩

theorem dataChars_failsWith (depth : Nat) (path : List Nat) (v : Value) :
    FailsWith (Explains s v) (dataChars false s depth path v) := by
  induction depth generalizing path v with
  | zero => exact .error ⟨nofun, nofun⟩
  | succ depth ih =>
    cases v with
    | held id =>
      have inner : ∀ w, s.Holds (.held id) w →
          FailsWith (Explains s (.held id)) (dataChars false s depth (id :: path) w) :=
        fun w holds => (ih _ w).mono (Explains.inside holds)
      rw [dataChars]
      refine .ite (.error ⟨nofun, nofun⟩) ?_
      dsimp only
      split
      · rename_i items list
        exact .map _ (.mapM fun w mem => inner w (.item list mem))
      · rename_i a b pair
        refine .map _ (.mapM fun w mem => ?_)
        rcases List.mem_cons.1 mem with rfl | mem
        · exact inner _ (.first pair)
        · rw [List.mem_singleton.1 mem]
          exact inner _ (.second pair)
      · rename_i entries map
        rw [if_neg Bool.false_ne_true, pure_bind]
        refine .map _ (.mapM fun e mem => ?_)
        obtain ⟨k, w⟩ := e
        refine .bind ?_ fun _ => .bind (inner w (.entry map mem)) fun _ => .ok _
        intro e fails
        rcases keyChars_failsWith k e fails with rfl | rfl
        · exact explains_hugeNumber _ _ rfl
        · exact ⟨nofun, fun _ => ⟨_, entries, k, w, .here _, map, mem, fails⟩⟩
      · split
        · exact .ok _
        · exact .error (explains_hugeNumber _ _ rfl)
    | _ =>
      rw [dataChars]
      · exact (scalarChars_failsWith _).mono (explains_hugeNumber _)
      · exact nofun

/-- If there is no text, the order of keys is not the reason; and if a key is, the value has such a key. -/
theorem dataText_failsWith (v : Value) : FailsWith (Explains s v) (dataText s v) := by
  rw [dataText]
  split
  · exact .ok _
  · split
    · exact .map _ (dataChars_failsWith _ _ _)
    · rename_i e _ other
      apply FailsWith.error
      constructor <;> rintro rfl <;> exact absurd rfl other

end Json

end Drift
