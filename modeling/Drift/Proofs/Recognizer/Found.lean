import Drift.Proofs.Recognizer.Replace
import Drift.Proofs.Text.Joining

namespace Drift.Recognizer

def qualified (q : String) (ws : List String) : Recognizer String := do
  word q
  oneOf ws

def qualify (q w : String) : List Char := q.toList ++ w.toList

def Separates (q : String) (ws : List String) (x : Char) : Prop := ∀ w ∈ ws, x ∉ qualify q w

instance (q : String) (ws : List String) (x : Char) : Decidable (Separates q ws x) :=
  inferInstanceAs (Decidable (∀ w ∈ ws, _))

variable {q : String} {ws : List String} {w : String} {x : Char} {b : Option Char} {t : List Char}

theorem Reads.qualified (apart : ws.Pairwise Apart) (mem : w ∈ ws) :
    ∃ b', (qualified q ws).Reads ⟨b, qualify q w ++ t⟩ w ⟨b', t⟩ := by
  rw [qualify, List.append_assoc]
  exact ⟨_, .bind .word (.oneOf apart mem)⟩

theorem Refuses.qualified (other : ∀ w ∈ ws, ¬ qualify q w <+: t) : (qualified q ws).Refuses ⟨b, t⟩ := by
  by_cases front : q.toList <+: t
  · obtain ⟨u, rfl⟩ := front
    exact .after .word (.oneOf fun w mem starts => other w mem ((List.prefix_append_right_inj q.toList).2 starts))
  · exact .bind (.text front)

section Found

variable (filled : q.toList ≠ []) (apart : ws.Pairwise Apart)

include filled apart

theorem findAll_qualify (mem : w ∈ ws) (t : List Char) :
    (qualified q ws).findAll (qualify q w ++ t) = w :: (qualified q ws).findAll t := by
  obtain ⟨x, u, spelled⟩ := List.exists_cons_of_ne_nil filled
  obtain ⟨b', reads⟩ := Reads.qualified (q := q) (b := none) (t := t) apart mem
  have shape : qualify q w ++ t = x :: ((u ++ w.toList) ++ t) := by rw [qualify, spelled, List.cons_append, List.cons_append]
  rw [shape] at reads ⊢
  exact (Forgetful.word_bind filled).findAll_reading reads.prefers.first

theorem findAll_append_cons (separates : Separates q ws x) (u t : List Char) :
    (qualified q ws).findAll (u ++ x :: t) = (qualified q ws).findAll u ++ (qualified q ws).findAll t := by
  have forgetful : (qualified q ws).Forgetful := .word_bind filled
  induction length : u.length using Nat.strongRecOn generalizing u with
  | ind n ih =>
    -- a word at the front ends in front of the separating character, so either it is passed or one character is
    by_cases named : ∃ w ∈ ws, qualify q w <+: u
    · obtain ⟨w, mem, v, rfl⟩ := named
      have long : 0 < q.toList.length := List.length_pos_iff.2 filled
      have shorter : v.length < n := by
        rw [← length, List.length_append, qualify, List.length_append]
        omega
      rw [List.append_assoc, findAll_qualify filled apart mem, findAll_qualify filled apart mem, ih _ shorter v rfl,
        List.cons_append]
    · have absent : ∀ w ∈ ws, ¬ qualify q w <+: u := fun w mem starts => named ⟨w, mem, starts⟩
      have behind : (qualified q ws).Refuses (.start (u ++ x :: t)) := .qualified fun w mem starts =>
        absent w mem (Text.prefix_of_append_cons (separates w mem) starts)
      cases u with
      | nil => exact forgetful.findAll_cons behind.first
      | cons c u =>
        have here : (qualified q ws).Refuses (.start (c :: u)) := .qualified absent
        rw [List.cons_append] at behind ⊢
        rw [forgetful.findAll_cons behind.first, ih u.length (by simp [← length]) u rfl,
          forgetful.findAll_cons here.first]

theorem findAll_cons (separates : Separates q ws x) (t : List Char) :
    (qualified q ws).findAll (x :: t) = (qualified q ws).findAll t :=
  findAll_append_cons filled apart separates [] t

theorem findAll_joinWith {sep : List Char} (separates : ∀ x ∈ sep, Separates q ws x) {words : List String}
    (known : ∀ w ∈ words, w ∈ ws) :
    (qualified q ws).findAll (Text.joinWith sep (words.map (qualify q))) = words := by
  have passed : ∀ t, (qualified q ws).findAll (sep ++ t) = (qualified q ws).findAll t := by
    intro t
    induction sep with
    | nil => rfl
    | cons x sep ih =>
      obtain ⟨first, rest⟩ := List.forall_mem_cons.1 separates
      rw [List.cons_append, findAll_cons filled apart first, ih rest]
  induction words with
  | nil => rfl
  | cons w words ih =>
    obtain ⟨first, rest⟩ := List.forall_mem_cons.1 known
    cases words with
    | nil =>
      have alone : Text.joinWith sep ([w].map (qualify q)) = qualify q w ++ [] := by simp [Text.joinWith]
      rw [alone, findAll_qualify filled apart first]
      rfl
    | cons next words =>
      have more : Text.joinWith sep ((w :: next :: words).map (qualify q)) =
          qualify q w ++ (sep ++ Text.joinWith sep ((next :: words).map (qualify q))) := by simp [Text.joinWith]
      rw [more, findAll_qualify filled apart first, passed, ih rest]

end Found

end Drift.Recognizer
