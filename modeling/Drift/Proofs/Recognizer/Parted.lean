import Drift.Proofs.Recognizer.Replace

namespace Drift.Recognizer

variable {α β : Type} {r : Recognizer α} {p : Char → Bool} {x : Char}

/-- What is read in front of `x`, in one way only if at all, does not depend on what stands from `x` on. -/
def StopsAt (r : Recognizer α) (x : Char) : Prop :=
  ∀ b u t, r.Refuses ⟨b, u⟩ ∧ r.Refuses ⟨b, u ++ x :: t⟩ ∨
    ∃ a b' w v, u = w ++ v ∧ r.Reads ⟨b, u⟩ a ⟨b', v⟩ ∧ r.Reads ⟨b, u ++ x :: t⟩ a ⟨b', v ++ x :: t⟩

namespace StopsAt

theorem pure (a : α) : (Pure.pure a : Recognizer α).StopsAt x :=
  fun b u _ => .inr ⟨a, b, [], u, rfl, .pure, .pure⟩

theorem bind {f : α → Recognizer β} (head : r.StopsAt x) (tail : ∀ a, (f a).StopsAt x) : (r >>= f).StopsAt x := by
  intro b u t
  rcases head b u t with ⟨alone, longer⟩ | ⟨a, b', w, v, rfl, alone, longer⟩
  · exact .inl ⟨alone.bind, longer.bind⟩
  · rcases tail a b' v t with ⟨alone', longer'⟩ | ⟨d, b'', w', v', rfl, alone', longer'⟩
    · exact .inl ⟨.after alone alone', .after longer longer'⟩
    · exact .inr ⟨d, b'', w ++ w', v', by simp, .bind alone alone', .bind longer longer'⟩

theorem skip (h : r.StopsAt x) : (skip r).StopsAt x := h.bind fun _ => .pure ()

theorem char (other : p x = false) : (char p).StopsAt x := by
  intro b u t
  cases u with
  | nil => exact .inl ⟨.char_nil, .char other⟩
  | cons c u =>
    cases fits : p c with
    | false => exact .inl ⟨.char fits, .char fits⟩
    | true => exact .inr ⟨c, some c, [c], u, rfl, .char fits, .char fits⟩

theorem sign {s : Char} (other : x ≠ s) : (sign s).StopsAt x := skip (char (by simpa using other))

theorem run (other : p x = false) : (run p).StopsAt x := by
  intro b u t
  have parts : u = u.takeWhile p ++ u.dropWhile p := List.takeWhile_append_dropWhile.symm
  have fits : ∀ c ∈ u.takeWhile p, p c = true := List.all_eq_true.1 List.all_takeWhile
  have stop : ∀ c ∈ (u.dropWhile p ++ x :: t).head?, p c = false := by
    cases rest : u.dropWhile p with
    | nil => simpa using other
    | cons c v =>
      have head := List.head?_dropWhile_not p u
      rw [rest, List.head?_cons] at head
      simpa using head
  have longer := Reads.run (b := b) fits stop
  rw [← List.append_assoc, ← parts] at longer
  exact .inr ⟨_, _, _, _, parts, fun _ _ => rfl, longer⟩

end StopsAt

theorem replace_append_of_stopsAt {s : Char} (rest : r.StopsAt x) (f : α → List Char) (u t : List Char) :
    (do sign s; r : Recognizer α).replace f (u ++ x :: t) =
      (do sign s; r : Recognizer α).replace f u ++ (do sign s; r : Recognizer α).replace f (x :: t) := by
  have forgetful : (do sign s; r : Recognizer α).Forgetful := .sign_bind
  -- a reading may take many characters at once, so the induction is on the length
  induction length : u.length using Nat.strongRecOn generalizing u with
  | ind n ih =>
    cases u with
    | nil => rfl
    | cons c u =>
      have one : u.length < n := by
        rw [← length, List.length_cons]
        omega
      by_cases opening : c = s
      · subst opening
        rcases rest (some c) u t with ⟨alone, longer⟩ | ⟨a, b', w, v, rfl, alone, longer⟩
        · rw [List.cons_append, forgetful.replace_cons (Refuses.after .sign longer).first,
            forgetful.replace_cons (Refuses.after .sign alone).first, ih _ one u rfl, List.cons_append]
        · have shorter : v.length < n := by
            rw [List.length_append] at one
            omega
          rw [List.append_assoc] at longer
          rw [List.cons_append, List.append_assoc, forgetful.replace_reading (Reads.bind .sign longer).prefers.first,
            forgetful.replace_reading (Reads.bind .sign alone).prefers.first, ih _ shorter v rfl, List.append_assoc]
      · have here : ∀ t, (do sign s; r : Recognizer α).Refuses (.start (c :: t)) := fun _ => .bind (.sign opening)
        rw [List.cons_append, forgetful.replace_cons (here _).first, forgetful.replace_cons (here _).first,
          ih _ one u rfl, List.cons_append]

end Drift.Recognizer
