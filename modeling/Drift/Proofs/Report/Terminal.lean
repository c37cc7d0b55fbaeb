import Drift.Proofs.Recognizer.Parted
import Drift.Text.Codes
import Drift.Report.Terminal

namespace Drift.Terminal

open Recognizer

def plainChars (cs : List Char) : List Char := control.replace (fun _ => []) cs

theorem toList_plain (s : String) : (plain s).toList = plainChars s.toList := String.toList_ofList

section Parts

variable {x : Char} {cs : List Char}

/-- A character that no control sequence goes on with parts a text. -/
theorem plainChars_append_cons (bracket : x ≠ '[') (parameter : ('0' ≤ x && x ≤ '?') = false)
    (between : (' ' ≤ x && x ≤ '/') = false) (last : ('@' ≤ x && x ≤ '~') = false) (u t : List Char) :
    plainChars (u ++ x :: t) = plainChars u ++ plainChars (x :: t) :=
  replace_append_of_stopsAt
    (.bind (.sign bracket) fun _ => .bind (.skip (.run parameter)) fun _ => .bind (.skip (.run between)) fun _ =>
      .skip (.char last)) _ u t

theorem plainChars_cons (other : x ≠ '\x1b') : plainChars (x :: cs) = x :: plainChars cs :=
  Forgetful.sign_bind.replace_cons (Refuses.bind (.sign other)).first

theorem plainChars_control {digits : List Char} (parameters : ∀ d ∈ digits, ('0' ≤ d && d ≤ '?') = true)
    (t : List Char) : plainChars ('\x1b' :: '[' :: (digits ++ 'm' :: t)) = plainChars t := by
  have shape : '[' :: (digits ++ 'm' :: t) = ('[' :: (digits ++ ['m'])) ++ t := by simp
  have reads : control.Reads (.start ('\x1b' :: '[' :: (digits ++ 'm' :: t))) () ⟨some 'm', t⟩ :=
    .bind .sign (.bind .sign (.bind (.skip (.run parameters (by simp))) (.bind (.skip (.run (w := []) (by simp) (by simp)))
      (.skip (.char (by decide))))))
  have forgetful : control.Forgetful := .sign_bind
  rw [shape] at reads ⊢
  exact forgetful.replace_reading reads.prefers.first

end Parts

theorem mem_of_mem_plainChars {x : Char} {cs : List Char} (mem : x ∈ plainChars cs) : x ∈ cs := by
  obtain ⟨piece, inside, here⟩ := List.mem_flatMap.1 mem
  cases piece with
  | inl y =>
    cases List.mem_singleton.1 here
    exact mem_of_mem_piecesFrom inside
  | inr a => cases here

theorem isBroken_plain (s : String) : Text.isBroken (plain s) = Text.isBroken s := by
  rw [Text.isBroken, Text.isBroken, toList_plain, Bool.eq_iff_iff, List.any_eq_true, List.any_eq_true]
  constructor
  · rintro ⟨x, mem, standIn⟩
    exact ⟨x, mem_of_mem_plainChars mem, standIn⟩
  · rintro ⟨x, mem, standIn⟩
    obtain ⟨u, t, shape⟩ := List.append_of_mem mem
    -- a control sequence is of ASCII characters, and the least stand-in is above those
    have far : '\x7f' < x := by
      rw [Text.isStandIn, Text.isSurrogate, Bool.and_eq_true, decide_eq_true_eq] at standIn
      exact Nat.lt_of_lt_of_le (by decide : '\x7f'.toNat < 0xD800) (Nat.le_trans standIn.1 (Nat.sub_le _ _))
    have other : ∀ c : Char, c ≤ '\x7f' → x ≠ c := by
      rintro c low rfl
      exact Char.not_le.2 far low
    have above : ∀ c d : Char, d ≤ '\x7f' → (c ≤ x && x ≤ d) = false := by
      intro c d low
      rw [Bool.and_eq_false_iff, decide_eq_false_iff_not, decide_eq_false_iff_not]
      exact .inr fun le => Char.not_le.2 far (Char.le_trans le low)
    rw [shape, plainChars_append_cons (other _ (by decide)) (above _ _ (by decide)) (above _ _ (by decide))
      (above _ _ (by decide)), plainChars_cons (other _ (by decide))]
    exact ⟨x, by simp, standIn⟩

theorem plain_bold (c : Colour) (s : String) : plain (bold c s) = plain s := by
  have digits : ∀ d ∈ c.code.toList, ('0' ≤ d && d ≤ '?') = true := by
    cases c <;> simp [Colour.code]
  have shape : (bold c s).toList =
      '\x1b' :: '[' :: (c.code.toList ++ 'm' :: '\x1b' :: '[' :: (['1'] ++ 'm' :: (s.toList ++ '\x1b' :: '[' :: (['0'] ++ 'm' :: [])))) := by
    simp [bold, toString]
  rw [← String.toList_inj, toList_plain, toList_plain, shape, plainChars_control digits, plainChars_control (by simp),
    plainChars_append_cons (by decide) (by decide) (by decide) (by decide), plainChars_control (by simp)]
  exact List.append_nil _

theorem plain_eq_self {s : String} (free : ∀ x ∈ s.toList, x ≠ '\x1b') : plain s = s := by
  have unchanged : ∀ cs : List Char, (∀ x ∈ cs, x ≠ '\x1b') → plainChars cs = cs := by
    intro cs free
    induction cs with
    | nil => rfl
    | cons x cs ih =>
      obtain ⟨first, rest⟩ := List.forall_mem_cons.1 free
      rw [plainChars_cons first, ih rest]
  rw [← String.toList_inj, toList_plain, unchanged _ free]

def shown (ls : List String) : String := String.join (ls.map fun l => plain l ++ "\n")

theorem shown_cons (l : String) (ls : List String) : shown (l :: ls) = plain l ++ "\n" ++ shown ls :=
  String.join_cons

theorem shown_append (ls ms : List String) : shown (ls ++ ms) = shown ls ++ shown ms := by
  rw [shown, List.map_append, String.join_append]
  rfl

theorem shown_bold (c : Colour) (l : String) (ls : List String) : shown (bold c l :: ls) = shown (l :: ls) := by
  rw [shown_cons, shown_cons, plain_bold]

theorem plain_line (s t : String) : plain (s ++ "\n" ++ t) = plain s ++ "\n" ++ plain t := by
  have shape : (s ++ "\n" ++ t).toList = s.toList ++ '\n' :: t.toList := by simp
  rw [← String.toList_inj, toList_plain, shape, plainChars_append_cons (by decide) (by decide) (by decide) (by decide),
    plainChars_cons (by decide)]
  simp [toList_plain]

theorem plain_lines {ls : List String} (filled : ls ≠ []) : plain ("\n".intercalate ls) ++ "\n" = shown ls := by
  induction ls with
  | nil => exact absurd rfl filled
  | cons l ls ih =>
    rw [shown_cons]
    cases ls with
    | nil => simp [shown]
    | cons m ls => rw [String.intercalate_cons_cons, plain_line, String.append_assoc, ih (by simp)]

end Drift.Terminal
