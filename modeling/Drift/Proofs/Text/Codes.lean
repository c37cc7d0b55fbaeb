import Drift.Text.Codes

namespace Drift.Text

theorem codes_cons {c : Char} (other : c ≠ mark) (cs : List Char) : codes (c :: cs) = plainCode c :: codes cs := by
  cases cs with
  | nil => rfl
  | cons d r => rw [codes, if_neg fun both => other both.1]

theorem toNat_ofNat {n : Nat} (valid : n.isValidChar) : (Char.ofNat n).toNat = n := by
  rw [Char.ofNat, dif_pos valid]
  rfl

theorem codes_heldCode {n : Nat} (bound : n < 0x110000) (cs : List Char) : codes (heldCode n ++ cs) = n :: codes cs := by
  have apart : ∀ {m : Nat}, m.isValidChar → m ≠ 0xE800 → Char.ofNat m ≠ mark := by
    intro m valid other same
    have back := toNat_ofNat valid
    rw [same] at back
    exact other back.symm
  rw [heldCode]
  by_cases surrogate : isSurrogate n = true
  · have range : 0xD800 ≤ n ∧ n < 0xE000 := by simpa [isSurrogate] using surrogate
    have valid : (n + 0x800).isValidChar := .inr (by omega)
    rw [if_pos surrogate, List.singleton_append, codes_cons (apart valid (by omega)), plainCode, isStandIn,
      toNat_ofNat valid, Nat.add_sub_cancel, if_pos surrogate]
  · rw [if_neg surrogate]
    have range : ¬ (0xD800 ≤ n ∧ n < 0xE000) := by simpa [isSurrogate] using surrogate
    by_cases inside : 0xE000 ≤ n ∧ n ≤ 0xE800
    · have valid : (n + 0x801).isValidChar := .inr (by omega)
      have marked : isMarked (Char.ofNat (n + 0x801)) = true := by
        simp only [isMarked, toNat_ofNat valid, Bool.and_eq_true, decide_eq_true_eq]
        omega
      rw [if_pos inside]
      change codes (mark :: Char.ofNat (n + 0x801) :: cs) = _
      rw [codes, if_pos ⟨rfl, marked⟩, toNat_ofNat valid, Nat.add_sub_cancel]
    · have valid : n.isValidChar := by
        rw [Nat.isValidChar]
        omega
      have alone : isStandIn (Char.ofNat n) = false := by
        simp only [isStandIn, isSurrogate, toNat_ofNat valid, Bool.and_eq_false_iff, decide_eq_false_iff_not]
        omega
      rw [if_neg inside, List.singleton_append, codes_cons (apart valid (by omega)), plainCode, alone,
        toNat_ofNat valid, if_neg Bool.false_ne_true]

theorem codes_held {ns : List Nat} (bound : ∀ n ∈ ns, n < 0x110000) : codes (held ns) = ns := by
  induction ns with
  | nil => rfl
  | cons n ns ih =>
    obtain ⟨here, rest⟩ := List.forall_mem_cons.1 bound
    rw [held, List.flatMap_cons, codes_heldCode here, ← held, ih rest]

@[simp] theorem isBroken_append (s t : String) : isBroken (s ++ t) = (isBroken s || isBroken t) := by
  rw [isBroken, String.toList_append, List.any_append, isBroken, isBroken]

theorem any_heldCode (n : Nat) : (heldCode n).any isStandIn = isSurrogate n := by
  have bounds : ∀ m : Nat, isStandIn (Char.ofNat m) = true ↔ 0xE000 ≤ m ∧ m < 0xE800 := by
    intro m
    rw [isStandIn, isSurrogate, Bool.and_eq_true, decide_eq_true_eq, decide_eq_true_eq]
    by_cases valid : m.isValidChar
    · rw [toNat_ofNat valid]
      omega
    · have none : (Char.ofNat m).toNat = 0 := by
        rw [Char.ofNat, dif_neg valid]
        rfl
      rw [Nat.isValidChar] at valid
      omega
  have surrogate : isSurrogate n = true ↔ 0xD800 ≤ n ∧ n < 0xE000 := by
    rw [isSurrogate, Bool.and_eq_true, decide_eq_true_eq, decide_eq_true_eq]
  have apart : isStandIn mark = false := by decide
  rw [heldCode, Bool.eq_iff_iff]
  split
  · next held =>
    simp only [List.any_cons, List.any_nil, Bool.or_false, bounds, surrogate] at held ⊢
    omega
  · next other =>
    rw [surrogate] at other ⊢
    split
    · simp only [List.any_cons, List.any_nil, Bool.or_false, apart, Bool.false_or, bounds]
      omega
    · simp only [List.any_cons, List.any_nil, Bool.or_false, bounds]
      omega

theorem isSurrogate_plainCode (c : Char) : isSurrogate (plainCode c) = isStandIn c := by
  rw [plainCode]
  split
  · next standIn => rw [isStandIn]
  · next other =>
    rw [Bool.not_eq_true] at other
    rw [other]
    have valid : c.toNat.isValidChar := c.valid
    rw [Nat.isValidChar] at valid
    simp only [isSurrogate, Bool.and_eq_false_iff, decide_eq_false_iff_not]
    omega

theorem any_codes (cs : List Char) : (codes cs).any isSurrogate = cs.any isStandIn := by
  fun_induction codes cs with
  | case1 => rfl
  | case2 c => rw [List.any_cons, List.any_cons, isSurrogate_plainCode, List.any_nil, List.any_nil]
  | case3 c d r both ih =>
    obtain ⟨rfl, marked⟩ := both
    rw [isMarked, Bool.and_eq_true, decide_eq_true_eq, decide_eq_true_eq] at marked
    have code : isSurrogate (d.toNat - 0x801) = false := by
      simp only [isSurrogate, Bool.and_eq_false_iff, decide_eq_false_iff_not]
      omega
    have behind : isStandIn d = false := by
      simp only [isStandIn, isSurrogate, Bool.and_eq_false_iff, decide_eq_false_iff_not]
      omega
    have apart : isStandIn mark = false := by decide
    rw [List.any_cons, List.any_cons, List.any_cons, ih, code, behind, apart]
    rfl
  | case4 c d r other ih => rw [List.any_cons, List.any_cons, ih, isSurrogate_plainCode]

end Drift.Text
