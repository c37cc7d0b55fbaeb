import Drift.Proofs.Text.Codes
import Drift.Proofs.Text.Joining
import Drift.Text.Case

namespace Drift.Text

variable {c x : Char} {cs part before : List Char} {n : Nat}

structure IsOwn (x : Char) : Prop where
  ascii : x.toNat < 128
  notI : x ≠ 'i'
  notK : x ≠ 'k'

/-- Above ASCII lower case leads out of ASCII, but for the sign of Kelvin. -/
theorem lowerRuns_above : ∀ r ∈ lowerRuns, r.image = 107 ∧ r.first = r.last ∨ 128 ≤ r.image ∧
    (r.image + (r.last - r.first) < 0xd800 ∨ 0xdfff < r.image ∧ r.image + (r.last - r.first) < 0x110000) := by
  decide +kernel

theorem lowerRun_above {r : CaseRun} (mem : r ∈ lowerRuns) {m : Nat} (mapped : r.map? n = some m) :
    m = 107 ∨ 128 ≤ m ∧ m.isValidChar := by
  unfold CaseRun.map? at mapped
  split at mapped
  case isTrue within =>
    cases mapped
    rcases lowerRuns_above r mem with ⟨kelvin, single⟩ | ⟨above, low | high⟩
    · left
      omega
    · exact .inr ⟨by omega, .inl (by omega)⟩
    · exact .inr ⟨by omega, .inr ⟨by omega, by omega⟩⟩
  case isFalse => cases mapped

theorem lookup_lowerExpansions {image : List Nat} (expanded : lowerExpansions.lookup n = some image) :
    image = [105, 775] := by
  rw [lowerExpansions, List.lookup_cons] at expanded
  split at expanded
  · exact (Option.some.inj expanded).symm
  · cases expanded

theorem mapCase_own (above : 128 ≤ c.toNat) (own : IsOwn x) : x ∉ mapCase lowerRuns lowerExpansions c := by
  have ascii := own.ascii
  intro mem
  unfold mapCase at mem
  split at mem
  case h_1 image expanded =>
    rw [lookup_lowerExpansions expanded] at mem
    simp only [List.map_cons, List.map_nil, List.mem_cons, List.not_mem_nil, or_false] at mem
    rcases mem with rfl | rfl
    · exact own.notI rfl
    · exact absurd ascii (by decide)
  case h_2 =>
    split at mem
    case h_1 m found =>
      obtain ⟨r, inside, mapped⟩ := List.exists_of_findSome?_eq_some found
      rw [List.mem_singleton] at mem
      rcases lowerRun_above inside mapped with rfl | ⟨other, valid⟩
      · exact own.notK mem
      · rw [mem, toNat_ofNat valid] at ascii
        omega
    case h_2 =>
      rw [List.mem_singleton.1 mem] at ascii
      omega

theorem mapCase_ne_nil : mapCase lowerRuns lowerExpansions c ≠ [] := by
  unfold mapCase
  split
  case h_1 image expanded =>
    rw [lookup_lowerExpansions expanded]
    exact List.cons_ne_nil _ _
  case h_2 => split <;> exact List.cons_ne_nil _ _

/-- Only ASCII characters have such a character for their lower case. -/
theorem lowerChar_own (own : IsOwn x) (mem : x ∈ lowerChar c) : lowerChar c = [x] ∧ c.toLower = x := by
  unfold lowerChar at mem ⊢
  by_cases ascii : c.toNat < 128
  · rw [if_pos ascii, List.mem_singleton] at mem
    rw [if_pos ascii, mem]
    exact ⟨rfl, rfl⟩
  · rw [if_neg ascii] at mem
    exact absurd mem (mapCase_own (Nat.le_of_not_lt ascii) own)

theorem ascii_of_toLower (own : IsOwn c.toLower) : c.toNat < 128 := by
  have ascii := own.ascii
  unfold Char.toLower at ascii
  split at ascii
  case isTrue upper =>
    have below : c.val.toNat ≤ 'Z'.val.toNat := UInt32.le_iff_toNat_le.1 upper.2
    exact Nat.lt_of_le_of_lt below (by decide)
  case isFalse => exact ascii

def lowerAmong (before : List Char) (c : Char) (behind : List Char) : List Char :=
  if c = 'Σ' then [if meetsCased before && !meetsCased behind then 'ς' else 'σ'] else lowerChar c

theorem lowerAfter_cons (before : List Char) (c : Char) (cs : List Char) :
    lowerAfter before (c :: cs) = lowerAmong before c cs ++ lowerAfter (c :: before) cs := rfl

theorem lowerAmong_own (own : IsOwn x) {behind : List Char} (mem : x ∈ lowerAmong before c behind) :
    lowerAmong before c behind = [x] ∧ c.toLower = x := by
  have ascii := own.ascii
  unfold lowerAmong at mem ⊢
  split at mem
  case isTrue =>
    rw [List.mem_singleton] at mem
    split at mem <;> exact absurd ascii (by rw [mem]; decide)
  case isFalse other =>
    rw [if_neg other]
    exact lowerChar_own own mem

theorem lowerAmong_toLower (own : IsOwn c.toLower) (before behind : List Char) : lowerAmong before c behind = [c.toLower] := by
  have ascii := ascii_of_toLower own
  have other : c ≠ 'Σ' := by
    rintro rfl
    exact absurd ascii (by decide)
  rw [lowerAmong, if_neg other, lowerChar, if_pos ascii]

theorem lowerAmong_ne_nil (before behind : List Char) : lowerAmong before c behind ≠ [] := by
  unfold lowerAmong lowerChar
  split
  · exact List.cons_ne_nil _ _
  · split
    · exact List.cons_ne_nil _ _
    · exact mapCase_ne_nil

theorem prefix_lowerAfter (own : ∀ x ∈ part, IsOwn x) (before cs : List Char) :
    part <+: lowerAfter before cs ↔ ∃ word after, cs = word ++ after ∧ word.map Char.toLower = part := by
  induction part generalizing before cs with
  | nil => exact iff_of_true List.nil_prefix ⟨[], cs, rfl, rfl⟩
  | cons x part ih =>
    obtain ⟨first, rest⟩ := List.forall_mem_cons.1 own
    constructor
    · intro starts
      cases cs with
      | nil => cases List.prefix_nil.1 starts
      | cons c cs =>
        rw [lowerAfter_cons] at starts
        obtain ⟨y, image, shape⟩ := List.exists_cons_of_ne_nil (lowerAmong_ne_nil (c := c) before cs)
        rw [shape, List.cons_append, List.cons_prefix_cons] at starts
        have mem : x ∈ lowerAmong before c cs := by simp [shape, starts.1]
        obtain ⟨alone, lower⟩ := lowerAmong_own first mem
        rw [shape, List.cons.injEq] at alone
        rw [alone.2, List.nil_append] at starts
        obtain ⟨word, after, rfl, same⟩ := (ih rest (c :: before) cs).1 starts.2
        exact ⟨c :: word, after, rfl, by rw [List.map_cons, lower, same]⟩
    · rintro ⟨word, after, rfl, same⟩
      cases word with
      | nil => cases same
      | cons c word =>
        rw [List.map_cons, List.cons.injEq] at same
        obtain ⟨rfl, same⟩ := same
        rw [List.cons_append, lowerAfter_cons, lowerAmong_toLower first, List.singleton_append, List.cons_prefix_cons]
        exact ⟨rfl, (ih rest _ _).2 ⟨word, after, rfl, same⟩⟩

theorem infix_lowerAfter (own : ∀ x ∈ part, IsOwn x) (before cs : List Char) :
    part <:+: lowerAfter before cs ↔ ∃ front word after, cs = front ++ (word ++ after) ∧ word.map Char.toLower = part := by
  cases part with
  | nil => exact iff_of_true (List.nil_infix) ⟨[], [], cs, rfl, rfl⟩
  | cons x part =>
    induction cs generalizing before with
    | nil =>
      refine iff_of_false (by simp [lowerAfter]) ?_
      rintro ⟨front, word, after, shape, same⟩
      simp only [List.nil_eq, List.append_eq_nil_iff] at shape
      rw [shape.2.1] at same
      cases same
    | cons c cs ih =>
      constructor
      · intro inside
        have further (later : x :: part <:+: lowerAfter (c :: before) cs) :
            ∃ front word after, c :: cs = front ++ (word ++ after) ∧ word.map Char.toLower = x :: part := by
          obtain ⟨front, word, after, rfl, same⟩ := (ih _).1 later
          exact ⟨c :: front, word, after, rfl, same⟩
        rw [lowerAfter_cons] at inside
        -- where the first letter comes from the first character, nothing else comes from that character
        by_cases mem : x ∈ lowerAmong before c cs
        · have alone := (lowerAmong_own (own x (by simp)) mem).1
          rw [alone, List.singleton_append, List.infix_cons_iff] at inside
          rcases inside with here | later
          · have starts : x :: part <+: lowerAfter before (c :: cs) := by rwa [lowerAfter_cons, alone]
            obtain ⟨word, after, shape, same⟩ := (prefix_lowerAfter own before _).1 starts
            exact ⟨[], word, after, shape, same⟩
          · exact further later
        · exact further (infix_of_append mem inside)
      · rintro ⟨front, word, after, shape, same⟩
        cases front with
        | nil => exact ((prefix_lowerAfter own before _).2 ⟨word, after, shape, same⟩).isInfix
        | cons d front =>
          cases shape
          exact ((ih _).2 ⟨front, word, after, rfl, same⟩).trans (List.suffix_append _ _).isInfix

/-- A word of such characters stands in the lower case of a text just if it stands in the text, in letters of any case. -/
theorem infix_lower (own : ∀ x ∈ part, IsOwn x) :
    part <:+: lower cs ↔ ∃ front word after, cs = front ++ (word ++ after) ∧ word.map Char.toLower = part :=
  infix_lowerAfter own [] cs

end Drift.Text
