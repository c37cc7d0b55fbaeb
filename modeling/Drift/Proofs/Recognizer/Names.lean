import Drift.Proofs.Recognizer.Preferred
import Drift.Proofs.Recognizer.Readings
import Drift.Proofs.Text.Characters

namespace Drift.Recognizer

variable {b : Option Char} {t : List Char}

theorem ascii_of_isAlpha {c : Char} (alpha : c.isAlpha = true) : c.toNat < 128 := by
  have below : ∀ {last : Char}, last.toNat < 128 → c.val ≤ last.val → c.toNat < 128 := fun small le =>
    Nat.lt_of_le_of_lt (UInt32.le_iff_toNat_le.1 le) small
  rcases (Bool.or_eq_true c.isUpper c.isLower).mp alpha with upper | lower
  · have range : c.val ≥ 'A'.val ∧ c.val ≤ 'Z'.val := of_decide_eq_true upper
    exact below (by decide) range.2
  · have range : (decide (c.val ≥ 'a'.val) && decide (c.val ≤ 'z'.val)) = true := lower
    rw [Bool.and_eq_true, decide_eq_true_eq, decide_eq_true_eq] at range
    exact below (by decide) range.2

theorem isWord_of_isLetter {c : Char} (letter : isLetter c = true) : Text.isWord c = true := by
  rw [isLetter, Bool.or_eq_true, beq_iff_eq] at letter
  rcases letter with alpha | rfl
  · rw [Text.isWord_of_ascii (ascii_of_isAlpha alpha), Text.isAsciiWord, Char.isAlphanum, alpha]
    rfl
  · decide

theorem isBlank_of_isDottedWord {c : Char} (word : isDottedWord c = true) : Text.isBlank c = false :=
  Text.isBlank_of_class (p := isDottedWord) (by decide +kernel) word

theorem Reads.keyword {w : String} (g : Text.Run Text.isBlank) (stop : ∀ c ∈ t.head?, Text.isBlank c = false) :
    (keyword w).Reads ⟨b, w.toList ++ (g.text ++ t)⟩ () ⟨g.text.getLast? <|> (w.toList.getLast? <|> b), t⟩ :=
  Reads.bind .word (.gap1 g.nonempty g.fits stop)

theorem Yields.keyword (w : String) :
    (keyword w).Yields fun c _ c' => ∃ g : Text.Run Text.isBlank, c.rest = w.toList ++ (g.text ++ c'.rest) := by
  refine (Yields.bind (.text w.toList) fun _ => .skip (.run1 Text.isBlank)).mono ?_
  rintro c _ c'' ⟨-, c', first, g, rest, nonempty, blank⟩
  exact ⟨⟨g, nonempty, blank⟩, by rw [first, rest]⟩

structure Identifier where
  first : Char
  rest : List Char
  letter : isLetter first = true
  word : ∀ c ∈ rest, Text.isWord c = true
  deriving DecidableEq

namespace Identifier

def text (n : Identifier) : List Char := n.first :: n.rest

theorem filled (n : Identifier) : n.text ≠ [] := List.cons_ne_nil _ _

theorem isWord (n : Identifier) : ∀ c ∈ n.text, Text.isWord c = true :=
  List.forall_mem_cons.2 ⟨isWord_of_isLetter n.letter, n.word⟩

end Identifier

theorem Reads.identifier {n : Identifier} (stop : ∀ c ∈ t.head?, Text.isWord c = false) :
    identifier.Reads ⟨b, n.text ++ t⟩ n.text ⟨n.rest.getLast? <|> some n.first, t⟩ :=
  Reads.name n.letter n.word stop

theorem Yields.identifier :
    identifier.Yields fun c w c' => ∃ n : Identifier, w = n.text ∧ c.rest = n.text ++ c'.rest := by
  refine (Yields.bind .char fun x => .bind (.run Text.isWord) fun w => .pure (x :: w)).mono ?_
  rintro c _ _ ⟨x, c', ⟨letter, first⟩, w, _, ⟨rest, word⟩, rfl, rfl⟩
  exact ⟨⟨x, w, letter, word⟩, rfl, by rw [first, rest]; rfl⟩

theorem isBlank_of_isDollarWord {c : Char} (word : isDollarWord c = true) : Text.isBlank c = false :=
  Text.isBlank_of_class (p := isDollarWord) (by decide +kernel) word

/-- A letter, an underscore or a dollar sign, and word characters or dollar signs. -/
structure DollarName where
  first : Char
  rest : List Char
  letter : isDollarLetter first = true
  word : ∀ c ∈ rest, isDollarWord c = true
  deriving DecidableEq

namespace DollarName

def text (n : DollarName) : List Char := n.first :: n.rest

theorem filled (n : DollarName) : n.text ≠ [] := List.cons_ne_nil _ _

theorem isDollarWord (n : DollarName) : ∀ c ∈ n.text, isDollarWord c = true := by
  refine List.forall_mem_cons.2 ⟨?_, n.word⟩
  have letter := n.letter
  rw [isDollarLetter, Bool.or_eq_true] at letter
  rw [Recognizer.isDollarWord, Bool.or_eq_true]
  exact letter.imp_left isWord_of_isLetter

theorem isBlank (n : DollarName) : ∀ c ∈ n.text, Text.isBlank c = false := fun c mem =>
  isBlank_of_isDollarWord (n.isDollarWord c mem)

end DollarName

theorem Reads.dollarIdentifier {n : DollarName} (stop : ∀ c ∈ t.head?, isDollarWord c = false) :
    dollarIdentifier.Reads ⟨b, n.text ++ t⟩ n.text ⟨n.rest.getLast? <|> some n.first, t⟩ :=
  Reads.name n.letter n.word stop

theorem Reads.atEnd : atEnd.Reads ⟨b, []⟩ () ⟨b, []⟩ := fun _ _ => rfl

theorem Yields.atEnd : atEnd.Yields fun c _ _ => c.rest = [] := by
  intro ρ c k x h
  rw [Recognizer.atEnd] at h
  split at h
  · rename_i ended
    exact ⟨(), c, List.isEmpty_iff.1 ended, h⟩
  · cases h

theorem isIdentifier_iff : isIdentifier t = true ↔ ∃ n : Identifier, t = n.text := by
  rw [isIdentifier, accepts, Option.isSome_iff_exists]
  constructor
  · rintro ⟨w, reading⟩
    have all := Yields.bind Yields.identifier fun w => Yields.bind Yields.atEnd fun _ => Yields.pure w
    obtain ⟨-, -, c', ⟨n, -, whole⟩, -, -, ended, -⟩ := all.of_atStart reading
    rw [ended, List.append_nil] at whole
    exact ⟨n, whole⟩
  · rintro ⟨n, rfl⟩
    have start : Cursor.start n.text = ⟨none, n.text ++ []⟩ := by rw [List.append_nil, Cursor.start]
    refine ⟨n.text, ?_⟩
    apply Prefers.atStart
    rw [start]
    apply Prefers.after (.identifier (by simp))
    apply Prefers.after .atEnd
    exact Reads.pure.prefers

structure Aside (closing : Char) where
  inside : List Char
  free : closing ∉ inside
  blanks : List Char := []
  blank : ∀ c ∈ blanks, Text.isBlank c = true := by exact Text.isBlank_nil

namespace Aside

variable {closing : Char}

def text (opening : Char) (a : Aside closing) : List Char := opening :: (a.inside ++ closing :: a.blanks)

def textIfAny (opening : Char) : Option (Aside closing) → List Char
  | none => []
  | some a => a.text opening

theorem head_textIfAny {p : Char → Prop} {opening : Char} (a : Option (Aside closing)) (first : p opening)
    (other : ∀ c ∈ t.head?, p c) : ∀ c ∈ (textIfAny opening a ++ t).head?, p c := by
  cases a with
  | none => exact other
  | some a => simpa [textIfAny, text] using first

end Aside

def aside (opening closing : Char) : Recognizer Unit := do
  skip (group opening (isNot closing) closing)
  gap

theorem Reads.aside {o closing : Char} (a : Aside closing) (stop : ∀ x ∈ t.head?, Text.isBlank x = false) :
    (aside o closing).Reads ⟨b, a.text o ++ t⟩ () ⟨a.blanks.getLast? <|> some closing, t⟩ := by
  rw [Aside.text, List.cons_append, List.append_assoc, List.cons_append]
  exact Reads.bind (.skip (.group_until a.free)) (.gap a.blank stop)

theorem Yields.group_until (o closing : Char) :
    (group o (isNot closing) closing).Yields fun c w c' => c.rest = o :: (w ++ closing :: c'.rest) ∧ closing ∉ w := by
  rw [group, isNot, bne_self_eq_false, if_neg Bool.false_ne_true]
  refine (Yields.bind (.sign o) fun _ => .bind (.run _) fun w => .bind (.sign closing) fun _ => .pure w).mono ?_
  rintro c _ _ ⟨-, c₁, first, w, c₂, ⟨inside, free⟩, -, c₃, last, rfl, rfl⟩
  refine ⟨by rw [first, inside, last], fun mem => ?_⟩
  have other : (closing != closing) = true := free closing mem
  simp at other

theorem Yields.aside (o closing : Char) :
    (aside o closing).Yields fun c _ c' => ∃ a : Aside closing, c.rest = a.text o ++ c'.rest := by
  refine (Yields.bind (.skip (.group_until o closing)) fun _ => .gap).mono ?_
  rintro c _ c'' ⟨-, c', ⟨w, read, free⟩, blanks, rest, blank⟩
  exact ⟨⟨w, free, blanks, blank⟩, by simp [Aside.text, read, rest]⟩

theorem Prefers.asideIfAny {o closing : Char} (a : Option (Aside closing))
    (stop : ∀ x ∈ t.head?, Text.isBlank x = false ∧ x ≠ o) :
    ∃ b', (Recognizer.skip (optional (aside o closing))).Prefers ⟨b, Aside.textIfAny o a ++ t⟩ () ⟨b', t⟩ := by
  cases a with
  | some a => exact ⟨_, .skip (.optional_some (Reads.aside a fun x mem => (stop x mem).1).prefers)⟩
  | none =>
    have refused : (sign o).Refuses ⟨b, t⟩ := by
      cases t with
      | nil => exact .skip .char_nil
      | cons x t => exact .sign (stop x rfl).2
    exact ⟨b, .skip (Reads.optional_none (.bind (.skip (.bind refused)))).prefers⟩

theorem Yields.asideIfAny (o closing : Char) :
    (Recognizer.skip (Recognizer.optional (Recognizer.aside o closing))).Yields
      fun c _ c' => ∃ a : Option (Aside closing), c.rest = Aside.textIfAny o a ++ c'.rest := by
  refine (Yields.skip (.optional (.aside o closing))).mono ?_
  rintro c _ c' ⟨-, ⟨-, -, a, read⟩ | ⟨-, rfl⟩⟩
  · exact ⟨some a, read⟩
  · exact ⟨none, rfl⟩

end Drift.Recognizer
