import Drift.Proofs.Route.Canonical

namespace Drift.Route

open Recognizer

theorem colonParameter_alone {c : Char} {t : List Char} (alone : c = ':' → ∀ x ∈ t.head?, Text.isWord x = false) :
    colonParameter.first (.start (c :: t)) = none := by
  by_cases colon : c = ':'
  · subst colon
    have stop := alone rfl
    refine Refuses.first (.after (.char rfl) ?_)
    cases t with
    | nil => exact .bind .char_nil
    | cons x t => exact .bind (.char (stop x rfl))
  · exact colonParameter_refuses colon

/-- A text from parameter to parameter: what is passed between them is no colon, or a colon that starts none. -/
theorem colons_induction {P : List Char → Prop} (nil : P [])
    (passed : ∀ c t, (c = ':' → ∀ x ∈ t.head?, Text.isWord x = false) → P t → P (c :: t))
    (parameter : ∀ (n : Text.Run Text.isWord) t, (∀ x ∈ t.head?, Text.isWord x = false) → P t → P (':' :: (n.text ++ t)))
    (t : List Char) : P t := by
  induction length : t.length using Nat.strongRecOn generalizing t with
  | ind k ih =>
    cases t with
    | nil => exact nil
    | cons c t =>
      by_cases starts : c = ':' ∧ t.head?.any Text.isWord = true
      case neg =>
        refine passed c t (fun colon x head => ?_) (ih t.length (length ▸ Nat.lt_succ_self _) t rfl)
        rw [Bool.eq_false_iff]
        intro word
        exact starts ⟨colon, (Option.any_eq_true _ _).2 ⟨x, head, word⟩⟩
      case pos =>
        obtain ⟨rfl, some⟩ := starts
        obtain ⟨n, u, rfl, stop⟩ := Text.exists_run some
        have shorter : u.length < k := by
          rw [← length, List.length_cons, List.length_append]
          omega
        exact parameter n u stop (ih u.length shorter u rfl)

def braceColons (t : List Char) : List Char := colonParameter.replace braced t

theorem braceColons_passed {c : Char} {t : List Char} (alone : c = ':' → ∀ x ∈ t.head?, Text.isWord x = false) :
    braceColons (c :: t) = c :: braceColons t :=
  colonParameter_forgetful.replace_cons (colonParameter_alone alone)

theorem braceColons_parameter (n : Text.Run Text.isWord) {t : List Char} (stop : ∀ x ∈ t.head?, Text.isWord x = false) :
    braceColons (':' :: (n.text ++ t)) = braced n.text ++ braceColons t :=
  colonParameter_forgetful.replace_reading (colonParameter_colon n stop)

/-- A parameter ends in front of a character that is no word character, and none starts with it unless it is a colon. -/
theorem braceColons_append {c : Char} (word : Text.isWord c = false) (other : c ≠ ':') (t u : List Char) :
    braceColons (t ++ c :: u) = braceColons t ++ c :: braceColons u := by
  have stop : ∀ {t : List Char}, (∀ x ∈ t.head?, Text.isWord x = false) → ∀ x ∈ (t ++ c :: u).head?, Text.isWord x = false := by
    intro t head
    cases t with
    | nil => simpa using word
    | cons x t => exact head
  induction t using colons_induction with
  | nil => exact braceColons_passed fun colon => absurd colon other
  | passed d t alone ih =>
    rw [braceColons_passed alone, List.cons_append, braceColons_passed fun colon => stop (alone colon), ih]
    rfl
  | parameter n t ends ih =>
    rw [braceColons_parameter n ends, List.cons_append, List.append_assoc, braceColons_parameter n (stop ends), ih,
      List.append_assoc]

theorem mem_braceColons {x : Char} {t : List Char} (mem : x ∈ braceColons t) : x ∈ t ∨ x = '{' ∨ x = '}' := by
  induction t using colons_induction with
  | nil => cases mem
  | passed c t alone ih =>
    rw [braceColons_passed alone, List.mem_cons] at mem
    rcases mem with rfl | mem
    · exact .inl List.mem_cons_self
    · exact (ih mem).imp_left (List.mem_cons_of_mem c)
  | parameter n t ends ih =>
    rw [braceColons_parameter n ends, braced] at mem
    simp only [List.cons_append, List.append_assoc, List.nil_append, List.mem_cons, List.mem_append] at mem ⊢
    rcases mem with opening | name | closing | later
    · exact .inr (.inl opening)
    · exact .inl (.inr (.inl name))
    · exact .inr (.inr closing)
    · exact (ih later).imp_left fun inside => .inr (.inr inside)

theorem braceColons_eq_self_iff (t : List Char) :
    braceColons t = t ↔ ∀ w, Text.isWord w = true → ¬ [':', w] <:+: t := by
  induction t using colons_induction with
  | nil => exact iff_of_true rfl fun w _ inside => absurd (List.infix_nil.1 inside) (List.cons_ne_nil _ _)
  | passed c t alone ih =>
    rw [braceColons_passed alone, List.cons_inj_right, ih]
    refine forall_congr' fun w => imp_congr_right fun word => not_congr ?_
    rw [List.infix_cons_iff, or_iff_right]
    rintro ⟨rest, whole⟩
    cases whole
    rw [alone rfl w rfl] at word
    cases word
  | parameter n t ends ih =>
    obtain ⟨w, rest, shape, word, -⟩ := n.exists_head
    rw [braceColons_parameter n ends]
    refine iff_of_false (fun same => ?_) fun none => ?_
    · cases same
    · refine none w word ?_
      rw [shape]
      exact List.IsPrefix.isInfix ⟨rest ++ t, rfl⟩

namespace Template

/-- A character between braces: neither blank nor a slash nor a bracket. A colon may stand there. -/
def isPlaceholderChar (c : Char) : Bool := !(Text.isBlank c || ['/', '<', '>', '{', '}'].contains c)

inductive Segment where
  | literal (text : Text.Run isLiteralChar)
  | placeholder (text : Text.Run isPlaceholderChar)

namespace Segment

def text : Segment → List Char
  | literal t => t.text
  | placeholder t => braced t.text

def Constrained : Segment → Prop
  | literal _ => False
  | placeholder t => ∃ w, Text.isWord w = true ∧ [':', w] <:+: t.text

variable (s : Segment)

theorem text_ne_nil : s.text ≠ [] := by
  cases s with
  | literal t => exact t.nonempty
  | placeholder t => exact List.cons_ne_nil _ _

theorem not_sign_of_mem_text {c : Char} (mem : c ∈ s.text) : Text.isBlank c = false ∧ c ≠ '/' ∧ c ≠ '<' := by
  cases s with
  | literal t =>
    obtain ⟨blank, slash, -, angle, -⟩ := isLiteralChar_iff.1 (t.fits c mem)
    exact ⟨blank, slash, angle⟩
  | placeholder t =>
    simp only [text, braced, List.cons_append, List.mem_cons, List.mem_append, List.not_mem_nil, or_false] at mem
    rcases mem with rfl | mem | rfl
    · decide
    · have fits := t.fits c mem
      simp only [isPlaceholderChar, Bool.not_or, Bool.and_eq_true, Bool.not_eq_true', List.contains_eq_mem, List.mem_cons,
        decide_eq_false_iff_not, not_or] at fits
      exact ⟨fits.1, fits.2.1, fits.2.2.1⟩
    · decide

/-- The braces are no part of a parameter, so only what stands between them matters. -/
theorem braceColons_text :
    braceColons s.text = match s with
      | literal t => t.text
      | placeholder t => braced (braceColons t.text) := by
  cases s with
  | literal t =>
    refine (braceColons_eq_self_iff t.text).2 fun w _ inside => ?_
    exact colon_not_mem_literal t (inside.subset List.mem_cons_self)
  | placeholder t =>
    have closed : braceColons (t.text ++ ['}']) = braceColons t.text ++ '}' :: braceColons [] :=
      braceColons_append (by decide) (by decide) t.text []
    have opened : braceColons ('{' :: (t.text ++ ['}'])) = '{' :: braceColons (t.text ++ ['}']) :=
      braceColons_passed fun colon => absurd colon (by decide)
    rw [text, braced, List.cons_append, opened, closed]
    rfl

theorem braceColons_text_eq_iff : braceColons s.text = s.text ↔ ¬ s.Constrained := by
  rw [braceColons_text]
  cases s with
  | literal t => exact iff_of_true rfl not_false
  | placeholder t =>
    have inner : braced (braceColons t.text) = braced t.text ↔ braceColons t.text = t.text := by simp [braced]
    rw [text, inner, braceColons_eq_self_iff, Constrained]
    simp

end Segment

def path (segments : List Segment) : List Char := '/' :: Text.joinWith ['/'] (segments.map Segment.text)

theorem not_sign_of_mem_path {segments : List Segment} {c : Char} (mem : c ∈ path segments) :
    Text.isBlank c = false ∧ c ≠ '<' := by
  have slash : Text.isBlank '/' = false ∧ '/' ≠ '<' := by decide
  rcases List.mem_cons.1 mem with rfl | mem
  · exact slash
  · rcases Text.mem_joinWith mem with mem | ⟨t, written, mem⟩
    · rwa [List.mem_singleton.1 mem]
    · obtain ⟨s, -, rfl⟩ := List.mem_map.1 written
      obtain ⟨blank, -, angle⟩ := s.not_sign_of_mem_text mem
      exact ⟨blank, angle⟩

theorem filled_of_mem_texts {segments : List Segment} {t : List Char} (mem : t ∈ segments.map fun s => braceColons s.text) :
    t ≠ [] ∧ '/' ∉ t := by
  obtain ⟨s, -, rfl⟩ := List.mem_map.1 mem
  refine ⟨?_, fun slash => ?_⟩
  · rw [s.braceColons_text]
    cases s with
    | literal t => exact t.nonempty
    | placeholder t => exact List.cons_ne_nil _ _
  · rcases mem_braceColons slash with inside | brace | brace
    · exact (s.not_sign_of_mem_text inside).2.1 rfl
    · exact absurd brace (by decide)
    · exact absurd brace (by decide)

theorem normalizeChars_path (segments : List Segment) :
    normalizeChars (path segments) = '/' :: Text.joinWith ['/'] (segments.map fun s => braceColons s.text) := by
  have trimmed : Text.trim (path segments) = path segments :=
    Text.trim_eq_self (fun c mem => (not_sign_of_mem_path (List.mem_of_mem_head? mem)).1)
      fun c mem => (not_sign_of_mem_path (List.mem_of_getLast? mem)).1
  have angles : angleParameter.replace braced (path segments) = path segments := by
    have none : '<' ∉ path segments := fun mem => (not_sign_of_mem_path mem).2 rfl
    simpa using replace_angles_passed none []
  have colons : colonParameter.replace braced (path segments) =
      '/' :: Text.joinWith ['/'] (segments.map fun s => braceColons s.text) := by
    have each : ∀ s ∈ segments, ∀ t, (∀ c ∈ t.head?, c = '/') →
        colonParameter.replace braced (s.text ++ t) = braceColons s.text ++ colonParameter.replace braced t := by
      intro s _ t stop
      cases t with
      | nil => simp [braceColons]
      | cons c t =>
        obtain rfl := stop c rfl
        have behind : braceColons ('/' :: t) = '/' :: braceColons t := braceColons_passed fun colon => absurd colon (by decide)
        exact (braceColons_append (by decide) (by decide) s.text t).trans (congrArg (braceColons s.text ++ ·) behind.symm)
    have whole := replace_core Segment.text (fun s => braceColons s.text) segments colonParameter_forgetful
      (fun _ => colonParameter_refuses (by decide)) each true false
    simpa [Written.slash, path] using whole
  have cut := trimmed_core (segments.map fun s => braceColons s.text) (fun t mem => (filled_of_mem_texts mem).1)
    (fun t mem => (filled_of_mem_texts mem).2) true false
  rw [normalizeChars, trimmed, angles, colons]
  simpa [Written.slash] using cut

/-- The normal form of a path with its parameters in braces is taken segment by segment: what is a parameter with a
colon elsewhere is taken for one within braces as well. So such a path is its own normal form exactly if no placeholder
names a constraint. -/
theorem normalize_template (segments : List Segment) :
    normalize (String.ofList (path segments)) =
      String.ofList ('/' :: Text.joinWith ['/'] (segments.map fun s => braceColons s.text)) ∧
    (normalize (String.ofList (path segments)) = String.ofList (path segments) ↔ ∀ s ∈ segments, ¬ s.Constrained) := by
  have normal : normalize (String.ofList (path segments)) =
      String.ofList ('/' :: Text.joinWith ['/'] (segments.map fun s => braceColons s.text)) := by
    rw [normalize, String.toList_ofList, normalizeChars_path]
  refine ⟨normal, ?_⟩
  have same : normalize (String.ofList (path segments)) = String.ofList (path segments) ↔
      ∀ s ∈ segments, braceColons s.text = s.text := by
    rw [normal, String.ofList_inj, path, List.cons_inj_right, ← List.map_inj_left]
    refine ⟨fun joined => ?_, congrArg _⟩
    refine Text.joinWith_injective (fun t mem => (filled_of_mem_texts mem).1) ?_ (fun t mem => (filled_of_mem_texts mem).2) ?_ joined
    · intro t mem
      obtain ⟨s, -, rfl⟩ := List.mem_map.1 mem
      exact s.text_ne_nil
    · intro t mem slash
      obtain ⟨s, -, rfl⟩ := List.mem_map.1 mem
      exact (s.not_sign_of_mem_text slash).2.1 rfl
  rw [same]
  exact forall₂_congr fun s _ => s.braceColons_text_eq_iff

example : normalize "/users/\x7bid:int\x7d" = "/users/\x7bid\x7bint\x7d\x7d" := by decide

end Template

end Drift.Route
