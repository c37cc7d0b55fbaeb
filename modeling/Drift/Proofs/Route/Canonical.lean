import Drift.Proofs.Recognizer.Replace
import Drift.Proofs.Route.Segments

namespace Drift.Route

open Recognizer

def Spelling.withoutAngles : Spelling → Spelling
  | angles => braces
  | converted _ => braces
  | s => s

theorem angleParameter_forgetful : angleParameter.Forgetful := .char_bind

theorem colonParameter_forgetful : colonParameter.Forgetful := .char_bind

theorem angleParameter_refuses {c : Char} {t : List Char} (other : c ≠ '<') :
    angleParameter.first (.start (c :: t)) = none :=
  Refuses.first (.bind (.char (by simpa using other)))

theorem colonParameter_refuses {c : Char} {t : List Char} (other : c ≠ ':') :
    colonParameter.first (.start (c :: t)) = none :=
  Refuses.first (.bind (.char (by simpa using other)))

theorem not_closing_of_isWord {c : Char} (word : Text.isWord c = true) : (c != '>') = true := by
  simpa using (not_sign_of_isWord word).2.2.2.1

theorem not_separator_of_isWord {c : Char} (word : Text.isWord c = true) : (c != ':' && c != '>') = true := by
  obtain ⟨-, colon, -, closing, -⟩ := not_sign_of_isWord word
  simp [colon, closing]

theorem angleParameter_angles (n : Text.Run Text.isWord) (t : List Char) :
    angleParameter.Prefers (.start ('<' :: (n.text ++ '>' :: t))) n.text ⟨some '>', t⟩ := by
  have name : ∀ c ∈ n.text, (c != '>') = true := fun c mem => not_closing_of_isWord (n.fits c mem)
  have inner : ∀ c ∈ n.text, (c != ':' && c != '>') = true := fun c mem => not_separator_of_isWord (n.fits c mem)
  refine .after (.char rfl) (.after (.optional_none ?_) (.after (.run1_append n.nonempty name (by simp)) ?_))
  · exact .after (.run1_append n.nonempty inner (by simp)) (.char rfl)
  · exact .after (.char rfl) Reads.pure.prefers

theorem angleParameter_converted (k n : Text.Run Text.isWord) (t : List Char) :
    angleParameter.Prefers (.start ('<' :: (k.text ++ ':' :: (n.text ++ '>' :: t)))) n.text ⟨some '>', t⟩ := by
  have name : ∀ c ∈ n.text, (c != '>') = true := fun c mem => not_closing_of_isWord (n.fits c mem)
  have inner : ∀ c ∈ k.text, (c != ':' && c != '>') = true := fun c mem => not_separator_of_isWord (k.fits c mem)
  have converter : (do
      let _ ← run1 fun c => c != ':' && c != '>'
      Recognizer.char (· == ':')).Prefers ⟨some '<', k.text ++ ':' :: (n.text ++ '>' :: t)⟩ ':'
        ⟨some ':', n.text ++ '>' :: t⟩ :=
    .after (.run1_append k.nonempty inner (by simp)) (Reads.char rfl).prefers
  refine .after (.char rfl) (.bind (.optional_some converter) ?_)
  refine .after (.run1_append n.nonempty name (by simp)) ?_
  exact .after (.char rfl) Reads.pure.prefers

theorem colonParameter_colon (n : Text.Run Text.isWord) {t : List Char} (stop : ∀ c ∈ t.head?, Text.isWord c = false) :
    colonParameter.first (.start (':' :: (n.text ++ t))) = some (n.text, ⟨n.text.getLast? <|> some ':', t⟩) :=
  Prefers.first (.after (.char rfl) (Reads.run1_append n.nonempty n.fits stop).prefers)

theorem angle_not_mem_literal (l : Text.Run isLiteralChar) : '<' ∉ l.text := fun mem =>
  (isLiteralChar_iff.1 (l.fits _ mem)).2.2.2.1 rfl

theorem angle_not_mem_name (n : Text.Run Text.isWord) : '<' ∉ n.text := fun mem =>
  (not_sign_of_isWord (n.fits _ mem)).2.2.1 rfl

theorem replace_angles_passed {w : List Char} (none : '<' ∉ w) (t : List Char) :
    angleParameter.replace braced (w ++ t) = w ++ angleParameter.replace braced t := by
  refine angleParameter_forgetful.replace_passed fun c mem u => angleParameter_refuses ?_
  rintro rfl
  exact none mem

theorem replace_angles (spelling : Spelling) (s : Segment) (t : List Char) :
    angleParameter.replace braced (s.write spelling ++ t) =
      s.write spelling.withoutAngles ++ angleParameter.replace braced t := by
  cases s with
  | literal l => exact replace_angles_passed (angle_not_mem_literal l) t
  | parameter n =>
    have name := angle_not_mem_name n
    -- only the two spellings in angle brackets are read; what they leave holds no bracket any more
    cases spelling with
    | colon => exact replace_angles_passed (by simpa [Segment.write, Spelling.write] using name) t
    | braces => exact replace_angles_passed (by simpa [Segment.write, Spelling.write, braced] using name) t
    | angles =>
      have reading := (angleParameter_angles n t).first
      have replaced := angleParameter_forgetful.replace_reading (f := braced) (w := n.text ++ ['>'])
        (by simpa using reading)
      simpa [Segment.write, Spelling.write, Spelling.withoutAngles] using replaced
    | converted k =>
      have reading := (angleParameter_converted k n t).first
      have replaced := angleParameter_forgetful.replace_reading (f := braced)
        (w := k.text ++ ':' :: (n.text ++ ['>'])) (by simpa using reading)
      simpa [Segment.write, Spelling.write, Spelling.withoutAngles] using replaced

theorem colon_not_mem_literal (l : Text.Run isLiteralChar) : ':' ∉ l.text := fun mem =>
  (isLiteralChar_iff.1 (l.fits _ mem)).2.2.1 rfl

theorem colon_not_mem_braced (n : Text.Run Text.isWord) : ':' ∉ braced n.text := by
  have name : ':' ∉ n.text := fun mem => (not_sign_of_isWord (n.fits _ mem)).2.1 rfl
  simpa [braced] using name

theorem replace_colons_passed {w : List Char} (none : ':' ∉ w) (t : List Char) :
    colonParameter.replace braced (w ++ t) = w ++ colonParameter.replace braced t := by
  refine colonParameter_forgetful.replace_passed fun c mem u => colonParameter_refuses ?_
  rintro rfl
  exact none mem

theorem replace_colons (spelling : Spelling) (s : Segment) {t : List Char} (stop : ∀ c ∈ t.head?, c = '/') :
    colonParameter.replace braced (s.write spelling.withoutAngles ++ t) =
      s.write .braces ++ colonParameter.replace braced t := by
  cases s with
  | literal l => exact replace_colons_passed (colon_not_mem_literal l) t
  | parameter n =>
    cases spelling with
    | colon =>
      refine colonParameter_forgetful.replace_reading (colonParameter_colon n fun c mem => ?_)
      rw [stop c mem]
      decide
    | _ => exact replace_colons_passed (colon_not_mem_braced n) t

theorem replace_core {α ι : Type} {r : Recognizer α} {f : α → List Char} (text image : ι → List Char)
    (items : List ι) (forgetful : r.Forgetful) (none : ∀ t, r.first (.start ('/' :: t)) = none)
    (each : ∀ i ∈ items, ∀ t, (∀ c ∈ t.head?, c = '/') → r.replace f (text i ++ t) = image i ++ r.replace f t)
    (leading trailing : Bool) :
    r.replace f (Written.slash leading ++ (Text.joinWith ['/'] (items.map text) ++ Written.slash trailing)) =
      Written.slash leading ++ (Text.joinWith ['/'] (items.map image) ++ Written.slash trailing) := by
  have slashes : ∀ (there : Bool) (t : List Char),
      r.replace f (Written.slash there ++ t) = Written.slash there ++ r.replace f t := by
    intro there t
    cases there with
    | false => rfl
    | true => exact forgetful.replace_cons (none t)
  have stop : ∀ c ∈ (Written.slash trailing).head?, c = '/' := by
    cases trailing <;> simp [Written.slash]
  have last := slashes trailing []
  rw [List.append_nil, replace_nil, List.append_nil] at last
  rw [slashes, forgetful.replace_joinWith none each stop, last]

/-- The texts of segments with slashes between them start and end with no slash. -/
theorem ends_joinWith {texts : List (List Char)} (filled : ∀ t ∈ texts, t ≠ []) (noSlash : ∀ t ∈ texts, '/' ∉ t) :
    (∀ c ∈ (Text.joinWith ['/'] texts).head?, (c == '/') = false) ∧
      ∀ c ∈ (Text.joinWith ['/'] texts).getLast?, (c == '/') = false := by
  have other : ∀ {c : Char} {t : List Char}, t ∈ texts → c ∈ t → (c == '/') = false := by
    intro c t inside mem
    rw [beq_eq_false_iff_ne]
    rintro rfl
    exact noSlash t inside mem
  refine ⟨fun c mem => ?_, fun c mem => ?_⟩
  · obtain ⟨t, inside, mem⟩ := Text.head_joinWith filled mem
    exact other inside mem
  · obtain ⟨t, inside, mem⟩ := Text.last_joinWith filled mem
    exact other inside mem

theorem trimmed_core (texts : List (List Char)) (filled : ∀ t ∈ texts, t ≠ [])
    (noSlash : ∀ t ∈ texts, '/' ∉ t) (leading trailing : Bool) :
    (dropLastSlash (Written.slash leading ++ (Text.joinWith ['/'] texts ++ Written.slash trailing))).dropWhile
      (· == '/') = Text.joinWith ['/'] texts := by
  -- without any segment the slash that is not cut off behind is dropped in front
  by_cases empty : Text.joinWith ['/'] texts = []
  · rw [empty]
    cases leading <;> cases trailing <;> rfl
  · obtain ⟨head, last⟩ := ends_joinWith filled noSlash
    have cut : dropLastSlash (Written.slash leading ++ (Text.joinWith ['/'] texts ++ Written.slash trailing)) =
        Written.slash leading ++ Text.joinWith ['/'] texts := by
      rw [dropLastSlash, ← List.append_assoc]
      cases trailing with
      | true =>
        have longer : 0 < (Text.joinWith ['/'] texts).length := List.length_pos_iff.2 empty
        rw [if_pos]
        · simp [Written.slash]
        · simp [Written.slash]
          omega
      | false =>
        have ends : (Written.slash leading ++ Text.joinWith ['/'] texts).getLast? ≠ some '/' := by
          intro slash
          rw [List.getLast?_append, List.getLast?_eq_some_getLast empty] at slash
          rw [List.getLast?_eq_some_getLast empty] at last
          exact absurd (last '/' slash) (by decide)
        have none : Written.slash false = [] := rfl
        rw [none, List.append_nil, if_neg fun both => ends both.2]
    rw [cut]
    cases leading with
    | false => exact Text.dropWhile_of_head head
    | true => exact Text.dropWhile_of_head head

namespace Written

theorem not_blank_of_mem_core {p : Written} {c : Char} (mem : c ∈ p.core) : Text.isBlank c = false := by
  have slashes : ∀ there : Bool, c ∈ slash there → Text.isBlank c = false := by
    intro there mem
    cases there with
    | false => simp [slash] at mem
    | true =>
      simp only [slash, ↓reduceIte, List.mem_singleton] at mem
      subst mem
      decide
  rcases List.mem_append.1 mem with mem | mem
  · exact slashes _ mem
  · rcases List.mem_append.1 mem with mem | mem
    · rcases Text.mem_joinWith mem with mem | ⟨t, piece, mem⟩
      · exact slashes true mem
      · obtain ⟨⟨spelling, s⟩, -, rfl⟩ := List.mem_map.1 piece
        exact isBlank_of_mem_write mem
    · exact slashes _ mem

theorem trim_text (p : Written) : Text.trim p.text = p.core :=
  Text.trim_surrounded p.frontBlank p.backBlank fun _ => not_blank_of_mem_core

/-- However a path is written, its normal form is the canonical form of its segments. -/
theorem normalizeChars_text (p : Written) : normalizeChars p.text = canonical p.segments := by
  -- the second pass sees what the first has left: parameters with a colon, or in braces
  have angles := replace_core (f := braced) (fun i => i.2.write i.1) (fun i => i.2.write i.1.withoutAngles)
    p.pieces angleParameter_forgetful (fun _ => angleParameter_refuses (by decide))
    (fun i _ t _ => replace_angles i.1 i.2 t) p.leading p.trailing
  have colons := replace_core (f := braced) (fun i => i.2.write i.1.withoutAngles) (fun i => i.2.write .braces)
    p.pieces colonParameter_forgetful (fun _ => colonParameter_refuses (by decide))
    (fun i _ t stop => replace_colons i.1 i.2 stop) p.leading p.trailing
  have texts : p.segments.map (Segment.write .braces) = p.pieces.map fun i => i.2.write .braces := by
    rw [segments, List.map_map]
    rfl
  have trimmed := trimmed_core (p.segments.map (Segment.write .braces)) (fun _ => filled_of_mem_written)
    (fun _ => noSlash_of_mem_written) p.leading p.trailing
  rw [texts] at trimmed
  simp only [normalizeChars, trim_text, core]
  rw [angles, colons, trimmed, canonical, write, texts]

end Written

theorem normalizeChars_write (spelling : Spelling) (segments : List Segment) :
    normalizeChars (write spelling segments) = canonical segments := by
  have normal := Written.normalizeChars_text (.plain spelling segments)
  rwa [Written.text_plain, Written.segments_plain] at normal

/-- However a path is written, normalizing it yields the canonical form of its segments. So two paths are
the same route exactly if their segments are the same, and a normal form is its own. -/
theorem normalize_identifies_routes (p q : Written) :
    normalize (String.ofList p.text) = String.ofList (canonical p.segments) ∧
      (normalize (String.ofList p.text) = normalize (String.ofList q.text) ↔ p.segments = q.segments) ∧
      normalize (normalize (String.ofList p.text)) = normalize (String.ofList p.text) := by
  have normal : ∀ p : Written, normalize (String.ofList p.text) = String.ofList (canonical p.segments) := by
    intro p
    rw [normalize, String.toList_ofList, p.normalizeChars_text]
  refine ⟨normal p, ?_, ?_⟩
  · rw [normal p, normal q, String.ofList_inj]
    exact ⟨canonical_injective, congrArg canonical⟩
  · rw [normal p, normalize, String.toList_ofList, canonical, normalizeChars_write]
    rfl

end Drift.Route
