import Drift.Check.Endpoints
import Drift.Proofs.Route.Canonical

namespace Drift.Route

namespace Written

def inner (p : Written) : List Char := Text.joinWith ['/'] (p.pieces.map fun (spelling, s) => s.write spelling)

theorem core_eq (p : Written) : p.core = slash p.leading ++ (p.inner ++ slash p.trailing) := rfl

def bare (leading trailing : Bool) (pieces : List (Spelling × Segment)) : Written where
  front := []
  back := []
  frontBlank := Text.isBlank_nil
  backBlank := Text.isBlank_nil
  leading
  trailing
  pieces

theorem text_bare (leading trailing : Bool) (pieces : List (Spelling × Segment)) :
    (bare leading trailing pieces).text = (bare leading trailing pieces).core := by
  simp [text, bare]

variable (p q : Written)

theorem filled_piece : ∀ t ∈ p.pieces.map fun (spelling, s) => Segment.write spelling s, t ≠ [] := by
  intro t mem
  obtain ⟨⟨spelling, s⟩, -, rfl⟩ := List.mem_map.1 mem
  exact write_ne_nil

theorem noSlash_piece : ∀ t ∈ p.pieces.map fun (spelling, s) => Segment.write spelling s, '/' ∉ t := by
  intro t mem
  obtain ⟨⟨spelling, s⟩, -, rfl⟩ := List.mem_map.1 mem
  exact slash_not_mem_write

theorem inner_eq_nil_iff : p.inner = [] ↔ p.pieces = [] := by
  constructor
  · intro empty
    simpa using Text.joinWith_eq_nil p.filled_piece empty
  · intro none
    rw [inner, none]
    rfl

theorem isSlash_of_mem_slash {there : Bool} : ∀ c ∈ slash there, (c == '/') = true := by
  cases there <;> simp [slash]

/-- The slashes behind the last segment are dropped; without any segment, those in front as well. -/
theorem trimRight_core :
    Text.trimRightWhile (· == '/') p.core = if p.pieces = [] then [] else slash p.leading ++ p.inner := by
  have gone : ∀ there, Text.trimRightWhile (· == '/') (slash there) = [] := by
    intro there
    cases there <;> rfl
  rw [core_eq]
  split
  case isTrue none =>
    rw [p.inner_eq_nil_iff.2 none]
    cases p.leading <;> cases p.trailing <;> rfl
  case isFalse some =>
    obtain ⟨-, last⟩ := ends_joinWith p.filled_piece p.noSlash_piece
    obtain ⟨front, c, ends⟩ := (List.eq_nil_or_concat p.inner).resolve_left (mt p.inner_eq_nil_iff.1 some)
    have stop : (c == '/') = false := last c (by rw [← inner, ends, List.concat_eq_append, List.getLast?_concat]; rfl)
    have kept := Text.trimRightWhile_append_cons (p := (· == '/')) stop (slash p.leading ++ front) (slash p.trailing)
    rw [gone] at kept
    simpa [ends] using kept

/-- The slash in front of the first segment is dropped; without any segment, that behind as well. -/
theorem dropWhile_core :
    p.core.dropWhile (· == '/') = if p.pieces = [] then [] else p.inner ++ slash p.trailing := by
  rw [core_eq, List.dropWhile_append_of_pos isSlash_of_mem_slash]
  split
  case isTrue none =>
    rw [p.inner_eq_nil_iff.2 none]
    cases p.trailing <;> rfl
  case isFalse some =>
    obtain ⟨head, -⟩ := ends_joinWith p.filled_piece p.noSlash_piece
    obtain ⟨c, rest, starts⟩ := List.exists_cons_of_ne_nil (mt p.inner_eq_nil_iff.1 some)
    refine Text.dropWhile_of_head fun d mem => head d ?_
    rw [starts] at mem
    rw [← inner, starts]
    exact mem

theorem pieces_of_core_nil (empty : p.core = []) : p.pieces = [] := by
  rw [core_eq, List.append_eq_nil_iff, List.append_eq_nil_iff] at empty
  exact p.inner_eq_nil_iff.1 empty.2.1

/-- Two paths that are joined are one path, written with the slashes at its ends that the two leave there. -/
theorem exists_join : ∃ leading trailing, join p.core q.core = (bare leading trailing (p.pieces ++ q.pieces)).core := by
  by_cases above : p.core = []
  · refine ⟨q.leading, q.trailing, ?_⟩
    rw [above, join_nil_left, p.pieces_of_core_nil above]
    rfl
  by_cases below : q.core = []
  · refine ⟨p.leading, p.trailing, ?_⟩
    rw [below, join_nil_right, q.pieces_of_core_nil below, List.append_nil]
    rfl
  have joined : join p.core q.core =
      Text.trimRightWhile (· == '/') p.core ++ '/' :: q.core.dropWhile (· == '/') := by
    simp [join, above, below]
  rw [joined, trimRight_core, dropWhile_core]
  by_cases some : p.pieces = []
  · -- the slash of the seam is all that is left in front
    refine ⟨true, if q.pieces = [] then false else q.trailing, ?_⟩
    by_cases more : q.pieces = []
    · simp [some, more, core_eq, bare, inner, slash]
      rfl
    · simp [some, more, core_eq, bare, inner, slash]
  · by_cases more : q.pieces = []
    · exact ⟨p.leading, true, by simp [some, more, core_eq, bare, inner, slash]⟩
    · refine ⟨p.leading, q.trailing, ?_⟩
      have left : (p.pieces.map fun i => i.2.write i.1) ≠ [] := by simpa using some
      have right : (q.pieces.map fun i => i.2.write i.1) ≠ [] := by simpa using more
      have texts := Text.joinWith_append ['/'] left right
      simp [some, more, core_eq, bare, inner, texts]

theorem normalizeChars_join : normalizeChars (join p.core q.core) = canonical (p.segments ++ q.segments) := by
  obtain ⟨leading, trailing, joined⟩ := p.exists_join q
  rw [joined, ← text_bare, normalizeChars_text, segments, segments, segments, ← List.map_append]
  rfl

end Written

/-- No segment of a canonical path is empty, so no two slashes stand side by side. -/
theorem not_doubled_slash {texts : List (List Char)} (filled : ∀ t ∈ texts, t ≠ []) (noSlash : ∀ t ∈ texts, '/' ∉ t) :
    ¬ ['/', '/'] <:+: '/' :: Text.joinWith ['/'] texts := by
  induction texts with
  | nil => exact fun inside => absurd inside.length_le (by decide)
  | cons t texts ih =>
    obtain ⟨some, filled⟩ := List.forall_mem_cons.1 filled
    obtain ⟨none, noSlash⟩ := List.forall_mem_cons.1 noSlash
    intro inside
    rcases List.infix_cons_iff.1 inside with front | behind
    · -- the segment behind the first slash would start with a slash
      have head : '/' ∈ (Text.joinWith ['/'] (t :: texts)).head? := by
        obtain ⟨rest, whole⟩ := front
        rw [← List.tail_eq_of_cons_eq whole]
        rfl
      obtain ⟨other, -⟩ := ends_joinWith (List.forall_mem_cons.2 ⟨some, filled⟩) (List.forall_mem_cons.2 ⟨none, noSlash⟩)
      exact absurd (other _ head) (by decide)
    · cases texts with
      | nil =>
        have alone : Text.joinWith ['/'] [t] = t ++ [] := by simp [Text.joinWith]
        rw [alone] at behind
        exact absurd (Text.infix_of_append none behind).length_le (by decide)
      | cons next texts =>
        have more : Text.joinWith ['/'] (t :: next :: texts) = t ++ '/' :: Text.joinWith ['/'] (next :: texts) := by
          simp [Text.joinWith]
        rw [more] at behind
        exact ih filled noSlash (Text.infix_of_append none behind)

/-- However the paths of a class and of a method are written, with whatever slashes at their ends, the normal form of
the two joined is the canonical form of the segments of the one and then of the other, in which no two slashes stand
side by side. So endpoints that are joined from different texts have the same key exactly if these segments are the
same. -/
theorem join_composes (p q p' q' : Written) (e : Endpoint) :
    normalize (String.ofList (join p.core q.core)) = String.ofList (canonical (p.segments ++ q.segments)) ∧
    ¬ ['/', '/'] <:+: (normalize (String.ofList (join p.core q.core))).toList ∧
    ({ e with path := String.ofList (join p.core q.core) }.key = { e with path := String.ofList (join p'.core q'.core) }.key ↔
      p.segments ++ q.segments = p'.segments ++ q'.segments) := by
  have normal : ∀ p q : Written,
      normalize (String.ofList (join p.core q.core)) = String.ofList (canonical (p.segments ++ q.segments)) := by
    intro p q
    rw [normalize, String.toList_ofList, p.normalizeChars_join]
  refine ⟨normal p q, ?_, ?_⟩
  · rw [normal, String.toList_ofList]
    exact not_doubled_slash (fun _ => filled_of_mem_written) fun _ => noSlash_of_mem_written
  · rw [Endpoint.key, Endpoint.key, normal, normal, String.append_right_inj, String.ofList_inj]
    exact ⟨canonical_injective, congrArg canonical⟩

end Drift.Route
