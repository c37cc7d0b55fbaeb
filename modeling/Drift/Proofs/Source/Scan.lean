import Drift.Proofs.Text.Joining
import Drift.Source.Scan
import Mathlib.Data.List.Infix

namespace Drift.Source

variable {ρ σ β : Type} {emit : ρ → Nat → β}

/-- From a state with `Inv` a step goes to another one, and what it emits at line `l` with number `n` satisfies
`Q n l`. -/
structure Emits (step : σ → Nat → List Char → σ × List β) (Inv : σ → Prop) (Q : Nat → List Char → β → Prop) :
    Prop where
  keeps : ∀ s n l, Inv s → Inv (step s n l).1
  emits : ∀ s n l, Inv s → ∀ b ∈ (step s n l).2, Q n l b

namespace Emits

variable {step : σ → Nat → List Char → σ × List β} {Inv : σ → Prop} {Q : Nat → List Char → β → Prop}

theorem of_eachLine {f : Nat → List Char → List β} (each : ∀ n l, ∀ b ∈ f n l, Q n l b) :
    Emits (fun (s : Unit) n l => (s, f n l)) (fun _ => True) Q :=
  ⟨fun _ _ _ _ => trivial, fun _ n l _ => each n l⟩

theorem mem_scan (h : Emits step Inv Q) {s : σ} (start : Inv s) {ls : List (Nat × List Char)} {b : β}
    (mem : b ∈ scan step s ls) : ∃ n l, (n, l) ∈ ls ∧ Q n l b := by
  induction ls generalizing s with
  | nil => cases mem
  | cons i ls ih =>
    rcases List.mem_append.1 mem with here | later
    · exact ⟨i.1, i.2, by simp, h.emits s i.1 i.2 start b here⟩
    · obtain ⟨n, l, mem, holds⟩ := ih (h.keeps s i.1 i.2 start) later
      exact ⟨n, l, by simp [mem], holds⟩

theorem scan_pairwise (h : Emits step Inv Q) {R : β → β → Prop}
    (ordered : ∀ n l b m k c, n ≤ m → Q n l b → Q m k c → R b c) {s : σ} (start : Inv s)
    {ls : List (Nat × List Char)} (numbered : ls.Pairwise (·.1 < ·.1)) : (scan step s ls).Pairwise R := by
  induction ls generalizing s with
  | nil => exact .nil
  | cons i ls ih =>
    obtain ⟨below, numbered⟩ := List.pairwise_cons.1 numbered
    have emitted := h.emits s i.1 i.2 start
    have kept := h.keeps s i.1 i.2 start
    rw [scan, List.pairwise_append]
    refine ⟨?_, ih kept numbered, ?_⟩
    · apply List.Pairwise.imp_of_mem (R := fun _ _ => True)
      · exact fun here there _ => ordered _ _ _ _ _ _ (Nat.le_refl i.1) (emitted _ here) (emitted _ there)
      · exact List.pairwise_of_forall fun _ _ => trivial
    · intro b here c later
      obtain ⟨m, k, mem, holds⟩ := h.mem_scan kept later
      exact ordered _ _ _ _ _ _ (Nat.le_of_lt (below _ mem)) (emitted b here) holds

end Emits

section Passed

variable (step : σ → Nat → List Char → σ × List β)

def stateBehind (s : σ) (ls : List (Nat × List Char)) : σ := ls.foldl (fun s (n, l) => (step s n l).1) s

theorem scan_append (s : σ) (ls ms : List (Nat × List Char)) :
    scan step s (ls ++ ms) = scan step s ls ++ scan step (stateBehind step s ls) ms := by
  induction ls generalizing s with
  | nil => rfl
  | cons i ls ih =>
    rw [List.cons_append, scan, ih, scan, List.append_assoc]
    rfl

end Passed

def numberedFrom (n : Nat) (ls : List (List Char)) : List (Nat × List Char) := (ls.zipIdx n).map fun (l, k) => (k, l)

theorem numberedFrom_cons (n : Nat) (l : List Char) (ls : List (List Char)) :
    numberedFrom n (l :: ls) = (n, l) :: numberedFrom (n + 1) ls := rfl

theorem numberedFrom_append (n : Nat) (ls ms : List (List Char)) :
    numberedFrom n (ls ++ ms) = numberedFrom n ls ++ numberedFrom (n + ls.length) ms := by
  rw [numberedFrom, List.zipIdx_append, List.map_append]
  rfl

theorem bounds_of_mem_numberedFrom {n k : Nat} {l : List Char} {ls : List (List Char)} (mem : (k, l) ∈ numberedFrom n ls) :
    n ≤ k ∧ k < n + ls.length := by
  obtain ⟨⟨l', k'⟩, inside, same⟩ := List.mem_map.1 mem
  cases same
  have bounds := List.mem_zipIdx inside
  omega

section History

variable {ι : Type}

def withEarlier (is : List ι) : List (List ι × ι) := is.inits.zip is

theorem withEarlier_cons (i : ι) (is : List ι) :
    withEarlier (i :: is) = ([], i) :: (withEarlier is).map fun (earlier, j) => (i :: earlier, j) := by
  rw [withEarlier, List.inits_cons, List.zip_cons_cons, List.zip_map_left]
  rfl

theorem withEarlier_concat (is : List ι) (i : ι) : withEarlier (is ++ [i]) = withEarlier is ++ [(is, i)] := by
  induction is with
  | nil => rfl
  | cons j is ih =>
    rw [List.cons_append, withEarlier_cons, ih, List.map_append, withEarlier_cons]
    rfl

theorem map_snd_withEarlier (is : List ι) : (withEarlier is).map Prod.snd = is := by
  rw [withEarlier, List.map_snd_zip]
  rw [List.length_inits]
  exact Nat.le_succ is.length

theorem exists_of_mem_withEarlier {is earlier : List ι} {i : ι} (mem : (earlier, i) ∈ withEarlier is) :
    ∃ later, is = earlier ++ i :: later := by
  induction is generalizing earlier with
  | nil => cases mem
  | cons j is ih =>
    rw [withEarlier_cons, List.mem_cons] at mem
    rcases mem with here | later
    · cases here
      exact ⟨is, rfl⟩
    · obtain ⟨⟨before, k⟩, inside, same⟩ := List.mem_map.1 later
      cases same
      obtain ⟨rest, rfl⟩ := ih inside
      exact ⟨rest, rfl⟩

/-- If the state is a function of the lines read, then what is emitted at a line is one of the lines before it. -/
theorem scan_of_passed {step : σ → Nat → List Char → σ × List β} {read : Nat × List Char → ι} {state : List ι → σ}
    {emit : List ι → ι → List β}
    (each : ∀ (passed : List (Nat × List Char)) n l, step (state (passed.map read)) n l =
      (state (passed.map read ++ [read (n, l)]), emit (passed.map read) (read (n, l))))
    (ls : List (Nat × List Char)) :
    scan step (state []) ls = (withEarlier (ls.map read)).flatMap fun (earlier, i) => emit earlier i := by
  have onward : ∀ passed : List (Nat × List Char), scan step (state (passed.map read)) ls =
      (withEarlier (ls.map read)).flatMap fun (between, i) => emit (passed.map read ++ between) i := by
    induction ls with
    | nil =>
      intro passed
      rfl
    | cons line ls ih =>
      intro passed
      have further : passed.map read ++ [read line] = (passed ++ [line]).map read := by simp
      rw [scan, each, further, ih, List.map_cons, withEarlier_cons, List.flatMap_cons, List.flatMap_map]
      simp only [List.map_append, List.map_cons, List.map_nil, List.append_nil, List.append_assoc, List.singleton_append]
  exact onward []

theorem scan_of_history {step : σ → Nat → List Char → σ × List β} {read : Nat × List Char → ι} {state : List ι → σ}
    {emit : List ι → ι → List β}
    (each : ∀ earlier n l, step (state earlier) n l = (state (earlier ++ [read (n, l)]), emit earlier (read (n, l))))
    (ls : List (Nat × List Char)) :
    scan step (state []) ls = (withEarlier (ls.map read)).flatMap fun (earlier, i) => emit earlier i :=
  scan_of_passed (fun passed n l => each (passed.map read) n l) ls

end History

theorem eachLine_eq_scanLines (f : Nat → List Char → List β) (text : List Char) :
    eachLine f text = scanLines (fun (s : Unit) n l => (s, f n l)) () text := by
  rw [eachLine, scanLines]
  induction Text.numberedLines text with
  | nil => rfl
  | cons i ls ih => rw [List.flatMap_cons, scan, ih]

theorem eachLine_line {f : Nat → List Char → List β} {line : List Char} (filled : line ≠ [])
    (whole : ∀ c ∈ line, Text.isLineBreak c = false) : eachLine f line = f 1 line := by
  rw [eachLine, Text.numberedLines_line filled whole]
  simp

theorem eachLine_unlines {f : Nat → List Char → List β} {line : ρ → List Char}
    (whole : ∀ r, ∀ c ∈ line r, Text.isLineBreak c = false) (each : ∀ r n, f n (line r) = [emit r n]) (rs : List ρ) :
    eachLine f (Text.unlines (rs.map line)) = (rs.zipIdx 1).map fun (r, n) => emit r n := by
  have lines : ∀ l ∈ rs.map line, ∀ c ∈ l, Text.isLineBreak c = false := by
    intro l mem
    obtain ⟨r, -, rfl⟩ := List.mem_map.1 mem
    exact whole r
  rw [eachLine, Text.numberedLines_unlines lines]
  generalize 1 = n
  induction rs generalizing n with
  | nil => rfl
  | cons r rs ih =>
    simp only [List.map_cons, List.zipIdx_cons, List.flatMap_cons, each]
    rw [ih (fun l mem => lines l (by simp [mem]))]
    rfl

/-- Declarations of two lines: after the second the step is where it was before the first. -/
theorem scan_pairs {step : σ → Nat → List Char → σ × List β} {s : σ} {upper lower : ρ → List Char}
    (each : ∀ r n, ∃ t, step s n (upper r) = (t, []) ∧ step t (n + 1) (lower r) = (s, [emit r (n + 1)])) (rs : List ρ)
    (n : Nat) :
    scan step s (((rs.flatMap fun r => [upper r, lower r]).zipIdx (2 * n + 1)).map fun (l, m) => (m, l)) =
      (rs.zipIdx (n + 1)).map fun (r, m) => emit r (2 * m) := by
  induction rs generalizing n with
  | nil => rfl
  | cons r rs ih =>
    obtain ⟨t, first, second⟩ := each r (2 * n + 1)
    simp only [List.flatMap_cons, List.cons_append, List.nil_append, List.zipIdx_cons, List.map_cons, scan, first,
      second]
    rw [show 2 * n + 1 + 1 + 1 = 2 * (n + 1) + 1 by omega, ih (n + 1)]
    rfl

theorem scanLines_pairs {step : σ → Nat → List Char → σ × List β} {s : σ} {upper lower : ρ → List Char}
    (whole : ∀ r, ∀ l ∈ [upper r, lower r], ∀ c ∈ l, Text.isLineBreak c = false)
    (each : ∀ r n, ∃ t, step s n (upper r) = (t, []) ∧ step t (n + 1) (lower r) = (s, [emit r (n + 1)])) (rs : List ρ) :
    scanLines step s (Text.unlines (rs.flatMap fun r => [upper r, lower r])) =
      (rs.zipIdx 1).map fun (r, n) => emit r (2 * n) := by
  have lines : ∀ l ∈ rs.flatMap fun r => [upper r, lower r], ∀ c ∈ l, Text.isLineBreak c = false := by
    intro l mem
    obtain ⟨r, -, mem⟩ := List.mem_flatMap.1 mem
    exact whole r l mem
  rw [scanLines, Text.numberedLines_unlines lines]
  exact scan_pairs each rs 0

end Drift.Source
