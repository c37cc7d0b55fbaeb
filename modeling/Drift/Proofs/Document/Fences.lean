import Drift.Document.Outline
import Drift.Proofs.Text.Joining
import Mathlib.Algebra.Ring.Parity
import Mathlib.Data.Option.Basic

namespace Drift.Document

def isFenceLine (line : List Char) : Bool := isFence (Text.trim line)

variable {ls : List (List Char)} {i j k : Nat}

def fencesBefore (ls : List (List Char)) (k : Nat) : Nat := (ls.take k).countP isFenceLine

/-- Fence lines open and close blocks in turn: before one that opens there is an even number of them. -/
structure Opens (ls : List (List Char)) (i : Nat) : Prop where
  fence : ls[i]?.any isFenceLine = true
  even : Even (fencesBefore ls i)

structure Inside (ls : List (List Char)) (i k : Nat) : Prop where
  opens : Opens ls i
  later : i < k
  unclosed : ∀ j, i < j → j ≤ k → ls[j]?.any isFenceLine = false

def Fenced (ls : List (List Char)) (k : Nat) : Prop := ∃ i, Inside ls i k

theorem fencesBefore_succ (ls : List (List Char)) (k : Nat) :
    fencesBefore ls (k + 1) = fencesBefore ls k + if ls[k]?.any isFenceLine then 1 else 0 := by
  rw [fencesBefore, fencesBefore, List.take_add_one, List.countP_append]
  cases ls[k]? with
  | none => simp
  | some l => simp [List.countP_singleton]

theorem fencesBefore_unclosed (le : i ≤ k) (unclosed : ∀ j, i ≤ j → j < k → ls[j]?.any isFenceLine = false) :
    fencesBefore ls k = fencesBefore ls i := by
  induction k, le using Nat.le_induction with
  | base => rfl
  | succ k le ih =>
    rw [fencesBefore_succ, unclosed k le (Nat.lt_succ_self k), ih fun j after before => unclosed j after (by omega)]
    rfl

theorem Inside.odd (inside : Inside ls i k) : Odd (fencesBefore ls k) := by
  rw [fencesBefore_unclosed (i := i + 1) inside.later fun j after before => inside.unclosed j (by omega) (by omega),
    fencesBefore_succ, inside.opens.fence, if_pos rfl]
  exact inside.opens.even.add_one

/-- A line lies in a block exactly if it is no fence and an odd number of fences comes before it. -/
theorem fenced_iff : Fenced ls k ↔ ls[k]?.any isFenceLine = false ∧ Odd (fencesBefore ls k) := by
  constructor
  · rintro ⟨i, inside⟩
    exact ⟨inside.unclosed k inside.later le_rfl, inside.odd⟩
  · rintro ⟨plain, odd⟩
    induction k with
    | zero => simp [fencesBefore] at odd
    | succ k ih =>
      cases fence : ls[k]?.any isFenceLine with
      | true =>
        rw [fencesBefore_succ, fence, if_pos rfl, Nat.odd_add_one, Nat.not_odd_iff_even] at odd
        refine ⟨k, ⟨fence, odd⟩, Nat.lt_succ_self k, fun j after upTo => ?_⟩
        obtain rfl : j = k + 1 := by omega
        exact plain
      | false =>
        rw [fencesBefore_succ, fence, if_neg (by simp), Nat.add_zero] at odd
        obtain ⟨i, inside⟩ := ih fence odd
        refine ⟨i, inside.opens, by have := inside.later; omega, fun j after upTo => ?_⟩
        rcases Nat.lt_or_eq_of_le upTo with before | rfl
        · exact inside.unclosed j after (by omega)
        · exact plain

instance : Decidable (Fenced ls k) := decidable_of_iff _ fenced_iff.symm

/-- Where an endpoint comes from: the method and the path of its heading, the line and the source. -/
def headed (e : Endpoint) : String × String × Int × String := (e.method, e.path, e.line, e.file)

def headingIn (source : String) (n : Nat) (line : List Char) : Option (String × String × Int × String) :=
  (endpointHeading.atStart (Text.trim line)).map fun (method, path) => (method, String.ofList path, (n : Int), source)

/-- The headings of endpoints in the lines that lie in no block and are no fence, with the numbers of the lines
counted from 1. -/
def openHeadings (source : String) (ls : List (List Char)) : List (String × String × Int × String) :=
  ls.zipIdx.filterMap fun (l, k) =>
    if isFenceLine l ∨ Fenced ls k then none else headingIn source (k + 1) l

variable {source : String} {s : State} {n : Nat} {line : List Char}

theorem headed_addLine (e : Endpoint) (l : Line) : headed (addLine e l) = headed e := by
  cases l with
  | prose text =>
    rw [addLine]
    split <;> rfl
  | _ => rfl

theorem headed_addExample (e : Endpoint) (body : List Char) : headed (addExample e body) = headed e := by
  rw [addExample]
  split <;> rfl

theorem step_opening (block : s.block? = none) (fence : isFenceLine line = true) :
    step source s n line = ({ s with block? := some { label := fenceLabel (Text.trim line) } }, []) := by
  simp only [step, block, show isFence (Text.trim line) = true from fence, if_true]

theorem step_closing {b : Block} (block : s.block? = some b) (fence : isFenceLine line = true) :
    step source s n line = (closeBlock s b, []) := by
  simp only [step, block, show isFence (Text.trim line) = true from fence, if_true]

theorem step_inside {b : Block} (block : s.block? = some b) (plain : isFenceLine line = false) :
    step source s n line = ({ s with block? := some { b with lines := line :: b.lines } }, []) := by
  simp only [step, block, show isFence (Text.trim line) = false from plain, Bool.false_eq_true, if_false]

theorem step_outside (block : s.block? = none) (plain : isFenceLine line = false) :
    step source s n line = readLine source s n (Line.of (Text.trim line)) := by
  simp only [step, block, show isFence (Text.trim line) = false from plain, Bool.false_eq_true, if_false]

theorem readLine_block (block : s.block? = none) (l : Line) : (readLine source s n l).1.block? = none := by
  cases l with
  | endpoint method path => rfl
  | heading => rfl
  | blank => exact block
  | bullet parameter => exact block
  | prose text => exact block

/-- A fence opens a block or closes it, and any other line leaves it as it was. -/
theorem step_block : (step source s n line).1.block?.isSome = (s.block?.isSome ^^ isFenceLine line) := by
  cases block : s.block? with
  | some b =>
    cases fence : isFenceLine line with
    | true => rw [step_closing block fence]; rfl
    | false => rw [step_inside block fence]; rfl
  | none =>
    cases fence : isFenceLine line with
    | true => rw [step_opening block fence]; rfl
    | false => rw [step_outside block fence, readLine_block block]; rfl

def Line.heading? (source : String) (n : Nat) : Line → Option (String × String × Int × String)
  | .endpoint method path => some (method, String.ofList path, (n : Int), source)
  | _ => none

theorem heading?_of (source : String) (n : Nat) (line : List Char) :
    (Line.of (Text.trim line)).heading? source n = headingIn source n line := by
  rw [headingIn, Line.of]
  cases endpointHeading.atStart (Text.trim line) with
  | some heading => rfl
  | none =>
    by_cases blank : (Text.trim line).isEmpty = true
    · simp [blank, Line.heading?]
    · by_cases other : heading.accepts (Text.trim line) = true
      · simp [blank, other, Line.heading?]
      · cases bullet.atStart (Text.trim line) <;> simp [blank, other, Line.heading?]

theorem readLine_headed (l : Line) :
    (readLine source s n l).2.map headed ++ (readLine source s n l).1.current.toList.map headed =
      s.current.toList.map headed ++ (l.heading? source n).toList := by
  obtain ⟨current, block⟩ := s
  cases l with
  | endpoint method path => cases current <;> rfl
  | heading => cases current <;> rfl
  | blank => cases current <;> rfl
  | bullet p => cases current <;> rfl
  | prose text =>
    cases current with
    | none => rfl
    | some e => simp [readLine, Line.heading?, headed_addLine]

/-- A line gives the endpoint of its heading, sooner or later, and loses none: what was being read is kept or
comes out. -/
theorem step_headed :
    (step source s n line).2.map headed ++ (step source s n line).1.current.toList.map headed =
      s.current.toList.map headed ++
        (if isFenceLine line ∨ s.block?.isSome then none else headingIn source n line).toList := by
  cases block : s.block? with
  | some b =>
    cases fence : isFenceLine line with
    | true =>
      rw [step_closing block fence, closeBlock]
      split
      · cases s.current <;> simp [headed_addExample]
      · simp
    | false => simp [step_inside block fence]
  | none =>
    cases fence : isFenceLine line with
    | true => simp [step_opening block fence]
    | false => simp [step_outside block fence, readLine_headed, heading?_of]

/-- What comes out from a state on, told of the lines that lie in no block: it is enough to know how one line goes on
with what is being read and what happens at the end. -/
theorem endpointsFrom_map {β γ : Type} (shown : Endpoint → β) (told : Nat → List Char → Option γ)
    (onward : Option Endpoint → List γ → List β)
    (ends : ∀ current : Option Endpoint, (current.map finish).toList.map shown = onward current [])
    (goes : ∀ s n l xs, (step source s (n + 1) l).2.map shown ++ onward (step source s (n + 1) l).1.current xs =
      onward s.current ((if isFenceLine l ∨ s.block?.isSome then none else told n l).toList ++ xs))
    (before : List (List Char)) {after : List (List Char)}
    (block : s.block?.isSome = decide (Odd (fencesBefore (before ++ after) before.length))) :
    (endpointsFrom source s ((after.zipIdx (before.length + 1)).map fun (l, n) => (n, l))).map shown =
      onward s.current ((after.zipIdx before.length).filterMap fun (l, k) =>
        if isFenceLine l ∨ Fenced (before ++ after) k then none else told k l) := by
  induction after generalizing before s with
  | nil => exact ends s.current
  | cons l after ih =>
    have there : (before ++ l :: after)[before.length]? = some l := by simp
    have lines : before ++ l :: after = before ++ [l] ++ after := by simp
    have parity : (step source s (before.length + 1) l).1.block?.isSome =
        decide (Odd (fencesBefore (before ++ [l] ++ after) (before ++ [l]).length)) := by
      rw [step_block, block, ← lines, List.length_append, List.length_singleton, fencesBefore_succ, there,
        Option.any_some]
      cases isFenceLine l <;> simp [Nat.odd_add_one, ← decide_not]
    have here : (isFenceLine l ∨ Fenced (before ++ l :: after) before.length) ↔
        (isFenceLine l ∨ s.block?.isSome) := by
      rw [fenced_iff, there, block, Option.any_some]
      cases isFenceLine l <;> simp
    have rest := ih _ parity
    rw [List.length_append, List.length_singleton, ← lines] at rest
    rw [List.zipIdx_cons, List.zipIdx_cons, List.map_cons, endpointsFrom, List.map_append, rest, goes,
      List.filterMap_cons]
    simp only [here]
    cases (if isFenceLine l ∨ s.block?.isSome then none else told before.length l) <;> rfl

theorem outlineEndpoints_headed (source : String) (text : List Char) :
    (outlineEndpoints source text).map headed = openHeadings source (Text.lines text) := by
  -- what is being read comes first, then the headings of the lines that follow
  refine endpointsFrom_map (s := {}) headed (fun k l => headingIn source (k + 1) l)
    (fun current hs => current.toList.map headed ++ hs) ?_ ?_ [] (by simp [fencesBefore])
  · intro current
    cases current <;> rfl
  · intro s n l hs
    rw [← List.append_assoc, step_headed, List.append_assoc]

def Inert (ls : List (List Char)) (k : Nat) : Prop :=
  ∃ i opening, Inside ls i k ∧ ls[i]? = some opening ∧ fenceLabel (Text.trim opening) ≠ "json".toList

/-- As many lines, and the same ones but in blocks that are not of JSON; what stands there instead is no fence. -/
structure DifferInertly (ls ms : List (List Char)) : Prop where
  length : ls.length = ms.length
  lines : ∀ k l m, ls[k]? = some l → ms[k]? = some m → l = m ∨ Inert ls k ∧ isFenceLine m = false

/-- What a state knows of the lines before line `k`: whether a block is open, and the label of the block that line
`k` lies in. -/
structure Reading (ls : List (List Char)) (k : Nat) (s : State) : Prop where
  parity : s.block?.isSome = decide (Odd (fencesBefore ls k))
  label : ∀ b, s.block? = some b → ∀ i opening, Inside ls i k → ls[i]? = some opening →
    fenceLabel (Text.trim opening) = b.label

theorem Reading.start (ls : List (List Char)) : Reading ls 0 {} :=
  ⟨by simp [fencesBefore], fun _ open_ => by cases open_⟩

/-- A line that is no fence keeps the label of an open block, and a fence line behind none opens a block of its
own label. -/
theorem step_label {b : Block} (next : (step source s n line).1.block? = some b) :
    (isFenceLine line = false ∧ ∃ c, s.block? = some c ∧ c.label = b.label) ∨
      (isFenceLine line = true ∧ s.block? = none ∧ fenceLabel (Text.trim line) = b.label) := by
  cases block : s.block? with
  | some c =>
    cases fence : isFenceLine line with
    | true =>
      rw [step_closing block fence] at next
      cases next
    | false =>
      rw [step_inside block fence] at next
      cases next
      exact .inl ⟨rfl, c, rfl, rfl⟩
  | none =>
    cases fence : isFenceLine line with
    | true =>
      rw [step_opening block fence] at next
      cases next
      exact .inr ⟨rfl, rfl, rfl⟩
    | false =>
      rw [step_outside block fence, readLine_block block] at next
      cases next

theorem Reading.next (reading : Reading ls k s) (source : String) (n : Nat) (here : ls[k]? = some line) :
    Reading ls (k + 1) (step source s n line).1 := by
  constructor
  case parity =>
    rw [step_block, reading.parity, fencesBefore_succ, here, Option.any_some]
    cases isFenceLine line <;> simp [Nat.odd_add_one, ← decide_not]
  case label =>
    intro b next i opening inside there
    rcases step_label next with ⟨plain, c, before, same⟩ | ⟨fence, before, same⟩
    · -- the block was open before
      have earlier : i < k := by
        refine Nat.lt_of_le_of_ne (Nat.le_of_lt_succ inside.later) ?_
        rintro rfl
        simpa [here, plain] using inside.opens.fence
      have still : Inside ls i k := ⟨inside.opens, earlier, fun j after upTo => inside.unclosed j after (by omega)⟩
      rw [reading.label c before i opening still there, same]
    · have latest : i = k := by
        by_contra other
        have closed := inside.unclosed k (by have := inside.later; omega) (by omega)
        rw [here, Option.any_some, fence] at closed
        cases closed
      rw [latest, here] at there
      cases there
      exact same

structure Alike (s t : State) : Prop where
  current : s.current = t.current
  label : s.block?.map (·.label) = t.block?.map (·.label)
  lines : ∀ b c, s.block? = some b → t.block? = some c → b.label = "json".toList → b.lines = c.lines

theorem Alike.refl (s : State) : Alike s s := by
  refine ⟨rfl, rfl, ?_⟩
  intro b c first second _
  rw [first] at second
  cases second
  rfl

/-- Where one state has a block open, the other has one of that label. -/
theorem Alike.block {t : State} {b : Block} (alike : Alike s t) (block : s.block? = some b) :
    ∃ c, t.block? = some c ∧ c.label = b.label := by
  have same := alike.label
  rw [block, Option.map_some, eq_comm, Option.map_eq_some_iff] at same
  exact same

theorem Alike.eq_of_none {t : State} (alike : Alike s t) (block : s.block? = none) : s = t := by
  have other := alike.label
  rw [block, Option.map_none, eq_comm, Option.map_eq_none_iff] at other
  obtain ⟨current, _⟩ := s
  obtain ⟨_, _⟩ := t
  cases alike.current
  cases block
  cases other
  rfl

theorem closeBlock_alike {t : State} {b c : Block} (alike : Alike s t) (block : s.block? = some b)
    (other : t.block? = some c) (label : c.label = b.label) : closeBlock s b = closeBlock t c := by
  rw [closeBlock, closeBlock, label, alike.current]
  by_cases json : b.label = "json".toList
  · have text : b.text = c.text := by rw [Block.text, Block.text, alike.lines b c block other json]
    rw [text]
  · rw [if_neg json, if_neg json]

theorem Alike.step_same {t : State} (alike : Alike s t) :
    (step source s n line).2 = (step source t n line).2 ∧
      Alike (step source s n line).1 (step source t n line).1 := by
  cases block : s.block? with
  | none =>
    rw [alike.eq_of_none block]
    exact ⟨rfl, .refl _⟩
  | some b =>
    obtain ⟨c, other, label⟩ := alike.block block
    cases fence : isFenceLine line with
    | true =>
      rw [step_closing block fence, step_closing other fence, closeBlock_alike alike block other label]
      exact ⟨rfl, .refl _⟩
    | false =>
      rw [step_inside block fence, step_inside other fence]
      refine ⟨rfl, alike.current, congrArg some label.symm, ?_⟩
      intro b' c' first second json
      cases first
      cases second
      exact congrArg (line :: ·) (alike.lines b c block other json)

/-- In a block that is not one of JSON any line does for any other. -/
theorem Alike.step_inert {t : State} {other : List Char} {b : Block} (alike : Alike s t) (block : s.block? = some b)
    (inert : b.label ≠ "json".toList) (plain : isFenceLine line = false) (alsoPlain : isFenceLine other = false) :
    (step source s n line).2 = (step source t n other).2 ∧
      Alike (step source s n line).1 (step source t n other).1 := by
  obtain ⟨c, there, label⟩ := alike.block block
  rw [step_inside block plain, step_inside there alsoPlain]
  refine ⟨rfl, alike.current, congrArg some label.symm, ?_⟩
  intro b' c' first second json
  cases first
  exact absurd json inert

theorem endpointsFrom_alike {t : State} (before : List (List Char)) {after behind : List (List Char)}
    (reading : Reading (before ++ after) before.length s) (alike : Alike s t) (length : after.length = behind.length)
    (lines : ∀ k l m, after[k]? = some l → behind[k]? = some m →
      l = m ∨ Inert (before ++ after) (before.length + k) ∧ isFenceLine m = false) :
    endpointsFrom source s ((after.zipIdx (before.length + 1)).map fun (l, n) => (n, l)) =
      endpointsFrom source t ((behind.zipIdx (before.length + 1)).map fun (l, n) => (n, l)) := by
  induction after generalizing before behind s t with
  | nil =>
    obtain rfl : behind = [] := List.length_eq_zero_iff.1 length.symm
    exact congrArg (fun e : Option Endpoint => (e.map finish).toList) alike.current
  | cons l after ih =>
    obtain ⟨m, behind, rfl⟩ : ∃ m r, behind = m :: r := List.exists_cons_of_length_eq_add_one length.symm
    have there : (before ++ l :: after)[before.length]? = some l := by simp
    have whole : before ++ l :: after = before ++ [l] ++ after := by simp
    have one : (step source s (before.length + 1) l).2 = (step source t (before.length + 1) m).2 ∧
        Alike (step source s (before.length + 1) l).1 (step source t (before.length + 1) m).1 := by
      rcases lines 0 l m rfl rfl with rfl | ⟨⟨i, opening, inside, label, other⟩, plain⟩
      · exact alike.step_same
      · rw [Nat.add_zero] at inside
        have open_ : s.block?.isSome = true := by rw [reading.parity, decide_eq_true inside.odd]
        obtain ⟨b, block⟩ := Option.isSome_iff_exists.1 open_
        rw [reading.label b block i opening inside label] at other
        have alsoPlain : isFenceLine l = false := by
          simpa [there] using inside.unclosed before.length inside.later (Nat.le_refl _)
        exact alike.step_inert block other alsoPlain plain
    have later := reading.next source (before.length + 1) there
    rw [whole] at later
    have rest := ih (before ++ [l]) (by simpa using later) one.2 (by simpa using length) fun k l' m' here other => by
      have := lines (k + 1) l' m' (by simpa using here) (by simpa using other)
      rw [whole] at this
      simpa [Nat.add_assoc, Nat.add_comm 1] using this
    rw [List.length_append, List.length_singleton] at rest
    rw [List.zipIdx_cons, List.zipIdx_cons, List.map_cons, List.map_cons, endpointsFrom, endpointsFrom, one.1, rest]

theorem outlineEndpoints_inert {text other : List Char} (differ : DifferInertly (Text.lines text) (Text.lines other)) :
    outlineEndpoints source text = outlineEndpoints source other :=
  endpointsFrom_alike [] (.start _) (.refl _) differ.length fun k l m here there => by
    simpa using differ.lines k l m here there

/-- The endpoints of an outline are the headings in the lines that lie in no block and are no fence: one for each,
in the order of the lines, with the method, the path, the line and the source. And what stands in the blocks that are
not of JSON is no part of any endpoint: other lines in their place, if they are as many and no fences, leave the
endpoints as they are. -/
theorem headings_outside_of_blocks :
    (∀ source text, (outlineEndpoints source text).map headed = openHeadings source (Text.lines text)) ∧
    ∀ source text other, DifferInertly (Text.lines text) (Text.lines other) →
      outlineEndpoints source text = outlineEndpoints source other :=
  ⟨outlineEndpoints_headed, fun _ _ _ differ => outlineEndpoints_inert differ⟩

def blockOutline : List (List Char) :=
  ["\x60\x60\x60go".toList, "### GET /a".toList, "\x60\x60\x60".toList, "### GET /b".toList]

def emptiedOutline : List (List Char) := ["\x60\x60\x60go".toList, [], "\x60\x60\x60".toList, "### GET /b".toList]

theorem emptiedOutline_differs : DifferInertly blockOutline emptiedOutline := by
  have inert : Inert blockOutline 1 := by
    refine ⟨0, "\x60\x60\x60go".toList, ⟨⟨by decide, by decide⟩, by decide, ?_⟩, rfl, by decide⟩
    intro j after upTo
    obtain rfl : j = 1 := by omega
    decide
  refine ⟨rfl, fun k l m here there => ?_⟩
  match k with
  | 0 => exact .inl (Option.some.inj (here.symm.trans there))
  | 1 =>
    refine .inr ⟨inert, ?_⟩
    cases there
    decide
  | 2 => exact .inl (Option.some.inj (here.symm.trans there))
  | 3 => exact .inl (Option.some.inj (here.symm.trans there))
  | k + 4 => cases here

theorem whole_of_all {ls : List (List Char)} (all : ls.all (·.all (!Text.isLineBreak ·)) = true) :
    ∀ l ∈ ls, ∀ c ∈ l, Text.isLineBreak c = false := by
  simpa using all

theorem headings_outside_of_blocks_emptied :
    DifferInertly (Text.lines (Text.unlines blockOutline)) (Text.lines (Text.unlines emptiedOutline)) ∧
    (outlineEndpoints "a.md" (Text.unlines blockOutline)).map headed = [("GET", "/b", 4, "a.md")] ∧
    outlineEndpoints "a.md" (Text.unlines blockOutline) = outlineEndpoints "a.md" (Text.unlines emptiedOutline) := by
  obtain ⟨headings, inert⟩ := headings_outside_of_blocks
  have differ : DifferInertly (Text.lines (Text.unlines blockOutline)) (Text.lines (Text.unlines emptiedOutline)) := by
    rw [Text.lines_unlines (whole_of_all (by decide)), Text.lines_unlines (whole_of_all (by decide))]
    exact emptiedOutline_differs
  refine ⟨differ, ?_, inert "a.md" _ _ differ⟩
  rw [headings, Text.lines_unlines (whole_of_all (by decide))]
  decide +kernel

end Drift.Document
