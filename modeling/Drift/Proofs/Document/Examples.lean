import Drift.Proofs.Document.Fences
import Drift.Proofs.Text.Case
import Mathlib.Data.List.Forall2

namespace Drift.Document

variable {source : String} {e e' : Endpoint} {body : List Char} {bodies : List (List Char)} {ps : List Piece}

/-- An outline in pieces: the lines outside of blocks, with their numbers, and the blocks. -/
inductive Piece where
  | line (n : Nat) (l : Line)
  | block (label : List Char) (lines : List (List Char))

def isPlain (i : Nat × List Char) : Bool := !isFenceLine i.2

def pieces : List (Nat × List Char) → List Piece
  | [] => []
  | (n, l) :: ls =>
    if isFenceLine l then
      if (ls.dropWhile isPlain).isEmpty then []
      else .block (fenceLabel (Text.trim l)) ((ls.takeWhile isPlain).map Prod.snd) :: pieces (ls.dropWhile isPlain).tail
    else .line n (Line.of (Text.trim l)) :: pieces ls
termination_by ls => ls.length
decreasing_by
  · have shorter := (List.dropWhile_suffix isPlain (l := ls)).length_le
    simp only [List.length_tail, List.length_cons]
    omega
  · simp

/-- The section of an endpoint: its heading, with the number of the line, and its examples. -/
structure ExampleSection where
  method : String
  path : List Char
  line : Nat
  examples : List (List Char)

def examplesOf : List Piece → List (List Char)
  | [] => []
  | .line _ (.endpoint _ _) :: _ => []
  | .line _ .heading :: _ => []
  | .line _ _ :: ps => examplesOf ps
  | .block label ls :: ps =>
    if label = "json".toList then (Text.joinWith ['\n'] ls ++ ['\n']) :: examplesOf ps else examplesOf ps

def exampleSections : List Piece → List ExampleSection
  | [] => []
  | .line n (.endpoint method path) :: ps => ⟨method, path, n, examplesOf ps⟩ :: exampleSections ps
  | _ :: ps => exampleSections ps

def mentionsRequest (body : List Char) : Bool := Text.contains "request".toList (Text.lower body)

def requestOf (bodies : List (List Char)) : Option (List Char) :=
  (bodies.tail.filter mentionsRequest).getLast?.or bodies.head?

def responseOf (bodies : List (List Char)) : Option (List Char) :=
  (bodies.tail.filter fun body => !mentionsRequest body).getLast?

def illustrated (e : Endpoint) : String × String × Int × Option String × Option String :=
  (e.method, e.path, e.line, e.requestBody, e.responseBody)

def ExampleSection.illustrated (s : ExampleSection) : String × String × Int × Option String × Option String :=
  (s.method, String.ofList s.path, s.line, (requestOf s.examples).map String.ofList, (responseOf s.examples).map String.ofList)

theorem illustrated_addLine (e : Endpoint) (l : Line) : illustrated (addLine e l) = illustrated e := by
  cases l with
  | prose text =>
    rw [addLine]
    split <;> rfl
  | _ => rfl

theorem illustrated_foldl (same : illustrated e = illustrated e') (bodies : List (List Char)) :
    illustrated (bodies.foldl addExample e) = illustrated (bodies.foldl addExample e') := by
  induction bodies generalizing e e' with
  | nil => exact same
  | cons body bodies ih =>
    refine ih ?_
    simp only [illustrated, Prod.mk.injEq] at same
    obtain ⟨method, path, line, request, response⟩ := same
    unfold addExample
    rw [request]
    split <;> simp [illustrated, method, path, line, response]

theorem illustrated_foldl_some {first : String} (told : e.requestBody = some first) (bodies : List (List Char)) :
    illustrated (bodies.foldl addExample e) = (e.method, e.path, e.line,
      ((bodies.filter mentionsRequest).getLast?.map String.ofList).or (some first),
      ((bodies.filter fun body => !mentionsRequest body).getLast?.map String.ofList).or e.responseBody) := by
  induction bodies generalizing e first with
  | nil => simp [illustrated, told]
  | cons body bodies ih =>
    rw [List.foldl_cons]
    cases mentions : mentionsRequest body with
    | true =>
      have added : addExample e body = { e with requestBody := some (String.ofList body) } := by
        rw [addExample, show Text.contains "request".toList (Text.lower body) = true from mentions, Bool.or_true, if_pos rfl]
      rw [added, ih rfl, List.filter_cons_of_pos mentions, List.filter_cons_of_neg (by simp [mentions]), List.getLast?_cons]
      cases (bodies.filter mentionsRequest).getLast? <;> rfl
    | false =>
      have added : addExample e body = { e with responseBody := some (String.ofList body) } := by
        rw [addExample, show Text.contains "request".toList (Text.lower body) = false from mentions, told]
        rfl
      have request : (addExample e body).requestBody = some first := by rw [added, told]
      rw [ih request, added, List.filter_cons_of_neg (by simp [mentions]), List.filter_cons_of_pos (by simp [mentions]),
        List.getLast?_cons]
      cases (bodies.filter fun body => !mentionsRequest body).getLast? <;> rfl

theorem illustrated_foldl_none (noRequest : e.requestBody = none) (noResponse : e.responseBody = none)
    (bodies : List (List Char)) : illustrated (bodies.foldl addExample e) =
      (e.method, e.path, e.line, (requestOf bodies).map String.ofList, (responseOf bodies).map String.ofList) := by
  cases bodies with
  | nil => simp [illustrated, requestOf, responseOf, noRequest, noResponse]
  | cons body bodies =>
    have first : addExample e body = { e with requestBody := some (String.ofList body) } := by
      rw [addExample, noRequest]
      rfl
    rw [List.foldl_cons, first, illustrated_foldl_some rfl, requestOf, responseOf, noResponse, List.tail_cons,
      List.head?_cons]
    cases (bodies.filter mentionsRequest).getLast? <;>
      cases (bodies.filter fun body => !mentionsRequest body).getLast? <;> rfl

/-- What comes out for the pieces from a place on: the section that is being read goes on, then the others follow. -/
def illustratedFrom (current : Option Endpoint) (ps : List Piece) : List (String × String × Int × Option String × Option String) :=
  (current.map fun e => illustrated ((examplesOf ps).foldl addExample e)).toList ++
    (exampleSections ps).map ExampleSection.illustrated

theorem illustratedFrom_addLine (e : Endpoint) (l : Line) (ps : List Piece) :
    illustratedFrom (some (addLine e l)) ps = illustratedFrom (some e) ps := by
  rw [illustratedFrom, illustratedFrom, Option.map_some, Option.map_some,
    illustrated_foldl (illustrated_addLine e l) (examplesOf ps)]

theorem readLine_illustrated (source : String) (current : Option Endpoint) (n : Nat) (l : Line) (ps : List Piece) :
    (readLine source { current } n l).2.map illustrated ++ illustratedFrom (readLine source { current } n l).1.current ps =
      illustratedFrom current (.line n l :: ps) := by
  cases l with
  | endpoint method path =>
    have started := illustrated_foldl_none (e := { method, path := String.ofList path, file := source, line := n }) rfl rfl
      (examplesOf ps)
    cases current with
    | none => exact congrArg (· :: _) started
    | some e => exact congrArg (illustrated e :: · :: _) started
  | heading => cases current <;> rfl
  | blank => cases current <;> rfl
  | bullet p =>
    cases current with
    | none => rfl
    | some e => exact illustratedFrom_addLine e (.bullet p) ps
  | prose text =>
    cases current with
    | none => rfl
    | some e => exact illustratedFrom_addLine e (.prose text) ps

theorem endpointsFrom_inside (source : String) (current : Option Endpoint) (b : Block) {ls : List (Nat × List Char)}
    (plain : ∀ i ∈ ls, isPlain i = true) (rest : List (Nat × List Char)) :
    endpointsFrom source { current, block? := some b } (ls ++ rest) =
      endpointsFrom source { current, block? := some { b with lines := (ls.map Prod.snd).reverse ++ b.lines } } rest := by
  induction ls generalizing b with
  | nil => rfl
  | cons i ls ih =>
    obtain ⟨here, later⟩ := List.forall_mem_cons.1 plain
    have inside : isFenceLine i.2 = false := by simpa [isPlain] using here
    rw [List.cons_append, endpointsFrom, step_inside rfl inside, List.nil_append, ih _ later]
    simp

theorem closeBlock_illustrated (s : State) (label : List Char) (ls : List (List Char)) (ps : List Piece) :
    illustratedFrom (closeBlock s ⟨label, ls.reverse⟩).current ps = illustratedFrom s.current (.block label ls :: ps) := by
  rw [closeBlock, Block.text, List.reverse_reverse]
  by_cases json : label = "json".toList
  · rw [if_pos json, illustratedFrom, illustratedFrom, examplesOf, if_pos json, Option.map_map]
    rfl
  · rw [if_neg json, illustratedFrom, illustratedFrom, examplesOf, if_neg json]
    rfl

theorem endpointsFrom_illustrated (source : String) (current : Option Endpoint) (ls : List (Nat × List Char)) :
    (endpointsFrom source { current } ls).map illustrated = illustratedFrom current (pieces ls) := by
  fun_induction pieces ls generalizing current with
  | case1 => cases current <;> rfl
  | case2 n l ls fence unclosed =>
    -- what is collected behind a fence that nothing closes is dropped
    have parts : ls.takeWhile isPlain ++ ls.dropWhile isPlain = ls := List.takeWhile_append_dropWhile
    rw [List.isEmpty_iff.1 unclosed] at parts
    rw [endpointsFrom, step_opening rfl fence, List.nil_append, ← parts,
      endpointsFrom_inside source current _ fun i mem => List.all_eq_true.1 List.all_takeWhile i mem]
    cases current <;> rfl
  | case3 n l ls fence closed ih =>
    obtain ⟨closing, rest, behind⟩ : ∃ i rest, ls.dropWhile isPlain = i :: rest :=
      List.exists_cons_of_ne_nil fun none => closed (by rw [none]; rfl)
    have parts : ls.takeWhile isPlain ++ closing :: rest = ls := by
      rw [← behind, List.takeWhile_append_dropWhile]
    have closes : isFenceLine closing.2 = true := by
      have stop := List.head?_dropWhile_not isPlain ls
      rw [behind] at stop
      simpa [isPlain] using stop
    rw [behind, List.tail_cons] at ih ⊢
    have collected : endpointsFrom source { current } ((n, l) :: ls) = endpointsFrom source
        (closeBlock { current } ⟨fenceLabel (Text.trim l), ((ls.takeWhile isPlain).map Prod.snd).reverse⟩) rest := by
      rw [endpointsFrom, step_opening rfl fence, List.nil_append]
      nth_rewrite 1 [← parts]
      rw [endpointsFrom_inside source current _ fun i mem => List.all_eq_true.1 List.all_takeWhile i mem, endpointsFrom,
        step_closing rfl closes, List.append_nil]
      rfl
    rw [collected, ← closeBlock_illustrated { current }]
    exact ih _
  | case4 n l ls plain ih =>
    have outside : (readLine source { current } n (Line.of (Text.trim l))).1.block? = none := readLine_block rfl _
    rw [endpointsFrom, step_outside rfl (by simpa using plain), List.map_append, ← readLine_illustrated source, ← ih]
    congr 3
    generalize (readLine source { current } n (Line.of (Text.trim l))).1 = s at outside ⊢
    obtain ⟨_, _⟩ := s
    cases outside
    rfl

theorem outlineEndpoints_illustrated (source : String) (text : List Char) :
    (outlineEndpoints source text).map illustrated =
      (exampleSections (pieces (Text.numberedLines text))).map ExampleSection.illustrated :=
  endpointsFrom_illustrated source none (Text.numberedLines text)

def Mentions (body : List Char) : Prop :=
  ∃ before word after, body = before ++ (word ++ after) ∧ word.map Char.toLower = "request".toList

theorem mentionsRequest_iff : mentionsRequest body = true ↔ Mentions body := by
  have own : ∀ x ∈ "request".toList, x.toNat < 128 ∧ x ≠ 'i' ∧ x ≠ 'k' := forall_of_all (by decide)
  rw [mentionsRequest, Text.contains_iff]
  exact Text.infix_lower fun x mem => ⟨(own x mem).1, (own x mem).2.1, (own x mem).2.2⟩

/-- The endpoints of an outline, with the two examples of a section of which one mentions a request: behind it the other one
is the response, in front of it the other one is lost. -/
theorem examples_told_apart (source : String) (text : List Char) :
    List.Forall₂ (fun (s : ExampleSection) (e : Endpoint) =>
        e.method = s.method ∧ e.path = String.ofList s.path ∧ e.line = (s.line : Int) ∧
        ∀ a b, s.examples = [a, b] →
          (Mentions a → ¬ Mentions b → e.requestBody = some (String.ofList a) ∧ e.responseBody = some (String.ofList b)) ∧
          (¬ Mentions a → Mentions b → e.requestBody = some (String.ofList b) ∧ e.responseBody = none))
      (exampleSections (pieces (Text.numberedLines text))) (outlineEndpoints source text) := by
  have same : List.Forall₂ Eq ((exampleSections (pieces (Text.numberedLines text))).map ExampleSection.illustrated)
      ((outlineEndpoints source text).map illustrated) := by
    rw [outlineEndpoints_illustrated]
    exact List.forall₂_refl _
  rw [List.forall₂_map_left_iff, List.forall₂_map_right_iff] at same
  refine same.imp fun s e here => ?_
  simp only [ExampleSection.illustrated, illustrated, Prod.mk.injEq] at here
  obtain ⟨method, path, line, request, response⟩ := here
  refine ⟨method.symm, path.symm, line.symm, fun a b two => ?_⟩
  rw [two] at request response
  simp only [← mentionsRequest_iff]
  constructor
  · intro first second
    rw [← request, ← response]
    simp [requestOf, responseOf, second]
  · intro first second
    rw [← request, ← response]
    simp [requestOf, responseOf, second]

example : (outlineEndpoints "" ("### GET /a\n\x60\x60\x60json\n1\n\x60\x60\x60\n\x60\x60\x60json\n\"Request\"\n\x60\x60\x60").toList).map
      (fun e => (e.requestBody, e.responseBody)) = [(some "\"Request\"\n", none)] := by decide +kernel

end Drift.Document
