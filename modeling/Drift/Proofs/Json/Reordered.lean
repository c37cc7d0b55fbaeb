import Drift.Proofs.Json.Failures
import Drift.Proofs.Outcome
import Mathlib.Data.List.Nodup
import Mathlib.Data.Option.Defs

namespace Drift

section Sorting

variable {α : Type} {key : α → List Nat}

theorem pairwise_mergeSort_keys (xs : List α) :
    (xs.mergeSort fun x y => !decide (key y < key x)).Pairwise fun x y => ¬ key y < key x := by
  have ordered : (xs.mergeSort fun x y => !decide (key y < key x)).Pairwise fun x y => !decide (key y < key x) := by
    refine List.pairwise_mergeSort ?_ ?_ xs
    · intro x y z below above
      rw [Bool.not_eq_true', decide_eq_false_iff_not] at below above ⊢
      exact List.not_lt.2 (List.le_trans (List.not_lt.1 below) (List.not_lt.1 above))
    · intro x y
      rw [Bool.or_eq_true, Bool.not_eq_true', Bool.not_eq_true', decide_eq_false_iff_not, decide_eq_false_iff_not]
      exact (List.le_total (key x) (key y)).imp List.not_lt.2 List.not_lt.2
  simpa using ordered

/-- What is sorted by keys that are all different comes out the same from any order. -/
theorem mergeSort_reordered {xs ys : List α} (perm : xs.Perm ys) (distinct : (xs.map key).Nodup) :
    xs.mergeSort (fun x y => !decide (key y < key x)) = ys.mergeSort (fun x y => !decide (key y < key x)) := by
  refine List.Perm.eq_of_pairwise ?_ (pairwise_mergeSort_keys xs) (pairwise_mergeSort_keys ys)
    ((List.mergeSort_perm _ _).trans (perm.trans (List.mergeSort_perm _ _).symm))
  intro x y left right below above
  have here := List.mem_mergeSort.1 left
  have there := perm.mem_iff.2 (List.mem_mergeSort.1 right)
  exact List.inj_on_of_nodup_map distinct here there (List.le_antisymm (List.not_lt.1 below) (List.not_lt.1 above))

end Sorting

def Value.moved (place : Nat → Nat) : Value → Value
  | .held id => .held (place id)
  | v => v

structure IsObject (entries : List (Value × Value)) : Prop where
  texts : ∀ e ∈ entries, e.1.text?.isSome
  distinct : (entries.map fun e => e.1.codes).Nodup

/-- The second collection holds what the first one does, moved to other numbers. The entries of an object may come in
another order. -/
inductive Collection.Reordered (place : Nat → Nat) : Collection → Collection → Prop
  | list (items : List Value) : Reordered place (.list items) (.list (items.map (·.moved place)))
  | pair (a b : Value) : Reordered place (.pair a b) (.pair (a.moved place) (b.moved place))
  | set {items : List Value} (scalars : ∀ v ∈ items, ∀ id, v ≠ .held id) : Reordered place (.set items) (.set items)
  | map {entries others : List (Value × Value)} (object : IsObject entries)
      (perm : others.Perm (entries.map fun (k, w) => (k, w.moved place))) : Reordered place (.map entries) (.map others)

/-- The second store has all collections inside of a value at places of their own, with the entries of objects in any
order. -/
structure Store.Reorders (s t : Store) (place : Nat → Nat) (v : Value) : Prop where
  cells : ∀ id, s.Reaches v (.held id) →
    Option.Rel (Collection.Reordered place) (s.at? (.held id)) (t.at? (.held (place id)))
  apart : ∀ i j, s.Reaches v (.held i) → s.Reaches v (.held j) → place i = place j → i = j
  room : t.room = s.room

/-- The values are the same but for the order of the entries of objects, at any depth. All mappings inside of them are
objects. -/
def SameButOrder (s t : Store) (v w : Value) : Prop := ∃ place, s.Reorders t place v ∧ w = v.moved place

variable {s t : Store} {place : Nat → Nat} {u v w : Value} {id : Nat} {entries others : List (Value × Value)}

theorem Store.Reaches.step (reaches : s.Reaches u v) (holds : s.Holds v w) : s.Reaches u w := by
  induction reaches with
  | here v => exact .inside holds (.here w)
  | inside first _ ih => exact .inside first (ih holds)

namespace IsObject

theorem perm (object : IsObject entries) (perm : others.Perm entries) : IsObject others :=
  ⟨fun e mem => object.texts e (perm.mem_iff.1 mem), (perm.map fun e => e.1.codes).nodup_iff.2 object.distinct⟩

theorem moved (object : IsObject entries) (place : Nat → Nat) :
    IsObject (entries.map fun (k, w) => (k, w.moved place)) := by
  constructor
  case texts =>
    intro e mem
    obtain ⟨e', inside, rfl⟩ := List.mem_map.1 mem
    exact object.texts e' inside
  case distinct =>
    rw [List.map_map]
    exact object.distinct

end IsObject

namespace Json

section Keys

variable {k l : Value} (text : k.text?.isSome)

include text

theorem keyClass_of_text : KeyClass.of k = .text := by
  cases k with
  | str s => rfl
  | _ => cases text

theorem isNaN_of_text : isNaN k = false := by
  cases k with
  | str s => rfl
  | _ => cases text

theorem keyBefore_of_text : keyBefore k l = decide (k.codes < l.codes) := by
  cases k with
  | str s => cases l <;> rfl
  | _ => cases text

theorem keyChars_of_text : ∃ cs, keyChars k = .ok cs := by
  cases k with
  | str s => exact ⟨_, rfl⟩
  | _ => cases text

end Keys

theorem sortEntries_object (object : IsObject entries) :
    sortEntries? entries = some (entries.mergeSort fun a b => !decide (b.1.codes < a.1.codes)) := by
  have compared : entries.mergeSort (fun a b => !keyBefore b.1 a.1) =
      entries.mergeSort fun a b => !decide (b.1.codes < a.1.codes) := by
    have same := List.map_mergeSort (f := id) (l := entries) (r := fun a b => !keyBefore b.1 a.1)
      (s := fun a b => !decide (b.1.codes < a.1.codes)) fun a _ b mem => by rw [keyBefore_of_text (object.texts b mem)]; rfl
    rwa [List.map_id, List.map_id] at same
  rw [← compared]
  match entries, object with
  | [], _ => rw [List.mergeSort_nil, sortEntries?]
  | [e], _ => rw [List.mergeSort_singleton, sortEntries?]
  | (k, x) :: e :: rest, object =>
    have classes : ((k, x) :: e :: rest).all (fun e' => KeyClass.of e'.1 = KeyClass.of k) = true := by
      rw [List.all_eq_true]
      intro e' mem
      rw [decide_eq_true_eq, keyClass_of_text (object.texts e' mem), keyClass_of_text (object.texts (k, x) (by simp))]
    have numbers : ((k, x) :: e :: rest).any (fun e' => isNaN e'.1) = false := by
      rw [List.any_eq_false]
      intro e' mem
      rw [isNaN_of_text (object.texts e' mem)]
      exact Bool.false_ne_true
    rw [sortEntries?, if_pos classes, numbers, if_neg Bool.false_ne_true]
    exact nofun

theorem sortEntries_reordered (object : IsObject entries)
    (perm : others.Perm (entries.map fun (k, w) => (k, w.moved place))) :
    sortEntries? others = (sortEntries? entries).map fun es => es.map fun (k, w) => (k, w.moved place) := by
  have other := (object.moved place).perm perm
  have sorted := List.map_mergeSort (f := fun e : Value × Value => (e.1, e.2.moved place)) (l := entries)
    (r := fun a b => !decide (b.1.codes < a.1.codes)) (s := fun a b => !decide (b.1.codes < a.1.codes))
    fun _ _ _ _ => rfl
  rw [sortEntries_object other, sortEntries_object object, mergeSort_reordered perm other.distinct]
  exact congrArg some sorted.symm

theorem moved_of_scalar (scalar : ∀ id, v ≠ .held id) : v.moved place = v := by
  cases v with
  | held id => exact absurd rfl (scalar id)
  | _ => rfl

theorem dataChars_scalar (sorted : Bool) (s : Store) (depth : Nat) (path : List Nat) (scalar : ∀ id, v ≠ .held id) :
    dataChars sorted s (depth + 1) path v = scalarChars v := by
  cases v with
  | held id => exact absurd rfl (scalar id)
  | _ =>
    rw [dataChars]
    exact scalar

theorem text?_set {items : List Value} (scalars : ∀ v ∈ items, ∀ id, v ≠ .held id)
    (set : s.at? (.held id) = some (.set items)) :
    s.text? (.held id) = if items = [] then some "set()".toList
      else ((Value.listed items).mapM Value.quotedChars?).map (Store.bracketed "\x7b" "\x7d") := by
  have bound : id < s.cells.size := (Array.getElem?_eq_some_iff.1 set).1
  obtain ⟨fuel, size⟩ : ∃ fuel, s.cells.size = fuel + 1 := Nat.exists_eq_succ_of_ne_zero (Nat.ne_zero_of_lt bound)
  rw [Store.text?, Store.quoted?, size, Store.quotedChars?, set]
  cases items with
  | nil => rfl
  | cons v items =>
    -- scalars are written without a look at the store
    have each : (Value.listed (v :: items)).mapM Value.quotedChars? =
        (Value.listed (v :: items)).mapM (s.quotedChars? (fuel + 1)) := by
      refine mapM_congr fun w mem => ?_
      have scalar := scalars w ((Value.listed_perm _).mem_iff.1 mem)
      cases w with
      | held id => exact absurd rfl (scalar id)
      | _ => rfl
    rw [if_neg (List.cons_ne_nil _ _), each]

section Step

variable {depth : Nat} {path : List Nat}

theorem dataChars_circular (circular : path.contains id = true) :
    dataChars true s (depth + 1) path (.held id) = .error .circular := by
  rw [dataChars, if_pos circular]

variable (further : ¬ path.contains id = true)

include further

theorem dataChars_list {items : List Value} (list : s.at? (.held id) = some (.list items)) :
    dataChars true s (depth + 1) path (.held id) = itemsChars <$> items.mapM (dataChars true s depth (id :: path)) := by
  rw [dataChars, if_neg further, list]

theorem dataChars_pair {a b : Value} (pair : s.at? (.held id) = some (.pair a b)) :
    dataChars true s (depth + 1) path (.held id) = itemsChars <$> [a, b].mapM (dataChars true s depth (id :: path)) := by
  rw [dataChars, if_neg further, pair]

theorem dataChars_map (map : s.at? (.held id) = some (.map entries)) (sorted : sortEntries? entries = some others) :
    dataChars true s (depth + 1) path (.held id) = entriesChars <$> others.mapM fun (k, w) => do
      let name ← keyChars k
      return name ++ ": ".toList ++ (← dataChars true s depth (id :: path) w) := by
  rw [dataChars, if_neg further, map]
  simp only [if_true, sorted, pure_bind]

/-- What is neither a list, a pair nor an object is written as a whole. -/
theorem dataChars_whole (sets : ∀ c, s.at? (.held id) = some c → ∃ items, c = .set items) :
    dataChars true s (depth + 1) path (.held id) = match s.text? (.held id) with
      | some cs => .ok (quoted .ascii (String.ofList cs))
      | none => .error .hugeNumber := by
  rw [dataChars, if_neg further]
  dsimp only
  split
  case h_4 => rfl
  all_goals
    obtain ⟨_, other⟩ := sets _ ‹_›
    cases other

end Step

def OfObjects (s : Store) (v : Value) : Prop :=
  ∀ w entries, s.Reaches v w → s.at? w = some (.map entries) → IsObject entries

theorem OfObjects.inside (objects : OfObjects s v) (holds : s.Holds v w) : OfObjects s w :=
  fun u entries reaches map => objects u entries (.inside holds reaches) map

/-- Where all keys are texts, no key is the reason that there is no text. -/
theorem dataChars_objects_failsWith (depth : Nat) (path : List Nat) (v : Value) (objects : OfObjects s v) :
    FailsWith (fun e => e.isOfKeys = false) (dataChars true s depth path v) := by
  induction depth generalizing path v with
  | zero => exact .error rfl
  | succ depth ih =>
    by_cases scalar : ∀ id, v ≠ .held id
    · rw [dataChars_scalar _ _ _ _ scalar]
      exact (scalarChars_failsWith _).mono fun e huge => by rw [huge]; rfl
    · obtain ⟨id, rfl⟩ : ∃ id, v = .held id := by simpa using scalar
      by_cases further : path.contains id = true
      · rw [dataChars_circular further]
        exact .error rfl
      · have inner : ∀ w, s.Holds (.held id) w →
            FailsWith (fun e => e.isOfKeys = false) (dataChars true s depth (id :: path) w) :=
          fun w holds => ih _ w (objects.inside holds)
        have whole (sets : ∀ c, s.at? (.held id) = some c → ∃ items, c = .set items) :
            FailsWith (fun e => e.isOfKeys = false) (dataChars true s (depth + 1) path (.held id)) := by
          rw [dataChars_whole further sets]
          split
          · exact .ok _
          · exact .error rfl
        match cell : s.at? (.held id) with
        | some (.list items) =>
          rw [dataChars_list further cell]
          exact .map _ (.mapM fun w mem => inner w (.item cell mem))
        | some (.pair a b) =>
          rw [dataChars_pair further cell]
          refine .map _ (.mapM ?_)
          simp only [List.forall_mem_cons, List.not_mem_nil, false_imp_iff, implies_true, and_true]
          exact ⟨inner a (.first cell), inner b (.second cell)⟩
        | some (.map entries) =>
          have object := objects _ entries (.here _) cell
          rw [dataChars_map further cell (sortEntries_object object)]
          refine .map _ (.mapM fun e mem => ?_)
          have mem := List.mem_mergeSort.1 mem
          obtain ⟨cs, named⟩ := keyChars_of_text (object.texts e mem)
          dsimp only
          rw [named]
          exact .bind (.ok _) fun _ => .bind (inner e.2 (.entry cell mem)) fun _ => .ok _
        | some (.set items) => exact whole (by simp [cell])
        | none => exact whole (by simp [cell])

section Reorders

variable {root : Value} (reorders : s.Reorders t place root)

include reorders

theorem reordered_of_at? {c : Collection} (reached : s.Reaches root (.held id)) (cell : s.at? (.held id) = some c) :
    ∃ d, t.at? (.held (place id)) = some d ∧ c.Reordered place d := by
  have cells := reorders.cells id reached
  rw [cell] at cells
  generalize t.at? (.held (place id)) = other at cells
  obtain ⟨order⟩ | _ := cells
  exact ⟨_, rfl, order⟩

theorem at?_moved_of_none (reached : s.Reaches root (.held id)) (cell : s.at? (.held id) = none) :
    t.at? (.held (place id)) = none := by
  have cells := reorders.cells id reached
  rw [cell] at cells
  generalize t.at? (.held (place id)) = other at cells
  cases cells
  rfl

theorem ofObjects_of_reorders : OfObjects s root := by
  intro w entries reaches map
  cases w with
  | held id =>
    obtain ⟨d, -, order⟩ := reordered_of_at? reorders reaches map
    cases order with
    | map object perm => exact object
  | _ => cases map

theorem contains_moved {path : List Nat} (within : ∀ i ∈ path, s.Reaches root (.held i))
    (reached : s.Reaches root (.held id)) : (path.map place).contains (place id) = path.contains id := by
  rw [Bool.eq_iff_iff, List.contains_iff_mem, List.contains_iff_mem, List.mem_map]
  constructor
  · rintro ⟨i, mem, same⟩
    rwa [← reorders.apart i id (within i mem) reached same]
  · exact fun mem => ⟨id, mem, rfl⟩

theorem dataChars_reordered (depth : Nat) (path : List Nat) (v : Value) (within : ∀ i ∈ path, s.Reaches root (.held i))
    (reached : s.Reaches root v) :
    dataChars true t depth (path.map place) (v.moved place) = dataChars true s depth path v := by
  -- on the depth that is left; what is on the path moves with the value, so that a circle is one in both stores
  induction depth generalizing path v with
  | zero => rfl
  | succ depth ih =>
    by_cases scalar : ∀ id, v ≠ .held id
    · rw [moved_of_scalar scalar, dataChars_scalar _ _ _ _ scalar, dataChars_scalar _ _ _ _ scalar]
    · obtain ⟨id, rfl⟩ : ∃ id, v = .held id := by simpa using scalar
      have same := contains_moved reorders within reached
      rw [Value.moved]
      by_cases further : path.contains id = true
      · rw [dataChars_circular further, dataChars_circular (same.trans further)]
      · have further' : ¬ (path.map place).contains (place id) = true := by rwa [same]
        have inner : ∀ w, s.Holds (.held id) w → dataChars true t depth (place id :: path.map place) (w.moved place) =
            dataChars true s depth (id :: path) w :=
          fun w holds => ih (id :: path) w (List.forall_mem_cons.2 ⟨reached, within⟩) (reached.step holds)
        cases cell : s.at? (.held id) with
        | none =>
          have other := at?_moved_of_none reorders reached cell
          rw [dataChars_whole further (by simp [cell]), dataChars_whole further' (by simp [other])]
          simp [Store.text?, Store.quoted?, Store.quotedChars?, cell, other, Value.quotedChars?]
        | some c =>
          obtain ⟨d, other, order⟩ := reordered_of_at? reorders reached cell
          cases order with
          | list items =>
            rw [dataChars_list further cell, dataChars_list further' other, List.mapM_map]
            exact congrArg _ (mapM_congr fun w mem => inner w (.item cell mem))
          | pair a b =>
            rw [dataChars_pair further cell, dataChars_pair further' other]
            simp only [List.mapM_cons, List.mapM_nil, inner a (.first cell), inner b (.second cell)]
          | set scalars =>
            rw [dataChars_whole further (by simp [cell]), dataChars_whole further' (by simp [other]),
              text?_set scalars cell, text?_set scalars other]
          | map object perm =>
            have sorted := sortEntries_object object
            have moved := sortEntries_reordered object perm
            rw [sorted, Option.map_some] at moved
            rw [dataChars_map further cell sorted, dataChars_map further' other moved, List.mapM_map]
            refine congrArg _ (mapM_congr fun e mem => ?_)
            have mem := List.mem_mergeSort.1 mem
            simp only [Function.comp_apply, inner e.2 (.entry cell mem)]

end Reorders

/-- The text of a value of objects is the same in any order of their entries. -/
theorem dataText_reordered (same : SameButOrder s t v w) : dataText t w = dataText s v := by
  obtain ⟨place, reorders, rfl⟩ := same
  have chars := dataChars_reordered reorders s.room.data [] v (by simp) (.here v)
  rw [List.map_nil] at chars
  rw [dataText, dataText, reorders.room, chars]
  cases read : dataChars true s s.room.data [] v with
  | ok cs => rfl
  | error e =>
    have other := dataChars_objects_failsWith s.room.data [] v (ofObjects_of_reorders reorders) e read
    simp only [other, Bool.false_eq_true, if_false]

end Json

end Drift
