import Drift.Proofs.Run
import Drift.Yaml.Scalar

namespace Drift.Yaml.Scalar

inductive Misfit : Tag → Failure → Prop where
  | form (tag : Tag) : Misfit tag .malformed
  | word : Misfit .bool .badWord
  | noInteger : Misfit .int .emptyNumber
  | integer (u : Unfit) : Misfit .int (.unfit u)
  | noNumber : Misfit .float .emptyNumber
  | number (u : Unfit) : Misfit .float (.unfit u)
  | place : Misfit .float .hugePlace
  | noTimestamp : Misfit .timestamp .noTimestamp
  | timestamp (u : Unfit) : Misfit .timestamp (.unfit u)

abbrev Fits {α : Type} (tag : Tag) (x : Except Failure α) : Prop := FailsWith (Misfit tag) x

theorem fits_bool (text : List Char) : Fits .bool (bool text) := .ite (.ok _) (.ite (.ok _) (.error .word))

theorem fits_integerIn (base : Nat) (cs : List Char) : Fits .int (integerIn base cs) := by
  rw [integerIn]
  obtain ⟨negative, body⟩ := splitSign (Text.trim (cs.map Text.plainDigit))
  dsimp only
  cases Text.ofDigits? base _ with
  | none => exact .error (.integer _)
  | some n => exact .ite (.error (.integer _)) (.ok _)

theorem fits_integer (text : List Char) : Fits .int (integer text) := by
  have fits_sexagesimal : ∀ parts, Fits .int (sexagesimal parts) :=
    fun _ => .bind (.mapM fun _ _ => fits_integerIn 10 _) fun _ => .ok _
  have signing : ∀ negative n, Fits .int (pure (signed negative n)) := fun _ _ => .ok _
  rw [integer]
  obtain ⟨negative, body⟩ := splitSign (withoutGaps text)
  cases body with
  | nil => exact .bind (.error .noInteger) (signing negative)
  | cons c r =>
    refine .ite (.bind (.ok _) (signing negative)) ?_
    refine .ite (.bind (fits_integerIn _ _) (signing negative)) ?_
    refine .ite (.bind (fits_integerIn _ _) (signing negative)) ?_
    refine .ite (.bind (fits_integerIn _ _) (signing negative)) ?_
    exact .ite (.bind (fits_sexagesimal _) (signing negative)) (.bind (fits_integerIn _ _) (signing negative))

theorem fits_number (cs : List Char) : Fits .float (number cs) := by
  rw [number]
  obtain ⟨negative, body⟩ := splitSign (Text.trim (cs.map Text.plainDigit))
  refine .ite (.ok _) (.ite (.ok _) ?_)
  split
  · exact .ok _
  · exact .error (.number _)

theorem fits_sumFrom (sum : Float) (base : Nat) (parts : List Decimal.Binary) :
    Fits .float (sumFrom sum base parts) := by
  induction parts generalizing sum base with
  | nil => exact .ok _
  | cons x r ih =>
    rw [sumFrom]
    split
    · exact .error .place
    · exact ih _ _

theorem fits_sexagesimalNumber (parts : List (List Char)) : Fits .float (sexagesimalNumber parts) :=
  .bind (.mapM fun _ _ => fits_number _) fun _ => .bind (fits_sumFrom _ _ _) fun _ => .ok _

theorem fits_float (mark : Nat) (text : List Char) : Fits .float (float mark text) := by
  rw [float]
  obtain ⟨negative, body⟩ := splitSign (Text.lower (withoutGaps text))
  refine .ite (.error .noNumber) (.ite (.ok _) (.ite (.ok _) ?_))
  exact .ite (.map _ (fits_sexagesimalNumber _)) (.map _ (fits_number _))

theorem fits_fitting (v : Value) (u : Option Unfit) : Fits .timestamp (fitting v u) := by
  cases u with
  | none => exact .ok _
  | some u => exact .error (.timestamp u)

theorem fits_timestamp (text : List Char) : Fits .timestamp (timestamp text) := by
  rw [timestamp]
  split
  · exact .error .noTimestamp
  · dsimp only
    split
    · exact fits_fitting _ _
    · exact fits_fitting _ _

theorem fits_binary (text : List Char) : Fits .binary (binary text) := by
  refine .ite ?_ (.error (.form _))
  split
  · exact .ok _
  · exact .error (.form _)

theorem fits_value (mark : Nat) (tag : Tag) (codes : List Nat) : Fits tag (value mark tag codes) := by
  cases tag with
  | bool => exact .map _ (fits_bool _)
  | int => exact .map _ (fits_integer _)
  | float => exact fits_float _ _
  | timestamp => exact fits_timestamp _
  | binary => exact .map _ (fits_binary _)
  | null => exact .ok _
  | str => exact .ok _
  | _ => exact .error (.form _)

end Drift.Yaml.Scalar
