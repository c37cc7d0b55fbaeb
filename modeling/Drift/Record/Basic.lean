import Drift.Text.Blank
import Drift.Text.Number
import Drift.Text.Split
import Drift.Text.Trim
import Drift.Text.Utf8
import Drift.Value.Basic

namespace Drift

inductive Fault.Step where
  | field (name : String)
  | index (i : Nat)
  deriving DecidableEq, Repr

inductive Fault.Cause where
  | missing | notText | brokenText | notInteger | unreadableInteger | oversizedInteger | fractional
  | infinite | notBool | unreadableBool | notList | notMapping | notPath
  | notRecord (name : String)
  | notAmong (names : List String)
  | rule (text : String)
  deriving DecidableEq, Repr

structure Fault where
  place : List Fault.Step
  cause : Fault.Cause
  deriving DecidableEq, Repr

namespace Fault.Cause

def kind : Fault.Cause → String
  | missing => "missing"
  | notText => "string_type"
  | brokenText => "string_unicode"
  | notInteger => "int_type"
  | unreadableInteger => "int_parsing"
  | oversizedInteger => "int_parsing_size"
  | fractional => "int_from_float"
  | infinite => "finite_number"
  | notBool => "bool_type"
  | unreadableBool => "bool_parsing"
  | notList => "list_type"
  | notMapping => "dict_type"
  | notPath => "path_type"
  | notRecord _ => "model_type"
  | notAmong _ => "enum"
  | rule _ => "value_error"

def choices (names : List String) : String :=
  match (names.map fun n => s!"'{n}'").reverse with
  | [] => ""
  | [n] => n
  | n :: ns => ", ".intercalate ns.reverse ++ " or " ++ n

def message : Fault.Cause → String
  | missing => "Field required"
  | notText => "Input should be a valid string"
  | brokenText => "Input should be a valid string, unable to parse raw data as a unicode string"
  | notInteger => "Input should be a valid integer"
  | unreadableInteger => "Input should be a valid integer, unable to parse string as an integer"
  | oversizedInteger => "Unable to parse input string as an integer, exceeded maximum size"
  | fractional => "Input should be a valid integer, got a number with a fractional part"
  | infinite => "Input should be a finite number"
  | notBool => "Input should be a valid boolean"
  | unreadableBool => "Input should be a valid boolean, unable to interpret input"
  | notList => "Input should be a valid list"
  | notMapping => "Input should be a valid dictionary"
  | notPath => "Input is not a valid path for <class 'pathlib.Path'>"
  | notRecord name => s!"Input should be a valid dictionary or instance of {name}"
  | notAmong names => "Input should be " ++ choices names
  | rule text => s!"Value error, {text}"

end Fault.Cause

def Checked (α : Type) : Type := Except (List Fault) α

namespace Checked

variable {α β : Type}

def fault (c : Fault.Cause) : Checked α := .error [⟨[], c⟩]

instance : Functor Checked where
  map f x := Except.map f x

instance : Applicative Checked where
  pure x := Except.ok x
  seq f x :=
    match f, x () with
    | .ok f, .ok a => .ok (f a)
    | .error e, .ok _ => .error e
    | .ok _, .error e => .error e
    | .error e, .error e' => .error (e ++ e')

def under (s : Fault.Step) (x : Checked α) : Checked α :=
  match x with
  | .ok a => .ok a
  | .error faults => .error (faults.map fun f => { f with place := s :: f.place })

def check (x : Checked α) (f : α → Option String) : Checked α :=
  match x with
  | .ok a =>
    match f a with
    | some text => fault (.rule text)
    | none => .ok a
  | .error e => .error e

end Checked

namespace Record

variable {α : Type}

def text (v : Value) : Checked String :=
  match v with
  | .bytes bs =>
    match Text.decodeUtf8? bs with
    | some cs => pure (String.ofList (Text.heldChars cs))
    | none => .fault .brokenText
  | v =>
    match v.text? with
    | some s => pure s
    | none => .fault .notText

def isSpace (c : Char) : Bool := Text.isBlank c && !(28 ≤ c.toNat && c.toNat ≤ 31)

/-- The digits from the first one on that is not zero; zeros and underscores in front of it go, and the
last zero stays before a point and at the end. A minus counts as such a digit. -/
def withoutZeros? : List Char → Option (List Char)
  | [] => none
  | '0' :: r => fromZero '0' r
  | c :: r => if c.isDigit then some (c :: r) else none
where
  fromZero (last : Char) : List Char → Option (List Char)
    | [] => some [last]
    | '.' :: r => some (last :: '.' :: r)
    | c :: r =>
      if c = '0' ∨ c = '_' then fromZero c r
      else if c.isDigit ∨ c = '-' then some (c :: r)
      else none

def withoutFraction? (cs : List Char) : Option (List Char) :=
  match Text.cutAtFirst? '.' cs with
  | none => some cs
  | some (whole, zeros) => if !zeros.isEmpty && zeros.all (· == '0') then some whole else none

def withoutGaps? (cs : List Char) : Option (List Char) :=
  if cs.head? = some '_' ∨ cs.getLast? = some '_' ∨ Text.contains "__".toList cs then none
  else some (cs.filter (· != '_'))

def maxIntegerLength : Nat := 4300

/-- An integer in its shortest form: a minus at most, and digits of which the first is no zero unless it
is alone. -/
def shortInteger (cs : List Char) : Checked Int :=
  let digits := if cs.head? = some '-' then cs.tail else cs
  let isShort := digits.all Char.isDigit && !digits.isEmpty && (digits.head? != some '0' || digits.length == 1)
  if !isShort then .fault .unreadableInteger
  else if maxIntegerLength < cs.length then .fault .oversizedInteger
  else
    let n := (Text.ofDigits? 10 digits).getD 0
    pure (if cs.head? = some '-' then -n else n)

/-- An integer as text: blanks around it, one sign, zeros in front of the digits, underscores between
them, and a point with zeros behind it are allowed. -/
def integerOfText (cs : List Char) : Checked Int :=
  let t := Text.trimWhile isSpace cs
  let unsigned := if t.head? = some '+' && t.tail.head? != some '-' then t.tail else t
  let bare :=
    match unsigned with
    | '-' :: r => (withoutZeros? r).map ('-' :: ·)
    | r => withoutZeros? r
  match (bare.bind withoutFraction?).bind withoutGaps? with
  | some short => shortInteger short
  | none => .fault .unreadableInteger

def wordLimit : Int := 9223372036854775808

def fitsWord (n : Int) : Bool := -wordLimit < n && n < wordLimit

def integerOfFloat (x : Float) : Checked Int :=
  match Decimal.Binary.ofFloat x with
  | .nan => .fault .infinite
  | .infinite _ => .fault .infinite
  | b =>
    match b.toInt? with
    | some n => if fitsWord n then pure n else .fault .oversizedInteger
    | none => .fault .fractional

def integer (v : Value) : Checked Int :=
  match v with
  | .int n => pure n
  | .bool b => pure b.toNat
  | .float x => integerOfFloat x
  | .nan _ => .fault .infinite
  | .str s => if Text.isBroken s then .fault .brokenText else integerOfText s.toList
  | _ => .fault .notInteger

def trueWords : List String := ["1", "on", "t", "true", "y", "yes"]

def falseWords : List String := ["0", "off", "f", "false", "n", "no"]

def boolOfInt (n : Int) : Checked Bool :=
  if n = 0 then pure false else if n = 1 then pure true else .fault .unreadableBool

def boolean (v : Value) : Checked Bool :=
  match v with
  | .bool b => pure b
  | .int n => if -wordLimit ≤ n ∧ n < wordLimit then boolOfInt n else .fault .notBool
  | .float x =>
    match integerOfFloat x with
    | .ok n => boolOfInt n
    | .error _ => .fault .notBool
  | .str s =>
    let w := String.ofList (s.toList.map Char.toLower)
    if Text.isBroken s then .fault .brokenText
    else if trueWords.contains w then pure true
    else if falseWords.contains w then pure false
    else .fault .unreadableBool
  | _ => .fault .notBool

def among (all : List α) (name : α → String) (v : Value) : Checked α :=
  match text v with
  | .ok s =>
    match all.find? (name · == s) with
    | some a => pure a
    | none => .fault (.notAmong (all.map name))
  | .error _ => .fault (.notAmong (all.map name))

def orNull (r : Value → Checked α) (v : Value) : Checked (Option α) :=
  match v with
  | .null => pure none
  | _ => some <$> r v

def nullAs (a : α) (r : Value → Checked α) (v : Value) : Checked α :=
  match v with
  | .null => pure a
  | _ => r v

def itemsFrom (r : Value → Checked α) : Nat → List Value → Checked (List α)
  | _, [] => pure []
  | i, v :: vs => List.cons <$> (r v).under (.index i) <*> itemsFrom r (i + 1) vs

def list (s : Store) (r : Value → Checked α) (v : Value) : Checked (List α) :=
  match s.at? v with
  | some (.list items) => itemsFrom r 0 items
  | some (.set items) => itemsFrom r 0 items
  | some (.pair a b) => itemsFrom r 0 [a, b]
  | _ => .fault .notList

def valuesOf (r : Value → Checked α) : List (Value × Value) → Checked (List (String × α))
  | [] => pure []
  | (k, v) :: es =>
    let name := k.text?.getD ""
    (fun a rest => (name, a) :: rest) <$> (r v).under (.field name) <*> valuesOf r es

def mapping (s : Store) (r : Value → Checked α) (v : Value) : Checked (List (String × α)) :=
  match s.entries? v with
  | some entries => valuesOf r entries
  | none => .fault .notMapping

structure Fields where
  store : Store
  entries : List (Value × Value)

def required (f : Fields) (name : String) (r : Value → Checked α) : Checked α :=
  match Value.field name f.entries with
  | some v => (r v).under (.field name)
  | none => Checked.under (.field name) (.fault .missing)

def optional (f : Fields) (name : String) (default : α) (r : Value → Checked α) : Checked α :=
  match Value.field name f.entries with
  | some v => (r v).under (.field name)
  | none => pure default

def record (s : Store) (name : String) (r : Fields → Checked α) (v : Value) : Checked α :=
  match s.entries? v with
  | some entries => r ⟨s, entries⟩
  | none => .fault (.notRecord name)

end Record

end Drift
