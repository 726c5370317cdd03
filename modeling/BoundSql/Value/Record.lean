import BoundSql.Value

/-!
# Records written as values

Records, enumerated names and numbers of fixed width are read from values here. A record is an
object that has its fields by name, in any order and among others; it may also be a list of its
fields in the order in which the record declares them. A field that is there has to be well typed;
whether it may be missing is up to the record.
-/

namespace BoundSql.Value

/-- The named fields of a record. A list names its members after `names` and may stop early, but
has no more members than there are names. -/
def record? (names : List String) : Value → Option (List (String × Value))
  | object fields => some fields
  | list members => if members.length ≤ names.length then some (names.zip members) else none
  | _ => none

/-- The tag of a tagged record and the record itself: the tag is the field `name` of an object, or
the first member of a list. -/
def tagged? (name : String) : Value → Option (String × Value)
  | object fields =>
    match fields.lookup name with
    | some (text tag) => some (tag, object fields)
    | _ => none
  | list (text tag :: members) => some (tag, list members)
  | _ => none

/-- A field that has to be there. -/
def required {α : Type} (fields : List (String × Value)) (name : String)
    (read : Value → Option α) : Option α :=
  (fields.lookup name).bind read

/-- A field that stands for `default` when it is missing. -/
def optional {α : Type} (fields : List (String × Value)) (name : String)
    (read : Value → Option α) (default : α) : Option α :=
  match fields.lookup name with
  | none => some default
  | some v => read v

/-! ## Simple types -/

def text? : Value → Option String
  | text s => some s
  | _ => none

def bool? : Value → Option Bool
  | bool b => some b
  | _ => none

/-- A whole number from zero up to, but not including, `bound`. -/
def nat? (bound : Nat) : Value → Option Nat
  | int n => if 0 ≤ n ∧ n < bound then some n.toNat else none
  | _ => none

/-- The least number of a signed word of 64 bits. -/
def minInt64 : Int := -0x8000000000000000

/-- The greatest number of a signed word of 64 bits. -/
def maxInt64 : Int := 0x7fffffffffffffff

/-- A whole number that fits a signed word of 64 bits. -/
def int64? : Value → Option Int
  | int n => if minInt64 ≤ n ∧ n ≤ maxInt64 then some n else none
  | _ => none

/-- The first number beyond an unsigned word of 32 bits. -/
def wordBound32 : Nat := 0x100000000

/-- The first number beyond an unsigned word of 64 bits. -/
def wordBound64 : Nat := 0x10000000000000000

/-- A whole number that fits an unsigned word of 32 bits. -/
def word32? : Value → Option Nat := nat? wordBound32

/-- A whole number that fits an unsigned word of 64 bits. -/
def word64? : Value → Option Nat := nat? wordBound64

/-! ## Enumerated names -/

def isNull : Value → Bool
  | null => true
  | _ => false

/-- Null, or an object without fields. -/
def isVoid : Value → Bool
  | null | object [] => true
  | _ => false

/-- An enumerated name: a text, or an object whose only field has that name and holds a value that
counts as nothing. -/
def nameHolding? (nothing : Value → Bool) : Value → Option String
  | text s => some s
  | object [(s, v)] => if nothing v then some s else none
  | _ => none

/-- An enumerated name in a plain record, where only null is nothing. -/
def name? : Value → Option String := nameHolding? isNull

/-- An enumerated name in a tagged record, where an object without fields is nothing, too. -/
def nameInTagged? : Value → Option String := nameHolding? isVoid

/-! ## Lemmas -/

theorem nat?_int_natCast {bound n : Nat} (h : n < bound) : nat? bound (int n) = some n := by
  have : (n : Int) < bound := by omega
  simp [nat?, this]

theorem int64?_int {n : Int} (low : minInt64 ≤ n) (high : n ≤ maxInt64) :
    int64? (int n) = some n := if_pos ⟨low, high⟩

end BoundSql.Value
