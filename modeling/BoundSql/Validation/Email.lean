import BoundSql.Judgement
import BoundSql.Redaction
import BoundSql.Validation.Error

/-!
# Email addresses

An address has one at sign, a local part before it and after it a domain of at least two labels
joined by dots, and no white space. The lengths of both parts are limited in bytes of UTF-8.
-/

namespace BoundSql.Email

open Pattern

/-- The most bytes of a local part. -/
def maxLocalBytes : Nat := 64

/-- The most bytes of a domain. -/
def maxDomainBytes : Nat := 255

/-- How much of a refused address its error shows. -/
def shownLength : Nat := 100

/-- The characters of a local part. -/
def localCharacter : CharClass := .except (.either (.only '@') .space)

/-- The characters of a label. -/
def labelCharacter : CharClass := .except (.either (.among ['@', '.']) .space)

/-- A local part, an at sign and two or more labels joined by dots, and nothing else. -/
def format : Pattern :=
  cat [start, run localCharacter, char '@', run labelCharacter,
    plus (seq (char '.') (run labelCharacter)), stop]

/-- What keeps a text from being an address. -/
inductive Fault
  | whiteSpace
  | noAtSign
  | severalAtSigns
  | localTooLong
  | domainTooLong
  | badFormat
  deriving DecidableEq, Repr

/-- What to say of a fault. -/
def Fault.message : Fault → String
  | whiteSpace => "must not contain whitespace"
  | noAtSign => "missing '@'"
  | severalAtSigns => "must contain exactly one '@'"
  | localTooLong => "local part is too long"
  | domainTooLong => "domain is too long"
  | badFormat => "invalid email format"

/-- The bytes a text takes in UTF-8. -/
def byteLength (s : List Char) : Nat := s.foldr (fun c n => c.utf8Size + n) 0

/-- The local part of an address: what stands before the first at sign. -/
def localPart (address : List Char) : List Char := address.takeWhile (· != '@')

/-- The domain of an address: what stands after the first at sign. -/
def domain (address : List Char) : List Char := (address.dropWhile (· != '@')).tail

/-- Judges an address. -/
def check (address : List Char) : Except Fault Unit :=
  if address.any Text.isWhiteSpace then .error .whiteSpace
  else if address.count '@' = 0 then .error .noAtSign
  else if address.count '@' ≠ 1 then .error .severalAtSigns
  else if maxLocalBytes < byteLength (localPart address) then .error .localTooLong
  else if maxDomainBytes < byteLength (domain address) then .error .domainTooLong
  else if !format.occursIn address then .error .badFormat
  else .ok ()

/-- An address, or why it is none. -/
def validate (address : String) : Except ValidationError String :=
  match check address.toList with
  | .ok () => .ok address
  | .error fault => .error (.malformedEmail (Redaction.forLog shownLength address) fault.message)

end BoundSql.Email
