import BoundSql.Pattern.Search

/-!
# Redaction of text for logs

What callers supply is logged and reported only after redaction: card-shaped digit runs, digit
groups shaped like social security numbers, and the values of password assignments give way to
fixed marks, in that order, and what is longer than a cap is cut there.
-/

namespace BoundSql.Redaction

open Pattern

/-! ## What is replaced -/

/-- A digit, with one space or hyphen allowed before it. -/
def groupedDigit : Pattern := seq (opt (one (.among [' ', '-']))) (one .digit)

/-- Thirteen to nineteen digits, grouped by single spaces or hyphens or not at all, standing as a
word of their own. -/
def card : Pattern :=
  cat [boundary, one .digit, times 12 groupedDigit, upTo 6 groupedDigit, boundary]

/-- Three, two and four digits joined by hyphens, standing as a word of their own. -/
def ssn : Pattern :=
  cat [boundary, times 3 (one .digit), char '-', times 2 (one .digit), char '-',
    times 4 (one .digit), boundary]

/-- The characters that end the value of an assignment. -/
def delimiter : CharClass := .either .space (.among ['&', ';', ','])

/-- The keys whose values are secret, in any case. -/
def secretKey : Pattern := keywords ["password", "passwd", "pwd"]

/-- A secret key, an equals sign and the value up to a delimiter. -/
def secret : Pattern :=
  cat [boundary, secretKey, blank, char '=', blank, run (.except delimiter)]

/-! ## What it is replaced by -/

/-- The mark of a redacted card number. -/
def cardMark : String := "[REDACTED-CARD]"

/-- The mark of a redacted social security number. -/
def ssnMark : String := "[REDACTED-SSN]"

/-- The mark of a redacted secret. -/
def secretMark : String := "[REDACTED]"

/-- The mark at the end of a text that was cut. -/
def cutMark : String := "...[TRUNCATED]"

/-- A matched assignment with its key as written and its value redacted. The key runs up to the
first white space or equals sign. -/
def concealed (assignment : List Char) : List Char :=
  assignment.takeWhile (fun c => !Text.isWhiteSpace c && c != '=') ++ '=' :: secretMark.toList

/-- The text with cards, social security numbers and secrets redacted, in this order. -/
def redact (text : List Char) : List Char :=
  let withoutCards := card.replaceAll (fun _ => cardMark.toList) text
  let withoutSsns := ssn.replaceAll (fun _ => ssnMark.toList) withoutCards
  secret.replaceAll concealed withoutSsns

/-- The text if it has at most `cap` characters, and else its first `cap` characters and a mark. -/
def cut (cap : Nat) (text : List Char) : List Char :=
  if text.length ≤ cap then text else text.take cap ++ cutMark.toList

/-- What a log may show of a text: its redacted form, cut at `cap` characters. -/
def forLog (cap : Nat) (text : String) : String := String.ofList (cut cap (redact text.toList))

/-- How much of a name or of a caller identity a log shows. -/
def nameCap : Nat := 64

/-- A name or caller identity as a log shows it. -/
def nameForLog (name : String) : String := forLog nameCap name

/-! ## Lemmas -/

theorem cut_of_length_le {cap : Nat} {text : List Char} (h : text.length ≤ cap) :
    cut cap text = text := if_pos h

end BoundSql.Redaction
