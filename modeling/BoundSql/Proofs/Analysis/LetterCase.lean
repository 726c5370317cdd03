import BoundSql.Analysis
import BoundSql.Injection
import BoundSql.Proofs.Pattern.Blind
import BoundSql.Proofs.Text.Ascii

/-!
# Letter case

A class ignores case if it holds a capital exactly if it holds the small letter, which is computed
of the class (`CharClass.ignoresCase`); a folded class always does. All classes in the patterns for
injection techniques, warnings and suggestions ignore case, so writing a text in small letters
is a change that these patterns do not see, and neither does a verdict
(`verdicts_ignore_case`).
-/

namespace BoundSql

open Text

/-! ## Classes -/

namespace CharClass

/-- The capitals of ASCII. -/
def capitals : List Char := "ABCDEFGHIJKLMNOPQRSTUVWXYZ".toList

/-- Whether the class holds each capital exactly if it holds the small letter. -/
def ignoresCase : CharClass → Bool
  | space | digit | word | folded _ => true
  | except k => k.ignoresCase
  | k => capitals.all fun x => k.has x.toLower == k.has x

theorem has_toLower_of_capitals {k : CharClass}
    (h : (capitals.all fun x => k.has x.toLower == k.has x) = true) (x : Char) :
    k.has x.toLower = k.has x := by
  by_cases upper : x.isUpper = true
  · have capital : x ∈ capitals :=
      of_lt_of_table (P := fun x => x.isUpper = true → x ∈ capitals)
        (toNat_lt_of_isAlpha (Bool.or_eq_true_iff.mpr (.inl upper))) (by decide) upper
    exact beq_iff_eq.mp (List.all_eq_true.mp h x capital)
  · rw [show x.toLower = x from dif_neg fun between => upper (decide_eq_true between)]

/-- A class that ignores case does not tell a letter from the small one. -/
theorem has_toLower {k : CharClass} (h : k.ignoresCase = true) (x : Char) :
    k.has x.toLower = k.has x := by
  induction k with
  | among cs => exact has_toLower_of_capitals h x
  | between first last => exact has_toLower_of_capitals h x
  | either a b => exact has_toLower_of_capitals h x
  | space => exact isWhiteSpace_toLower x
  | digit => exact isDecimalDigit_toLower x
  | word => exact isWordChar_toLower x
  | folded k => exact congrArg k.has (caseFold_toLower x)
  | except k ih => rw [has_except, has_except, ih h]

end CharClass

namespace Pattern

variable {p : Pattern}

/-- Whether all classes of the pattern ignore case. -/
def ignoresCase (p : Pattern) : Bool := p.classes.all CharClass.ignoresCase

/-- A pattern that ignores case does not see small letters for capitals. -/
theorem blind_of_ignoresCase (h : p.ignoresCase = true) : p.Blind Char.toLower where
  word := isWordChar_toLower
  has k hk := CharClass.has_toLower (List.all_eq_true.mp h k hk)

theorem occursIn_asciiLower (h : p.ignoresCase = true) (text : List Char) :
    p.occursIn (asciiLower text) = p.occursIn text :=
  occursIn_map (blind_of_ignoresCase h) text

end Pattern

open Pattern

/-! ## Injection techniques -/

namespace InjectionClass

theorem ignoresCase_pattern (c : InjectionClass) : c.pattern.ignoresCase = true := by
  cases c <;> decide +kernel

theorem occursIn_eq_of_sameButCase {s t : List Char} (same : SameButCase s t) (c : InjectionClass) :
    c.pattern.occursIn s = c.pattern.occursIn t := by
  rw [← occursIn_asciiLower (ignoresCase_pattern c), same,
    occursIn_asciiLower (ignoresCase_pattern c)]

end InjectionClass

/-! ## Advice -/

namespace Analysis

theorem whereTail?_asciiLower (sql : List Char) :
    whereTail? (asciiLower sql) = (whereTail? sql).map asciiLower :=
  tailAfter?_map (blind_of_ignoresCase (by decide +kernel)) sql

theorem unquoted_asciiLower (sql : List Char) :
    unquoted (asciiLower sql) = asciiLower (unquoted sql) :=
  have blind : Quoted.span.Blind Char.toLower := blind_of_ignoresCase (by decide +kernel)
  replaceAll_map (g := fun _ => []) blind (fun _ => rfl) sql

/-- A warning is called for by a text exactly if it is by the text in small letters. -/
theorem Warning.holds_asciiLower (sql : List Char) (w : Warning) :
    w.holds (asciiLower sql) = w.holds sql := by
  cases w with
  | stringConcatenation => exact occursIn_asciiLower (p := concatenation) (by decide +kernel) sql
  | literalComparison =>
    rw [holds, holds, whereTail?_asciiLower, Option.any_map]
    congr 1
    funext tail
    rw [unquoted_asciiLower, occursIn_asciiLower (p := placeholder) (by decide +kernel),
      occursIn_asciiLower (p := comparison) (by decide +kernel)]
  | destructive => exact occursIn_asciiLower (p := destruction) (by decide +kernel) sql
  | union => exact occursIn_asciiLower (p := unionKeyword) (by decide +kernel) sql
  | trailingComment => exact occursIn_asciiLower (p := finalComment) (by decide +kernel) sql
  | severalStatements => exact occursIn_asciiLower (p := furtherStatement) (by decide +kernel) sql
  | everyRow =>
    rw [holds, holds, occursIn_asciiLower (p := rowChange) (by decide +kernel),
      occursIn_asciiLower (p := whereKeyword) (by decide +kernel)]

/-- A suggestion is called for by a text exactly if it is by the text in small letters. -/
theorem Suggestion.holds_asciiLower (sql : List Char) (s : Suggestion) :
    s.holds (asciiLower sql) = s.holds sql := by
  have grouped := occursIn_asciiLower (p := groupBy) (by decide +kernel) sql
  have ordered := occursIn_asciiLower (p := orderBy) (by decide +kernel) sql
  have behindWhere (p : Pattern) (h : p.ignoresCase = true) :
      (whereTail? (asciiLower sql)).any p.occursIn = (whereTail? sql).any p.occursIn := by
    rw [whereTail?_asciiLower, Option.any_map]
    congr 1
    funext tail
    exact occursIn_asciiLower h tail
  cases s with
  | listColumns => exact occursIn_asciiLower (p := selectStar) (by decide +kernel) sql
  | indexGroups => exact grouped
  | indexOrder => exact ordered
  | boundRows =>
    rw [holds, holds, ordered, occursIn_asciiLower (p := leadingSelect) (by decide +kernel),
      occursIn_asciiLower (p := rowBound) (by decide +kernel)]
  | leadingWildcard => exact occursIn_asciiLower (p := wildcardLike) (by decide +kernel) sql
  | orConditions => exact behindWhere orKeyword (by decide +kernel)
  | redundantDistinct =>
    rw [holds, holds, grouped, occursIn_asciiLower (p := selectDistinct) (by decide +kernel)]
  | subqueryMembership => exact occursIn_asciiLower (p := inSubquery) (by decide +kernel) sql
  | functionOnColumn => exact behindWhere columnFunction (by decide +kernel)
  | indexJoins => exact occursIn_asciiLower (p := joinKeyword) (by decide +kernel) sql

/-! ## Verdicts -/

/-- **Letter case changes no verdict.** Texts that differ in the case of ASCII letters only show the
same injection techniques, of which the same one is reported, and get the same warnings and
suggestions. -/
theorem verdicts_ignore_case {s t : String} (same : SameButCase s.toList t.toList) :
    InjectionClass.allIn s = InjectionClass.allIn t ∧
      InjectionClass.firstIn? s = InjectionClass.firstIn? t ∧
      warnings s = warnings t ∧ (optimize s).2 = (optimize t).2 := by
  have shown : (fun c : InjectionClass => c.pattern.occursIn s.toList) =
      fun c => c.pattern.occursIn t.toList :=
    funext (InjectionClass.occursIn_eq_of_sameButCase same)
  have warned : Warning.holds s.toList = Warning.holds t.toList := by
    funext w
    rw [← Warning.holds_asciiLower, same, Warning.holds_asciiLower]
  have suggested : Suggestion.holds s.toList = Suggestion.holds t.toList := by
    funext w
    rw [← Suggestion.holds_asciiLower, same, Suggestion.holds_asciiLower]
  exact ⟨congrArg InjectionClass.all.filter shown, congrArg InjectionClass.all.find? shown,
    congrArg Warning.all.filter warned, congrArg Suggestion.all.filter suggested⟩

/-- Mixed and small letters, with a technique, warnings and suggestions to find. -/
theorem verdicts_ignore_case_sample :
    let s := "SeLeCt * FrOm t WhErE id = 7 Or 1=1; DrOp t"
    let t := "select * from t where id = 7 or 1=1; drop t"
    SameButCase s.toList t.toList ∧ InjectionClass.allIn s = InjectionClass.allIn t ∧
      InjectionClass.firstIn? s = InjectionClass.firstIn? t ∧
      warnings s = warnings t ∧ (optimize s).2 = (optimize t).2 :=
  have same : asciiLower
      "SeLeCt * FrOm t WhErE id = 7 Or 1=1; DrOp t".toList = asciiLower
      "select * from t where id = 7 or 1=1; drop t".toList := by
    decide +kernel
  ⟨same, verdicts_ignore_case same⟩

end Analysis

end BoundSql
