import BoundSql.Injection
import BoundSql.Proofs.Pattern.Surrounded

/-!
# Attacks in larger texts

No pattern of an injection technique asks where the text starts or stops (`unanchored_pattern`). So
a technique that shows in a text shows in every larger one, as long as no word runs on over the
borders, and the technique reported is the same or one that is tried earlier
(`surroundings_hide_no_attack`).
-/

namespace BoundSql.InjectionClass

open Pattern Text

variable {t a b : String} {c : InjectionClass}

theorem unanchored_pattern (c : InjectionClass) : c.pattern.unanchored = true := by
  cases c <;> rfl

/-- Where more is accepted, something is found, and no later. -/
theorem exists_find?_of_imp {α : Type} [BEq α] [LawfulBEq α] {p q : α → Bool} {l : List α} {x : α}
    (more : ∀ y, p y = true → q y = true) (found : l.find? p = some x) :
    ∃ y, l.find? q = some y ∧ l.idxOf y ≤ l.idxOf x := by
  induction l with
  | nil => cases found
  | cons z l ih =>
    cases hq : q z with
    | true =>
      refine ⟨z, List.find?_cons_of_pos hq, ?_⟩
      rw [List.idxOf_cons_self]
      exact Nat.zero_le _
    | false =>
      have hp : p z = false := Bool.eq_false_iff.mpr fun h => Bool.eq_false_iff.mp hq (more z h)
      rw [List.find?_cons_of_neg (by rw [hp]; decide)] at found
      obtain ⟨y, hy, le⟩ := ih found
      refine ⟨y, (List.find?_cons_of_neg (by rw [hq]; decide)).trans hy, ?_⟩
      have other {w : α} (h : q w = true) : z ≠ w := by
        rintro rfl
        exact Bool.eq_false_iff.mp hq h
      rw [List.idxOf_cons_ne l (other (List.find?_some hy)),
        List.idxOf_cons_ne l (other (more x (List.find?_some found)))]
      exact Nat.succ_le_succ le

/-- **Surrounding text hides no attack.** Every technique that shows in a text shows in it between
others, if the one before does not end in a word and the one behind does not start with one; so if
a technique is reported for the text, one is reported for the whole, and none that is tried
later. -/
theorem surroundings_hide_no_attack (before : Bare a.toList.getLast?)
    (behind : Bare b.toList.head?) :
    (∀ c ∈ allIn t, c ∈ allIn (a ++ t ++ b)) ∧
      ∀ c, firstIn? t = some c →
        ∃ c', firstIn? (a ++ t ++ b) = some c' ∧ all.idxOf c' ≤ all.idxOf c := by
  have shown (c : InjectionClass) (h : c.pattern.occursIn t.toList = true) :
      c.pattern.occursIn (a ++ t ++ b).toList = true := by
    rw [String.toList_append, String.toList_append]
    exact occursIn_surrounded (unanchored_pattern c) before behind h
  refine ⟨fun c hc => ?_, fun c hc => exists_find?_of_imp shown hc⟩
  exact mem_allIn.mpr (shown c (mem_allIn.mp hc))

/-- A comparison that always holds, in a text that opens a comment in front of it and another quote
behind it. -/
theorem surroundings_hide_no_attack_sample :
    let a := "7 /* "
    let t := "or 1=1"
    let b := " ' and '"
    Bare a.toList.getLast? ∧ Bare b.toList.head? ∧ tautology ∈ allIn t ∧
      firstIn? t = some tautology ∧ tautology ∈ allIn (a ++ t ++ b) ∧
      ∃ c', firstIn? (a ++ t ++ b) = some c' ∧ all.idxOf c' ≤ all.idxOf tautology := by
  have before : Bare "7 /* ".toList.getLast? := by
    rintro x ⟨⟩
    decide
  have behind : Bare " ' and '".toList.head? := by
    rintro x ⟨⟩
    decide
  have shown : firstIn? "or 1=1" = some tautology := by decide +kernel
  have member : tautology ∈ allIn "or 1=1" := by decide +kernel
  have kept := surroundings_hide_no_attack (t := "or 1=1") before behind
  exact ⟨before, behind, member, shown, kept.1 _ member, kept.2 _ shown⟩

end BoundSql.InjectionClass
