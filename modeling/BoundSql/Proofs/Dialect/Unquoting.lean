import BoundSql.Proofs.Dialect.QuotedText
import Mathlib.Algebra.Group.Even
import Mathlib.Data.List.Forall2
import Mathlib.Data.List.SplitBy

/-!
# Reading quoted names back

Quoting is undone by what it leaves to see: where closing quotes stand in a row inside of a quoted
segment, there are twice as many as in the segment (`runs_doubling`). So their number is even, and
half of them are the quotes of the segment (`halvedRuns_doubling`). As no quote is a dot, the
segments are found between the dots of the quoted name (`splitOn_quoteIdentifier`).

Headline: **`quoting_reversible`**.
-/

namespace BoundSql

namespace Quoted

variable {q : Char} {s run : List Char}

/-! ## Runs -/

/-- The maximal runs of one character, from left to right. -/
def runs (s : List Char) : List (List Char) := s.splitBy (· == ·)

/-- The text with half as many quotes in every run of quotes. -/
def halvedRuns (q : Char) (s : List Char) : List Char :=
  (runs s).flatMap fun run => if q ∈ run then run.take (run.length / 2) else run

/-- A run has quotes only, or none. -/
theorem eq_replicate_or_not_mem (q : Char) (h : run ∈ runs s) :
    (∃ n, run = List.replicate (n + 1) q) ∨ q ∉ run := by
  obtain ⟨x, rest, rfl⟩ := List.exists_cons_of_ne_nil (List.ne_nil_of_mem_splitBy h)
  have equal : (x :: rest).IsChain (· = ·) :=
    (List.isChain_of_mem_splitBy h).imp fun _ _ same => eq_of_beq same
  have all : rest = List.replicate rest.length x := List.isChain_cons_eq_iff_eq_replicate.mp equal
  by_cases same : x = q
  · exact .inl ⟨rest.length, by rw [List.replicate_succ, ← same, ← all]⟩
  · rw [all, ← List.replicate_succ]
    exact .inr fun mem => same (List.eq_of_mem_replicate mem).symm

/-! ## Runs of a text with doubled quotes -/

theorem doubling_append (q : Char) (s t : List Char) :
    Text.doubling q (s ++ t) = Text.doubling q s ++ Text.doubling q t := List.flatMap_append

theorem doubling_flatten (q : Char) (parts : List (List Char)) :
    Text.doubling q parts.flatten = (parts.map (Text.doubling q)).flatten := by
  induction parts with
  | nil => rfl
  | cons part parts ih =>
    rw [List.flatten_cons, doubling_append, ih, List.map_cons, List.flatten_cons]

theorem doubling_replicate (q : Char) (n : Nat) :
    Text.doubling q (List.replicate n q) = List.replicate (n * 2) q := by
  induction n with
  | zero => rfl
  | succ n ih => rw [List.replicate_succ, doubling_cons_self, ih, Nat.succ_mul]; rfl

theorem head?_doubling (q : Char) (s : List Char) : (Text.doubling q s).head? = s.head? := by
  cases s with
  | nil => rfl
  | cons x s =>
    by_cases h : x = q
    · rw [h, doubling_cons_self]
      rfl
    · rw [doubling_cons_of_ne h]
      rfl

theorem getLast?_doubling (q : Char) (s : List Char) :
    (Text.doubling q s).getLast? = s.getLast? := by
  cases s using List.reverseRecOn with
  | nil => rfl
  | append_singleton s x =>
    by_cases h : x = q
    · rw [h, doubling_append, doubling_cons_self]
      simp [Text.doubling]
    · rw [doubling_append, doubling_cons_of_ne h]
      simp [Text.doubling]

theorem doubling_ne_nil (h : s ≠ []) : Text.doubling q s ≠ [] := by
  intro none
  have first := head?_doubling q s
  rw [none] at first
  exact h (List.head?_eq_none_iff.mp first.symm)

/-- **Doubling the quotes doubles the runs of quotes.** -/
theorem runs_doubling (q : Char) (s : List Char) :
    runs (Text.doubling q s) = (runs s).map (Text.doubling q) := by
  refine List.splitBy_eq_iff.mpr ⟨?_, ?_, ?_, ?_⟩
  · rw [← doubling_flatten, runs, List.flatten_splitBy]
  · intro empty
    obtain ⟨run, hrun, none⟩ := List.mem_map.mp empty
    exact doubling_ne_nil (List.ne_nil_of_mem_splitBy hrun) none
  · refine List.forall_mem_map.mpr fun run hrun => ?_
    rcases eq_replicate_or_not_mem q hrun with ⟨n, rfl⟩ | other
    · rw [doubling_replicate]
      exact List.isChain_replicate_of_rel _ (beq_self_eq_true q)
    · rw [Text.doubling_of_not_mem other]
      exact List.isChain_of_mem_splitBy hrun
  · -- Runs start and end with the characters that they started and ended with before.
    rw [List.isChain_map]
    refine (List.isChain_getLast_head_splitBy _ s).imp fun a b ⟨ha, hb, differ⟩ => ?_
    have last : (Text.doubling q a).getLast (doubling_ne_nil ha) = a.getLast ha := by
      have := getLast?_doubling q a
      rwa [List.getLast?_eq_some_getLast ha, List.getLast?_eq_some_getLast (doubling_ne_nil ha),
        Option.some_inj] at this
    have first : (Text.doubling q b).head (doubling_ne_nil hb) = b.head hb := by
      have := head?_doubling q b
      rwa [List.head?_eq_some_head hb, List.head?_eq_some_head (doubling_ne_nil hb),
        Option.some_inj] at this
    exact ⟨doubling_ne_nil ha, doubling_ne_nil hb, by rw [last, first, differ]⟩

/-- **The quotes in a run are even in number.** -/
theorem even_length_of_mem_runs (h : run ∈ runs (Text.doubling q s)) (quotes : q ∈ run) :
    Even run.length := by
  rw [runs_doubling] at h
  obtain ⟨run', hrun', rfl⟩ := List.mem_map.mp h
  rcases eq_replicate_or_not_mem q hrun' with ⟨n, rfl⟩ | other
  · rw [doubling_replicate, List.length_replicate]
    exact ⟨n + 1, Nat.mul_two _⟩
  · exact absurd (Text.mem_of_mem_doubling quotes) other

/-- **Half of the quotes are those that were doubled.** -/
theorem halvedRuns_doubling (q : Char) (s : List Char) :
    halvedRuns q (Text.doubling q s) = s := by
  have halved : ∀ run ∈ runs s, (if q ∈ Text.doubling q run then
      (Text.doubling q run).take ((Text.doubling q run).length / 2) else Text.doubling q run) =
        run := by
    intro run hrun
    rcases eq_replicate_or_not_mem q hrun with ⟨n, rfl⟩ | other
    · rw [doubling_replicate, if_pos (List.mem_replicate.mpr ⟨by omega, rfl⟩),
        List.length_replicate, Nat.mul_div_cancel _ Nat.two_pos, List.take_replicate,
        Nat.min_eq_left (by omega)]
    · rw [Text.doubling_of_not_mem other, if_neg other]
  rw [halvedRuns, runs_doubling, List.flatMap_map, List.flatMap_congr halved, List.flatMap_id',
    runs, List.flatten_splitBy]

/-- **Doubling quotes loses nothing.** -/
theorem doubling_injective (q : Char) : Function.Injective (Text.doubling q) :=
  Function.LeftInverse.injective (halvedRuns_doubling q)

end Quoted

/-! ## Quoted names -/

namespace DialectProfile

/-- **How a segment shows in its quoted form**: the form is the opening quote, a body and the
closing quote, every maximal run of closing quotes in the body is of even length, and with these
runs halved the body is the segment. -/
def Shows (p : DialectProfile) (quoted segment : List Char) : Prop :=
  ∃ body, quoted = p.openQuote :: body ++ [p.closeQuote] ∧
    (∀ run ∈ Quoted.runs body, p.closeQuote ∈ run → Even run.length) ∧
    Quoted.halvedRuns p.closeQuote body = segment

theorem shows_quoteSegment (p : DialectProfile) (segment : List Char) :
    p.Shows (p.quoteSegment segment) segment :=
  ⟨Text.doubling p.closeQuote segment, rfl, fun _ => Quoted.even_length_of_mem_runs,
    Quoted.halvedRuns_doubling _ segment⟩

/-- A quoted form is of one segment. -/
theorem Shows.segment_eq {p : DialectProfile} {quoted segment segment' : List Char}
    (h : p.Shows quoted segment) (h' : p.Shows quoted segment') : segment = segment' := by
  obtain ⟨body, rfl, -, rfl⟩ := h
  obtain ⟨body', same, -, rfl⟩ := h'
  rw [List.cons_append, List.cons_append, List.cons.injEq] at same
  rw [List.append_cancel_right same.2]

/-- No dot comes into a segment with its quotes. -/
theorem dot_not_mem_quoteSegment (d : Dialect) {segment : List Char} (h : '.' ∉ segment) :
    '.' ∉ d.profile.quoteSegment segment := by
  have opens : '.' ≠ d.profile.openQuote := by cases d <;> decide
  have closes : '.' ≠ d.profile.closeQuote := by cases d <;> decide
  have body : '.' ∉ Text.doubling d.profile.closeQuote segment := mt Text.mem_of_mem_doubling h
  simp [quoteSegment, opens, closes, body]

/-- **The quoted segments stand between the dots of a quoted name.** -/
theorem splitOn_quoteIdentifier (d : Dialect) (name : String) :
    Text.splitOn '.' (d.profile.quoteIdentifier name).toList =
      (Text.splitOn '.' name.toList).map d.profile.quoteSegment := by
  rw [quoteIdentifier, String.toList_ofList]
  refine Text.splitOn_intercalate (mt List.map_eq_nil_iff.mp (Text.splitOn_ne_nil _ _)) ?_
  exact List.forall_mem_map.mpr fun segment hs =>
    dot_not_mem_quoteSegment d (Text.not_mem_of_mem_splitOn hs)

/-- **Quoting is reversible.** A quoted name has as many parts between its dots as the name has, and
each of them shows the part of the name at its place; so no two names are quoted alike. -/
theorem quoting_reversible (d : Dialect) :
    (∀ name : String, List.Forall₂ d.profile.Shows
      (Text.splitOn '.' (d.profile.quoteIdentifier name).toList)
      (Text.splitOn '.' name.toList)) ∧
    Function.Injective d.profile.quoteIdentifier := by
  have shows : ∀ name : String, List.Forall₂ d.profile.Shows
      (Text.splitOn '.' (d.profile.quoteIdentifier name).toList)
      (Text.splitOn '.' name.toList) := by
    intro name
    rw [splitOn_quoteIdentifier, List.forall₂_map_left_iff, List.forall₂_same]
    exact fun segment _ => shows_quoteSegment d.profile segment
  refine ⟨shows, fun name name' same => ?_⟩
  have parts : Text.splitOn '.' name.toList = Text.splitOn '.' name'.toList :=
    List.right_unique_forall₂' (fun _ _ _ h h' => h.segment_eq h') (shows name)
      (same ▸ shows name')
  rw [← String.toList_inj, ← Text.intercalate_splitOn '.' name.toList, parts,
    Text.intercalate_splitOn]

end DialectProfile

end BoundSql
