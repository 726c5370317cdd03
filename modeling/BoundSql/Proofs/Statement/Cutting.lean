import BoundSql.Proofs.Statement.Inert
import BoundSql.Writer

/-!
# Searches that try quoted text first

Two patterns search the text of statements: the one of quoted text and, for each placeholder style,
the one of quoted text or a token. Both try quoted text first and match nowhere else than at marked
characters (`TriesQuotes`). This file says how such a search cuts unmarked text (`cuts_unmarked`),
quoted text (`cuts_span`) and tokens (`cuts_scanner_token`, `cuts_span_token`).
-/

namespace BoundSql

open Pattern

namespace Pattern

/-- The pattern prefers quoted text to anything else, and does not match at unmarked characters. -/
structure TriesQuotes (p : Pattern) : Prop where
  unmarked : ∀ x, Unmarked x → ∀ pos prev t, p.ends ⟨pos, prev, x :: t⟩ = []
  quoted : ∀ c d, (Quoted.span.ends c).head? = some d → (p.ends c).head? = some d

theorem triesQuotes_span : TriesQuotes Quoted.span where
  unmarked _ h _ _ _ := Quoted.ends_span_of_not_mem (not_mem_openers h.1)
  quoted _ _ h := h

theorem triesQuotes_scanner (style : PlaceholderStyle) : TriesQuotes style.scanner where
  unmarked x h pos prev t := by
    rw [PlaceholderStyle.scanner, ends, Quoted.ends_span_of_not_mem (not_mem_openers h.1),
      PlaceholderStyle.ends_tokenPattern_of_not_mem h.2]
    rfl
  quoted c d h := by
    rw [PlaceholderStyle.scanner, ends, List.head?_append, h]
    rfl

variable {p : Pattern} {s rest : List Char}

theorem cuts_unmarked (hp : p.TriesQuotes) (hs : ∀ x ∈ s, Unmarked x) :
    p.Cuts s (s.map .plain) rest :=
  .map_plain fun x hx pos prev t => hp.unmarked x (hs x hx) pos prev t

theorem cuts_span (hp : p.TriesQuotes) {close : Char} (hs : Quoted.Span close s)
    (ht : close ∈ Quoted.doublable → rest.head? ≠ some close) : p.Cuts s [.hit s] rest := by
  obtain ⟨x, r, rfl⟩ := Quoted.exists_cons_of_span hs
  exact .hit fun pos prev => ⟨_, hp.quoted _ _ (Quoted.head?_ends_span hs ht)⟩

end Pattern

namespace PlaceholderStyle

variable {rest : List Char}

/-- A search for placeholders finds a token as one match. -/
theorem cuts_scanner_token (style : PlaceholderStyle) (n : Nat) (ht : Delimited rest) :
    style.scanner.Cuts (style.token n).toList [.hit (style.token n).toList] rest := by
  obtain ⟨r, hr, -⟩ := style.exists_token_eq n
  have opener : ∀ x ∈ tokenStarts, x ∉ Quoted.openers := Text.forall_mem_of_all (by decide)
  have found : ∀ pos prev, ∃ last,
      (style.scanner.ends ⟨pos, prev, (style.token n).toList ++ rest⟩).head? =
        some ⟨pos + (style.token n).toList.length, last, rest⟩ := by
    intro pos prev
    obtain ⟨last, h⟩ := @head?_ends_tokenPattern pos prev rest style n ht
    refine ⟨last, ?_⟩
    rw [scanner, ends, ← h]
    rw [hr, List.cons_append, Quoted.ends_span_of_not_mem (opener _ style.start_mem),
      List.nil_append]
  rw [hr] at found ⊢
  exact .hit found

/-- A search for quoted text passes over a token. -/
theorem cuts_span_token (style : PlaceholderStyle) (n : Nat) :
    Quoted.span.Cuts (style.token n).toList ((style.token n).toList.map .plain) rest := by
  obtain ⟨r, hr, alphanum⟩ := style.exists_token_eq n
  have opener : ∀ x ∈ tokenStarts, x ∉ Quoted.openers := Text.forall_mem_of_all (by decide)
  rw [hr]
  refine .map_plain fun x hx pos prev t => Quoted.ends_span_of_not_mem ?_
  rcases List.mem_cons.mp hx with rfl | hx
  · exact opener _ style.start_mem
  · exact not_mem_openers (unmarked_of_isPart (isPart_of_isAlphanum (alphanum x hx))).1

end PlaceholderStyle

end BoundSql
