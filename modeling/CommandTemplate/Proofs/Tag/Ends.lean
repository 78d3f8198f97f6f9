import CommandTemplate.Proofs.Tag.Expansion
import Mathlib.Data.List.TakeWhile

/-!
# The ends of a text

Trimming a text and putting it into square brackets concern characters that belong to no tag, so
that neither changes which tags a text has and what becomes of them.
-/

namespace CommandTemplate
namespace Text

variable {replacement? : Text → Option Text}

/-! ## Blanks -/

theorem isBlank_ne {c : Char} (h : isBlank c = true) : c ≠ '<' ∧ c ≠ '>' := by
  constructor
  · rintro rfl
    exact absurd h (by decide)
  · rintro rfl
    exact absurd h (by decide)

theorem pieces_of_blank {blanks : Text} (h : ∀ c ∈ blanks, isBlank c = true) :
    pieces blanks = blanks.map .plain :=
  pieces_eq_map_plain fun hmem => (isBlank_ne (h _ hmem)).1 rfl

theorem closing?_of_blank {blanks : Text} (h : ∀ c ∈ blanks, isBlank c = true) :
    closing? blanks = none :=
  closing?_eq_none_of_not_mem fun hmem => (isBlank_ne (h _ hmem)).2 rfl

theorem exists_eq_append_trim (text : Text) :
    ∃ front back : Text, (∀ c ∈ front, isBlank c = true) ∧ (∀ c ∈ back, isBlank c = true) ∧
      text = front ++ (text.trim ++ back) := by
  refine ⟨text.takeWhile isBlank, ((trimStart text).reverse.takeWhile isBlank).reverse, ?_, ?_, ?_⟩
  · exact fun c hc => List.mem_takeWhile_imp hc
  · exact fun c hc => List.mem_takeWhile_imp (List.mem_reverse.mp hc)
  · rw [trim, trimEnd, ← List.reverse_append, List.takeWhile_append_dropWhile,
      List.reverse_reverse, trimStart, List.takeWhile_append_dropWhile]

theorem mem_trim_iff {c : Char} (h : isBlank c = false) {text : Text} :
    c ∈ text.trim ↔ c ∈ text := by
  obtain ⟨front, back, hfront, hback, htext⟩ := exists_eq_append_trim text
  have hnot : ∀ blanks : Text, (∀ b ∈ blanks, isBlank b = true) → c ∉ blanks := by
    intro blanks hblanks hmem
    have hblank := hblanks c hmem
    rw [h] at hblank
    exact Bool.false_ne_true hblank
  calc
    c ∈ text.trim ↔ c ∈ front ++ (text.trim ++ back) := by
      simp [hnot front hfront, hnot back hback]
    _ ↔ c ∈ text := by rw [← htext]

/-- The pieces of a text are those of the trimmed text between blanks. -/
theorem exists_pieces_eq_append_trim (text : Text) :
    ∃ front back : Text, pieces text =
      front.map .plain ++ (pieces text.trim ++ back.map .plain) := by
  obtain ⟨front, back, hfront, hback, htext⟩ := exists_eq_append_trim text
  refine ⟨front, back, ?_⟩
  have hopen : '<' ∉ front := fun hmem => (isBlank_ne (hfront _ hmem)).1 rfl
  calc
    pieces text = pieces (front ++ (text.trim ++ back)) := by rw [← htext]
    _ = front.map .plain ++ (pieces text.trim ++ back.map .plain) := by
      rw [pieces_append_of_not_mem_left hopen,
        pieces_append_of_closing?_eq_none _ (closing?_of_blank hback), pieces_of_blank hback]

theorem mem_pieces_of_mem_trim {text : Text} {piece : Piece} (h : piece ∈ pieces text.trim) :
    piece ∈ pieces text := by
  obtain ⟨front, back, htext⟩ := exists_pieces_eq_append_trim text
  rw [htext]
  exact List.mem_append_right _ (List.mem_append_left _ h)

@[simp] theorem tokens_trim (text : Text) : text.trim.tokens = text.tokens := by
  have hplain : ∀ blanks : Text, (blanks.map Piece.plain).filterMap Piece.token? = [] := by
    intro blanks
    rw [List.filterMap_map, List.filterMap_eq_nil_iff]
    exact fun _ _ => rfl
  obtain ⟨front, back, htext⟩ := exists_pieces_eq_append_trim text
  calc
    text.trim.tokens = (pieces text.trim).filterMap Piece.token? := rfl
    _ = (pieces text).filterMap Piece.token? := by
      rw [htext, List.filterMap_append, List.filterMap_append, hplain, hplain, List.nil_append,
        List.append_nil]

theorem HasSimpleTags.trim {text : Text} (h : text.HasSimpleTags) : text.trim.HasSimpleTags := by
  intro token htoken
  rw [tokens_trim] at htoken
  exact h token htoken

/-! ## Brackets -/

def bracketed (inner : Text) : Text :=
  '[' :: (inner ++ [']'])

theorem dropLast_bracketed (inner : Text) : (bracketed inner).dropLast = '[' :: inner := by
  rw [bracketed, ← List.cons_append, List.dropLast_concat]

theorem pieces_append_bracket (text : Text) :
    pieces (text ++ [']']) = pieces text ++ [.plain ']'] := by
  rw [pieces_append_of_closing?_eq_none text (by decide)]
  rfl

theorem tokens_bracketed (inner : Text) : tokens (bracketed inner) = tokens ('[' :: inner) := by
  rw [bracketed, ← List.cons_append, tokens_append (pieces_append_bracket _)]
  exact List.append_nil _

theorem pieces_bracketed (inner : Text) :
    pieces (bracketed inner) = .plain '[' :: (pieces inner ++ [.plain ']']) := by
  rw [bracketed, pieces_cons_of_ne (by decide), pieces_append_bracket]

theorem substitute_bracketed (inner : Text) :
    substitute replacement? (bracketed inner) = bracketed (substitute replacement? inner) := by
  rw [substitute, pieces_bracketed, List.flatMap_cons, List.flatMap_append, ← substitute]
  rfl

end Text
end CommandTemplate
