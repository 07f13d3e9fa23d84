/-! # Pieces — a text cut at some of its characters

    The characters at which the text is cut belong to no piece, and there
    is always one piece more than there are cuts. -/

namespace Courier.Text

/-- The pieces of a text between the characters that satisfy `p`. -/
def pieces (p : Char → Bool) : List Char → List (List Char)
  | [] => [[]]
  | c :: rest =>
    if p c then [] :: pieces p rest
    else
      match pieces p rest with
      | first :: more => (c :: first) :: more
      | [] => [[c]]

theorem pieces_ne_nil (p : Char → Bool) (cs : List Char) : pieces p cs ≠ [] := by
  cases cs with
  | nil => simp [pieces]
  | cons c rest =>
    simp only [pieces]
    split
    · simp
    · split <;> simp

/-- No piece has a character at which the text is cut. -/
theorem eq_false_of_mem_pieces {p : Char → Bool} {cs piece : List Char}
    (h : piece ∈ pieces p cs) : ∀ c ∈ piece, p c = false := by
  induction cs generalizing piece with
  | nil => simp_all [pieces]
  | cons d rest ih =>
    simp only [pieces] at h
    split at h
    · rcases List.mem_cons.1 h with rfl | h
      · simp
      · exact ih h
    · next hd =>
      split at h
      · next first more heq =>
        rcases List.mem_cons.1 h with rfl | h
        · intro c hc
          rcases List.mem_cons.1 hc with rfl | hc
          · simpa using hd
          · exact ih (by simp [heq]) c hc
        · exact ih (by simp [heq, h])
      · next heq => exact absurd heq (pieces_ne_nil p rest)

/-- A text that is cut nowhere is one piece. -/
theorem pieces_eq_singleton {p : Char → Bool} {cs : List Char} (h : ∀ c ∈ cs, p c = false) :
    pieces p cs = [cs] := by
  induction cs with
  | nil => rfl
  | cons d rest ih =>
    have hd := h d (by simp)
    simp [pieces, hd, ih fun c hc => h c (List.mem_cons_of_mem _ hc)]

/-- Cutting behind a first part that ends at a cut. -/
theorem pieces_append_cut {p : Char → Bool} {first : List Char} {mark : Char} (rest : List Char)
    (h : ∀ c ∈ first, p c = false) (hmark : p mark = true) :
    pieces p (first ++ mark :: rest) = first :: pieces p rest := by
  induction first with
  | nil => simp [pieces, hmark]
  | cons d more ih =>
    have hd := h d (by simp)
    simp [pieces, hd, ih fun c hc => h c (List.mem_cons_of_mem _ hc)]

end Courier.Text
