/-! # Blank characters — Unicode white space

    The characters that trimming removes, and the texts that hold no
    others. -/

namespace Courier.Text

/-- Whether the character is Unicode white space. -/
def isBlank (c : Char) : Bool :=
  let n := c.toNat
  (9 ≤ n && n ≤ 13) || n == 0x20 || n == 0x85 || n == 0xA0 || n == 0x1680
    || (0x2000 ≤ n && n ≤ 0x200A) || n == 0x2028 || n == 0x2029 || n == 0x202F || n == 0x205F
    || n == 0x3000

/-- The characters without the blank ones at both ends. -/
def trimChars (cs : List Char) : List Char :=
  ((cs.dropWhile isBlank).reverse.dropWhile isBlank).reverse

/-- The text without the blank characters at both ends. -/
def trim (s : String) : String := String.ofList (trimChars s.toList)

/-- Whether the text has no character that is not blank. -/
def isAllBlank (s : String) : Bool := s.toList.all isBlank

/-- Trimming leaves nothing exactly where every character is blank. -/
theorem trimChars_eq_nil_iff (cs : List Char) : trimChars cs = [] ↔ ∀ c ∈ cs, isBlank c := by
  have key : ∀ l : List Char, l.dropWhile isBlank = [] ↔ ∀ c ∈ l, isBlank c := by
    intro l
    induction l with
    | nil => simp
    | cons c rest ih => by_cases h : isBlank c <;> simp [h, ih]
  constructor
  · intro h c hc
    have h1 : (cs.dropWhile isBlank).reverse.dropWhile isBlank = [] := by
      simpa [trimChars] using h
    have h2 := (key _).1 h1
    by_cases hd : cs.dropWhile isBlank = []
    · exact (key cs).1 hd c hc
    · obtain ⟨a, as, ha⟩ := List.exists_cons_of_ne_nil hd
      have h3 : isBlank a := h2 a (by simp [ha])
      have h4 := List.head_dropWhile_not isBlank hd
      simp [ha, h3] at h4
  · intro h
    have h1 := (key cs).2 h
    simp [trimChars, h1]

end Courier.Text
