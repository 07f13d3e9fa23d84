import Courier.Text.Blank
import Mathlib.Data.List.TakeWhile

/-! # Trimming — a text, and the blank characters around it

    Trimming takes away the blank characters at both ends, as many as there
    are, and nothing else; and only one text is left like that.  So it is
    with characters of any other kind. -/

namespace Courier.Text

/-- Whether characters are others without those around them that are of a kind. -/
structure Strips (p : Char → Bool) (cs core : List Char) : Prop where
  around : ∃ front back : List Char, cs = front ++ core ++ back ∧
    (∀ c ∈ front, p c = true) ∧ ∀ c ∈ back, p c = true
  head : ∀ c ∈ core.head?, p c = false
  last : ∀ c ∈ core.getLast?, p c = false

/-- Whether a text is another one without the blank characters around it. -/
structure Trims (value text : String) : Prop where
  around : ∃ front back : List Char, value.toList = front ++ text.toList ++ back ∧
    (∀ c ∈ front, isBlank c = true) ∧ ∀ c ∈ back, isBlank c = true
  head : ∀ c ∈ text.toList.head?, isBlank c = false
  last : ∀ c ∈ text.toList.getLast?, isBlank c = false

section Strips

variable {p : Char → Bool}

/-- What is dropped from the front is of the kind, and what is left begins with another one. -/
theorem exists_front_dropWhile (p : Char → Bool) (cs : List Char) :
    ∃ front, cs = front ++ cs.dropWhile p ∧ (∀ c ∈ front, p c = true) ∧
      ∀ c ∈ (cs.dropWhile p).head?, p c = false := by
  refine ⟨cs.takeWhile p, List.takeWhile_append_dropWhile.symm,
    fun c mem => List.mem_takeWhile_imp mem, fun c head => ?_⟩
  have visible := List.head?_dropWhile_not p cs
  rw [Option.mem_def.mp head] at visible
  exact visible

/-- Nothing more than what is of the kind is dropped from the front. -/
theorem dropWhile_append_of_head {front cs : List Char} (all : ∀ c ∈ front, p c = true)
    (stop : ∀ c ∈ cs.head?, p c = false) : (front ++ cs).dropWhile p = cs := by
  rw [List.dropWhile_append_of_pos all]
  cases cs with
  | nil => rfl
  | cons c cs => exact List.dropWhile_cons_of_neg (Bool.eq_false_iff.mp (stop c rfl))

/-- **STRIPPING**: dropping from the front, and then from the front of the rest turned round,
    leaves just what stands between the characters of the kind. -/
theorem strips_iff {cs core : List Char} :
    Strips p cs core ↔ ((cs.dropWhile p).reverse.dropWhile p).reverse = core := by
  constructor
  · rintro ⟨⟨front, back, whole, allFront, allBack⟩, head, last⟩
    rw [whole, List.append_assoc]
    cases core with
    | nil =>
        -- every character is of the kind, so nothing is left at either end
        have all : ∀ c ∈ front ++ back, p c = true := fun c mem =>
          (List.mem_append.mp mem).elim (allFront c) (allBack c)
        rw [List.nil_append, List.dropWhile_eq_nil_iff.mpr all]
        rfl
    | cons c core =>
        have behindFront : (front ++ (c :: core ++ back)).dropWhile p = c :: core ++ back :=
          dropWhile_append_of_head allFront head
        have beforeBack :
            (back.reverse ++ (c :: core).reverse).dropWhile p = (c :: core).reverse :=
          dropWhile_append_of_head (fun d mem => allBack d (List.mem_reverse.mp mem))
            (by rwa [List.head?_reverse])
        rw [behindFront, List.reverse_append, beforeBack, List.reverse_reverse]
  · rintro rfl
    obtain ⟨front, whole, allFront, stopHead⟩ := exists_front_dropWhile p cs
    obtain ⟨back, rest, allBack, stopLast⟩ := exists_front_dropWhile p (cs.dropWhile p).reverse
    have kept : cs.dropWhile p
        = ((cs.dropWhile p).reverse.dropWhile p).reverse ++ back.reverse := by
      rw [← List.reverse_append, ← rest, List.reverse_reverse]
    refine ⟨⟨front, back.reverse, ?_, allFront, fun c mem => ?_⟩, fun c head => ?_, ?_⟩
    · rw [List.append_assoc, ← kept, ← whole]
    · exact allBack c (List.mem_reverse.mp mem)
    · refine stopHead c ?_
      rw [kept, List.head?_append, Option.mem_def.mp head]
      rfl
    · rw [List.getLast?_reverse]
      exact stopLast

end Strips

/-- Trimming takes blanks from both ends. -/
theorem toList_trim (value : String) : (trim value).toList =
    ((value.toList.dropWhile isBlank).reverse.dropWhile isBlank).reverse := by
  rw [trim, String.toList_ofList, trimChars]

/-- **TRIMMING**: a text without the blank characters around it is what trimming leaves. -/
theorem trims_iff {value text : String} : Trims value text ↔ trim value = text := by
  rw [← String.toList_inj, toList_trim, ← strips_iff]
  exact ⟨fun h => ⟨h.around, h.head, h.last⟩, fun h => ⟨h.around, h.head, h.last⟩⟩

/-- Nothing is left exactly where every character is blank. -/
theorem trim_eq_empty_iff (value : String) :
    trim value = "" ↔ ∀ c ∈ value.toList, isBlank c = true := by
  rw [← trimChars_eq_nil_iff, trim, ← String.toList_inj, String.toList_ofList]
  rfl

end Courier.Text
