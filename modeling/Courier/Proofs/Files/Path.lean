import Courier.Files.Path

/-! # Paths — which texts are a single name

    A text is a single name on a path if it begins with a name and has behind
    it nothing that leads anywhere: slashes, and single dots between them.
    Cut at its slashes, such a text is the name and then pieces that say
    nothing (`slashed_of_isSilent`), and a text that is so cut has that form
    (`isSilent_of_pieces`).  What is left without the silent end is the stem
    of the text, and so the one candidate for the name. -/

namespace Courier.Path

/-- Characters that lead nowhere behind a name: slashes, each with or without a dot behind it. -/
inductive IsSilent : List Char → Prop where
  | nil : IsSilent []
  | slash {cs : List Char} (rest : IsSilent cs) : IsSilent ('/' :: cs)
  | dot {cs : List Char} (rest : IsSilent cs) : IsSilent ('/' :: '.' :: cs)

/-- Whether the characters name something in a directory. -/
structure IsName (cs : List Char) : Prop where
  filled : cs ≠ []
  notHere : cs ≠ ['.']
  notParent : cs ≠ ['.', '.']
  whole : '/' ∉ cs

/-- Whether a text is a name, with nothing behind it that leads anywhere. -/
def IsSingle (segment : String) : Prop :=
  ∃ name tail, segment.toList = name ++ tail ∧ IsName name ∧ IsSilent tail

theorem partOf?_eq_none_iff {piece : List Char} :
    partOf? piece = none ↔ piece = [] ∨ piece = ['.'] := by
  rw [partOf?]
  split
  · next silent => exact iff_of_true rfl silent
  · next speaks =>
      refine iff_of_false (fun none => ?_) speaks
      split at none <;> exact nomatch none

theorem partOf?_of_isName {name : List Char} (h : IsName name) :
    partOf? name = some (.name (String.ofList name)) := by
  rw [partOf?, if_neg (not_or.mpr ⟨h.filled, h.notHere⟩), if_neg h.notParent]

/-- Behind a name, a silent tail is cut into pieces that say nothing. -/
theorem slashed_of_isSilent {name tail : List Char} (silent : IsSilent tail) (whole : '/' ∉ name) :
    ∃ more, Text.pieces (· == '/') (name ++ tail) = name :: more ∧
      ∀ piece ∈ more, partOf? piece = none := by
  have uncut {name : List Char} (whole : '/' ∉ name) : ∀ c ∈ name, (c == '/') = false :=
    fun c mem => beq_false_of_ne fun same => whole (same ▸ mem)
  induction silent generalizing name with
  | nil =>
      refine ⟨[], ?_, fun piece mem => nomatch mem⟩
      rw [List.append_nil]
      exact Text.pieces_eq_singleton (uncut whole)
  | @slash cs rest ih =>
      obtain ⟨more, cut, mute⟩ := @ih [] List.not_mem_nil
      refine ⟨[] :: more, ?_, List.forall_mem_cons.mpr ⟨rfl, mute⟩⟩
      rw [Text.pieces_append_cut cs (uncut whole) rfl]
      exact congrArg (name :: ·) cut
  | @dot cs rest ih =>
      obtain ⟨more, cut, mute⟩ := @ih ['.'] (by decide)
      refine ⟨['.'] :: more, ?_, List.forall_mem_cons.mpr ⟨rfl, mute⟩⟩
      rw [Text.pieces_append_cut ('.' :: cs) (uncut whole) rfl]
      exact congrArg (name :: ·) cut

/-- A text whose pieces say nothing but for the first has a silent tail behind that one. -/
theorem isSilent_of_pieces {cs first : List Char} {more : List (List Char)}
    (cut : Text.pieces (· == '/') cs = first :: more)
    (mute : ∀ piece ∈ more, partOf? piece = none) : ∃ tail, cs = first ++ tail ∧ IsSilent tail := by
  induction cs generalizing first more with
  | nil =>
      obtain ⟨rfl, rfl⟩ := List.cons.inj cut
      exact ⟨[], rfl, .nil⟩
  | cons c rest ih =>
      obtain ⟨next, later, cut'⟩ := List.exists_cons_of_ne_nil (Text.pieces_ne_nil (· == '/') rest)
      rw [Text.pieces, cut'] at cut
      by_cases slash : (c == '/') = true
      · -- the cut is here, so the next piece is one that says nothing
        rw [if_pos slash] at cut
        obtain ⟨rfl, rfl⟩ := List.cons.inj cut
        obtain rfl : c = '/' := eq_of_beq slash
        obtain ⟨silence, mute⟩ := List.forall_mem_cons.mp mute
        obtain ⟨tail, rfl, silent⟩ := ih cut' mute
        refine ⟨'/' :: (next ++ tail), rfl, ?_⟩
        rcases partOf?_eq_none_iff.mp silence with rfl | rfl
        · exact .slash silent
        · exact .dot silent
      · rw [if_neg slash] at cut
        obtain ⟨rfl, rfl⟩ := List.cons.inj cut
        obtain ⟨tail, rfl, silent⟩ := ih cut' mute
        exact ⟨tail, rfl, silent⟩

/-- A path whose first piece is a name has no more on top of it. -/
theorem lead_of_isName {path : String} {name : List Char} {more : List (List Char)}
    (cut : slashed path = name :: more) (h : IsName name) : lead path = [] := by
  rw [lead, cut]
  split
  · next same => exact absurd (List.cons.inj same).1 h.filled
  · next same => exact absurd (List.cons.inj same).1 h.notHere
  · rfl

/-- A path with one part, a name, has that name as its first piece, and nothing else. -/
theorem isName_of_parts {path : String} {text : String} (single : parts path = [.name text])
    {first : List Char} {more : List (List Char)} (cut : slashed path = first :: more) :
    IsName first ∧ ∀ piece ∈ more, partOf? piece = none := by
  have whole : '/' ∉ first := fun mem => by
    have piece : first ∈ Text.pieces (· == '/') path.toList := by
      rw [← slashed, cut]
      exact .head _
    have uncut := Text.eq_false_of_mem_pieces piece '/' mem
    exact nomatch uncut
  rw [parts, lead, cut] at single
  by_cases here : first = ['.']
  · -- a dot in front is a part of its own
    rw [here] at single
    exact nomatch single
  by_cases filled : first = []
  · -- so is a slash, and without one there is no part at all
    rw [filled] at single
    cases more <;> exact nomatch single
  by_cases parent : first = ['.', '.']
  · rw [parent] at single
    exact nomatch single
  have name : IsName first := ⟨filled, here, parent, whole⟩
  refine ⟨name, List.filterMap_eq_nil_iff.mp ?_⟩
  have none := lead_of_isName cut name
  rw [lead, cut] at none
  rw [none, List.nil_append, List.filterMap_cons_some (partOf?_of_isName name)] at single
  exact (List.cons.inj single).2

/-- **SINGLE NAMES**: a text is plain exactly if it is a name with a silent tail. -/
theorem isPlain_iff (segment : String) : isPlain segment = true ↔ IsSingle segment := by
  constructor
  · intro plain
    rw [isPlain] at plain
    split at plain
    · next text single =>
        obtain ⟨first, more, cut⟩ := List.exists_cons_of_ne_nil
          (Text.pieces_ne_nil (· == '/') segment.toList)
        obtain ⟨name, mute⟩ := isName_of_parts single cut
        obtain ⟨tail, form, silent⟩ := isSilent_of_pieces cut mute
        exact ⟨first, tail, form, name, silent⟩
    · exact nomatch plain
  · rintro ⟨name, tail, form, isName, silent⟩
    obtain ⟨more, cut, mute⟩ := slashed_of_isSilent silent isName.whole
    have cut : slashed segment = name :: more := by rw [slashed, form, cut]
    have single : parts segment = [.name (String.ofList name)] := by
      rw [parts, lead_of_isName cut isName, cut,
        List.filterMap_cons_some (partOf?_of_isName isName), List.filterMap_eq_nil_iff.mpr mute]
      rfl
    rw [isPlain, single]

/-! ## Stems -/

/-- Reversed characters without the silent ones in front: slashes, and dots before a slash. -/
def dropSilent : List Char → List Char
  | '/' :: cs => dropSilent cs
  | '.' :: '/' :: cs => dropSilent cs
  | cs => cs

/-- A text without the slashes at its end, and without the dots behind them. -/
def stem (segment : String) : List Char := (dropSilent segment.toList.reverse).reverse

theorem dropSilent_of_whole {cs : List Char} (whole : '/' ∉ cs) : dropSilent cs = cs := by
  unfold dropSilent
  split
  · exact absurd (.head _) whole
  · exact absurd (.tail _ (.head _)) whole
  · rfl

theorem dropSilent_append {tail : List Char} (silent : IsSilent tail) (cs : List Char) :
    dropSilent (tail.reverse ++ cs) = dropSilent cs := by
  induction silent generalizing cs with
  | nil => rfl
  | @slash rest _ ih =>
      rw [List.reverse_cons, List.append_assoc, ih]
      rfl
  | @dot rest _ ih =>
      rw [List.reverse_cons, List.reverse_cons, List.append_assoc, List.append_assoc, ih]
      rfl

/-- A name is the stem of a text that goes on with nothing but silence. -/
theorem stem_eq {segment : String} {name tail : List Char} (form : segment.toList = name ++ tail)
    (whole : '/' ∉ name) (silent : IsSilent tail) : stem segment = name := by
  rw [stem, form, List.reverse_append, dropSilent_append silent,
    dropSilent_of_whole (by rwa [List.mem_reverse]), List.reverse_reverse]

theorem IsSilent.append {tail more : List Char} (silent : IsSilent tail) (after : IsSilent more) :
    IsSilent (tail ++ more) := by
  induction silent with
  | nil => exact after
  | slash _ ih => exact .slash ih
  | dot _ ih => exact .dot ih

/-- What is dropped is silent. -/
theorem exists_isSilent_dropSilent (cs : List Char) :
    ∃ tail, cs.reverse = (dropSilent cs).reverse ++ tail ∧ IsSilent tail := by
  fun_induction dropSilent cs with
  | case1 cs ih =>
      obtain ⟨tail, form, silent⟩ := ih
      refine ⟨tail ++ ['/'], ?_, silent.append (.slash .nil)⟩
      rw [List.reverse_cons, form, List.append_assoc]
  | case2 cs ih =>
      obtain ⟨tail, form, silent⟩ := ih
      refine ⟨tail ++ ['/', '.'], ?_, silent.append (.dot .nil)⟩
      rw [List.reverse_cons, List.reverse_cons, form, List.append_assoc, List.append_assoc]
      rfl
  | case3 cs _ _ => exact ⟨[], (List.append_nil _).symm, .nil⟩

/-- **STEMS**: a text is a single name exactly if its stem is a name. -/
theorem isSingle_iff (segment : String) : IsSingle segment ↔ IsName (stem segment) := by
  constructor
  · rintro ⟨name, tail, form, isName, silent⟩
    rwa [stem_eq form isName.whole silent]
  · intro isName
    obtain ⟨tail, form, silent⟩ := exists_isSilent_dropSilent segment.toList.reverse
    rw [List.reverse_reverse] at form
    exact ⟨stem segment, tail, form, isName, silent⟩

end Courier.Path
