import Courier.Files.Tree
import Courier.Proofs.Files.Path
import Mathlib.Data.List.Basic

/-! # Joined paths — one name deeper

    A path with a single name behind it has the parts of the path and that
    name, whatever slash the path ends in.  The pieces say why: joining keeps
    those of the path, but for an empty one behind a slash at its end, and
    puts the pieces of the name behind them (`slashed_join`).  A tree that is
    walked along them comes to the place of the path first, and leaves it
    downwards only. -/

namespace Courier

/-- A mark cuts a text in two, each with its own pieces. -/
theorem Text.pieces_append_mark {p : Char → Bool} (first : List Char) {mark : Char}
    (rest : List Char) (hmark : p mark = true) :
    pieces p (first ++ mark :: rest) = pieces p first ++ pieces p rest := by
  induction first with
  | nil =>
      rw [List.nil_append, pieces]
      exact if_pos hmark
  | cons c first ih =>
      rw [List.cons_append, pieces, pieces, ih]
      by_cases cut : p c = true
      · rw [if_pos cut, if_pos cut]
        rfl
      · obtain ⟨next, later, next_eq⟩ := List.exists_cons_of_ne_nil (pieces_ne_nil p first)
        rw [if_neg cut, if_neg cut, next_eq]
        rfl

namespace Path

/-- The pieces of a path that stay if more is put behind it. -/
def trunk (base : String) : List (List Char) :=
  if base = "" then []
  else if base.toList.getLast? = some '/' then (slashed base).dropLast
  else slashed base

/-- With a slash at its end, a path has the pieces in front of it, and an empty one. -/
theorem slashed_of_getLast? {base : String} (slash : base.toList.getLast? = some '/') :
    ∃ front, base.toList = front ++ ['/'] ∧
      slashed base = Text.pieces (· == '/') front ++ [[]] := by
  obtain ⟨front, form⟩ := List.getLast?_eq_some_iff.mp slash
  refine ⟨front, form, ?_⟩
  rw [slashed, form]
  exact Text.pieces_append_mark front [] rfl

/-- The pieces that do not stay say nothing. -/
theorem slashed_eq_trunk (base : String) :
    slashed base = trunk base ∨ slashed base = trunk base ++ [[]] := by
  unfold trunk
  split
  · next empty =>
      rw [empty]
      exact Or.inr rfl
  · split
    · next slash =>
        obtain ⟨front, -, cut⟩ := slashed_of_getLast? slash
        rw [cut, List.dropLast_concat]
        exact Or.inr rfl
    · exact Or.inl rfl

theorem trunk_ne_nil {base : String} (filled : base ≠ "") : trunk base ≠ [] := by
  rw [trunk, if_neg filled]
  split
  · next slash =>
      obtain ⟨front, -, cut⟩ := slashed_of_getLast? slash
      rw [cut, List.dropLast_concat]
      exact Text.pieces_ne_nil _ _
  · exact Text.pieces_ne_nil _ _

/-- The pieces of a joined path are those of the base and those of what was added. -/
theorem slashed_join (base : String) {added : String} (relative : isAbsolute added = false) :
    slashed (join base added) = trunk base ++ slashed added := by
  have behind : join base added = if base = "" ∨ base.toList.getLast? = some '/' then base ++ added
      else base ++ "/" ++ added := by rw [join, relative, if_neg Bool.false_ne_true]
  rw [behind, trunk]
  by_cases empty : base = ""
  · rw [if_pos (Or.inl empty), if_pos empty, empty, String.empty_append, List.nil_append]
  rw [if_neg empty]
  by_cases slash : base.toList.getLast? = some '/'
  · obtain ⟨front, form, cut⟩ := slashed_of_getLast? slash
    rw [if_pos (Or.inr slash), if_pos slash, cut, List.dropLast_concat, slashed,
      String.toList_append, form, List.append_assoc]
    exact Text.pieces_append_mark front added.toList rfl
  · rw [if_neg (not_or.mpr ⟨empty, slash⟩), if_neg slash, slashed, String.toList_append,
      String.toList_append, List.append_assoc]
    exact Text.pieces_append_mark base.toList added.toList rfl

/-! ## Single names behind a path -/

/-- A single name is cut into its stem and pieces that say nothing. -/
theorem IsSingle.cut {segment : String} (single : IsSingle segment) :
    ∃ more, slashed segment = stem segment :: more ∧ ∀ piece ∈ more, partOf? piece = none := by
  obtain ⟨name, tail, form, isName, silent⟩ := single
  rw [stem_eq form isName.whole silent, slashed, form]
  exact slashed_of_isSilent silent isName.whole

theorem IsSingle.relative {segment : String} (single : IsSingle segment) :
    isAbsolute segment = false := by
  obtain ⟨name, tail, form, isName, -⟩ := single
  obtain ⟨c, rest, rfl⟩ := List.exists_cons_of_ne_nil isName.filled
  have noSlash : c ≠ '/' := by
    rintro rfl
    exact isName.whole (.head _)
  rw [isAbsolute, form, List.cons_append, List.head?_cons]
  exact beq_eq_false_iff_ne.mpr fun same => noSlash (Option.some.inj same)

/-- What is on top of a path shows in its first piece, and in whether that is the only one. -/
theorem lead_of_cut {path : String} {first : List Char} {more : List (List Char)}
    (cut : slashed path = first :: more) :
    lead path = if first = [] then (if more = [] then [] else [.root])
      else if first = ['.'] then [.here] else [] := by
  rw [lead, cut]
  by_cases empty : first = []
  · subst empty
    cases more <;> rfl
  by_cases here : first = ['.']
  · subst here
    rfl
  rw [if_neg empty, if_neg here]
  split
  · next same => exact absurd (List.cons.inj same).1 empty
  · next same => exact absurd (List.cons.inj same).1 here
  · rfl

/-- A single empty piece is that of the empty text. -/
theorem eq_empty_of_slashed {path : String} (cut : slashed path = [[]]) : path = "" := by
  rw [slashed] at cut
  cases h : path.toList with
  | nil => exact String.toList_eq_nil_iff.mp h
  | cons c cs =>
      rw [h, Text.pieces] at cut
      split at cut
      · exact absurd (List.cons.inj cut).2 (Text.pieces_ne_nil _ _)
      · split at cut
        · exact absurd (List.cons.inj cut).1 (List.cons_ne_nil _ _)
        · exact absurd (List.cons.inj cut).1 (List.cons_ne_nil _ _)

/-- What is on top of a path stays if a single name is put behind it. -/
theorem lead_join (base : String) {added : String} (single : IsSingle added) :
    lead (join base added) = lead base := by
  have cut := slashed_join base single.relative
  obtain ⟨more, behind, -⟩ := single.cut
  by_cases empty : base = ""
  · subst empty
    have top : slashed (join "" added) = stem added :: more := cut.trans behind
    rw [lead_of_isName top ((isSingle_iff added).mp single)]
    rfl
  · obtain ⟨first, rest, stays⟩ := List.exists_cons_of_ne_nil (trunk_ne_nil empty)
    rw [stays, behind, List.cons_append] at cut
    rw [lead_of_cut cut, if_neg (List.append_ne_nil_of_right_ne_nil _ (List.cons_ne_nil _ _))]
    rcases slashed_eq_trunk base with whole | dropped
    · -- an empty piece alone would be that of the empty path
      rw [stays] at whole
      rw [lead_of_cut whole]
      by_cases alone : rest = []
      · subst alone
        have filled : first ≠ [] := by
          rintro rfl
          exact empty (eq_empty_of_slashed whole)
        rw [if_neg filled, if_neg filled]
      · rw [if_neg alone]
    · rw [stays, List.cons_append] at dropped
      rw [lead_of_cut dropped,
        if_neg (List.append_ne_nil_of_right_ne_nil rest (List.cons_ne_nil _ _))]

theorem filterMap_partOf?_trunk (base : String) :
    (trunk base).filterMap partOf? = (slashed base).filterMap partOf? := by
  rcases slashed_eq_trunk base with whole | dropped
  · rw [whole]
  · rw [dropped, List.filterMap_append]
    exact (List.append_nil _).symm

/-- **ONE NAME DEEPER**: with a single name behind it, a path has its own parts and that name. -/
theorem parts_join (base : String) {added : String} (single : IsSingle added) :
    parts (join base added) = parts base ++ [.name (String.ofList (stem added))] := by
  obtain ⟨more, behind, mute⟩ := single.cut
  have spoken : (slashed added).filterMap partOf? = [.name (String.ofList (stem added))] := by
    rw [behind, List.filterMap_cons_some (partOf?_of_isName ((isSingle_iff added).mp single)),
      List.filterMap_eq_nil_iff.mpr mute]
  rw [parts, parts, lead_join base single, slashed_join base single.relative,
    List.filterMap_append, filterMap_partOf?_trunk, spoken, List.append_assoc]

/-- Behind a base, single names are the parts of a path. -/
theorem parts_foldl_join (base : String) {segments : List String}
    (single : ∀ segment ∈ segments, IsSingle segment) :
    parts (segments.foldl join base)
      = parts base ++ segments.map fun segment => .name (String.ofList (stem segment)) := by
  induction segments generalizing base with
  | nil => exact (List.append_nil _).symm
  | cons segment rest ih =>
      obtain ⟨head, tail⟩ := List.forall_mem_cons.mp single
      rw [List.foldl_cons, ih (join base segment) tail, parts_join base head, List.append_assoc]
      rfl

/-- A joined path starts at the root just if its base does. -/
theorem isAbsolute_join (base : String) {added : String} (relative : isAbsolute added = false) :
    isAbsolute (join base added) = isAbsolute base := by
  rw [join, relative, if_neg Bool.false_ne_true]
  by_cases empty : base = ""
  · rw [if_pos (Or.inl empty), empty, String.empty_append, relative]
    rfl
  · obtain ⟨c, cs, form⟩ := List.exists_cons_of_ne_nil (mt String.toList_eq_nil_iff.mp empty)
    split
    · rw [isAbsolute, isAbsolute, String.toList_append, form]
      rfl
    · rw [isAbsolute, isAbsolute, String.toList_append, String.toList_append, form]
      rfl

theorem isAbsolute_foldl_join (base : String) {segments : List String}
    (single : ∀ segment ∈ segments, IsSingle segment) :
    isAbsolute (segments.foldl join base) = isAbsolute base := by
  induction segments generalizing base with
  | nil => rfl
  | cons segment rest ih =>
      obtain ⟨head, tail⟩ := List.forall_mem_cons.mp single
      rw [List.foldl_cons, ih (join base segment) tail, isAbsolute_join base head.relative]

end Path

/-! ## Walking a tree -/

namespace FileTree

variable {t : FileTree} {place target : List String}

/-- A path that leads somewhere is walked from the root, or from where it starts. -/
theorem steps_of_resolve {start : List String} {path : String}
    (h : t.resolve start path = .ok target) :
    t.steps (if Path.isAbsolute path then [] else start) (Path.slashed path) = .ok target := by
  rw [resolve] at h
  split at h
  · exact nomatch h
  · split at h
    · exact nomatch h
    · split at h
      · exact nomatch h
      · exact h

/-- Steps behind steps go on from where those have led. -/
theorem steps_append (t : FileTree) (place : List String) (pieces more : List (List Char)) :
    t.steps place (pieces ++ more) = (t.steps place pieces).bind fun mid => t.steps mid more := by
  induction pieces generalizing place with
  | nil => rfl
  | cons piece rest ih =>
      rw [List.cons_append, steps, steps]
      cases t.step place piece with
      | ok next => exact ih next
      | error fault => rfl

/-- A step leads on from a directory only. -/
theorem at?_of_step {piece : List Char} (h : t.step place piece = .ok target) :
    t.at? place = some .directory := by
  rw [step] at h
  split at h
  · exact nomatch h
  · exact nomatch h
  · next directory => exact directory

/-- A piece that says nothing leads nowhere else. -/
theorem step_of_mute {piece : List Char} (mute : Path.partOf? piece = none)
    (directory : t.at? place = some .directory) : t.step place piece = .ok place := by
  rw [step, directory, mute]

/-- Pieces that say nothing lead nowhere else. -/
theorem eq_of_steps_of_mute {pieces : List (List Char)}
    (mute : ∀ piece ∈ pieces, Path.partOf? piece = none)
    (h : t.steps place pieces = .ok target) : target = place := by
  induction pieces with
  | nil => exact (Except.ok.inj h).symm
  | cons piece rest ih =>
      obtain ⟨head, tail⟩ := List.forall_mem_cons.mp mute
      rw [steps] at h
      cases stepped : t.step place piece with
      | error fault =>
          rw [stepped] at h
          exact nomatch h
      | ok next =>
          rw [stepped] at h
          rw [step_of_mute head (at?_of_step stepped)] at stepped
          obtain rfl := Except.ok.inj stepped
          exact ih tail h

/-- A name leads to the place of that name in the directory. -/
theorem eq_of_step_of_isName {name : List Char} (isName : Path.IsName name)
    (h : t.step place name = .ok target) : target = place ++ [String.ofList name] := by
  rw [step, at?_of_step h, Path.partOf?_of_isName isName] at h
  dsimp only at h
  rw [enter] at h
  split at h
  · exact nomatch h
  · split at h
    · exact (Except.ok.inj h).symm
    · exact nomatch h

/-- **ONE PLACE DEEPER**: where a path with a single name behind it leads somewhere, the path leads
    to the directory there. -/
theorem steps_join (base : String) {added : String} (single : Path.IsSingle added)
    (h : t.steps place (Path.slashed (Path.join base added)) = .ok target) :
    ∃ mid, t.steps place (Path.slashed base) = .ok mid ∧
      target = mid ++ [String.ofList (Path.stem added)] := by
  obtain ⟨more, behind, mute⟩ := single.cut
  rw [Path.slashed_join base single.relative, steps_append] at h
  cases reached : t.steps place (Path.trunk base) with
  | error fault =>
      rw [reached] at h
      exact nomatch h
  | ok mid =>
      rw [reached] at h
      have onwards : t.steps mid (Path.slashed added) = .ok target := h
      rw [behind, steps] at onwards
      -- the way enters the added name; what stands behind it does not move it on
      cases entered : t.step mid (Path.stem added) with
      | error fault =>
          rw [entered] at onwards
          exact nomatch onwards
      | ok inner =>
          rw [entered] at onwards
          refine ⟨mid, ?_, ?_⟩
          · rcases Path.slashed_eq_trunk base with whole | dropped
            · rw [whole, reached]
            · have still : t.step mid [] = .ok mid := step_of_mute rfl (at?_of_step entered)
              rw [dropped, steps_append, reached]
              show t.steps mid [[]] = _
              rw [steps, still]
              rfl
          · rw [eq_of_steps_of_mute mute onwards]
            exact eq_of_step_of_isName ((Path.isSingle_iff added).mp single) entered

/-- A path with single names behind a base leads to where these names lead from the base. -/
theorem steps_foldl_join (base : String) {segments : List String}
    (single : ∀ segment ∈ segments, Path.IsSingle segment)
    (h : t.steps place (Path.slashed (segments.foldl Path.join base)) = .ok target) :
    ∃ mid, t.steps place (Path.slashed base) = .ok mid ∧
      target = mid ++ segments.map fun segment => String.ofList (Path.stem segment) := by
  induction segments generalizing base with
  | nil => exact ⟨target, h, (List.append_nil _).symm⟩
  | cons segment rest ih =>
      obtain ⟨head, tail⟩ := List.forall_mem_cons.mp single
      obtain ⟨inner, reached, rfl⟩ := ih (Path.join base segment) tail h
      obtain ⟨mid, top, rfl⟩ := steps_join base head reached
      refine ⟨mid, top, ?_⟩
      rw [List.append_assoc]
      rfl

end FileTree

end Courier
