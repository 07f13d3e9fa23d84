import Courier.Proofs.Json.AgreeSkip

/-! # Two runs that read a record

    A typed value that stands before the varied member is read alike.  Only
    the value behind its name is not, and of the fields of a record that is
    one whose name the varied name ends. -/

namespace Courier.Json

open Utf8 Reader

variable {α β : Type} {F : Cursor → Cursor → Prop}

namespace Varied

variable {w : Varied} {c d : Cursor}

/-! ## Single values -/

/-- Before the member, a value of the wrong kind is the same fault at the same place. -/
theorem agree_wrongKind (wanted : String) {Q : α → α → Cursor → Cursor → Prop} {y : UInt8}
    (h : Facing (w.ending w.first) (w.ending w.second) y c d) :
    Agree F Q (wrongKind wanted c) (wrongKind wanted d) := by
  obtain ⟨left, right⟩ := h.peek
  -- whatever is found there is read steadily, and the fault is at the place behind it
  have found (found : Found) {c d : Cursor} (same : c.place = d.place) :
      Agree (fun c d => c.place = d.place) Q (raise (.wrongKind found wanted) c)
        (raise (.wrongKind found wanted) d) := .fault fun _ => same
  have word {letters : List Char} (plain : '"' ∉ letters) (value : Found)
      {c d : Cursor} (h : Beside (w.ending w.first) (w.ending w.second) c d) :
      Agree (fun c d => c.place = d.place) Q
        ((word letters >>= fun _ => raise (.wrongKind value wanted)) c)
        ((word letters >>= fun _ => raise (.wrongKind value wanted)) d) :=
    (agree_steady (steady_word plain) h).bind fun _ _ _ _ same => found value same.2.open.place
  have number (positive : Bool) {c d : Cursor}
      (h : Beside (w.ending w.first) (w.ending w.second) c d) :
      Agree (fun c d => c.place = d.place) Q
        ((readNumber positive >>= fun n => raise (.wrongKind n.found wanted)) c)
        ((readNumber positive >>= fun n => raise (.wrongKind n.found wanted)) d) := by
    refine (agree_steady (steady_readNumber positive) h).bind ?_
    rintro n _ c d ⟨rfl, same⟩
    exact found n.found same.open.place
  unfold wrongKind
  refine .placed ?_
  rw [bind_of_ok _ (show Reader.peek c = (.ok (some y), c) from left ▸ rfl),
    bind_of_ok _ (show Reader.peek d = (.ok (some y), d) from right ▸ rfl)]
  dsimp only
  split
  · next mark => exact .skip_bind (word (by decide) .null (h.skip (is_other mark (by decide))))
  split
  · next mark => exact .skip_bind (word (by decide) _ (h.skip (is_other mark (by decide))))
  split
  · next mark => exact .skip_bind (word (by decide) _ (h.skip (is_other mark (by decide))))
  split
  · next mark => exact .skip_bind (number false (h.skip (is_other mark (by decide))))
  split
  · exact number true h.beside
  split
  · refine .skip_bind ((agree_readText w.spelled w.same_tail h.skip_quote).bind ?_)
    rintro s _ c d ⟨rfl, ends⟩
    exact found (.text s) (Past.open (Or.inr ends.behind)).place
  split
  · exact found .list h.beside.place
  split
  · exact found .object h.beside.place
  · exact .failAhead _ h.place

/-- Before the member a text is read alike, and may end in the name of the member. -/
theorem agree_text (hF : ∀ c, F c c) (h : w.Loose c d) :
    Agree F (fun a b c d => a = b ∧ w.Past c d) (text c) (text d) := by
  rcases h with rfl | h
  · exact .refl hF (fun _ _ => ⟨rfl, Or.inl rfl⟩) _
  · refine agree_valueStart h fun y c d facing => ?_
    split
    · exact .skip_bind ((agree_readText w.spelled w.same_tail facing.skip_quote).mono
        fun _ _ _ _ h => ⟨h.1, Or.inr h.2.behind⟩)
    · exact agree_wrongKind _ facing

/-- The string of the member is each run's own. -/
theorem agree_text_value (h : Before (w.value w.first) (w.value w.second) c d) :
    Agree F (fun a b c d => a = String.ofList w.first ∧ b = String.ofList w.second ∧ c = d)
      (text c) (text d) := by
  obtain ⟨c', d', left, right, held⟩ := peekToken_value h
  rw [text, bind_of_ok _ (valueStart_of_peekToken left), bind_of_ok _ (valueStart_of_peekToken right),
    if_pos (by decide)]
  exact .skip_bind (agree_readText_held held)

/-- What becomes of a whole number where one is wanted. -/
def taken (wanted : String) (accept : Int → Option α) (n : Int) : Reader α :=
  match accept n with
  | some a => pure a
  | none => raise (.badValue (.integer n) wanted)

/-- What becomes of any number there. -/
def judged (wanted : String) (accept : Int → Option α) (n : Number) : Reader α :=
  match n with
  | .unsigned n => taken wanted accept n.toNat
  | .negative n => taken wanted accept n
  | .real _ => raise (.wrongKind n.found wanted)

/-- A number is taken or refused alike before the member. -/
theorem agree_judged (wanted : String) (accept : Int → Option α) (n : Number) (h : w.Loose c d) :
    Agree F (fun a b c d => a = b ∧ w.Loose c d) ((judged wanted accept n).placed c)
      ((judged wanted accept n).placed d) := by
  have whole (n : Int) : Agree (fun c d => c.place = d.place) (fun a b c d => a = b ∧ w.Loose c d)
      (taken wanted accept n c) (taken wanted accept n d) := by
    unfold taken
    cases accept n with
    | some a => exact .ok ⟨rfl, h⟩
    | none => exact .fault fun _ => h.open.place
  refine .placed ?_
  cases n with
  | unsigned n => exact whole n.toNat
  | negative n => exact whole n
  | real x => exact .fault fun _ => h.open.place

/-- Before the member a number is read alike, and so is what is no number. -/
theorem agree_wholeBy {wanted : String} {accept : Int → Option α} (hF : ∀ c, F c c)
    (h : w.Loose c d) :
    Agree F (fun a b c d => a = b ∧ w.Loose c d) (wholeBy wanted accept c)
      (wholeBy wanted accept d) := by
  have number (positive : Bool) {c d : Cursor}
      (h : Beside (w.ending w.first) (w.ending w.second) c d) :
      Agree F (fun a b c d => a = b ∧ w.Loose c d)
        ((readNumber positive >>= fun n => (judged wanted accept n).placed) c)
        ((readNumber positive >>= fun n => (judged wanted accept n).placed) d) := by
    refine (agree_steady (steady_readNumber positive) h).bind ?_
    rintro n _ c d ⟨rfl, loose⟩
    exact agree_judged wanted accept n loose
  rcases h with rfl | h
  · exact .refl hF (fun _ _ => ⟨rfl, Or.inl rfl⟩) _
  · refine agree_valueStart h fun y c d facing => ?_
    dsimp only
    split
    · next mark =>
        exact .skip_bind (number false (facing.skip (is_other mark (by decide))))
    split
    · exact number true facing.beside
    · exact agree_wrongKind _ facing

/-! ## Brackets -/

/-- At one place, or at the quote before a name. -/
def AtName (w : Varied) (c d : Cursor) : Prop :=
  c = d ∨ Facing (w.ending w.first) (w.ending w.second) quote c d

/-- Whether another member comes is found alike, and the runs then stand at its name. -/
theorem agree_moreMembers (hF : ∀ c, F c c) (h : w.Past c d) (first : Bool) :
    Agree F (fun a b c d => a = b ∧ w.Loose c d ∧ (a = true → w.AtName c d))
      (moreMembers first c) (moreMembers first d) := by
  refine agree_past h hF (fun _ _ => ⟨rfl, Or.inl rfl, fun _ => Or.inl rfl⟩) (fun y c d facing => ?_)
    fun b c d place noMark => ?_
  · have named {y : UInt8} {c d : Cursor} (mark : is y '"' = true)
        (facing : Facing (w.ending w.first) (w.ending w.second) y c d) :
        w.Loose c d ∧ (true = true → w.AtName c d) :=
      ⟨Or.inr facing.beside, fun _ => Or.inr (eq_quote mark ▸ facing)⟩
    dsimp only
    split
    · exact .ok ⟨rfl, Or.inr facing.beside, nofun⟩
    split
    · next mark =>
        have comma := is_other (Bool.and_eq_true_iff.mp mark).1 (show ',' ≠ '"' by decide)
        refine .skip_bind (agree_peekToken (facing.skip comma) fun y c d facing => ?_)
        dsimp only
        split
        · next mark => exact .ok ⟨rfl, named mark facing⟩
        split
        · exact .failAhead _ facing.place
        · exact .failAhead _ facing.place
    split
    · split
      · next mark => exact .ok ⟨rfl, named mark facing⟩
      · exact .failAhead _ facing.place
    · exact .failAhead _ facing.place
  -- inside the member no mark is ahead, and both runs fail alike
  · obtain ⟨noQuote, noComma, -, noBrace⟩ := noMark
    simp only [noBrace, noComma, noQuote, Bool.false_and, Bool.false_eq_true, if_false]
    split
    · exact .failAhead _ place
    · exact .failAhead _ place

/-- The name of a member is read alike, and may be the varied one. -/
theorem agree_memberName (hF : ∀ c, F c c) (h : w.AtName c d) :
    Agree F (fun a b c d => a = b ∧
        (c = d ∨ TextEnds w.name w.form (w.tail w.first) (w.tail w.second) a.toList c d))
      (memberName c) (memberName d) := by
  rcases h with rfl | h
  · exact .refl hF (fun _ _ => ⟨rfl, Or.inl rfl⟩) _
  · exact .skip_bind ((agree_readText w.spelled w.same_tail h.skip_quote).mono
      fun _ _ _ _ h => ⟨h.1, Or.inr h.2⟩)

/-- Whether another item comes is found alike. -/
theorem agree_moreItems (hF : ∀ c, F c c) {first : Bool} (h : w.Past c d)
    (start : first = true → w.Loose c d) :
    Agree F (fun a b c d => a = b ∧ w.Loose c d) (moreItems first c) (moreItems first d) := by
  cases first with
  | true =>
      rcases start rfl with rfl | h
      · exact .refl hF (fun _ _ => ⟨rfl, Or.inl rfl⟩) _
      · refine agree_peekToken h fun y c d facing => ?_
        dsimp only
        rw [if_pos rfl]
        split
        · exact .ok ⟨rfl, Or.inr facing.beside⟩
        · exact .ok ⟨rfl, Or.inr facing.beside⟩
  -- behind an item a run may be inside the member, where it fails
  | false =>
      refine agree_past h hF (fun _ _ => ⟨rfl, Or.inl rfl⟩) (fun y c d facing => ?_)
        fun b c d place noMark => ?_
      · dsimp only
        rw [if_neg Bool.false_ne_true]
        split
        · exact .ok ⟨rfl, Or.inr facing.beside⟩
        split
        · next mark =>
            refine .skip_bind (agree_peekToken (facing.skip (is_other mark (by decide)))
              fun y c d facing => ?_)
            dsimp only
            split
            · exact .failAhead _ facing.place
            · exact .ok ⟨rfl, Or.inr facing.beside⟩
        · exact .failAhead _ facing.place
      · dsimp only
        rw [noMark.2.2.1, noMark.2.1]
        exact .failAhead _ place

/-- The end of an object is read alike. -/
theorem agree_objectEnd (hF : ∀ c, F c c) (h : w.Past c d) :
    Agree F (fun _ _ => w.Loose) (objectEnd c) (objectEnd d) := by
  refine agree_past h hF (fun _ _ => Or.inl rfl) (fun y c d facing => ?_)
    fun b c d place noMark => ?_
  · dsimp only
    split
    · next mark => exact .ok (Or.inr (facing.skip (is_other mark (by decide))))
    · exact .failAhead _ facing.place
  · dsimp only
    rw [noMark.2.2.2]
    exact .failAhead _ place

/-- The end of a list is read alike. -/
theorem agree_listEnd (hF : ∀ c, F c c) (h : w.Past c d) :
    Agree F (fun _ _ => w.Loose) (listEnd c) (listEnd d) := by
  refine agree_past h hF (fun _ _ => Or.inl rfl) (fun y c d facing => ?_)
    fun b c d place noMark => ?_
  · dsimp only
    split
    · next mark => exact .ok (Or.inr (facing.skip (is_other mark (by decide))))
    split
    · next mark =>
        refine .skip_bind (agree_peekToken (facing.skip (is_other mark (by decide)))
          fun y c d facing => ?_)
        exact .failAhead _ facing.place
    · exact .failAhead _ facing.place
  · dsimp only
    rw [noMark.2.2.1, noMark.2.1]
    exact .failAhead _ place

/-- What follows a fault inside an object stops at the same place. -/
theorem objectEnd_place (h : w.Open c d) : (objectEnd c).2.place = (objectEnd d).2.place := by
  rcases h with rfl | h
  · rfl
  · obtain ⟨y, c', d', left, right, facing⟩ := peekToken_beside h
    rw [objectEnd, bind_of_ok _ left, bind_of_ok _ right]
    dsimp only
    split
    · exact facing.place
    · exact facing.beside.place

theorem listEnd_place (h : w.Open c d) : (listEnd c).2.place = (listEnd d).2.place := by
  rcases h with rfl | h
  · rfl
  · obtain ⟨y, c', d', left, right, facing⟩ := peekToken_beside h
    rw [listEnd, bind_of_ok _ left, bind_of_ok _ right]
    dsimp only
    split
    · exact facing.place
    split
    · next mark =>
        obtain ⟨y, c'', d'', left, right, behind⟩ :=
          peekToken_beside (facing.skip (is_other mark (by decide)))
        rw [bind_of_ok _ (show Reader.skip c' = (.ok (), c'.skip) from rfl),
          bind_of_ok _ (show Reader.skip d' = (.ok (), d'.skip) from rfl), bind_of_ok _ left,
          bind_of_ok _ right]
        exact behind.beside.place
    · exact facing.beside.place

/-- The first fault counts, wherever the end of the bracket is then looked for. -/
theorem agree_closedBy {r r' : Reader α} {close : Reader Unit} {R : α → α → Prop}
    (body : Agree w.Open (fun a b c d => R a b ∧ w.Past c d) (r c) (r' d))
    (closes : ∀ c d, w.Past c d →
      Agree (fun c d => c.place = d.place) (fun _ _ => w.Loose) (close c) (close d))
    (after : ∀ c d, w.Open c d → (close c).2.place = (close d).2.place) :
    Agree (fun c d => c.place = d.place) (fun a b c d => R a b ∧ w.Loose c d)
      (r.closedBy close c) (r'.closedBy close d) := by
  rcases left : r c with ⟨result, c'⟩
  rcases right : r' d with ⟨result', d'⟩
  rw [left, right] at body
  rw [Reader.closedBy, Reader.closedBy, left, right]
  cases body with
  | ok h =>
      obtain ⟨related, past⟩ := h
      have closed := closes c' d' past
      rcases left : close c' with ⟨closing, e⟩
      rcases right : close d' with ⟨closing', e'⟩
      rw [left, right] at closed
      dsimp only
      rw [left, right]
      cases closed with
      | ok loose => exact .ok ⟨related, loose⟩
      | fault h => exact .fault h
  | fault h => exact .fault fun none => after c' d' (h none)

/-! ## Records -/

section Records

variable {σ : Type} {l : Layout σ} {R : σ → σ → Prop}

/-- Steps that keep records related, behind what they were read from. -/
def Stores (w : Varied) (R : σ → σ → Prop) (store store' : σ → σ) (c d : Cursor) : Prop :=
  (∀ a b, R a b → R (store a) (store' b)) ∧ w.Past c d

/-- Records of the two runs: what relates them holds at the start, and is kept by every field that
    is read before the member, and by one that is read from it. -/
structure Relates (w : Varied) (l : Layout σ) (R : σ → σ → Prop) : Prop where
  blank : R l.blank l.blank
  before : ∀ f ∈ l.fields, ∀ c d, w.Loose c d → Agree w.Open (w.Stores R) (f.read c) (f.read d)
  own : ∀ f ∈ l.fields, w.name <:+ f.name.toList → ∀ c d,
    Before (w.value w.first) (w.value w.second) c d → Agree w.Open (w.Stores R) (f.read c) (f.read d)

theorem open_refl (c : Cursor) : w.Open c c := Or.inl rfl

/-- The value of a field is read from the member just where its name ends in the varied one. -/
theorem Relates.field (h : w.Relates l R) {f : Member σ} (mem : f ∈ l.fields)
    (ends : c = d ∨ TextEnds w.name w.form (w.tail w.first) (w.tail w.second) f.name.toList c d)
    {rest rest' : (σ → σ) → Reader α} {Q : α → α → Cursor → Cursor → Prop}
    (next : ∀ store store' c d, w.Stores R store store' c d →
      Agree w.Open Q (rest store c) (rest' store' d)) :
    Agree w.Open Q ((colon >>= fun _ => f.read >>= rest) c)
      ((colon >>= fun _ => f.read >>= rest') d) := by
  have before (ahead : c = d ∨ NameAhead w.form (w.tail w.first) (w.tail w.second) c d) :
      Agree w.Open Q ((colon >>= fun _ => f.read >>= rest) c)
        ((colon >>= fun _ => f.read >>= rest') d) :=
    (agree_colon_ahead open_refl ahead).bind fun _ _ c d loose =>
      (h.before f mem c d loose).bind next
  rcases ends with same | ahead | ⟨tail, suffix⟩
  · exact before (Or.inl same)
  · exact before (Or.inr ahead)
  · exact (agree_colon_name tail).bind fun _ _ c d value => (h.own f mem suffix c d value).bind next

/-- The fuel of an object is how many bytes it has, whatever they are. -/
theorem members_congr {fuel fuel' : List UInt8} (h : fuel.length = fuel'.length) :
    l.members fuel = l.members fuel' := by
  induction fuel generalizing fuel' with
  | nil => rw [List.eq_nil_of_length_eq_zero h.symm]
  | cons x fuel ih =>
      cases fuel' with
      | nil => exact nomatch h
      | cons x' fuel' =>
          funext first seen record
          rw [Layout.members, Layout.members, ih (Nat.succ.inj h)]

/-- By induction on the fuel: whatever member comes next, the others find records that are still
    related, at places where the runs may stand behind a value. -/
theorem Relates.members (h : w.Relates l R) : ∀ (fuel : List UInt8) (first : Bool)
    (seen : List String) {a b : σ} {c d : Cursor}, R a b → w.Past c d →
      Agree w.Open (fun a b c d => R a b ∧ w.Past c d)
        (l.members fuel first seen a c) (l.members fuel first seen b d) := by
  intro fuel
  induction fuel with
  | nil => exact fun _ _ {_ _ _ _} _ past => .failAhead _ past.open.skip_place
  | cons x fuel ih =>
      intro first seen a b c d related past
      refine (agree_moreMembers open_refl past first).bind ?_
      rintro more _ c d ⟨rfl, loose, named⟩
      cases more with
      | false =>
          rw [if_neg Bool.false_ne_true]
          cases l.firstMissing? seen with
          | some name => exact .fault fun _ => loose.open
          | none => exact .ok ⟨related, loose.past⟩
      | true =>
          rw [if_pos rfl]
          refine (agree_memberName open_refl (named rfl)).bind ?_
          rintro name _ c d ⟨rfl, ends⟩
          have past : w.Past c d := ends.imp id TextEnds.behind
          cases found : l.fields.find? fun f => f.name == name with
          | none =>
              dsimp only
              refine (agree_colon open_refl past).bind fun _ _ c d ready => ?_
              refine (agree_skipValue open_refl ready).bind fun _ _ c d past => ?_
              exact ih _ _ related past
          | some f =>
              dsimp only
              split
              · exact .fault fun _ => past.open
              · have own : f.name = name := by simpa using List.find?_some found
                rw [← own] at ends
                refine h.field (List.mem_of_find?_eq_some found) ends ?_
                rintro store store' c d ⟨stores, past⟩
                exact ih _ _ (stores a b related) past

/-- Items are stored one by one, and the first of them comes before the member. -/
theorem Relates.positions (h : w.Relates l R) (wanted : String) : ∀ (fields : List (Member σ)),
    (∀ f ∈ fields, f ∈ l.fields) → ∀ (index : Nat) {a b : σ} {c d : Cursor}, R a b →
      w.Past c d → (index = 0 → w.Loose c d) →
        Agree w.Open (fun a b c d => R a b ∧ w.Past c d) (Layout.positions wanted fields index a c)
          (Layout.positions wanted fields index b d) := by
  intro fields
  -- on the fields that are left; only the first item may stand before the member
  induction fields with
  | nil => exact fun _ _ {_ _ _ _} related past _ => .ok ⟨related, past⟩
  | cons f fields ih =>
      intro own index a b c d related past start
      obtain ⟨mem, others⟩ := List.forall_mem_cons.mp own
      refine (agree_moreItems open_refl past fun first => start (beq_iff_eq.mp first)).bind ?_
      rintro more _ c d ⟨rfl, loose⟩
      cases more with
      | true =>
          rw [if_pos rfl]
          refine (h.before f mem c d loose).bind ?_
          rintro store store' c d ⟨stores, past⟩
          exact ih others _ (stores a b related) past nofun
      | false =>
          rw [if_neg Bool.false_ne_true]
          split
          · exact ih others _ related loose.past nofun
          · exact .fault fun _ => loose.open

/-- **RECORDS APART IN ONE STRING**: a record is read alike from both texts, and what is read is
    related as the fields relate it. -/
theorem Relates.read (h : w.Relates l R)
    (beside : Beside (w.ending w.first) (w.ending w.second) c d) :
    Agree (fun c d => c.place = d.place) (fun a b c d => R a b ∧ w.Loose c d) (l.read c)
      (l.read d) := by
  refine agree_valueStart beside fun y c d facing => ?_
  split
  · next mark =>
      have loose : w.Loose c.skip d.skip := Or.inr (facing.skip (is_other mark (by decide)))
      have members : Agree w.Open (fun a b c d => R a b ∧ w.Past c d)
          (l.members c.skip.rest true [] l.blank c.skip)
          (l.members d.skip.rest true [] l.blank d.skip) := by
        rw [members_congr (Ready.length (Or.inl loose))]
        exact h.members _ true [] h.blank loose.past
      exact .placed (agree_closedBy (.skip_bind members) (fun c d => agree_objectEnd fun _ => rfl)
        fun c d => objectEnd_place)
  split
  · next mark =>
      have loose : w.Loose c.skip d.skip := Or.inr (facing.skip (is_other mark (by decide)))
      have positions := h.positions l.sizedName l.fields (fun _ mem => mem) 0 h.blank loose.past
        fun _ => loose
      exact .placed (agree_closedBy (.skip_bind positions) (fun c d => agree_listEnd fun _ => rfl)
        fun c d => listEnd_place)
  · exact agree_wrongKind _ facing

/-- **RECORDS OF TEXTS THAT DIFFER IN ONE STRING**: related values, or the same fault at the same
    place, whatever stands around the string. -/
theorem Relates.decode (h : w.Relates l R) (before : List UInt8) :
    (∃ a b, Json.decode l.read (before ++ quote :: w.ending w.first) = .ok a ∧
      Json.decode l.read (before ++ quote :: w.ending w.second) = .ok b ∧ R a b) ∨
    ∃ fault, Json.decode l.read (before ++ quote :: w.ending w.first) = .error fault ∧
      Json.decode l.read (before ++ quote :: w.ending w.second) = .error fault := by
  have agree : Agree (fun c d => c.place = d.place) (fun a b _ _ => R a b)
      (whole l.read ⟨before ++ quote :: w.ending w.first, {}⟩)
      (whole l.read ⟨before ++ quote :: w.ending w.second, {}⟩) := by
    refine (h.read ⟨before, {}, rfl, rfl⟩).bind ?_
    rintro a b c d ⟨related, rfl | beside⟩
    · refine (Agree.refl (F := fun c d => c.place = d.place)
        (Q := fun a b c d => a = b ∧ c = d) (fun _ => rfl) (fun _ _ => ⟨rfl, rfl⟩)
        (peekToken c)).bind ?_
      rintro found _ c _ ⟨rfl, rfl⟩
      cases found with
      | none => exact .ok related
      | some b => exact .failAhead _ rfl
    · exact agree_peekToken beside fun y c d facing => .failAhead _ facing.place
  rw [decode_eq, decode_eq]
  exact agree.result

end Records

end Varied

end Courier.Json
