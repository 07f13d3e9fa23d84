import Courier.Proofs.Json.AgreeMember
import Courier.Proofs.Json.Skip

/-! # Two runs that pass over a value

    Passing over a value meets the varied member, if at all, with the name
    ahead, and it passes over the string or fails, in both runs alike.  What
    it remembers are open brackets, so each step needs to know no more than
    where the cursors stand: ahead of a value, behind one, or behind a
    bracket that was opened just now. -/

namespace Courier.Json

open Reader

variable {F : Cursor → Cursor → Prop}

namespace Varied

variable {w : Varied} {c d : Cursor}

/-- A member's name and its colon are passed over alike. -/
theorem agree_skipName (hF : ∀ c, F c c) (h : w.Loose c d) :
    Agree F (fun _ _ => w.Ready) (skipName c) (skipName d) := by
  rcases h with rfl | h
  · exact .refl hF (fun _ _ => Or.inl (Or.inl rfl)) _
  · unfold skipName
    refine agree_peekToken h fun y c d facing => ?_
    dsimp only
    split
    · refine .skip_bind ?_
      show Agree F _ ((skipText c.skip.rest >>= fun _ => colon) c.skip)
        ((skipText d.skip.rest >>= fun _ => colon) d.skip)
      exact (agree_skipText_ahead w.spelled w.same_tail facing.skip_quote).bind
        fun _ _ _ _ behind => agree_colon hF (Or.inr behind)
    · exact .failAhead_bind _ facing.place

/-- Where a run stands while it passes over a value. -/
def SkipAt (w : Varied) : Option SkipState → Cursor → Cursor → Prop
  | some (.value _) => w.Ready
  | some (.inside _ _ false) => w.Loose
  | some (.inside _ _ true) => w.Past
  | none => w.Past

theorem SkipAt.refl (state : Option SkipState) (c : Cursor) : w.SkipAt state c c := by
  rcases state with _ | _ | ⟨_, _, _ | _⟩
  · exact Or.inl rfl
  · exact Or.inl (Or.inl rfl)
  · exact Or.inl rfl
  · exact Or.inl rfl

theorem Past.after (h : w.Past c d) (opened : List Bracket) : w.SkipAt (afterValue opened) c d := by
  cases opened with
  | nil => exact h
  | cons bracket outer => exact h

theorem SkipAt.open {state : Option SkipState} (h : w.SkipAt state c d) : w.Open c d := by
  rcases state with _ | _ | ⟨_, _, _ | _⟩
  · exact Past.open h
  · exact Ready.open h
  · exact Loose.open h
  · exact Past.open h

/-- Steps that come to the same state, with the cursors where that state has them. -/
def Stepped (w : Varied) (a b : Option SkipState) (c d : Cursor) : Prop := a = b ∧ w.SkipAt a c d

/-- What stands behind a value in both runs has it passed over. -/
theorem agree_afterValue {r : Reader Unit} {c' d' : Cursor}
    (h : Agree F (fun _ _ => w.Past) (r c') (r d')) (opened : List Bracket) :
    Agree F w.Stepped ((r >>= fun _ => pure (afterValue opened)) c')
      ((r >>= fun _ => pure (afterValue opened)) d') :=
  h.bind fun _ _ _ _ past => .ok ⟨rfl, past.after opened⟩

/-- What comes next inside a bracket is found alike. -/
theorem agree_nextInside (hF : ∀ c, F c c) (h : w.Loose c d) (bracket : Bracket)
    (outer : List Bracket) : Agree F (fun a b c d => a = b ∧ w.SkipAt (some a) c d)
      (nextInside bracket outer c) (nextInside bracket outer d) := by
  cases bracket with
  | list => exact .ok ⟨rfl, Or.inl h⟩
  | object => exact (agree_skipName hF h).bind fun _ _ _ _ ready => .ok ⟨rfl, ready⟩

/-- A steady reader passes over what it reads before the member. -/
theorem agree_steady {α : Type} {r : Reader α} (steady : r.Steady)
    (h : Beside (w.ending w.first) (w.ending w.second) c d) :
    Agree F (fun a b c d => a = b ∧ w.Loose c d) (r c) (r d) := by
  obtain ⟨x, p, rfl, rfl⟩ := h
  exact (steady F _ _ w.same_ending x p).mono fun _ _ _ _ h => ⟨h.1, Or.inr h.2⟩

/-- A step that starts a value is taken alike. -/
theorem agree_skipStep_value (hF : ∀ c, F c c) (h : w.Ready c d) (opened : List Bracket) :
    Agree F w.Stepped (skipStep (.value opened) c) (skipStep (.value opened) d) := by
  have passes {r : Reader Unit} (steady : r.Steady) {c d : Cursor}
      (h : Beside (w.ending w.first) (w.ending w.second) c d) :
      Agree F w.Stepped ((r >>= fun _ => pure (afterValue opened)) c)
        ((r >>= fun _ => pure (afterValue opened)) d) :=
    agree_afterValue ((agree_steady steady h).mono fun _ _ _ _ h => h.2.past) opened
  rcases h with (rfl | h) | h
  · exact .refl hF (fun state c => ⟨rfl, .refl state c⟩) _
  -- the same byte is ahead in both runs, so both take the same branch
  · refine agree_peekToken h fun y c d facing => ?_
    dsimp only
    split
    · next mark =>
        exact .skip_bind (passes (steady_word (by decide)) (facing.skip (is_other mark (by decide))))
    split
    · next mark =>
        exact .skip_bind (passes (steady_word (by decide)) (facing.skip (is_other mark (by decide))))
    split
    · next mark =>
        exact .skip_bind (passes (steady_word (by decide)) (facing.skip (is_other mark (by decide))))
    split
    · next mark =>
        exact .skip_bind (passes steady_skipNumber (facing.skip (is_other mark (by decide))))
    split
    · exact passes steady_skipNumber facing.beside
    split
    · refine .skip_bind (agree_afterValue (r := do skipText (← Reader.ahead)) ?_ opened)
      exact (agree_skipText_ahead w.spelled w.same_tail facing.skip_quote).mono
        fun _ _ _ _ => Or.inr
    split
    · next mark => exact .ok ⟨rfl, Or.inr (facing.skip (is_other mark (by decide)))⟩
    split
    · next mark => exact .ok ⟨rfl, Or.inr (facing.skip (is_other mark (by decide)))⟩
    · exact .failAhead _ facing.place
  · -- the string itself
    obtain ⟨c', d', left, right, held⟩ := peekToken_value h
    rw [skipStep, bind_of_ok _ left, bind_of_ok _ right]
    dsimp only
    rw [show is quote 'n' = false by decide, show is quote 't' = false by decide,
      show is quote 'f' = false by decide, show is quote '-' = false by decide,
      show isDigit quote = false by decide, show is quote '"' = true by decide]
    refine .skip_bind (agree_afterValue (r := do skipText (← Reader.ahead)) ?_ opened)
    exact (agree_skipText_held held).mono fun _ _ _ _ => Or.inl

/-- A step inside a bracket is taken alike. -/
theorem agree_skipStep_inside (hF : ∀ c, F c c) {bracket : Bracket} {outer : List Bracket}
    {comma : Bool} (h : w.SkipAt (some (.inside bracket outer comma)) c d) :
    Agree F w.Stepped (skipStep (.inside bracket outer comma) c)
      (skipStep (.inside bracket outer comma) d) := by
  have goesOn {c d : Cursor} (h : w.Loose c d) : Agree F w.Stepped
      ((some <$> nextInside bracket outer) c) ((some <$> nextInside bracket outer) d) := by
    show Agree F _ ((nextInside bracket outer >>= fun a => pure (some a)) c)
      ((nextInside bracket outer >>= fun a => pure (some a)) d)
    exact (agree_nextInside hF h bracket outer).bind
      fun _ _ _ _ ⟨same, at'⟩ => .ok ⟨same ▸ rfl, at'⟩
  have closes {y : UInt8} {c d : Cursor} (facing : Facing (w.ending w.first) (w.ending w.second) y c d)
      (mark : is y bracket.right = true) : w.Past c.skip d.skip := by
    refine Loose.past (Or.inr (facing.skip (is_other mark ?_)))
    cases bracket <;> decide
  cases comma with
  | false =>
      rcases h with rfl | h
      · exact .refl hF (fun state c => ⟨rfl, .refl state c⟩) _
      -- in front of the first part there is a closing, or the part itself
      · refine agree_peekToken h fun y c d facing => ?_
        dsimp only
        rw [Bool.and_false, if_neg Bool.false_ne_true, bracket.right_eq]
        by_cases mark : is y bracket.right = true
        · rw [if_pos mark]
          exact .skip_bind (.ok ⟨rfl, (closes facing mark).after outer⟩)
        · rw [if_neg mark]
          exact goesOn (Or.inr facing.beside)
  | true =>
      -- behind a part there must be a comma or a closing
      refine agree_past h hF (fun state c => ⟨rfl, .refl state c⟩) (fun y c d facing => ?_)
        fun b c d place noMark => ?_
      · dsimp only
        rw [Bool.and_true, bracket.right_eq]
        split
        · next mark =>
            exact .skip_bind (goesOn (Or.inr (facing.skip (is_other mark (by decide)))))
        by_cases mark : is y bracket.right = true
        · rw [if_pos mark]
          exact .skip_bind (.ok ⟨rfl, (closes facing mark).after outer⟩)
        · rw [if_neg mark]
          exact .failAhead _ facing.place
      · obtain ⟨-, noComma, noSquare, noBrace⟩ := noMark
        have noEnd : is b bracket.right = false := by
          cases bracket with
          | list => exact noSquare
          | object => exact noBrace
        dsimp only
        rw [noComma, bracket.right_eq, noEnd]
        exact .failAhead _ place

/-- Every step of passing over a value is taken alike. -/
theorem agree_skipStep (hF : ∀ c, F c c) {state : SkipState} (h : w.SkipAt (some state) c d) :
    Agree F w.Stepped (skipStep state c) (skipStep state d) := by
  cases state with
  | value opened => exact agree_skipStep_value hF h opened
  | inside bracket outer comma => exact agree_skipStep_inside hF h

/-- Two steps at once are taken alike. -/
theorem agree_skipTwice (hF : ∀ c, F c c) {state : SkipState} (h : w.SkipAt (some state) c d) :
    Agree F w.Stepped (skipTwice state c) (skipTwice state d) := by
  refine (agree_skipStep hF h).bind ?_
  rintro a _ c d ⟨rfl, at'⟩
  cases a with
  | none => exact .ok ⟨rfl, at'⟩
  | some state => exact agree_skipStep hF at'

/-- The fuel of the loop is how many bytes it has, whatever they are. -/
theorem skipFrom_congr {fuel fuel' : List UInt8} (h : fuel.length = fuel'.length) :
    skipFrom fuel = skipFrom fuel' := by
  induction fuel generalizing fuel' with
  | nil => rw [List.eq_nil_of_length_eq_zero h.symm]
  | cons b fuel ih =>
      cases fuel' with
      | nil => exact nomatch h
      | cons b' fuel' =>
          funext state
          rw [skipFrom, skipFrom, ih (Nat.succ.inj h)]

/-- The loop that passes over a value goes alike in both runs, by induction on its fuel. -/
theorem agree_skipFrom (hF : ∀ c, F c c) : ∀ (fuel : List UInt8) {state : SkipState}
    {c d : Cursor}, w.SkipAt (some state) c d →
      Agree F (fun _ _ => w.Past) (skipFrom fuel state c) (skipFrom fuel state d) := by
  intro fuel
  induction fuel with
  | nil => exact fun h => .failAhead _ h.open.skip_place
  | cons b fuel ih =>
      intro state c d h
      refine (agree_skipTwice hF h).bind ?_
      rintro a _ c d ⟨rfl, at'⟩
      cases a with
      | none => exact .ok at'
      | some state => exact ih at'

theorem Ready.length (h : w.Ready c d) : c.rest.length = d.rest.length := by
  rcases h with (rfl | ⟨x, p, rfl, rfl⟩) | ⟨p, rfl, rfl⟩
  · rfl
  · simp [w.same_ending.length]
  · simp [w.same_value.length]

/-- **VALUES THAT ARE PASSED OVER**: in both runs alike, with the string if it is in them. -/
theorem agree_skipValue (hF : ∀ c, F c c) (h : w.Ready c d) :
    Agree F (fun _ _ => w.Past) (skipValue c) (skipValue d) := by
  have start : w.SkipAt (some (.value [])) c d := h
  have fuel : skipFrom (0 :: c.rest) = skipFrom (0 :: d.rest) :=
    skipFrom_congr (congrArg Nat.succ h.length)
  show Agree F _ (skipFrom (0 :: c.rest) (.value []) c) (skipFrom (0 :: d.rest) (.value []) d)
  rw [fuel]
  exact agree_skipFrom hF _ start

end Varied

end Courier.Json
