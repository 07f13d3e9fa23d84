import Courier.Proofs.Json.Number
import Courier.Proofs.Json.Text

/-! # Two runs — readers that do not get beyond a quote

    Two texts that are the same up to some quote are read alike by whatever
    stops at that quote at the latest.  Outcomes AGREE when both are faults,
    and then the same one at the same place, or both are values that are
    related as their cursors are.  A reader is STEADY when it reads such texts
    alike and leaves the quote ahead; to take the quote and fail is allowed.

    Agreement is closed under sequencing, so most readers are steady because
    their parts are.  Where a byte was only looked at before it is passed
    over, that byte must not be the quote. -/

namespace Courier.Json

open Utf8 Reader

variable {α β : Type}

/-- The byte of a quote. -/
abbrev quote : UInt8 := ascii '"'

theorem eq_quote {b : UInt8} (h : is b '"' = true) : b = quote := by
  rw [quote, ← is_iff.mp h, ascii_octet]

/-- Cursors at one place with the same bytes ahead up to a quote, and `s` and `t` behind it. -/
def Beside (s t : List UInt8) (c d : Cursor) : Prop :=
  ∃ x p, c = ⟨x ++ quote :: s, p⟩ ∧ d = ⟨x ++ quote :: t, p⟩

/-- Cursors at one place with `s` and `t` ahead. -/
def Before (s t : List UInt8) (c d : Cursor) : Prop := ∃ p, c = ⟨s, p⟩ ∧ d = ⟨t, p⟩

theorem Before.place {s t : List UInt8} {c d : Cursor} (h : Before s t c d) :
    c.place = d.place := by
  obtain ⟨p, rfl, rfl⟩ := h
  rfl

theorem Beside.place {s t : List UInt8} {c d : Cursor} (h : Beside s t c d) :
    c.place = d.place := by
  obtain ⟨x, p, rfl, rfl⟩ := h
  rfl

/-- One byte further, cursors beside two texts still stand at one place. -/
theorem Beside.skip_place {s t : List UInt8} {c d : Cursor} (h : Beside s t c d) :
    c.skip.place = d.skip.place := by
  obtain ⟨x, p, rfl, rfl⟩ := h
  cases x with
  | nil => rfl
  | cons b x => rfl

/-- Outcomes of two runs: values and cursors related by `Q`, or one fault, with cursors related by
    `F` where it has no place yet. -/
inductive Agree (F : Cursor → Cursor → Prop) (Q : α → α → Cursor → Cursor → Prop) :
    Except Fault α × Cursor → Except Fault α × Cursor → Prop where
  | ok {a b : α} {c d : Cursor} (h : Q a b c d) : Agree F Q (.ok a, c) (.ok b, d)
  | fault {fault : Fault} {c d : Cursor} (h : fault.place = none → F c d) :
      Agree F Q (.error fault, c) (.error fault, d)

namespace Agree

variable {F F' : Cursor → Cursor → Prop} {Q : α → α → Cursor → Cursor → Prop}
variable {Q' : β → β → Cursor → Cursor → Prop}

/-- Outcomes that agree one way agree every way that follows from it. -/
theorem mono {o o' : Except Fault α × Cursor} (h : Agree F Q o o')
    {P : α → α → Cursor → Cursor → Prop} (imp : ∀ a b c d, Q a b c d → P a b c d) :
    Agree F P o o' := by
  cases h with
  | ok h => exact .ok (imp _ _ _ _ h)
  | fault h => exact .fault h

/-- What came of both runs, wherever their cursors are. -/
theorem result {R : α → α → Prop} {o o' : Except Fault α × Cursor}
    (h : Agree F (fun a b _ _ => R a b) o o') : (∃ a b, o.1 = .ok a ∧ o'.1 = .ok b ∧ R a b) ∨
      ∃ fault, o.1 = .error fault ∧ o'.1 = .error fault := by
  cases h with
  | ok h => exact Or.inl ⟨_, _, rfl, rfl, h⟩
  | fault h => exact Or.inr ⟨_, rfl, rfl⟩

/-- One run agrees with itself. -/
theorem refl (hF : ∀ c, F c c) (hQ : ∀ a c, Q a a c c) (o : Except Fault α × Cursor) :
    Agree F Q o o := by
  obtain ⟨result, c⟩ := o
  cases result with
  | ok a => exact .ok (hQ a c)
  | error fault => exact .fault fun _ => hF c

/-- Runs in sequence agree where the first readers agree and so does what follows them. -/
theorem bind {r r' : Reader α} {f f' : α → Reader β} {c d : Cursor}
    (first : Agree F Q (r c) (r' d))
    (next : ∀ a b c d, Q a b c d → Agree F Q' (f a c) (f' b d)) :
    Agree F Q' ((r >>= f) c) ((r' >>= f') d) := by
  rcases left : r c with ⟨result, c'⟩
  rcases right : r' d with ⟨result', d'⟩
  rw [left, right] at first
  cases first with
  | ok h =>
      rw [bind_of_ok f left, bind_of_ok f' right]
      exact next _ _ _ _ h
  | fault h =>
      simp only [Bind.bind, left, right]
      exact .fault h

/-- The same fault at one place is the same outcome. -/
theorem fail (cause : Cause) {c d : Cursor} (same : c.place = d.place) :
    Agree F Q (Reader.fail cause c) (Reader.fail cause d) := by
  rw [Reader.fail, Reader.fail, same]
  exact .fault nofun

/-- The same fault at the byte ahead is the same outcome where the next places are one. -/
theorem failAhead (cause : Cause) {c d : Cursor} (same : c.skip.place = d.skip.place) :
    Agree F Q (Reader.failAhead cause c) (Reader.failAhead cause d) := by
  rw [Reader.failAhead, Reader.failAhead, same]
  exact .fault nofun

/-- A fault leaves nothing for what is behind it. -/
theorem failAhead_bind (cause : Cause) {f f' : α → Reader β} {c d : Cursor}
    (same : c.skip.place = d.skip.place) :
    Agree F Q' ((Reader.failAhead cause >>= f) c) ((Reader.failAhead cause >>= f') d) :=
  bind (failAhead cause same) (fun _ _ _ _ h => (h : False).elim)

theorem skip_bind {f f' : Unit → Reader α} {c d : Cursor}
    (next : Agree F Q (f () c.skip) (f' () d.skip)) :
    Agree F Q ((Reader.skip >>= f) c) ((Reader.skip >>= f') d) := next

/-- A fault that gets its place here needs no more than the same place. -/
theorem placed {r r' : Reader α} {c d : Cursor}
    (h : Agree (fun c d => c.place = d.place) Q (r c) (r' d)) :
    Agree F Q (r.placed c) (r'.placed d) := by
  rcases left : r c with ⟨result, c'⟩
  rcases right : r' d with ⟨result', d'⟩
  rw [left, right] at h
  rw [Reader.placed, Reader.placed, left, right]
  cases h with
  | ok h => exact .ok h
  | @fault fault _ _ h =>
      obtain ⟨cause, place⟩ := fault
      cases place with
      | none =>
          dsimp only
          rw [h rfl]
          exact .fault fun none => absurd none (Option.some_ne_none _)
      | some place => exact .fault fun none => absurd none (Option.some_ne_none _)

end Agree

/-! ## Steady readers -/

/-- Bytes with the same line breaks, so that places behind them are the same. -/
def SameLines (s t : List UInt8) : Prop := s.map (· == 10) = t.map (· == 10)

theorem SameLines.length {s t : List UInt8} (h : SameLines s t) : s.length = t.length := by
  simpa only [List.length_map] using congrArg List.length h

/-- Line breaks are compared part by part. -/
theorem SameLines.append {s t s' t' : List UInt8} (h : SameLines s t) (h' : SameLines s' t') :
    SameLines (s ++ s') (t ++ t') := by
  rw [SameLines, List.map_append, List.map_append, h, h']

/-- The same bytes in front keep the line breaks the same. -/
theorem SameLines.front {s t : List UInt8} (h : SameLines s t) (x : List UInt8) :
    SameLines (x ++ s) (x ++ t) := SameLines.append rfl h

/-- Two bytes that are both a line break, or both none, lead to one place. -/
theorem Place.after_same {b d : UInt8} (h : (b == 10) = (d == 10)) (p : Place) :
    p.after b = p.after d := by
  have breaks : b = 10 ↔ d = 10 := by rw [← beq_iff_eq, h, beq_iff_eq]
  simp only [Place.after, breaks]

/-- Bytes with the same line breaks lead from one place to one place. -/
theorem SameLines.foldl_after {s t : List UInt8} (h : SameLines s t) (p : Place) :
    s.foldl Place.after p = t.foldl Place.after p := by
  induction s generalizing t p with
  | nil =>
      rw [List.eq_nil_of_length_eq_zero h.length.symm]
  | cons b s ih =>
      cases t with
      | nil => exact nomatch h.length
      | cons d t =>
          obtain ⟨first, others⟩ := List.cons.inj h
          rw [List.foldl_cons, List.foldl_cons, Place.after_same first, ih others]

/-- The same value, with the quote still ahead. -/
def Level (s t : List UInt8) (a b : α) (c d : Cursor) : Prop := a = b ∧ Beside s t c d

/-- Reads texts alike that are the same up to a quote, and leaves the quote ahead. -/
def Reader.Steady (r : Reader α) : Prop :=
  ∀ (F : Cursor → Cursor → Prop) (s t : List UInt8), SameLines s t → ∀ x p,
    Agree F (Level s t) (r ⟨x ++ quote :: s, p⟩) (r ⟨x ++ quote :: t, p⟩)

/-- Is steady where `b` is ahead, and the quote behind it. -/
def Reader.SteadyFrom (b : UInt8) (r : Reader α) : Prop :=
  ∀ (F : Cursor → Cursor → Prop) (s t : List UInt8), SameLines s t → ∀ x p,
    Agree F (Level s t) (r ⟨b :: (x ++ quote :: s), p⟩) (r ⟨b :: (x ++ quote :: t), p⟩)

section Steady

variable {r : Reader α} {f : α → Reader β}

theorem steady_pure (a : α) : (pure a : Reader α).Steady := fun _ _ _ _ x p =>
  .ok ⟨rfl, x, p, rfl, rfl⟩

theorem steady_fail (cause : Cause) : (fail cause : Reader α).Steady := fun _ _ _ _ _ _ =>
  .fail cause rfl

theorem steady_failAhead (cause : Cause) : (failAhead cause : Reader α).Steady := by
  intro F s t same x p
  cases x with
  | nil => exact .failAhead cause rfl
  | cons b x => exact .failAhead cause rfl

theorem Reader.Steady.from (h : r.Steady) (b : UInt8) : r.SteadyFrom b :=
  fun F s t same x p => h F s t same (b :: x) p

theorem Reader.Steady.bind (h : r.Steady) (next : ∀ a, (f a).Steady) : (r >>= f).Steady := by
  intro F s t same x p
  refine (h F s t same x p).bind ?_
  rintro a _ _ _ ⟨rfl, y, q, rfl, rfl⟩
  exact next a F s t same y q

/-- A byte that is passed over has to be ahead of the quote. -/
theorem steadyFrom_skip {f : Unit → Reader α} (b : UInt8) (h : (f ()).Steady) :
    (Reader.skip >>= f).SteadyFrom b :=
  fun F s t same x p => h F s t same x (p.after b)

/-- What is looked at is the quote, or a byte ahead of it. -/
theorem steady_peek {f : Option UInt8 → Reader α}
    (h : ∀ b, is b '"' = false → (f (some b)).SteadyFrom b) (last : (f (some quote)).Steady) :
    (Reader.peek >>= f).Steady := by
  intro F s t same x p
  cases x with
  | nil => exact last F s t same [] p
  | cons b x =>
      by_cases mark : is b '"' = true
      · obtain rfl := eq_quote mark
        exact last F s t same (quote :: x) p
      · exact h b (Bool.eq_false_iff.mpr mark) F s t same x p

/-- Taking the quote itself has to be a fault. -/
theorem steady_take {f : Option UInt8 → Reader α} (h : ∀ b, (f (some b)).Steady)
    (cause : Cause) (last : f (some quote) = fail cause) : (Reader.take >>= f).Steady := by
  intro F s t same x p
  cases x with
  | nil =>
      show Agree F _ (f (some quote) ⟨s, _⟩) (f (some quote) ⟨t, _⟩)
      rw [last]
      exact .fail cause rfl
  | cons b x => exact h b F s t same x (p.after b)

/-- Passing over bytes ends at the quote, where the quote is not one of them. -/
theorem takeWhile_quote {p : UInt8 → Bool} (stop : p quote = false) (x s : List UInt8) :
    (x ++ quote :: s).takeWhile p = x.takeWhile p ∧
      (x ++ quote :: s).dropWhile p = x.dropWhile p ++ quote :: s := by
  induction x with
  | nil => simp [stop]
  | cons b x ih =>
      rw [List.cons_append, List.takeWhile_cons, List.dropWhile_cons, List.takeWhile_cons,
        List.dropWhile_cons, ih.1, ih.2]
      constructor
      · rfl
      · split
        · rfl
        · rfl

theorem steady_skipWhile {p : UInt8 → Bool} (stop : p quote = false) :
    (Reader.skipWhile p).Steady := by
  intro F s t _ x place
  obtain ⟨taken, left⟩ := takeWhile_quote stop x s
  obtain ⟨taken', left'⟩ := takeWhile_quote stop x t
  rw [Reader.skipWhile, Reader.skipWhile, Cursor.skipWhile, Cursor.skipWhile, taken, taken', left,
    left']
  exact .ok ⟨rfl, _, _, rfl, rfl⟩

end Steady

/-! ## Words and numbers -/

theorem steady_word {cs : List Char} (h : '"' ∉ cs) : (word cs).Steady := by
  induction cs with
  | nil => exact steady_pure ()
  | cons c cs ih =>
      obtain ⟨ne, others⟩ := not_or.mp (mt List.mem_cons.mpr h)
      refine steady_take (fun b => ?_) .wantWord ?_
      · dsimp only
        split
        · exact ih others
        · exact steady_fail _
      · dsimp only
        rw [is_ascii_of_ne (by decide) ne, if_neg Bool.false_ne_true]

/-- Digits end at the quote, and where one is left it is ahead of the quote. -/
theorem gather_quote (limit : Nat) (x s t : List UInt8) : ∀ count value : Nat,
    gather limit count value (x ++ quote :: s) = gather limit count value (x ++ quote :: t) ∧
      (gather limit count value (x ++ quote :: s)).1 ≤ count + x.length ∧
      ((gather limit count value (x ++ quote :: s)).2.2 = true →
        (gather limit count value (x ++ quote :: s)).1 < count + x.length) := by
  have stop : isDigit quote = false := by decide
  induction x with
  | nil =>
      intro count value
      simp [gather, stop]
  | cons b x ih =>
      intro count value
      rw [List.cons_append, List.cons_append, gather, gather, List.length_cons]
      split
      · split
        · obtain ⟨same, few, fewer⟩ := ih (count + 1) (value * 10 + digitValue b)
          exact ⟨same, by omega, fun more => by have := fewer more; omega⟩
        · exact ⟨rfl, Nat.le_add_right _ _, fun _ => Nat.lt_add_of_pos_right (Nat.succ_pos _)⟩
      · exact ⟨rfl, Nat.le_add_right _ _, fun more => absurd more Bool.false_ne_true⟩

/-- As many bytes as there are steps are skipped alike before the quote. -/
theorem foldl_skip_quote {ι : Type} (steps : List ι) (s t : List UInt8) :
    ∀ (x : List UInt8) (p : Place), steps.length ≤ x.length → ∃ q,
      steps.foldl (fun c _ => Cursor.skip c) ⟨x ++ quote :: s, p⟩
        = Cursor.mk (x.drop steps.length ++ quote :: s) q ∧
      steps.foldl (fun c _ => Cursor.skip c) ⟨x ++ quote :: t, p⟩
        = Cursor.mk (x.drop steps.length ++ quote :: t) q := by
  induction steps with
  | nil => exact fun x p _ => ⟨p, rfl, rfl⟩
  | cons step steps ih =>
      intro x p few
      cases x with
      | nil => exact absurd few (Nat.not_succ_le_zero _)
      | cons b x => exact ih x (p.after b) (Nat.le_of_succ_le_succ few)

/-- Behind digits the rest is steady, from the digit on that is left if there is one. -/
theorem steady_gatherDigits {limit value : Nat} {f : Nat × Nat × Bool → Reader α}
    (all : ∀ count digits, (f (count, digits, false)).Steady)
    (some : ∀ count digits b, (f (count, digits, true)).SteadyFrom b) :
    (gatherDigits limit value >>= f).Steady := by
  intro F s t same x p
  obtain ⟨alike, few, fewer⟩ := gather_quote limit x s t 0 value
  rw [Nat.zero_add] at few fewer
  obtain ⟨q, left, right⟩ := foldl_skip_quote
    (List.range (gather limit 0 value (x ++ quote :: s)).1) s t x p (by rwa [List.length_range])
  have unfolded (s' : List UInt8) : (gatherDigits limit value >>= f) ⟨x ++ quote :: s', p⟩
      = f (gather limit 0 value (x ++ quote :: s')) ((List.range (gather limit 0 value
          (x ++ quote :: s')).1).foldl (fun c _ => c.skip) ⟨x ++ quote :: s', p⟩) := rfl
  rw [unfolded, unfolded, ← alike, left, right, List.length_range]
  rcases found : gather limit 0 value (x ++ quote :: s) with ⟨count, digits, more⟩
  rw [found] at fewer
  -- where the digits stop early, the byte they stop at stands before the quote
  cases more with
  | false => exact all count digits F s t same _ q
  | true =>
      cases rest : x.drop count with
      | nil =>
          have done := List.drop_eq_nil_iff.mp rest
          exact absurd (fewer rfl) (Nat.not_lt.mpr done)
      | cons b y => exact some count digits b F s t same y q

/-- Putting a number together from its parts is steady. -/
theorem steady_assemble (positive : Bool) (digits : Nat) (power : Int) :
    (assemble positive digits power).Steady := by
  unfold assemble
  dsimp only
  split
  · cases grow? (.ofNat digits) power.toNat with
    | none => exact steady_fail _
    | some size => exact steady_pure _
  · exact steady_pure _

/-- Reading the digits of an exponent is steady. -/
theorem steady_readPower (positive : Bool) (digits : Nat) (start : Int) (up : Bool) :
    (readPower positive digits start up).Steady := by
  refine steady_take (fun b => ?_) .badNumber rfl
  dsimp only
  split
  · refine steady_gatherDigits (fun count power => steady_assemble _ _ _) fun count power b => ?_
    refine steadyFrom_skip b ?_
    split
    · exact steady_fail _
    · exact (steady_skipWhile (by decide)).bind fun _ => steady_pure _
  · exact steady_fail _

/-- Reading an exponent is steady behind its letter. -/
theorem steady_readExponent (positive : Bool) (digits : Nat) (start : Int) (b : UInt8) :
    (readExponent positive digits start).SteadyFrom b := by
  have power := steady_readPower positive digits start
  refine steadyFrom_skip b (steady_peek (fun b _ => ?_) (power true))
  dsimp only
  split
  · exact steadyFrom_skip b (power true)
  · split
    · exact steadyFrom_skip b (power false)
    · exact (power true).from b

/-- The mark of an exponent is ahead of the quote. -/
theorem steady_exponentAhead {f : Bool → Reader α} (some : ∀ b, (f true).SteadyFrom b)
    (none : (f false).Steady) : (exponentAhead >>= f).Steady := by
  intro F s t same x p
  cases x with
  | nil => exact none F s t same [] p
  | cons b x =>
      show Agree F _ (f (is b 'e' || is b 'E') ⟨b :: (x ++ quote :: s), p⟩)
        (f (is b 'e' || is b 'E') ⟨b :: (x ++ quote :: t), p⟩)
      cases is b 'e' || is b 'E' with
      | false => exact none.from b F s t same x p
      | true => exact some b F s t same x p

/-- Reading the digits behind the point is steady. -/
theorem steady_readScale (positive : Bool) (digits : Nat) (start : Int) (count : Nat)
    (more : Bool) : (readScale positive digits start count more).Steady := by
  unfold readScale
  split
  · exact steady_peek (fun b _ => (steady_failAhead _).from b) (steady_failAhead _)
  · exact steady_exponentAhead (fun b => steady_readExponent _ _ _ b) (steady_assemble _ _ _)

/-- Reading a fraction is steady behind its point. -/
theorem steady_readFraction (positive : Bool) (digits : Nat) (start : Int) (b : UInt8) :
    (readFraction positive digits start).SteadyFrom b := by
  refine steadyFrom_skip b ?_
  have scale := steady_readScale positive
  refine steady_gatherDigits (fun count digits => scale digits start count false)
    fun count digits b => Reader.Steady.from ?_ b
  exact (steady_skipWhile (by decide)).bind fun _ => scale digits start count true

/-- Reading what may follow the digits of a number is steady where the whole number is. -/
theorem steady_readTail (positive : Bool) (digits : Nat) (power : Int) {whole : Reader Number}
    (h : whole.Steady) : (readTail positive digits power whole).Steady := by
  refine steady_peek (fun b _ => ?_) h
  dsimp only
  split
  · exact steady_readFraction _ _ _ b
  · split
    · exact steady_readExponent _ _ _ b
    · exact h.from b

theorem steady_readNumber (positive : Bool) : (readNumber positive).Steady := by
  refine steady_take (fun b => ?_) .badNumber rfl
  dsimp only
  split
  · have tail := steady_readTail positive 0 0 (steady_pure (wholeNumber positive 0))
    refine steady_peek (fun b _ => ?_) tail
    dsimp only
    split
    · exact (steady_failAhead _).from b
    · exact tail.from b
  · split
    · refine steady_gatherDigits (fun count digits => ?_) fun count digits b => Reader.Steady.from ?_ b
      · exact steady_readTail _ _ _ (steady_pure _)
      · exact (steady_skipWhile (by decide)).bind fun extra =>
          steady_readTail _ _ _ (steady_assemble _ _ _)
    · exact steady_fail _

theorem steadyFrom_skipExponent (b : UInt8) : skipExponent.SteadyFrom b := by
  refine steadyFrom_skip b ?_
  have power : skipPower.Steady := by
    refine steady_take (fun b => ?_) .badNumber rfl
    dsimp only
    split
    · exact (steady_skipWhile (by decide)).bind fun _ => steady_pure _
    · exact steady_fail _
  refine steady_peek (fun b _ => ?_) power
  dsimp only
  split
  · exact steadyFrom_skip b power
  · exact power.from b

theorem steadyFrom_skipFraction (b : UInt8) : skipFraction.SteadyFrom b := by
  refine steadyFrom_skip b ((steady_skipWhile (by decide)).bind fun count => ?_)
  split
  · exact steady_failAhead _
  · exact steady_exponentAhead steadyFrom_skipExponent (steady_pure _)

theorem steady_skipTail : skipTail.Steady := by
  refine steady_peek (fun b _ => ?_) (steady_pure _)
  dsimp only
  split
  · exact steadyFrom_skipFraction b
  · split
    · exact steadyFrom_skipExponent b
    · exact (steady_pure _).from b

theorem steady_skipNumber : skipNumber.Steady := by
  refine steady_take (fun b => ?_) .badNumber rfl
  dsimp only
  split
  · refine steady_peek (fun b _ => ?_) steady_skipTail
    dsimp only
    split
    · exact (steady_failAhead _).from b
    · exact steady_skipTail.from b
  · split
    · exact (steady_skipWhile (by decide)).bind fun _ => steady_skipTail
    · exact steady_fail _

end Courier.Json
