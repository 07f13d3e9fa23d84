import Courier.Proofs.Json.Bracket
import Courier.Proofs.Json.SkipSound

/-! # Readers of exactly one form — records of any bytes

    A reader is EXACT for a form when it reads that form and nothing else:
    it succeeds on all the bytes of the form behind white space, and where it
    succeeds it has taken such bytes.  Forms are of characters that stand for
    single bytes, as a value that is passed over need not be UTF-8.

    A record is read exactly where its fields are.  Its members fill it one
    after another, and `Layout.Fills` says which sequences of members do, and
    with what; the two directions of the proof then follow the loop. -/

namespace Courier.Json

open Utf8 Reader Cursor

variable {α β : Type}

/-! ## Tokens -/

/-- A string, and the bytes of the ways to write it between quotes. -/
def TextBytes (s : String) (cs : List Char) : Prop := ∃ form, TextForm s form ∧ cs = widened form

/-- Reads one form behind white space, all of it and nothing but it. -/
structure Reader.Exact (r : Reader α) (Form : α → List Char → Prop) : Prop where
  sound : ∀ {c d a}, r c = (.ok a, d) →
    ∃ ws cs, IsSpacing ws ∧ Form a cs ∧ c.Spans (ws ++ cs) d
  complete : ∀ {a cs}, Form a cs → ∀ {ws}, IsSpacing ws → r.TakesBefore (narrows (ws ++ cs)) a
  head : ∀ {a cs}, Form a cs → ∃ x xs, cs = x :: xs ∧ x.toNat < 0x80 ∧
    isSpace (ascii x) = false ∧ is (ascii x) ']' = false

/-- What an exact reader can read begins an item. -/
theorem Reader.Exact.beginsItem {r : Reader α} {Form : α → List Char → Prop} (h : r.Exact Form)
    {a : α} {cs : List Char} (form : Form a cs) : BeginsItem (narrows cs) := by
  obtain ⟨x, xs, rfl, small, noSpace, noEnd⟩ := h.head form
  exact ⟨ascii x, narrows xs, narrows_ascii small xs, noSpace, noEnd⟩

theorem TextBytes.head {s : String} {cs : List Char} (h : TextBytes s cs) :
    ∃ xs, cs = '"' :: xs := by
  obtain ⟨form, ⟨body, -, rfl⟩, rfl⟩ := h
  exact ⟨_, widened_ascii (by decide) _⟩

theorem narrows_widened (cs : List Char) : narrows (widened cs) = encode cs := narrows_octets _

theorem exact_text : text.Exact TextBytes where
  sound h := by
    obtain ⟨ws, form, space, isText, spans⟩ := text_sound h
    exact ⟨ws, _, space, ⟨form, isText, rfl⟩, spans⟩
  complete h ws space := by
    obtain ⟨form, isText, rfl⟩ := h
    rw [narrows_append, narrows_widened, space.narrows, ← encode_append]
    exact (takes_text space isText).before
  head h := by
    obtain ⟨xs, rfl⟩ := h.head
    exact ⟨_, xs, rfl, by decide, by decide, by decide⟩

theorem exact_word64 : word64.Exact WordForm where
  sound h := word64_sound h
  complete {n cs} h ws space := by
    obtain ⟨whole, value⟩ := h
    have range := n.toNat_lt
    have small : ∀ c ∈ ws ++ cs, c.toNat < 0x80 :=
      List.forall_mem_append.mpr ⟨fun c mem => (space.byte mem).1, whole.small⟩
    rw [narrows_eq_encode small]
    refine takes_wholeBy_whole "u64" whole ?_ (by rw [value, wordLimit]; omega) space
    rw [value, if_pos (by omega), Int.toNat_natCast, UInt64.ofNat_toNat]
  head h := by
    obtain ⟨c, rest, rfl, first⟩ := h.1.head
    obtain ⟨noSpace, -, -, -, -, noList, -⟩ := token_of_isDigit first
    exact ⟨c, rest, rfl, (byte_of_isDigit first).1, noSpace, noList⟩

/-- What a reader gives may be put to use. -/
theorem Reader.Exact.map {r : Reader α} {Form : α → List Char → Prop} (h : r.Exact Form)
    (f : α → β) : (do let a ← r; pure (f a)).Exact fun b cs => ∃ a, Form a cs ∧ b = f a where
  sound read := by
    obtain ⟨a, e, first, last⟩ := bind_eq_ok.mp read
    obtain ⟨rfl, rfl⟩ := pure_eq_ok.mp last
    obtain ⟨ws, cs, space, form, spans⟩ := h.sound first
    exact ⟨ws, cs, space, ⟨a, form, rfl⟩, spans⟩
  complete form ws space := by
    obtain ⟨a, form, rfl⟩ := form
    exact (h.complete form space).map f
  head form := by
    obtain ⟨a, form, -⟩ := form
    exact h.head form

/-! ## Records -/

section Records

variable {σ : Type} (l : Layout σ) (Form : String → (σ → σ) → List Char → Prop)

/-- Members, each with its name as it is read, that fill a record from where it stands, with the
    names that were seen: what is the record's own is stored once, what is not is any value. -/
inductive Layout.Fills : List String → σ → List (String × Pair) → σ → Prop where
  | done {seen : List String} {record : σ} (complete : l.firstMissing? seen = none) :
      Fills seen record [] record
  | added {seen : List String} {record a : σ} {name : String} {pair : Pair}
      {entries : List (String × Pair)} (unknown : name ∉ l.fields.map Member.name)
      (value : IsValue pair.value.core) (rest : Fills seen record entries a) :
      Fills seen record ((name, pair) :: entries) a
  | stored {seen : List String} {record a : σ} {name : String} {pair : Pair}
      {entries : List (String × Pair)} {store : σ → σ} (own : name ∈ l.fields.map Member.name)
      (fresh : name ∉ seen) (value : Form name store pair.value.core)
      (rest : Fills (name :: seen) (store record) entries a) :
      Fills seen record ((name, pair) :: entries) a

/-- Items that are stored in the fields that are left, in their order; what is cut off may be. -/
inductive Layout.Places : List (Member σ) → σ → List Spaced → σ → Prop where
  | done {fields : List (Member σ)} {record : σ}
      (optional : ∀ field ∈ fields, field.optional = true) : Places fields record [] record
  | stored {field : Member σ} {fields : List (Member σ)} {record a : σ} {item : Spaced}
      {items : List Spaced} {store : σ → σ} (value : Form field.name store item.core)
      (rest : Places fields (store record) items a) :
      Places (field :: fields) record (item :: items) a

/-- A member as it is written: the white space, and the name. -/
def IsNamed (entry : String × Pair) : Prop :=
  entry.2.IsSpaced ∧ TextBytes entry.1 entry.2.name.core

/-- The bytes that are a record: an object whose members fill it, or a list of its fields. -/
inductive Layout.Written : σ → List Char → Prop where
  | object {a : σ} {gap : List Char} {entries : List (String × Pair)} (space : IsSpacing gap)
      (named : ∀ entry ∈ entries, IsNamed entry) (fills : l.Fills Form [] l.blank entries a) :
      Written a (bracketed '\x7b' '\x7d' gap (entries.map fun entry => entry.2.chars))
  | list {a : σ} {gap : List Char} {items : List Spaced} (space : IsSpacing gap)
      (spaced : ∀ item ∈ items, item.IsSpaced) (places : Layout.Places Form l.fields l.blank items a) :
      Written a (bracketed '[' ']' gap (items.map Spaced.chars))

variable {l Form}

/-! ## What is read is written so -/

section Sound

/-- A byte that is a mark is no white space where the mark is none. -/
theorem isSpace_of_is {b : UInt8} {x : Char} (mark : is b x = true)
    (h : isSpace (ascii x) = false) : isSpace b = false := by
  rwa [← ascii_octet b, is_iff.mp mark]

/-- A member is ahead behind white space, or the end of the object. -/
theorem moreMembers_first_sound {c d : Cursor} {more : Bool}
    (h : moreMembers true c = (.ok more, d)) : ∃ ws b bs p, IsSpacing ws ∧ c.Spans ws d ∧
      d = ⟨b :: bs, p⟩ ∧ is b (if more then '"' else '\x7d') = true := by
  obtain ⟨ws, b, bs, p, space, front, -, h⟩ := of_token h fun _ => ⟨_, rfl⟩
  dsimp only at h
  split at h
  · next mark =>
      cases h
      exact ⟨ws, b, bs, p, space, front, rfl, mark⟩
  · rw [Bool.not_true, Bool.and_false, if_neg Bool.false_ne_true, if_pos rfl] at h
    split at h
    · next mark =>
        cases h
        exact ⟨ws, b, bs, p, space, front, rfl, mark⟩
    · exact nomatch h

/-- Behind a member stands a comma and another one, or the end. -/
theorem moreMembers_later_sound {c d : Cursor} {more : Bool}
    (h : moreMembers false c = (.ok more, d)) : ∃ after b bs p, IsSpacing after ∧
      d = ⟨b :: bs, p⟩ ∧ is b (if more then '"' else '\x7d') = true ∧
      ∃ before, IsSpacing before ∧
        c.Spans (if more then after ++ ',' :: before else after) d := by
  obtain ⟨after, b, bs, p, space, front, -, h⟩ := of_token h fun _ => ⟨_, rfl⟩
  dsimp only at h
  split at h
  · next mark =>
      cases h
      exact ⟨after, b, bs, p, space, rfl, mark, [], isSpacing_nil, front⟩
  rw [Bool.not_false, Bool.and_true, if_neg Bool.false_ne_true] at h
  split at h
  -- a comma is no member yet: a quote must follow it
  · next comma =>
      rw [bind_of_ok _ (skip_cons _ _ _)] at h
      obtain ⟨before, b', bs', q, space', back, -, h⟩ := of_token h fun _ => ⟨_, rfl⟩
      dsimp only at h
      split at h
      · next mark =>
          cases h
          exact ⟨after, b', bs', q, space, rfl, mark, before, space',
            front.trans ((spans_is comma bs p _).trans back)⟩
      · split at h
        · exact nomatch h
        · exact nomatch h
  · exact nomatch h

/-- A member's name was written as a string that spells it. -/
theorem memberName_sound {b : UInt8} (quote : is b '"' = true) {bs : List UInt8} {p : Place}
    {d : Cursor} {name : String} (h : memberName ⟨b :: bs, p⟩ = (.ok name, d)) :
    ∃ cs, TextBytes name cs ∧ Spans ⟨b :: bs, p⟩ cs d := by
  rw [memberName, bind_of_ok _ (skip_cons _ _ _)] at h
  obtain ⟨form, isText, spans⟩ := textForm_of_readText quote (q := p) h
  exact ⟨_, ⟨form, isText, rfl⟩, spans⟩

/-- A field that was found has the name, and its name is one of the record's. -/
theorem Layout.of_find {name : String} {field : Member σ}
    (found : (l.fields.find? fun f => f.name == name) = some field) :
    field ∈ l.fields ∧ field.name = name ∧ name ∈ l.fields.map Member.name := by
  have listed := List.mem_of_find?_eq_some found
  have same := List.find?_some (p := fun f : Member σ => f.name == name) found
  rw [beq_iff_eq] at same
  exact ⟨listed, same, by rw [← same]; exact List.mem_map_of_mem listed⟩

/-- A name that no field has is unknown to the layout. -/
theorem Layout.of_find_none {name : String}
    (missed : (l.fields.find? fun f => f.name == name) = none) :
    name ∉ l.fields.map Member.name := by
  intro own
  obtain ⟨field, listed, same⟩ := List.mem_map.mp own
  exact List.find?_eq_none.mp missed field listed (beq_iff_eq.mpr same)

/-- Without a member ahead the record is complete; with one, it is filled with that one first. -/
theorem members_cons_sound (fields : ∀ f ∈ l.fields, f.read.Exact (Form f.name)) {x : UInt8}
    {fuel : List UInt8} {first : Bool} {seen : List String} {record a : σ} {c d : Cursor}
    (h : l.members (x :: fuel) first seen record c = (.ok a, d)) :
    (moreMembers first c = (.ok false, d) ∧ l.firstMissing? seen = none ∧ a = record) ∨
    ∃ e, moreMembers first c = (.ok true, e) ∧
      ∀ b bs p, e = ⟨b :: bs, p⟩ → is b '"' = true →
        ∃ name core after before value seen' record' f, TextBytes name core ∧ IsSpacing after ∧
          IsSpacing before ∧ e.Spans (core ++ (after ++ ':' :: (before ++ value))) f ∧
          l.members fuel false seen' record' f = (.ok a, d) ∧
          ∀ front behind entries, l.Fills Form seen' record' entries a →
            l.Fills Form seen record
              ((name, ⟨⟨front, core, after⟩, ⟨before, value, behind⟩⟩) :: entries) a := by
  obtain ⟨more, e, ahead, h⟩ := bind_eq_ok.mp h
  cases more with
  | false =>
      rw [if_neg Bool.false_ne_true] at h
      cases complete : l.firstMissing? seen with
      | some name =>
          rw [complete] at h
          exact nomatch h
      | none =>
          rw [complete] at h
          obtain ⟨rfl, rfl⟩ := pure_eq_ok.mp h
          exact Or.inl ⟨ahead, rfl, rfl⟩
  | true =>
      rw [if_pos rfl] at h
      refine Or.inr ⟨e, ahead, fun b bs p same quote => ?_⟩
      subst same
      obtain ⟨name, e₁, named, h⟩ := bind_eq_ok.mp h
      obtain ⟨core, isName, front⟩ := memberName_sound quote named
      -- what has a field's name is stored, once; whatever else it is, it is passed over
      cases found : l.fields.find? fun f => f.name == name with
      | none =>
          rw [found] at h
          obtain ⟨_, e₂, parted, h⟩ := bind_eq_ok.mp h
          obtain ⟨_, e₃, skipped, h⟩ := bind_eq_ok.mp h
          obtain ⟨after, behind, middle⟩ := colon_sound parted
          obtain ⟨before, value, space, isValue, back⟩ := skipValue_sound skipped
          refine ⟨name, core, after, before, value, seen, record, e₃, isName, behind, space, ?_, h,
            fun _ _ _ => .added (Layout.of_find_none found) isValue⟩
          have spans := front.trans (middle.trans back)
          rwa [List.append_assoc] at spans
      | some field =>
          rw [found] at h
          dsimp only at h
          split at h
          · exact nomatch h
          · next fresh =>
              obtain ⟨_, e₂, parted, h⟩ := bind_eq_ok.mp h
              obtain ⟨store, e₃, read, h⟩ := bind_eq_ok.mp h
              obtain ⟨listed, same, own⟩ := Layout.of_find found
              obtain ⟨after, behind, middle⟩ := colon_sound parted
              obtain ⟨before, value, space, form, back⟩ := (fields field listed).sound read
              rw [same] at form
              refine ⟨name, core, after, before, value, name :: seen, store record, e₃, isName,
                behind, space, ?_, h, fun _ _ _ => .stored own ?_ form⟩
              · have spans := front.trans (middle.trans back)
                rwa [List.append_assoc] at spans
              · exact fun seen => fresh (List.contains_iff_mem.mpr seen)

/-- The members behind the first, each with its comma, up to the end of the object. -/
theorem members_later_sound (fields : ∀ f ∈ l.fields, f.read.Exact (Form f.name))
    {fuel : List UInt8} {seen : List String} {record a : σ} {c d : Cursor}
    (h : l.members fuel false seen record c = (.ok a, d)) :
    ∃ after entries, IsSpacing after ∧ (∀ entry ∈ entries, IsNamed entry) ∧
      l.Fills Form seen record entries a ∧
      c.Spans (after ++ (entries.map fun entry => entry.2.chars).flatMap (',' :: ·)) d ∧
      ∃ b bs p, d = ⟨b :: bs, p⟩ ∧ is b '\x7d' = true := by
  -- on the fuel, one member with its comma a round; the record filled so far goes along
  induction fuel generalizing seen record c with
  | nil => exact nomatch h
  | cons x fuel ih =>
      rcases members_cons_sound fields h with ⟨ahead, complete, rfl⟩ | ⟨e, ahead, member⟩
      · obtain ⟨after, b, bs, p, space, rfl, mark, _, _, front⟩ := moreMembers_later_sound ahead
        refine ⟨after, [], space, (fun _ mem => nomatch mem), .done complete, ?_, b, bs, p, rfl,
          mark⟩
        rw [List.map_nil, List.flatMap_nil, List.append_nil]
        exact front
      · obtain ⟨after, b, bs, p, space, rfl, mark, lead, leads, front⟩ :=
          moreMembers_later_sound ahead
        obtain ⟨name, core, behind, before, value, seen', record', f, isName, spaced, spaced',
          middle, read, fills⟩ := member b bs p rfl mark
        obtain ⟨last, entries, space', named, filled, back, ends⟩ := ih read
        refine ⟨after, _ :: entries, space, List.forall_mem_cons.mpr ⟨?_, named⟩,
          fills lead last entries filled, ?_, ends⟩
        · exact ⟨⟨⟨leads, spaced⟩, spaced', space'⟩, isName⟩
        · have spans := front.trans (middle.trans back)
          rw [if_pos rfl] at spans
          simpa only [List.map_cons, List.flatMap_cons, Pair.chars, Spaced.chars, List.append_assoc,
            List.cons_append] using spans

/-- An object ends with its brace only. -/
theorem objectEnd_sound {b : UInt8} (mark : is b '\x7d' = true) {bs : List UInt8} {p : Place}
    {d : Cursor} (h : objectEnd ⟨b :: bs, p⟩ = (.ok (), d)) : Spans ⟨b :: bs, p⟩ ['\x7d'] d := by
  have space : isSpace b = false := isSpace_of_is mark (by decide)
  rw [objectEnd, bind_of_ok _ (peekToken_cons space bs p)] at h
  dsimp only at h
  rw [if_pos mark] at h
  cases h
  exact spans_is mark ..

/-- An object that is read is a record. -/
theorem object_sound (fields : ∀ f ∈ l.fields, f.read.Exact (Form f.name)) {fuel : List UInt8}
    {a : σ} {c d : Cursor}
    (h : ((l.members fuel true [] l.blank).closedBy objectEnd) c = (.ok a, d)) {q : Cursor}
    (opened : q.Spans ['\x7b'] c) : ∃ cs, l.Written Form a cs ∧ q.Spans cs d := by
  obtain ⟨e, read, closed⟩ := closedBy_eq_ok.mp h
  cases fuel with
  | nil => exact nomatch read
  | cons x fuel =>
      -- only the first member stands without a comma in front
      rcases members_cons_sound fields read with ⟨ahead, complete, rfl⟩ | ⟨e, ahead, member⟩
      · obtain ⟨gap, b, bs, p, space, front, rfl, mark⟩ := moreMembers_first_sound ahead
        refine ⟨_, .object space (List.forall_mem_nil _) (.done complete), ?_⟩
        exact opened.trans (front.trans (objectEnd_sound mark closed))
      · obtain ⟨gap, b, bs, p, space, front, rfl, mark⟩ := moreMembers_first_sound ahead
        obtain ⟨name, core, behind, before, value, seen', record', f, isName, spaced, spaced',
          middle, rest, fills⟩ := member b bs p rfl mark
        obtain ⟨last, entries, space', named, filled, back, b', bs', p', rfl, mark'⟩ :=
          members_later_sound fields rest
        refine ⟨_, .object space (List.forall_mem_cons.mpr ⟨?_, named⟩)
          (fills [] last entries filled), ?_⟩
        · exact ⟨⟨⟨isSpacing_nil, spaced⟩, spaced', space'⟩, isName⟩
        · have spans := opened.trans (front.trans (middle.trans (back.trans
            (objectEnd_sound mark' closed))))
          simpa only [bracketed, List.map_cons, commaSeparated_cons, Pair.chars, Spaced.chars,
            List.append_assoc, List.cons_append, List.nil_append] using spans

/-- Before a first item only white space was passed, and no item comes only before a bracket. -/
theorem moreItems_first_sound {c d : Cursor} {more : Bool}
    (h : moreItems true c = (.ok more, d)) : ∃ ws, IsSpacing ws ∧ c.Spans ws d ∧
      (more = false → ∃ b bs p, d = ⟨b :: bs, p⟩ ∧ is b ']' = true) := by
  obtain ⟨ws, b, bs, p, space, front, -, h⟩ := of_token h fun _ => ⟨_, rfl⟩
  dsimp only at h
  split at h
  · next mark =>
      cases h
      exact ⟨ws, space, front, fun _ => ⟨b, bs, p, rfl, mark⟩⟩
  · rw [if_pos rfl] at h
    cases h
    exact ⟨ws, space, front, fun none => nomatch none⟩

/-- Before a later item a comma was passed, and no item comes only before a bracket. -/
theorem moreItems_later_sound {c d : Cursor} {more : Bool}
    (h : moreItems false c = (.ok more, d)) : ∃ after, IsSpacing after ∧
      if more then ∃ before, IsSpacing before ∧ c.Spans (after ++ ',' :: before) d
      else c.Spans after d ∧ ∃ b bs p, d = ⟨b :: bs, p⟩ ∧ is b ']' = true := by
  obtain ⟨after, b, bs, p, space, front, -, h⟩ := of_token h fun _ => ⟨_, rfl⟩
  dsimp only at h
  split at h
  · next mark =>
      cases h
      exact ⟨after, space, front, b, bs, p, rfl, mark⟩
  rw [if_neg Bool.false_ne_true] at h
  split at h
  -- a comma is no item yet: the closing must not follow it
  · next comma =>
      rw [bind_of_ok _ (skip_cons _ _ _)] at h
      obtain ⟨before, b', bs', q, space', back, -, h⟩ := of_token h fun _ => ⟨_, rfl⟩
      dsimp only at h
      split at h
      · exact nomatch h
      · cases h
        exact ⟨after, space, before, space', front.trans ((spans_is comma bs p _).trans back)⟩
  · exact nomatch h

/-- A list ends with its bracket only, behind white space. -/
theorem listEnd_sound {c d : Cursor} (h : listEnd c = (.ok (), d)) :
    ∃ ws, IsSpacing ws ∧ c.Spans (ws ++ [']']) d := by
  obtain ⟨ws, b, bs, p, space, front, -, h⟩ := of_token h fun _ => ⟨_, rfl⟩
  dsimp only at h
  split at h
  · next mark =>
      cases h
      exact ⟨ws, space, front.trans (spans_is mark bs p _)⟩
  · split at h
    -- whatever follows the comma, the list has not ended
    · obtain ⟨_, e, -, h⟩ := bind_eq_ok.mp h
      obtain ⟨-, _, _, _, -, -, -, h⟩ := of_token h fun _ => ⟨_, rfl⟩
      exact nomatch h
    · exact nomatch h

/-- One more field may be cut off. -/
theorem Layout.Places.cut {field : Member σ} {remaining : List (Member σ)} {record a : σ}
    (optional : field.optional = true) (h : Layout.Places Form remaining record [] a) :
    Layout.Places Form (field :: remaining) record [] a := by
  cases h with
  | done others => exact .done (List.forall_mem_cons.mpr ⟨optional, others⟩)

/-- Where the end of the list is ahead, all fields that are left are optional. -/
theorem positions_end {wanted : String} {remaining : List (Member σ)} {index : Nat}
    {record a : σ} {b : UInt8} {bs : List UInt8} {p : Place} (mark : is b ']' = true) {d : Cursor}
    (h : Layout.positions wanted remaining index record ⟨b :: bs, p⟩ = (.ok a, d)) :
    d = ⟨b :: bs, p⟩ ∧ Layout.Places Form remaining record [] a := by
  have space : isSpace b = false := isSpace_of_is mark (by decide)
  induction remaining generalizing index with
  | nil =>
      obtain ⟨rfl, rfl⟩ := pure_eq_ok.mp h
      exact ⟨rfl, .done (List.forall_mem_nil _)⟩
  | cons field remaining ih =>
      have stop : moreItems (index == 0) ⟨b :: bs, p⟩ = (.ok false, ⟨b :: bs, p⟩) := by
        rw [moreItems, bind_of_ok _ (peekToken_cons space bs p)]
        dsimp only
        rw [if_pos mark]
        rfl
      rw [Layout.positions, bind_of_ok _ stop, if_neg Bool.false_ne_true] at h
      split at h
      · next optional =>
          obtain ⟨same, places⟩ := ih h
          exact ⟨same, places.cut optional⟩
      · cases h

/-- Where the end of the list is ahead, the list ends there. -/
theorem positions_ended {wanted : String} {remaining : List (Member σ)} {index : Nat}
    {record a : σ} {b : UInt8} {bs : List UInt8} {p : Place} (mark : is b ']' = true) {d e : Cursor}
    (h : Layout.positions wanted remaining index record ⟨b :: bs, p⟩ = (.ok a, d))
    (closed : listEnd d = (.ok (), e)) :
    Layout.Places Form remaining record [] a ∧ Spans ⟨b :: bs, p⟩ [']'] e := by
  obtain ⟨rfl, places⟩ := positions_end mark h
  rw [listEnd, bind_of_ok _ (peekToken_cons (isSpace_of_is mark (by decide)) bs p)] at closed
  dsimp only at closed
  rw [if_pos mark] at closed
  cases closed
  exact ⟨places, spans_is mark bs p _⟩

/-- The items behind the first, each with its comma, and the end of the list. -/
theorem positions_later_sound {wanted : String} {remaining : List (Member σ)}
    (fields : ∀ f ∈ remaining, f.read.Exact (Form f.name)) {index : Nat} {record a : σ}
    {c d e : Cursor} (h : Layout.positions wanted remaining (index + 1) record c = (.ok a, d))
    (closed : listEnd d = (.ok (), e)) :
    ∃ after items, IsSpacing after ∧ (∀ item ∈ items, item.IsSpaced) ∧
      Layout.Places Form remaining record items a ∧
      c.Spans (after ++ ((items.map Spaced.chars).flatMap (',' :: ·) ++ [']'])) e := by
  -- on the fields that are left: each takes the next item, and where the items end
  -- all others have to be optional
  induction remaining generalizing index record c with
  | nil =>
      obtain ⟨rfl, rfl⟩ := pure_eq_ok.mp h
      obtain ⟨after, space, front⟩ := listEnd_sound closed
      exact ⟨after, [], space, (List.forall_mem_nil _), .done (List.forall_mem_nil _), front⟩
  | cons field remaining ih =>
      obtain ⟨more, c₁, ahead, rest⟩ := bind_eq_ok.mp h
      obtain ⟨after, space, ahead⟩ := moreItems_later_sound ahead
      cases more with
      | false =>
          obtain ⟨front, b, bs, p, rfl, mark⟩ := ahead
          rw [if_neg Bool.false_ne_true] at rest
          split at rest
          · next optional =>
              obtain ⟨places, back⟩ := positions_ended mark rest closed
              exact ⟨after, [], space, (List.forall_mem_nil _), places.cut optional,
                front.trans back⟩
          · cases rest
      | true =>
          obtain ⟨before, space', front⟩ := ahead
          rw [if_pos rfl] at rest
          obtain ⟨store, c₂, read, rest⟩ := bind_eq_ok.mp rest
          obtain ⟨ws, core, space₂, form, middle⟩ :=
            (fields field List.mem_cons_self).sound read
          obtain ⟨behind, items, space₃, spaced, places, back⟩ :=
            ih (fun f mem => fields f (List.mem_cons_of_mem _ mem)) rest
          refine ⟨after, ⟨before ++ ws, core, behind⟩ :: items, space,
            List.forall_mem_cons.mpr ⟨⟨space'.append space₂, space₃⟩, spaced⟩,
            .stored form places, ?_⟩
          have spans := front.trans (middle.trans back)
          simpa only [List.map_cons, List.flatMap_cons, Spaced.chars, List.append_assoc,
            List.cons_append] using spans

/-- A list that is read is a record. -/
theorem list_sound (fields : ∀ f ∈ l.fields, f.read.Exact (Form f.name)) {wanted : String} {a : σ}
    {c d : Cursor}
    (h : ((Layout.positions wanted l.fields 0 l.blank).closedBy listEnd) c = (.ok a, d)) {q : Cursor}
    (opened : q.Spans ['['] c) : ∃ cs, l.Written Form a cs ∧ q.Spans cs d := by
  obtain ⟨e, read, closed⟩ := closedBy_eq_ok.mp h
  -- in each case below the items and the white space make up the whole bracket
  have written {gap : List Char} {items : List Spaced} (space : IsSpacing gap)
      (spaced : ∀ item ∈ items, item.IsSpaced)
      (places : Layout.Places Form l.fields l.blank items a)
      (front : c.Spans (gap ++ (commaSeparated (items.map Spaced.chars) ++ [']'])) d) :
      ∃ cs, l.Written Form a cs ∧ q.Spans cs d :=
    ⟨_, .list space spaced places, opened.trans front⟩
  cases shape : l.fields with
  | nil =>
      rw [shape] at read written
      obtain ⟨rfl, rfl⟩ := pure_eq_ok.mp read
      obtain ⟨gap, space, front⟩ := listEnd_sound closed
      exact written space (List.forall_mem_nil _) (.done (List.forall_mem_nil _)) front
  | cons field remaining =>
      rw [shape] at read written fields
      obtain ⟨more, c₁, ahead, rest⟩ := bind_eq_ok.mp read
      obtain ⟨gap, space, front, ends⟩ := moreItems_first_sound ahead
      cases more with
      | false =>
          obtain ⟨b, bs, p, rfl, mark⟩ := ends rfl
          rw [if_neg Bool.false_ne_true] at rest
          split at rest
          · next optional =>
              obtain ⟨places, back⟩ := positions_ended mark rest closed
              exact written space (List.forall_mem_nil _) (places.cut optional) (front.trans back)
          · cases rest
      | true =>
          rw [if_pos rfl] at rest
          obtain ⟨store, c₂, read, rest⟩ := bind_eq_ok.mp rest
          obtain ⟨ws, core, space₂, form, middle⟩ := (fields field List.mem_cons_self).sound read
          obtain ⟨behind, items, space₃, spaced, places, back⟩ :=
            positions_later_sound (fun f mem => fields f (List.mem_cons_of_mem _ mem)) rest closed
          have itemsSpaced : ∀ item ∈ Spaced.mk ws core behind :: items, item.IsSpaced :=
            List.forall_mem_cons.mpr ⟨⟨space₂, space₃⟩, spaced⟩
          refine written space itemsSpaced (.stored form places) ?_
          have spans := front.trans (middle.trans back)
          simpa only [List.map_cons, commaSeparated_cons, Spaced.chars, List.append_assoc] using spans

/-- **SOUND**: a record is read only from a text that is written as its layout says. -/
theorem read_sound (fields : ∀ f ∈ l.fields, f.read.Exact (Form f.name)) {c d : Cursor} {a : σ}
    (h : l.read c = (.ok a, d)) :
    ∃ ws cs, IsSpacing ws ∧ l.Written Form a cs ∧ c.Spans (ws ++ cs) d := by
  obtain ⟨b, t, start, h⟩ := bind_eq_ok.mp h
  obtain ⟨ws, bs, p, space, rfl, front, -⟩ := valueStart_eq_ok start
  split at h
  · next mark =>
      obtain ⟨e, read, closed⟩ := closedBy_eq_ok.mp (placed_eq_ok.mp h)
      rw [bind_of_ok _ (skip_cons _ _ _)] at read
      obtain ⟨fuel, e₁, ahead, read⟩ := bind_eq_ok.mp read
      cases ahead
      obtain ⟨cs, written, back⟩ := object_sound fields (closedBy_eq_ok.mpr ⟨e, read, closed⟩)
        (spans_is mark bs p _)
      exact ⟨ws, cs, space, written, front.trans back⟩
  · split at h
    · next mark =>
        obtain ⟨e, read, closed⟩ := closedBy_eq_ok.mp (placed_eq_ok.mp h)
        rw [bind_of_ok _ (skip_cons _ _ _)] at read
        obtain ⟨cs, written, back⟩ := list_sound fields (closedBy_eq_ok.mpr ⟨e, read, closed⟩)
          (spans_is mark bs p _)
        exact ⟨ws, cs, space, written, front.trans back⟩
    · exact (wrongKind_gives _ (fun _ => False) _ _ _ h).elim

end Sound

/-! ## What is written so is read -/

section Complete

/-- A member that is ahead is stored or passed over, and what is left fills the record on. -/
theorem fills_step (fields : ∀ f ∈ l.fields, f.read.Exact (Form f.name)) {seen : List String}
    {record a : σ} {entry : String × Pair} {entries : List (String × Pair)} (named : IsNamed entry)
    (fills : l.Fills Form seen record (entry :: entries) a) {rest : List UInt8} (ends : Ends rest)
    (x : UInt8) (fuel : List UInt8) {first : Bool} {c : Cursor} {p : Place}
    (more : moreMembers first c = (.ok true, ⟨narrows entry.2.inner ++ rest, p⟩)) :
    ∃ seen' record' p', l.Fills Form seen' record' entries a ∧
      l.members (x :: fuel) first seen record c
        = l.members fuel false seen' record' ⟨rest, p'⟩ := by
  obtain ⟨name, pair⟩ := entry
  obtain ⟨spaced, form, isText, core⟩ := named
  dsimp only at spaced isText core more
  -- a member is its name, a colon and its value, read one after the other
  have bytes : narrows pair.inner ++ rest = encode form ++ (encode pair.name.after ++ [ascii ':'] ++
      (narrows (pair.value.before ++ pair.value.core) ++ rest)) := by
    rw [Pair.inner, core, narrows_append, narrows_widened, narrows_append,
      narrows_ascii (by decide), IsSpacing.narrows spaced.1.2]
    simp only [List.append_assoc, List.cons_append, List.nil_append]
  rw [bytes] at more
  obtain ⟨p₁, named⟩ := takes_memberName isText (encode pair.name.after ++ [ascii ':'] ++
    (narrows (pair.value.before ++ pair.value.core) ++ rest)) p
  obtain ⟨p₂, parted⟩ := takes_colon spaced.1.2
    (narrows (pair.value.before ++ pair.value.core) ++ rest) p₁
  cases fills with
  | added unknown value fills =>
      obtain ⟨p₃, skipped⟩ := takes_skipValue_narrows value spaced.2.1 rest ends p₂
      have missed : (l.fields.find? fun f => f.name == name) = none := by
        refine List.find?_eq_none.mpr fun f listed same => unknown ?_
        rw [← beq_iff_eq.mp same]
        exact List.mem_map_of_mem listed
      refine ⟨seen, record, p₃, fills, ?_⟩
      rw [Layout.members, bind_of_ok _ more, if_pos rfl, bind_of_ok _ named, missed]
      dsimp only
      rw [bind_of_ok _ parted, bind_of_ok _ skipped]
  | @stored _ _ _ _ _ _ store own fresh value fills =>
      cases found : l.fields.find? fun f => f.name == name with
      | none => exact absurd own (Layout.of_find_none found)
      | some field =>
          obtain ⟨listed, same, -⟩ := Layout.of_find found
          rw [← same] at value
          obtain ⟨p₃, stored⟩ := (fields field listed).complete value spaced.2.1 rest ends p₂
          have unseen : seen.contains name = false :=
            Bool.eq_false_iff.mpr fun seen => fresh (List.contains_iff_mem.mp seen)
          refine ⟨name :: seen, store record, p₃, fills, ?_⟩
          rw [Layout.members, bind_of_ok _ more, if_pos rfl, bind_of_ok _ named, found]
          dsimp only
          rw [unseen, if_neg Bool.false_ne_true, bind_of_ok _ parted, bind_of_ok _ stored]

/-- A member begins with the quote of its name. -/
theorem IsNamed.quote {entry : String × Pair} (h : IsNamed entry) (rest : List UInt8) :
    ∃ u, narrows entry.2.inner ++ rest = ascii '"' :: u := by
  obtain ⟨xs, head⟩ := h.2.head
  have begins : ∃ ys, entry.2.inner = '"' :: ys := ⟨_, by rw [Pair.inner, head, List.cons_append]⟩
  obtain ⟨ys, begins⟩ := begins
  exact ⟨narrows ys ++ rest, by rw [begins, narrows_ascii (by decide), List.cons_append]⟩

/-- The entries of an object end what stands before them. -/
theorem ends_entries {after : List Char} (space : IsSpacing after)
    (entries : List (String × Pair)) (rest : List UInt8) :
    Ends (narrows (after ++ (entries.map fun entry => entry.2.chars).flatMap (',' :: ·))
      ++ ascii '\x7d' :: rest) :=
  ends_parts_narrows .object space _ rest

/-- Where the closing is ahead and nothing else, the record is finished. -/
theorem fills_end {seen : List String} {record a : σ} (fills : l.Fills Form seen record [] a)
    (first : Bool) (x : UInt8) (fuel : List UInt8) {ws : List Char} (space : IsSpacing ws)
    (rest : List UInt8) (p : Place) :
    l.members (x :: fuel) first seen record ⟨narrows ws ++ ascii '\x7d' :: rest, p⟩
      = (.ok a, ⟨ascii '\x7d' :: rest, (narrows ws).foldl Place.after p⟩) := by
  cases fills with
  | done complete =>
      rw [space.narrows, Layout.members, bind_of_ok _ (moreMembers_end first space rest p),
        if_neg Bool.false_ne_true, complete]
      rfl

/-- The members behind the first are read up to the closing. -/
theorem fills_later (fields : ∀ f ∈ l.fields, f.read.Exact (Form f.name)) {a : σ}
    (rest : List UInt8) {entries : List (String × Pair)}
    (named : ∀ entry ∈ entries, IsNamed entry) :
    ∀ {seen : List String} {record : σ}, l.Fills Form seen record entries a →
    ∀ fuel : List UInt8, entries.length < fuel.length → ∀ after, IsSpacing after → ∀ p,
      ∃ p', l.members fuel false seen record
          ⟨narrows (after ++ (entries.map fun entry => entry.2.chars).flatMap (',' :: ·))
            ++ ascii '\x7d' :: rest, p⟩
        = (.ok a, ⟨ascii '\x7d' :: rest, p'⟩) := by
  -- on the members that are left; what they fill in is the same behind each step
  induction entries with
  | nil =>
      intro seen record fills fuel enough after space p
      obtain ⟨x, fuel, rfl⟩ := List.exists_cons_of_length_pos (Nat.zero_lt_of_lt enough)
      refine ⟨(narrows after).foldl Place.after p, ?_⟩
      rw [List.map_nil, List.flatMap_nil, List.append_nil]
      exact fills_end fills false x fuel space rest p
  | cons entry entries ih =>
      intro seen record fills fuel enough after space p
      obtain ⟨x, fuel, rfl⟩ := List.exists_cons_of_length_pos (Nat.zero_lt_of_lt enough)
      obtain ⟨one, others⟩ := List.forall_mem_cons.mp named
      have spaced := one.1
      have behind := ends_entries spaced.2.2 entries rest
      obtain ⟨u, begins⟩ := one.quote (narrows (entry.2.value.after ++
        (entries.map fun entry => entry.2.chars).flatMap (',' :: ·)) ++ ascii '\x7d' :: rest)
      obtain ⟨q, more⟩ := moreMembers_later space spaced.1.1 u p
      rw [← begins] at more
      obtain ⟨seen', record', p₁, fills', step⟩ :=
        fills_step fields one fills behind x fuel more
      obtain ⟨p₂, read⟩ := ih others fills' fuel (Nat.lt_of_succ_lt_succ enough)
        entry.2.value.after spaced.2.2 p₁
      refine ⟨p₂, ?_⟩
      rw [← read, ← step, List.map_cons, List.flatMap_cons, Pair.chars_eq]
      simp only [narrows_append, narrows_ascii (show ','.toNat < 0x80 by decide),
        List.cons_append, List.append_assoc, space.narrows, spaced.1.1.narrows]

/-- All members are read up to the closing. -/
theorem fills_first (fields : ∀ f ∈ l.fields, f.read.Exact (Form f.name)) {a : σ}
    {entries : List (String × Pair)} (named : ∀ entry ∈ entries, IsNamed entry)
    (fills : l.Fills Form [] l.blank entries a) {gap : List Char} (space : IsSpacing gap)
    (rest : List UInt8) {fuel : List UInt8} (enough : entries.length < fuel.length) (p : Place) :
    ∃ p', l.members fuel true [] l.blank
        ⟨narrows (gap ++ commaSeparated (entries.map fun entry => entry.2.chars))
          ++ ascii '\x7d' :: rest, p⟩
      = (.ok a, ⟨ascii '\x7d' :: rest, p'⟩) := by
  obtain ⟨x, fuel, rfl⟩ := List.exists_cons_of_length_pos (Nat.zero_lt_of_lt enough)
  cases entries with
  | nil =>
      refine ⟨(narrows gap).foldl Place.after p, ?_⟩
      rw [List.map_nil, commaSeparated, List.append_nil]
      exact fills_end fills true x fuel space rest p
  | cons entry entries =>
      obtain ⟨one, others⟩ := List.forall_mem_cons.mp named
      have spaced := one.1
      have behind := ends_entries spaced.2.2 entries rest
      obtain ⟨u, begins⟩ := one.quote (narrows (entry.2.value.after ++
        (entries.map fun entry => entry.2.chars).flatMap (',' :: ·)) ++ ascii '\x7d' :: rest)
      have more := moreMembers_first (space.append spaced.1.1) u p
      rw [← begins] at more
      obtain ⟨seen, record, p₁, fills', step⟩ :=
        fills_step fields one fills behind x fuel more
      obtain ⟨p₂, read⟩ := fills_later fields rest others fills' fuel
        (Nat.lt_of_succ_lt_succ enough) entry.2.value.after spaced.2.2 p₁
      refine ⟨p₂, ?_⟩
      rw [← read, ← step, List.map_cons, commaSeparated_cons, Pair.chars_eq]
      simp only [narrows_append, encode_append, List.append_assoc, space.narrows,
        spaced.1.1.narrows]

/-- A list's bracket is read behind white space. -/
theorem listEnd_spacing {ws : List Char} (space : IsSpacing ws) (rest : List UInt8) (p : Place) :
    ∃ p', listEnd ⟨narrows ws ++ ascii ']' :: rest, p⟩ = (.ok (), ⟨rest, p'⟩) := by
  refine ⟨((narrows ws).foldl Place.after p).after (ascii ']'), ?_⟩
  rw [listEnd, bind_of_ok _ (peekToken_narrows space (by decide) _ _)]
  dsimp only
  rw [if_pos (by decide), skip_cons]

/-- Where the list ends, fields that may be cut off are left as they are. -/
theorem positions_closed (wanted : String) {remaining : List (Member σ)}
    (optional : ∀ field ∈ remaining, field.optional = true) (rest : List UInt8) (record : σ) :
    ∀ index after, IsSpacing after → ∀ p, ∃ d p',
      Layout.positions wanted remaining index record ⟨narrows after ++ ascii ']' :: rest, p⟩
        = (.ok record, d) ∧ listEnd d = (.ok (), ⟨rest, p'⟩) := by
  induction remaining with
  | nil =>
      intro index after space p
      obtain ⟨p', ended⟩ := listEnd_spacing space rest p
      exact ⟨_, p', rfl, ended⟩
  | cons field remaining ih =>
      intro index after space p
      obtain ⟨one, others⟩ := List.forall_mem_cons.mp optional
      obtain ⟨d, p', cut, ended⟩ := ih others (index + 1) [] isSpacing_nil
        ((encode after).foldl Place.after p)
      refine ⟨d, p', ?_, ended⟩
      rw [space.narrows, Layout.positions, bind_of_ok _ (moreItems_end _ space rest p),
        if_neg Bool.false_ne_true, if_pos one]
      exact cut

/-- The items of a list end what stands before them. -/
theorem ends_items {after : List Char} (space : IsSpacing after) (items : List Spaced)
    (rest : List UInt8) :
    Ends (narrows (after ++ (items.map Spaced.chars).flatMap (',' :: ·)) ++ ascii ']' :: rest) :=
  ends_parts_narrows .list space _ rest

/-- The items behind the first are stored, and the list is ended. -/
theorem places_later (wanted : String) {items : List Spaced}
    (spaced : ∀ item ∈ items, item.IsSpaced) {a : σ} (rest : List UInt8) :
    ∀ {remaining : List (Member σ)}, (∀ f ∈ remaining, f.read.Exact (Form f.name)) →
    ∀ {record : σ}, Layout.Places Form remaining record items a →
    ∀ index after, IsSpacing after → ∀ p, ∃ d p',
      Layout.positions wanted remaining (index + 1) record
          ⟨narrows (after ++ (items.map Spaced.chars).flatMap (',' :: ·)) ++ ascii ']' :: rest, p⟩
        = (.ok a, d) ∧ listEnd d = (.ok (), ⟨rest, p'⟩) := by
  -- on the items that are left, each for the field whose turn it is
  induction items with
  | nil =>
      intro remaining _ record places index after space p
      rw [List.map_nil, List.flatMap_nil, List.append_nil]
      cases places with
      | done optional => exact positions_closed wanted optional rest _ (index + 1) after space p
  | cons item items ih =>
      intro remaining fields record places index after space p
      obtain ⟨one, others⟩ := List.forall_mem_cons.mp spaced
      cases places with
      | @stored field remaining _ _ _ _ store value places =>
          have exact := fields field List.mem_cons_self
          have behind := ends_items one.2 items rest
          obtain ⟨q, more⟩ := moreItems_later space one.1 ((exact.beginsItem value).append
            (narrows (item.after ++ (items.map Spaced.chars).flatMap (',' :: ·))
              ++ ascii ']' :: rest)) p
          obtain ⟨p₁, read⟩ := exact.complete value isSpacing_nil _ behind q
          obtain ⟨d, p', others, ended⟩ := ih others
            (fun f mem => fields f (List.mem_cons_of_mem _ mem)) places (index + 1) item.after one.2 p₁
          refine ⟨d, p', ?_, ended⟩
          have bytes : narrows (after ++ ((item :: items).map Spaced.chars).flatMap (',' :: ·))
                ++ ascii ']' :: rest
              = encode after ++ ascii ',' :: (encode item.before ++ (narrows item.core ++
                (narrows (item.after ++ (items.map Spaced.chars).flatMap (',' :: ·))
                  ++ ascii ']' :: rest))) := by
            simp only [List.map_cons, List.flatMap_cons, Spaced.chars, narrows_append,
              narrows_ascii (show ','.toNat < 0x80 by decide), space.narrows,
              one.1.narrows, List.append_assoc, List.cons_append]
          rw [List.nil_append] at read
          rw [bytes, Layout.positions, show (index + 1 == 0) = false from rfl, bind_of_ok _ more,
            if_pos rfl, bind_of_ok _ read]
          exact others

/-- All items are stored, and the list is ended. -/
theorem places_first (wanted : String) {items : List Spaced}
    (spaced : ∀ item ∈ items, item.IsSpaced) {record a : σ} (rest : List UInt8)
    {all : List (Member σ)} (fields : ∀ f ∈ all, f.read.Exact (Form f.name))
    (places : Layout.Places Form all record items a) {gap : List Char}
    (space : IsSpacing gap) (p : Place) : ∃ d p',
      Layout.positions wanted all 0 record
          ⟨narrows (gap ++ commaSeparated (items.map Spaced.chars)) ++ ascii ']' :: rest, p⟩
        = (.ok a, d) ∧ listEnd d = (.ok (), ⟨rest, p'⟩) := by
  cases items with
  | nil =>
      rw [List.map_nil, commaSeparated, List.append_nil]
      cases places with
      | done optional => exact positions_closed wanted optional rest _ 0 gap space p
  | cons item items =>
      obtain ⟨one, others⟩ := List.forall_mem_cons.mp spaced
      cases places with
      | @stored field remaining _ _ _ _ store value places =>
          have exact := fields field List.mem_cons_self
          have behind := ends_items one.2 items rest
          have more := moreItems_first (space.append one.1) ((exact.beginsItem value).append
            (narrows (item.after ++ (items.map Spaced.chars).flatMap (',' :: ·))
              ++ ascii ']' :: rest)) p
          obtain ⟨p₁, read⟩ := exact.complete value isSpacing_nil _ behind
            ((encode (gap ++ item.before)).foldl Place.after p)
          obtain ⟨d, p', others, ended⟩ := places_later wanted others rest
            (fun f mem => fields f (List.mem_cons_of_mem _ mem)) places 0 item.after one.2 p₁
          refine ⟨d, p', ?_, ended⟩
          have bytes : narrows (gap ++ commaSeparated ((item :: items).map Spaced.chars))
                ++ ascii ']' :: rest
              = encode (gap ++ item.before) ++ (narrows item.core ++
                (narrows (item.after ++ (items.map Spaced.chars).flatMap (',' :: ·))
                  ++ ascii ']' :: rest)) := by
            simp only [List.map_cons, commaSeparated_cons, Spaced.chars, narrows_append,
              encode_append, space.narrows, one.1.narrows, List.append_assoc]
          rw [List.nil_append] at read
          rw [bytes, Layout.positions, show ((0 : Nat) == 0) = true from rfl, bind_of_ok _ more,
            if_pos rfl, bind_of_ok _ read]
          exact others

/-- **COMPLETE**: a record is read from every text that is written as its layout says. -/
theorem read_complete (fields : ∀ f ∈ l.fields, f.read.Exact (Form f.name)) {a : σ}
    {cs : List Char} (h : l.Written Form a cs) {ws : List Char} (spaceBefore : IsSpacing ws) :
    l.read.TakesBefore (narrows (ws ++ cs)) a := by
  intro rest _ place
  cases h with
  | @object gap entries space named fills =>
      -- every member has a first byte, so the bytes ahead are fuel enough
      have enough : entries.length
          < (narrows (gap ++ commaSeparated (entries.map fun entry => entry.2.chars))
              ++ ascii '\x7d' :: rest).length := by
        have some : ∀ part ∈ entries.map fun entry => entry.2.chars, part ≠ [] :=
          List.forall_mem_map.mpr fun entry _ => entry.2.chars_ne_nil
        have le := length_le_commaSeparated some
        rw [List.length_map] at le
        rw [List.length_append, length_narrows, List.length_append, List.length_cons]
        omega
      obtain ⟨p, read⟩ := fills_first fields named fills space rest enough
        (((narrows ws).foldl Place.after place).after (ascii '\x7b'))
      obtain ⟨q, closed⟩ := takes_objectEnd rest p
      refine ⟨q, ?_⟩
      rw [spaceBefore.narrows] at read
      rw [narrows_bracketed (by decide), spaceBefore.narrows, Layout.read,
        bind_of_ok _ (valueStart_spacing spaceBefore (by decide) _ _), if_pos (by decide)]
      exact placed_of_ok (closedBy_of_ok read closed)
  | @list gap items space spaced places =>
      obtain ⟨d, q, read, closed⟩ := places_first l.sizedName spaced rest fields places space
        (((narrows ws).foldl Place.after place).after (ascii '['))
      refine ⟨q, ?_⟩
      rw [spaceBefore.narrows] at read
      rw [narrows_bracketed (by decide), spaceBefore.narrows, Layout.read,
        bind_of_ok _ (valueStart_spacing spaceBefore (by decide) _ _), if_neg (by decide),
        if_pos (by decide)]
      exact placed_of_ok (closedBy_of_ok read closed)

end Complete

/-- **RECORDS**: a record whose fields are read exactly is read exactly, in either form. -/
theorem exact_read (fields : ∀ f ∈ l.fields, f.read.Exact (Form f.name)) :
    l.read.Exact (l.Written Form) where
  sound h := read_sound fields h
  complete h _ space := read_complete fields h space
  head h := by
    cases h with
    | object => exact ⟨_, _, rfl, by decide, by decide, by decide⟩
    | list => exact ⟨_, _, rfl, by decide, by decide, by decide⟩

end Records

/-! ## Whole texts -/

/-- **WHOLE TEXTS**: what decodes is one value of the form, with white space around it. -/
theorem decode_eq_ok {r : Reader α} {Form : α → List Char → Prop} (h : r.Exact Form)
    {bytes : List UInt8} {a : α} : decode r bytes = .ok a ↔
      ∃ s : Spaced, s.IsSpaced ∧ Form a s.core ∧ octets bytes = s.chars := by
  constructor
  · intro decoded
    have read : whole r ⟨bytes, {}⟩ = (.ok a, (whole r ⟨bytes, {}⟩).2) := Prod.ext decoded rfl
    obtain ⟨a', e, read, trailing⟩ := bind_eq_ok.mp read
    obtain ⟨before, core, space, form, front⟩ := h.sound read
    obtain ⟨after, ⟨rest, p⟩, behind, back, -, trailing⟩ := of_peekToken trailing
    cases rest with
    | cons => cases trailing
    | nil =>
        obtain ⟨rfl, -⟩ := pure_eq_ok.mp trailing
        refine ⟨⟨before, core, after⟩, ⟨space, behind⟩, form, ?_⟩
        have spans := front.trans back
        rwa [Spans, octets_nil, List.append_nil, List.append_assoc] at spans
  · rintro ⟨⟨before, core, after⟩, ⟨space, behind⟩, form, same⟩
    have bytes_eq : bytes = narrows (before ++ core) ++ encode after := by
      rw [← narrows_octets bytes, same, Spaced.chars, ← List.append_assoc, narrows_append,
        behind.narrows]
    have ends : Ends (encode after) := by
      have none := behind.ends ends_nil
      rwa [List.append_nil] at none
    obtain ⟨p, read⟩ := h.complete form space (encode after) ends {}
    rw [bytes_eq]
    unfold decode
    dsimp only
    rw [bind_of_ok _ read, bind_of_ok _ (peekToken_end behind p)]
    rfl

end Courier.Json
