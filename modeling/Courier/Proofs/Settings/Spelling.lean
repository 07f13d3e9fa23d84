import Courier.Settings.Variable
import Courier.Proofs.Text.Blank
import Courier.Proofs.Text.Escaped

/-! # Spelling — which texts stand for which values

    `Spells` relates a value to the texts that stand for it: a truth value, a
    quoted text or character, a list, a table, or a bare value, which is a
    number where it can be one and a text elsewhere.  What the text of a
    variable stands for is what it spells, and the text itself where it
    spells nothing (`ofText_of_spells`, `ofText_of_not_spells`). -/

namespace Courier.Variable

open Text

/-- Whether characters are nothing but white space. -/
def IsSpacing (cs : List Char) : Prop := ∀ c ∈ cs, isSpace c = true

/-! ## Forms -/

/-- A key of a table, and the ways to write it. -/
inductive IsKey : String → List Char → Prop where
  | quoted {name : String} {body : List Char} (quotes : Quotes (fun _ => true) name.toList body) :
      IsKey name ('"' :: body)
  | bare {cs : List Char} (nonempty : cs ≠ []) (all : ∀ c ∈ cs, isKeyChar c = true) :
      IsKey (String.ofList cs) cs

/-- A bare value as it is written: it has no separator in it, and does not begin as any other
    value does. -/
structure IsBare (cs : List Char) : Prop where
  whole : ∀ c ∈ cs, isSeparator c = false
  head : ∀ c ∈ cs.head?, isSpace c = false ∧ c ≠ '"' ∧ c ≠ '\''
  notTrue : ¬['t', 'r', 'u', 'e'] <+: cs
  notFalse : ¬['f', 'a', 'l', 's', 'e'] <+: cs

/-- The parts between two brackets up to and with the second one; behind the last part there may
    be a comma, too. -/
inductive Joined (close : Char) : List (List Char) → List Char → Prop where
  | none : Joined close [] [close]
  | last {part : List Char} (nonempty : part ≠ []) : Joined close [part] (part ++ [close])
  | more {part body : List Char} {parts : List (List Char)} (rest : Joined close parts body) :
      Joined close (part :: parts) (part ++ ',' :: body)

/-- An entry of a table, and how it is written. -/
structure Member where
  entry : String × SettingTree
  before : List Char
  name : List Char
  after : List Char
  value : List Char

namespace Member

/-- The characters of a member. -/
def chars (m : Member) : List Char := m.before ++ (m.name ++ (m.after ++ '=' :: m.value))

/-- Whether the name is written as it may be. -/
structure IsNamed (m : Member) : Prop where
  before : IsSpacing m.before
  name : IsKey m.entry.1 m.name
  after : IsSpacing m.after

end Member

/-- A value, and the texts that stand for it. -/
inductive Spells : SettingTree → List Char → Prop where
  | yes : Spells (.bool true) ['t', 'r', 'u', 'e']
  | no : Spells (.bool false) ['f', 'a', 'l', 's', 'e']
  | quoted {s : String} {body : List Char} (quotes : Quotes (fun _ => true) s.toList body) :
      Spells (.text s) ('"' :: body)
  | char (c : Char) : Spells (.char c) ['\'', c, '\'']
  | list {items : List (SettingTree × List Char)} {body : List Char}
      (values : ∀ item ∈ items, Spells item.1 item.2)
      (joined : Joined ']' (items.map Prod.snd) body) :
      Spells (.list (items.map Prod.fst)) ('[' :: body)
  | table {members : List Member} {body : List Char} (named : ∀ m ∈ members, m.IsNamed)
      (values : ∀ m ∈ members, Spells m.entry.2 m.value)
      (joined : Joined '\x7d' (members.map Member.chars) body) :
      Spells (.ofList (members.map Member.entry)) ('\x7b' :: body)
  | bare {cs : List Char} (bare : IsBare cs) : Spells (scalar (trimChars cs)) cs
  | spaced {v : SettingTree} {before cs after : List Char} (front : IsSpacing before)
      (back : IsSpacing after) (spelled : Spells v cs) : Spells v (before ++ (cs ++ after))

/-! ## Reading what is spelled -/

theorem isBlank_of_isSpace {c : Char} (h : isSpace c = true) : isBlank c = true := by
  simp only [isSpace, Bool.or_eq_true, beq_iff_eq] at h
  rcases h with (((rfl | rfl) | rfl) | rfl) | rfl <;> decide

/-- Blank characters behind a text are trimmed away. -/
theorem trimChars_append (cs : List Char) {after : List Char} (h : IsSpacing after) :
    trimChars (cs ++ after) = trimChars cs := by
  have stripped : Strips isBlank cs (trimChars cs) := strips_iff.mpr rfl
  obtain ⟨front, back, whole, allFront, allBack⟩ := stripped.around
  refine strips_iff.mp ⟨⟨front, back ++ after, ?_, allFront, fun c mem => ?_⟩, stripped.head,
    stripped.last⟩
  · rw [← List.append_assoc, ← whole]
  · exact (List.mem_append.mp mem).elim (allBack c) fun mem => isBlank_of_isSpace (h c mem)

/-- White space in front is skipped. -/
theorem skipSpace_append {before : List Char} (h : IsSpacing before) (cs : List Char) :
    skipSpace (before ++ cs) = skipSpace cs := List.dropWhile_append_of_pos h

/-- Where no white space is ahead, nothing is skipped. -/
theorem skipSpace_of_head {cs : List Char} (h : ∀ c ∈ cs.head?, isSpace c = false) :
    skipSpace cs = cs :=
  dropWhile_append_of_head (List.forall_mem_nil _) h

/-- Every text is white space and what is left when it is skipped. -/
theorem exists_spacing (cs : List Char) : ∃ before, IsSpacing before ∧ cs = before ++ skipSpace cs ∧
    ∀ c ∈ (skipSpace cs).head?, isSpace c = false := by
  obtain ⟨before, whole, all, head⟩ := exists_front_dropWhile isSpace cs
  exact ⟨before, all, whole, head⟩

/-- A value is read alike with white space before it. -/
theorem value_skipSpace (fuel : Nat) {before : List Char} (h : IsSpacing before) (cs : List Char) :
    value fuel (before ++ cs) = value fuel cs := by
  cases fuel with
  | zero => rfl
  | succ fuel => rw [value, value, skipSpace_append h]

/-- Whether a text ends a value: behind white space there is nothing more, or a mark that stands
    behind values. -/
def Ends (cs : List Char) : Prop := ∀ c ∈ (skipSpace cs).head?, c ∈ [',', ']', '\x7d']

/-- A bare value is what stands up to the next separator, trimmed. -/
theorem inner_bare (fuel : Nat) {cs : List Char} (notTrue : ¬['t', 'r', 'u', 'e'] <+: cs)
    (notFalse : ¬['f', 'a', 'l', 's', 'e'] <+: cs)
    (head : ∀ c ∈ cs.head?, c ∉ ['\x7b', '[', '"', '\'']) :
    inner (fuel + 1) cs = some (scalar (trimChars (cs.takeWhile fun c => !isSeparator c)),
      cs.dropWhile fun c => !isSeparator c) := by
  rw [inner.eq_def]
  simp only
  split
  · exact absurd ⟨_, rfl⟩ notTrue
  · exact absurd ⟨_, rfl⟩ notFalse
  all_goals first | exact absurd (head _ rfl) (by decide) | rfl

/-- What is taken ends before a character that stops it. -/
theorem takeWhile_of_head {p : Char → Bool} {cs rest : List Char} (all : ∀ c ∈ cs, p c = true)
    (stop : ∀ c ∈ rest.head?, p c = false) :
    (cs ++ rest).takeWhile p = cs ∧ (cs ++ rest).dropWhile p = rest := by
  have behind : (cs ++ rest).dropWhile p = rest := dropWhile_append_of_head all stop
  refine ⟨(List.append_left_inj rest).mp ?_, behind⟩
  have parts := List.takeWhile_append_dropWhile (p := p) (l := cs ++ rest)
  rwa [behind] at parts

/-- A key is read up to a character that no key has. -/
theorem key_read {name : String} {cs rest : List Char} (h : IsKey name cs)
    (stop : ∀ c ∈ rest.head?, isKeyChar c = false) : key (cs ++ rest) = some (name, rest) := by
  cases h with
  | quoted quotes =>
      show (readQuoted _ (_ ++ rest)).map _ = _
      rw [quotes.read]
      simp
  | bare nonempty all =>
      obtain ⟨taken, dropped⟩ := takeWhile_of_head all stop
      obtain ⟨c, cs, rfl⟩ := List.exists_cons_of_ne_nil nonempty
      rw [key.eq_def]
      split
      · next same =>
          obtain rfl : c = '"' := (List.cons.inj same).1
          exact absurd (all _ List.mem_cons_self) (by decide)
      · rw [taken, dropped]
        rfl

/-- What a value is read from, whatever follows that ends it. -/
def IsRead (v : SettingTree) (cs : List Char) : Prop :=
  ∀ fuel rest, Ends rest → 3 * cs.length + 2 ≤ fuel →
    value fuel (cs ++ rest) = some (v, skipSpace rest)

/-- No value begins with a mark that stands behind values. -/
theorem Spells.head {v : SettingTree} {cs : List Char} (h : Spells v cs) :
    ∀ c ∈ cs.head?, c ∉ [',', ']', '\x7d'] := by
  induction h with
  | yes | no | quoted | char | list | table =>
      rintro c ⟨⟩
      decide
  -- bare text holds no separator, so none stands in front
  | bare bare =>
      intro c first mark
      have inside := bare.whole c (List.mem_of_head? first)
      simp only [List.mem_cons, List.not_mem_nil, or_false] at mark
      rcases mark with rfl | rfl | rfl <;> exact nomatch inside
  | @spaced v before cs after front back spelled ih =>
      have marks {c : Char} (space : isSpace c = true) : c ∉ [',', ']', '\x7d'] := by
        intro mark
        simp only [List.mem_cons, List.not_mem_nil, or_false] at mark
        rcases mark with rfl | rfl | rfl <;> exact nomatch space
      intro c first
      -- a mark is no space, so it would stand in the value itself or behind it
      cases before with
      | cons b before =>
          obtain rfl := Option.some.inj first
          exact marks (front b List.mem_cons_self)
      | nil =>
          cases cs with
          | cons d cs => exact ih c first
          | nil => exact marks (back c (List.mem_of_head? first))

/-- Items are read one by one, each up to a comma or the bracket. -/
theorem items_step (fuel : Nat) {cs : List Char} (head : ∀ c ∈ cs.head?, c ≠ ']') :
    items (fuel + 1) cs =
      match value fuel cs with
      | some (v, ',' :: rest) => (items fuel rest).map fun (vs, rest) => (v :: vs, rest)
      | some (v, ']' :: rest) => some ([v], rest)
      | _ => none := by
  rw [items.eq_def]
  simp only
  split
  · exact absurd rfl (head _ rfl)
  · rfl

/-- Behind a value that does not begin with the bracket, the first character is not the bracket. -/
theorem head_append_ne {close x : Char} {cs : List Char} (rest : List Char)
    (head : ∀ c ∈ cs.head?, c ≠ close) (h : cs ≠ [] ∨ x ≠ close) :
    ∀ c ∈ (cs ++ x :: rest).head?, c ≠ close := by
  cases cs with
  | nil =>
      rintro c ⟨⟩
      exact h.resolve_left fun nonempty => nonempty rfl
  | cons d cs => exact head

/-- A value is read up to the mark that stands behind it. -/
theorem IsRead.mark {v : SettingTree} {cs : List Char} (h : IsRead v cs) {c : Char}
    (mark : c ∈ [',', ']', '\x7d']) {fuel : Nat} (rest : List Char)
    (enough : 3 * cs.length + 2 ≤ fuel) : value fuel (cs ++ c :: rest) = some (v, c :: rest) := by
  have kept : skipSpace (c :: rest) = c :: rest := by
    simp only [List.mem_cons, List.not_mem_nil, or_false] at mark
    rcases mark with rfl | rfl | rfl <;> rfl
  have ends : Ends (c :: rest) := by
    rw [Ends, kept]
    rintro d ⟨⟩
    exact mark
  rw [h fuel _ ends enough, kept]

/-- What is between two brackets is read part by part, where the reader takes each part with the
    mark behind it in one step. -/
theorem Joined.read {β γ : Type} {close : Char} {chars : γ → List Char} {result : γ → β}
    {reader : Nat → List Char → Option (List β × List Char)} {parts : List γ} {body : List Char}
    (joined : Joined close (parts.map chars) body)
    (closed : ∀ fuel rest, reader (fuel + 1) (close :: rest) = some ([], rest))
    (last : ∀ part ∈ parts, chars part ≠ [] → ∀ fuel rest, 3 * (chars part).length + 2 ≤ fuel →
      reader (fuel + 1) (chars part ++ close :: rest) = some ([result part], rest))
    (more : ∀ part ∈ parts, ∀ fuel rest, 3 * (chars part).length + 2 ≤ fuel →
      reader (fuel + 1) (chars part ++ ',' :: rest)
        = (reader fuel rest).map fun (behind, rest) => (result part :: behind, rest))
    (fuel : Nat) (rest : List Char) (enough : 3 * body.length + 3 ≤ fuel) :
    reader fuel (body ++ rest) = some (parts.map result, rest) := by
  obtain ⟨fuel, rfl⟩ : ∃ n, fuel = n + 1 := ⟨fuel - 1, by omega⟩
  -- by induction on the parts; each takes one step of fuel, and its value what it needs
  induction parts generalizing body fuel with
  | nil =>
      cases joined
      exact closed fuel rest
  | cons part parts ih =>
      generalize same : List.map chars (part :: parts) = written at joined
      rw [List.map_cons] at same ⊢
      cases joined with
      | none => exact nomatch same
      | last nonempty =>
          obtain ⟨rfl, none⟩ := List.cons.inj same
          obtain rfl := List.map_eq_nil_iff.mp none
          rw [List.length_append, List.length_singleton] at enough
          rw [List.append_assoc, List.singleton_append]
          exact last part List.mem_cons_self nonempty fuel rest (by omega)
      | @more _ body _ joined =>
          obtain ⟨rfl, rfl⟩ := List.cons.inj same
          rw [List.length_append, List.length_cons] at enough
          obtain ⟨fuel, rfl⟩ : ∃ n, fuel = n + 1 := ⟨fuel - 1, by omega⟩
          have behind := ih joined (fun p mem => last p (List.mem_cons_of_mem _ mem))
            (fun p mem => more p (List.mem_cons_of_mem _ mem)) fuel (by omega)
          rw [List.append_assoc, List.cons_append,
            more part List.mem_cons_self (fuel + 1) (body ++ rest) (by omega), behind]
          rfl

/-- Items that are each read are read as a list, by induction on them. -/
theorem items_read {list : List (SettingTree × List Char)} {body : List Char}
    (values : ∀ item ∈ list, IsRead item.1 item.2)
    (heads : ∀ item ∈ list, ∀ c ∈ item.2.head?, c ≠ ']')
    (joined : Joined ']' (list.map Prod.snd) body) (fuel : Nat) (rest : List Char)
    (enough : 3 * body.length + 3 ≤ fuel) :
    items fuel (body ++ rest) = some (list.map Prod.fst, rest) := by
  refine joined.read (fun fuel rest => rfl) ?_ ?_ fuel rest enough
  · intro item mem nonempty fuel rest enough
    rw [items_step fuel (head_append_ne rest (heads item mem) (Or.inl nonempty)),
      (values item mem).mark (by decide) rest enough]
    rfl
  · intro item mem fuel rest enough
    rw [items_step fuel (head_append_ne rest (heads item mem) (Or.inr (by decide))),
      (values item mem).mark (by decide) rest enough]
    rfl

/-- A key begins with neither white space nor a brace. -/
theorem IsKey.head {name : String} {cs : List Char} (h : IsKey name cs) :
    ∃ c rest, cs = c :: rest ∧ isSpace c = false ∧ c ≠ '\x7d' := by
  cases h with
  | quoted quotes => exact ⟨_, _, rfl, rfl, by decide⟩
  | bare nonempty all =>
      obtain ⟨c, rest, rfl⟩ := List.exists_cons_of_ne_nil nonempty
      have isKey : isKeyChar c = true := all c List.mem_cons_self
      refine ⟨c, rest, rfl, Bool.eq_false_iff.mpr fun space => ?_, ?_⟩
      · simp only [isSpace, Bool.or_eq_true, beq_iff_eq] at space
        rcases space with (((rfl | rfl) | rfl) | rfl) | rfl <;> exact nomatch isKey
      · rintro rfl
        exact nomatch isKey

theorem Member.head (m : Member) (h : m.IsNamed) :
    m.chars ≠ [] ∧ ∀ c ∈ m.chars.head?, c ≠ '\x7d' := by
  obtain ⟨c, rest, whole, -, other⟩ := h.name.head
  rw [Member.chars, whole]
  cases before : m.before with
  | nil =>
      refine ⟨nofun, ?_⟩
      rintro d ⟨⟩
      exact other
  | cons b front =>
      have space : isSpace b = true := h.before b (before ▸ List.mem_cons_self)
      refine ⟨nofun, ?_⟩
      rintro d ⟨⟩ rfl
      exact nomatch space

/-- A member's key is read up to the equals sign. -/
theorem Member.read (m : Member) (h : m.IsNamed) (rest : List Char) :
    ((key (skipSpace (m.chars ++ rest))).map fun (name, behind) => (name, skipSpace behind))
      = some (m.entry.1, '=' :: (m.value ++ rest)) := by
  have mark : ∀ c ∈ ('=' :: (m.value ++ rest)).head?, isSpace c = false := by
    rintro c ⟨⟩
    rfl
  have stop : ∀ c ∈ (m.after ++ '=' :: (m.value ++ rest)).head?, isKeyChar c = false := by
    cases after : m.after with
    | nil =>
        rintro c ⟨⟩
        rfl
    | cons a behind =>
        have space : isSpace a = true := h.after a (after ▸ List.mem_cons_self)
        simp only [isSpace, Bool.or_eq_true, beq_iff_eq] at space
        rintro c ⟨⟩
        rcases space with (((rfl | rfl) | rfl) | rfl) | rfl <;> rfl
  obtain ⟨c, tail, whole, visible, -⟩ := h.name.head
  have first : ∀ d ∈ (m.name ++ (m.after ++ '=' :: (m.value ++ rest))).head?,
      isSpace d = false := by
    rw [whole]
    rintro d ⟨⟩
    exact visible
  have parts : m.chars ++ rest
      = m.before ++ (m.name ++ (m.after ++ '=' :: (m.value ++ rest))) := by
    simp only [Member.chars, List.append_assoc, List.cons_append]
  rw [parts, skipSpace_append h.before, skipSpace_of_head first, key_read h.name stop]
  show some (_, skipSpace (m.after ++ _)) = _
  rw [skipSpace_append h.after, skipSpace_of_head mark]

/-- Members are read one by one, each up to a comma or the brace. -/
theorem entries_step (fuel : Nat) (m : Member) (h : m.IsNamed) (rest : List Char) :
    entries (fuel + 1) (m.chars ++ rest) =
      match value fuel (m.value ++ rest) with
      | some (v, ',' :: rest) =>
        (entries fuel rest).map fun (es, rest) => ((m.entry.1, v) :: es, rest)
      | some (v, '\x7d' :: rest) => some ([(m.entry.1, v)], rest)
      | _ => none := by
  obtain ⟨nonempty, head⟩ := m.head h
  obtain ⟨c, tail, whole⟩ := List.exists_cons_of_ne_nil nonempty
  rw [entries.eq_def]
  simp only
  split
  · next same =>
      rw [whole] at head same
      exact absurd (List.cons.inj same).1 (head _ rfl)
  · rw [m.read h]
    rfl

/-- Members whose values are each read are read as a table, by induction on them. -/
theorem entries_read {members : List Member} {body : List Char} (named : ∀ m ∈ members, m.IsNamed)
    (values : ∀ m ∈ members, IsRead m.entry.2 m.value)
    (joined : Joined '\x7d' (members.map Member.chars) body) (fuel : Nat) (rest : List Char)
    (enough : 3 * body.length + 3 ≤ fuel) :
    entries fuel (body ++ rest) = some (members.map Member.entry, rest) := by
  have length (m : Member) : m.value.length ≤ m.chars.length := by
    simp only [Member.chars, List.length_append, List.length_cons]
    omega
  refine joined.read (fun fuel rest => rfl) ?_ ?_ fuel rest enough
  · intro m mem _ fuel rest enough
    have short := length m
    rw [entries_step fuel m (named m mem), (values m mem).mark (by decide) rest (by omega)]
    rfl
  · intro m mem fuel rest enough
    have short := length m
    rw [entries_step fuel m (named m mem), (values m mem).mark (by decide) rest (by omega)]
    rfl

/-- A word whose letters do not stand where a value ends is a prefix of the value if it is one of
    the text. -/
theorem prefix_of_append {word cs rest : List Char} (h : word <+: cs ++ rest)
    (other : ∀ c ∈ rest.head?, c ∉ word) : word <+: cs := by
  by_cases short : word.length ≤ cs.length
  · exact List.prefix_of_prefix_length_le h (List.prefix_append cs rest) short
  · obtain ⟨tail, rfl⟩ := List.prefix_of_prefix_length_le (List.prefix_append cs rest) h
      (Nat.le_of_not_le short)
    have behind : tail <+: rest := (List.prefix_append_right_inj cs).mp h
    cases tail with
    | nil => exact absurd (by rw [List.append_nil]) short
    | cons c tail =>
        obtain ⟨more, rfl⟩ := behind
        exact absurd (List.mem_append_right _ List.mem_cons_self) (other c rfl)

/-- White space, and the marks that end a value. -/
def stops : List Char := [' ', '\t', '\n', '\x0c', '\r', ',', ']', '\x7d']

theorem isSpace_cases {c : Char} (h : isSpace c = true) : c ∈ stops ∧ isSeparator c = false := by
  simp only [isSpace, Bool.or_eq_true, beq_iff_eq] at h
  rcases h with (((rfl | rfl) | rfl) | rfl) | rfl <;> decide

/-- Behind a value stands a character at which it may end. -/
theorem head_mem_stops {after rest : List Char} (spacing : IsSpacing after) (ends : Ends rest) :
    ∀ c ∈ (after ++ skipSpace rest).head?, c ∈ stops := by
  intro c first
  cases after with
  | nil => exact List.mem_append_right [' ', '\t', '\n', '\x0c', '\r'] (ends c first)
  | cons a after =>
      obtain rfl := Option.some.inj first
      exact (isSpace_cases (spacing a List.mem_cons_self)).1

/-- A bare value is where white space has been skipped; what follows it may have lost its own. -/
theorem IsBare.exists_skipSpace {cs : List Char} (h : IsBare cs) (rest : List Char) :
    ∃ after, IsSpacing after ∧ skipSpace (cs ++ rest) = cs ++ (after ++ skipSpace rest) := by
  cases cs with
  | nil => exact ⟨[], nofun, rfl⟩
  | cons c cs =>
      obtain ⟨space, spacing, whole, -⟩ := exists_spacing rest
      refine ⟨space, spacing, ?_⟩
      rw [← whole]
      exact skipSpace_of_head fun c first => (h.head c first).1

/-- A bare value begins like no other form. -/
theorem IsBare.head_notMem {cs behind : List Char} (h : IsBare cs)
    (other : ∀ c ∈ behind.head?, c ∉ ['\x7b', '[', '"', '\'']) :
    ∀ c ∈ (cs ++ behind).head?, c ∉ ['\x7b', '[', '"', '\''] := by
  cases cs with
  | nil => exact other
  | cons c cs =>
      rintro d ⟨⟩ mem
      have inside := h.whole c List.mem_cons_self
      obtain ⟨-, quote, quote'⟩ := h.head c rfl
      simp only [List.mem_cons, List.not_mem_nil, or_false] at mem
      rcases mem with rfl | rfl | rfl | rfl
      · exact nomatch inside
      · exact nomatch inside
      · exact quote rfl
      · exact quote' rfl

/-- Behind a bare value that ends there are white space and marks only. -/
theorem bare_read {cs : List Char} (h : IsBare cs) : IsRead (scalar (trimChars cs)) cs := by
  intro fuel rest ends enough
  obtain ⟨fuel, rfl⟩ : ∃ n, fuel = n + 2 := ⟨fuel - 2, by omega⟩
  obtain ⟨-, -, -, visible⟩ := exists_spacing rest
  obtain ⟨after, spacing, start⟩ := h.exists_skipSpace rest
  -- what follows begins with a mark, which no word contains
  have others {word : List Char} (apart : (stops.all fun c => c ∉ word) = true) :
      ∀ c ∈ (after ++ skipSpace rest).head?, c ∉ word := fun c first =>
    of_decide_eq_true (List.all_eq_true.mp apart c (head_mem_stops spacing ends c first))
  have notTrue := fun word => h.notTrue (prefix_of_append word (others (by decide)))
  have notFalse := fun word => h.notFalse (prefix_of_append word (others (by decide)))
  have first := h.head_notMem (others (by decide))
  have all : ∀ c ∈ cs ++ after, (!isSeparator c) = true := by
    intro c mem
    rw [Bool.not_eq_true']
    exact (List.mem_append.mp mem).elim (h.whole c) fun mem => (isSpace_cases (spacing c mem)).2
  have marks : ∀ c ∈ (skipSpace rest).head?, (!isSeparator c) = false := fun c mark => by
    have apart : ([',', ']', '\x7d'].all isSeparator) = true := by decide
    rw [List.all_eq_true.mp apart c (ends c mark)]
    rfl
  obtain ⟨taken, dropped⟩ := takeWhile_of_head all marks
  rw [List.append_assoc] at taken dropped
  rw [value, start, inner_bare fuel notTrue notFalse first, taken, dropped,
    trimChars_append cs spacing]
  exact congrArg (fun behind => some (_, behind)) (skipSpace_of_head visible)

/-- **READING WHAT IS SPELLED**: a text that stands for a value is read as that value. -/
theorem Spells.read {v : SettingTree} {cs : List Char} (h : Spells v cs) : IsRead v cs := by
  induction h with
  | yes | no | char =>
      intro fuel rest ends enough
      obtain ⟨fuel, rfl⟩ : ∃ n, fuel = n + 2 := ⟨fuel - 2, by omega⟩
      rfl
  | @quoted s body quotes =>
      intro fuel rest ends enough
      obtain ⟨fuel, rfl⟩ : ∃ n, fuel = n + 2 := ⟨fuel - 2, by omega⟩
      show Option.map _ (Option.map _ (Option.map _ (readQuoted _ (body ++ rest)))) = _
      simp [quotes.read]
  | @list list body values joined ih =>
      intro fuel rest ends enough
      rw [List.length_cons] at enough
      obtain ⟨fuel, rfl⟩ : ∃ n, fuel = n + 2 := ⟨fuel - 2, by omega⟩
      have heads : ∀ item ∈ list, ∀ c ∈ item.2.head?, c ≠ ']' := fun item mem c first same =>
        (values item mem).head c first (by simp [same])
      show Option.map _ (Option.map _ (items fuel (body ++ rest))) = _
      rw [items_read ih heads joined fuel rest (by omega)]
      rfl
  | @table members body named values joined ih =>
      intro fuel rest ends enough
      rw [List.length_cons] at enough
      obtain ⟨fuel, rfl⟩ : ∃ n, fuel = n + 2 := ⟨fuel - 2, by omega⟩
      show Option.map _ (Option.map _ (entries fuel (body ++ rest))) = _
      rw [entries_read named ih joined fuel rest (by omega)]
      rfl
  | bare bare => exact bare_read bare
  | @spaced v before cs after front back spelled ih =>
      intro fuel rest ends enough
      rw [List.length_append, List.length_append] at enough
      have behind : skipSpace (after ++ rest) = skipSpace rest := skipSpace_append back rest
      have read := ih fuel (after ++ rest) (by rwa [Ends, behind]) (by omega)
      rw [List.append_assoc, List.append_assoc, value_skipSpace fuel front, read, behind]

/-! ## Spelling what was read -/

/-- Whether readers with some fuel take nothing but what stands for what they give. -/
structure IsSound (fuel : Nat) : Prop where
  inner : ∀ {cs : List Char} {v : SettingTree} {rest : List Char},
    inner fuel cs = some (v, rest) → (∀ c ∈ cs.head?, isSpace c = false) →
    ∃ part, cs = part ++ rest ∧ Spells v part
  value : ∀ {cs : List Char} {v : SettingTree} {rest : List Char},
    value fuel cs = some (v, rest) → ∃ part, cs = part ++ rest ∧ Spells v part
  items : ∀ {cs : List Char} {vs : List SettingTree} {rest : List Char},
    items fuel cs = some (vs, rest) →
    ∃ (list : List (SettingTree × List Char)) (body : List Char), cs = body ++ rest ∧
      vs = list.map Prod.fst ∧ (∀ item ∈ list, Spells item.1 item.2) ∧
      Joined ']' (list.map Prod.snd) body
  entries : ∀ {cs : List Char} {es : List (String × SettingTree)} {rest : List Char},
    entries fuel cs = some (es, rest) →
    ∃ (members : List Member) (body : List Char), cs = body ++ rest ∧
      es = members.map Member.entry ∧ (∀ m ∈ members, m.IsNamed) ∧
      (∀ m ∈ members, Spells m.entry.2 m.value) ∧ Joined '\x7d' (members.map Member.chars) body

/-- What was read as a quoted text spells it. -/
theorem quoted_sound {cs rest : List Char} {s : String} (h : quoted cs = some (s, rest)) :
    ∃ body, cs = body ++ rest ∧ Quotes (fun _ => true) s.toList body := by
  obtain ⟨⟨text, behind⟩, read, same⟩ := Option.map_eq_some_iff.mp h
  obtain ⟨rfl, rfl⟩ := Prod.mk.inj same
  rw [String.toList_ofList]
  exact readQuoted_eq_some_iff.mp read

/-- What was read as a key spells it. -/
theorem key_sound {name : String} {cs rest : List Char} (h : key cs = some (name, rest)) :
    ∃ part, cs = part ++ rest ∧ IsKey name part := by
  rw [key.eq_def] at h
  split at h
  · obtain ⟨body, rfl, quotes⟩ := quoted_sound h
    exact ⟨_, rfl, .quoted quotes⟩
  · simp only at h
    split at h
    · exact nomatch h
    · next nonempty =>
        obtain ⟨rfl, rfl⟩ := Prod.mk.inj (Option.some.inj h)
        exact ⟨cs.takeWhile isKeyChar, List.takeWhile_append_dropWhile.symm,
          .bare (by simpa using nonempty) fun c mem => List.mem_takeWhile_imp mem⟩

/-- Up to its first separator, a text that begins like no other form is a bare value. -/
theorem isBare_takeWhile {cs : List Char} (visible : ∀ c ∈ cs.head?, isSpace c = false)
    (noQuote : ∀ rest, cs ≠ '"' :: rest) (noChar : ∀ rest, cs ≠ '\'' :: rest)
    (notTrue : ¬['t', 'r', 'u', 'e'] <+: cs) (notFalse : ¬['f', 'a', 'l', 's', 'e'] <+: cs) :
    IsBare (cs.takeWhile fun c => !isSeparator c) := by
  have front : (cs.takeWhile fun c => !isSeparator c) <+: cs := List.takeWhile_prefix _
  constructor
  case whole => exact fun c mem => by simpa using List.mem_takeWhile_imp mem
  case head =>
    intro c first
    obtain ⟨tail, whole⟩ := List.head?_eq_some_iff.mp (Option.mem_def.mp first)
    obtain ⟨behind, same⟩ := whole ▸ front
    refine ⟨visible c (same ▸ rfl), ?_, ?_⟩
    · rintro rfl
      exact noQuote _ same.symm
    · rintro rfl
      exact noChar _ same.symm
  case notTrue => exact fun word => notTrue (word.trans front)
  case notFalse => exact fun word => notFalse (word.trans front)

section Sound

variable {fuel : Nat} (ih : IsSound fuel) {cs rest : List Char} {v : SettingTree}
include ih

/-- What was read as a value spells it, with white space around it. -/
theorem value_sound (h : value (fuel + 1) cs = some (v, rest)) :
    ∃ part, cs = part ++ rest ∧ Spells v part := by
  obtain ⟨⟨w, behind⟩, read, same⟩ := Option.map_eq_some_iff.mp h
  obtain ⟨rfl, rfl⟩ := Prod.mk.inj same
  obtain ⟨before, front, whole, visible⟩ := exists_spacing cs
  obtain ⟨after, back, behindWhole, -⟩ := exists_spacing behind
  obtain ⟨part, core, spelled⟩ := ih.inner read visible
  refine ⟨before ++ (part ++ after), ?_, .spaced front back spelled⟩
  rw [List.append_assoc, List.append_assoc, ← behindWhole, ← core]
  exact whole

/-- What was read as a value without white space spells it. -/
theorem inner_sound (h : inner (fuel + 1) cs = some (v, rest))
    (visible : ∀ c ∈ cs.head?, isSpace c = false) : ∃ part, cs = part ++ rest ∧ Spells v part := by
  rw [inner.eq_def] at h
  simp only at h
  split at h
  · obtain ⟨rfl, rfl⟩ := Prod.mk.inj (Option.some.inj h)
    exact ⟨_, rfl, .yes⟩
  · obtain ⟨rfl, rfl⟩ := Prod.mk.inj (Option.some.inj h)
    exact ⟨_, rfl, .no⟩
  · obtain ⟨⟨es, behind⟩, read, same⟩ := Option.map_eq_some_iff.mp h
    obtain ⟨rfl, rfl⟩ := Prod.mk.inj same
    obtain ⟨members, body, rfl, rfl, named, values, joined⟩ := ih.entries read
    exact ⟨_, rfl, .table named values joined⟩
  · obtain ⟨⟨vs, behind⟩, read, same⟩ := Option.map_eq_some_iff.mp h
    obtain ⟨rfl, rfl⟩ := Prod.mk.inj same
    obtain ⟨list, body, rfl, rfl, values, joined⟩ := ih.items read
    exact ⟨_, rfl, .list values joined⟩
  · obtain ⟨⟨s, behind⟩, read, same⟩ := Option.map_eq_some_iff.mp h
    obtain ⟨rfl, rfl⟩ := Prod.mk.inj same
    obtain ⟨body, rfl, quotes⟩ := quoted_sound read
    exact ⟨_, rfl, .quoted quotes⟩
  · obtain ⟨rfl, rfl⟩ := Prod.mk.inj (Option.some.inj h)
    exact ⟨_, rfl, .char _⟩
  · exact nomatch h
  · next notTrue notFalse _ _ noQuote _ noChar =>
      obtain ⟨rfl, rfl⟩ := Prod.mk.inj (Option.some.inj h)
      refine ⟨_, List.takeWhile_append_dropWhile.symm,
        .bare (isBare_takeWhile visible noQuote noChar ?_ ?_)⟩
      · rintro ⟨behind, same⟩
        exact notTrue _ same.symm
      · rintro ⟨behind, same⟩
        exact notFalse _ same.symm

/-- What was read as the items of a list spells them, joined by commas. -/
theorem items_sound {vs : List SettingTree} (h : items (fuel + 1) cs = some (vs, rest)) :
    ∃ (list : List (SettingTree × List Char)) (body : List Char), cs = body ++ rest ∧
      vs = list.map Prod.fst ∧ (∀ item ∈ list, Spells item.1 item.2) ∧
      Joined ']' (list.map Prod.snd) body := by
  rw [items.eq_def] at h
  simp only at h
  split at h
  · obtain ⟨rfl, rfl⟩ := Prod.mk.inj (Option.some.inj h)
    exact ⟨[], [']'], rfl, rfl, nofun, .none⟩
  · next noBracket =>
      split at h
      · next v behind read =>
          obtain ⟨part, rfl, spelled⟩ := ih.value read
          obtain ⟨⟨vs, behind⟩, more, same⟩ := Option.map_eq_some_iff.mp h
          obtain ⟨rfl, rfl⟩ := Prod.mk.inj same
          obtain ⟨list, body, rfl, rfl, values, joined⟩ := ih.items more
          exact ⟨(v, part) :: list, part ++ ',' :: body, by simp, rfl,
            List.forall_mem_cons.mpr ⟨spelled, values⟩, .more joined⟩
      · next v behind read =>
          obtain ⟨part, rfl, spelled⟩ := ih.value read
          obtain ⟨rfl, rfl⟩ := Prod.mk.inj (Option.some.inj h)
          have nonempty : part ≠ [] := by
            rintro rfl
            exact noBracket _ rfl
          exact ⟨[(v, part)], part ++ [']'], by simp, rfl,
            List.forall_mem_cons.mpr ⟨spelled, nofun⟩, .last nonempty⟩
      · exact nomatch h

/-- What was read as the members of a table spells them, joined by commas. -/
theorem entries_sound {es : List (String × SettingTree)}
    (h : entries (fuel + 1) cs = some (es, rest)) :
    ∃ (members : List Member) (body : List Char), cs = body ++ rest ∧
      es = members.map Member.entry ∧ (∀ m ∈ members, m.IsNamed) ∧
      (∀ m ∈ members, Spells m.entry.2 m.value) ∧
      Joined '\x7d' (members.map Member.chars) body := by
  rw [entries.eq_def] at h
  simp only at h
  split at h
  · obtain ⟨rfl, rfl⟩ := Prod.mk.inj (Option.some.inj h)
    exact ⟨[], ['\x7d'], rfl, rfl, nofun, nofun, .none⟩
  · split at h
    · next found tail read =>
        obtain ⟨⟨name, behind⟩, isKey, same⟩ := Option.map_eq_some_iff.mp read
        obtain ⟨rfl, mark⟩ := Prod.mk.inj same
        obtain ⟨before, front, whole, -⟩ := exists_spacing cs
        obtain ⟨after, back, behindWhole, -⟩ := exists_spacing behind
        obtain ⟨part, core, isKey⟩ := key_sound isKey
        rw [core, behindWhole, mark] at whole
        split at h
        · next v behind read =>
            obtain ⟨value, rfl, spelled⟩ := ih.value read
            obtain ⟨⟨es, behind⟩, more, same⟩ := Option.map_eq_some_iff.mp h
            obtain ⟨rfl, rfl⟩ := Prod.mk.inj same
            obtain ⟨members, body, rfl, rfl, named, values, joined⟩ := ih.entries more
            let m : Member := ⟨(name, v), before, part, after, value⟩
            exact ⟨m :: members, m.chars ++ ',' :: body, by simp [whole, m, Member.chars], rfl,
              List.forall_mem_cons.mpr ⟨⟨front, isKey, back⟩, named⟩,
              List.forall_mem_cons.mpr ⟨spelled, values⟩, .more joined⟩
        · next v behind read =>
            obtain ⟨value, rfl, spelled⟩ := ih.value read
            obtain ⟨rfl, rfl⟩ := Prod.mk.inj (Option.some.inj h)
            let m : Member := ⟨(name, v), before, part, after, value⟩
            have named : m.IsNamed := ⟨front, isKey, back⟩
            exact ⟨[m], m.chars ++ ['\x7d'], by simp [whole, m, Member.chars], rfl,
              List.forall_mem_cons.mpr ⟨named, nofun⟩,
              List.forall_mem_cons.mpr ⟨spelled, nofun⟩, .last (m.head named).1⟩
        · exact nomatch h
    · exact nomatch h

end Sound

/-- **SPELLING WHAT WAS READ**: with any fuel, what a value is read from stands for it. -/
theorem isSound (fuel : Nat) : IsSound fuel := by
  induction fuel with
  | zero => exact ⟨nofun, nofun, nofun, nofun⟩
  | succ fuel ih => exact ⟨inner_sound ih, value_sound ih, items_sound ih, entries_sound ih⟩

/-! ## What texts stand for -/

/-- A whole text is read with the fuel at hand exactly as what it spells. -/
theorem value_eq_some_iff {cs : List Char} {v : SettingTree} :
    value (3 * cs.length + 3) cs = some (v, []) ↔ Spells v cs := by
  constructor
  · intro h
    obtain ⟨part, whole, spelled⟩ := (isSound _).value h
    rwa [whole, List.append_nil]
  · intro h
    have read := h.read (3 * cs.length + 3) [] nofun (by omega)
    rwa [List.append_nil] at read

/-- No text stands for two values. -/
theorem Spells.unique {cs : List Char} {v w : SettingTree} (h : Spells v cs) (h' : Spells w cs) :
    v = w := by
  have same := (value_eq_some_iff.mpr h).symm.trans (value_eq_some_iff.mpr h')
  exact (Prod.mk.inj (Option.some.inj same)).1

/-- **A TEXT THAT SPELLS A VALUE** stands for that value. -/
theorem ofText_of_spells {text : String} {v : SettingTree} (h : Spells v (trimChars text.toList)) :
    ofText text = v := by
  rw [ofText]
  simp only [value_eq_some_iff.mpr h]

/-- **A TEXT THAT SPELLS NO VALUE** stands for itself. -/
theorem ofText_of_not_spells {text : String} (h : ∀ v, ¬Spells v (trimChars text.toList)) :
    ofText text = .text (trim text) := by
  rw [ofText]
  split
  · next v read => exact absurd (value_eq_some_iff.mp read) (h v)
  · rfl

/-- A text without white space around it stands for itself if it spells no other value. -/
theorem ofText_eq_text_iff {text : String} (trimmed : trim text = text) :
    ofText text = .text text ↔ ∀ v, Spells v text.toList → v = .text text := by
  have whole : trimChars text.toList = text.toList := by
    rw [← String.toList_ofList (l := trimChars _)]
    exact congrArg String.toList trimmed
  constructor
  · intro h v spelled
    rw [← h]
    exact (ofText_of_spells (whole.symm ▸ spelled)).symm
  · intro h
    by_cases some : ∃ v, Spells v text.toList
    · obtain ⟨v, spelled⟩ := some
      rw [ofText_of_spells (whole.symm ▸ spelled), h v spelled]
    · rw [ofText_of_not_spells fun v spelled => some ⟨v, whole ▸ spelled⟩, trimmed]

end Courier.Variable
