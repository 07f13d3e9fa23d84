import Mathlib.Data.List.Nodup
import Courier.Proofs.Json.Bracket
import Courier.Proofs.Json.Skip

/-! # Values and their readers — whatever spells a value is read as it

    A reader READS a type through the trees of its values when it gives a
    value back from every text that spells its tree.  For texts and numbers
    this is what their readers do with one token.  A list is read where its
    items are.  A record is read where each of its fields is read and stored
    in its place: the loop over the members keeps the fields that it has
    seen as they are to be and the others as they were, whatever the order,
    and passes over the members that are not the record's. -/

namespace Courier.Json

open Utf8 Reader

variable {α : Type} {omits : Bool}

/-! ## Heads -/

/-- A whole number in decimal is a JSON value. -/
theorem isValue_int (n : Int) : IsValue (toString n).toList := by
  have unsigned (n : Nat) : IsUnsigned (Nat.toDigits 10 n) := by
    have parts := IsUnsigned.parts (isWhole_toDigits n) .none .none
    rwa [List.append_nil, List.append_nil] at parts
  cases n with
  | ofNat n =>
      rw [show (toString (Int.ofNat n)).toList = Nat.toDigits 10 n from String.toList_ofList]
      exact .unsigned (unsigned n)
  | negSucc n =>
      rw [toList_toString_negSucc]
      exact .negative (unsigned (n + 1))

/-- The first byte of a spelling is no white space and does not close a list. -/
theorem Spells.head {v : Value} {cs : List Char} (h : Spells omits v cs) :
    BeginsItem (encode cs) := by
  have value {cs : List Char} (h : IsValue cs) : BeginsItem (encode cs) := by
    obtain ⟨c, ds, rfl, small, noSpace, noEnd, -⟩ := h.head
    exact ⟨_, _, encode_ascii small ds, noSpace, noEnd⟩
  cases h with
  | null => exact value (.word (by decide))
  | bool b =>
      cases b with
      | true => exact value (.word (by decide))
      | false => exact value (.word (by decide))
  | int n => exact value (isValue_int n)
  | text form =>
      obtain ⟨bs, head⟩ := form.head
      exact ⟨_, bs, head, by decide, by decide⟩
  | list => exact ⟨_, _, encode_ascii (by decide) _, by decide, by decide⟩
  | object => exact ⟨_, _, encode_ascii (by decide) _, by decide, by decide⟩

/-! ## Texts and numbers -/

/-- `r` gives a value back from every text that spells its tree, behind any white space. -/
def Reader.Reads (omits : Bool) (r : Reader α) (value : α → Value) : Prop :=
  ∀ a cs, Spells omits (value a) cs → ∀ ws, IsSpacing ws → r.TakesBefore (encode (ws ++ cs)) a

theorem reads_text : text.Reads omits .text := by
  intro s cs spelled ws space
  cases spelled with
  | text form => exact (takes_text space form).before

theorem reads_int32 : int32.Reads omits fun n => .int n.toInt := by
  intro n cs spelled ws space
  cases spelled with
  | int => exact takes_int32 n space

/-! ## Lists -/

section Lists

variable {r : Reader α} {value : α → Value}

/-- Items as they are written, one for each value of a list. -/
structure Listed (omits : Bool) (value : α → Value) (as : List α)
    (items : List (Value × Spaced)) : Prop where
  all : items.map Prod.fst = as.map value
  spaced : ∀ item ∈ items, item.2.IsSpaced
  spelled : ∀ item ∈ items, Spells omits item.1 item.2.core

/-- The first of the listed items spells the first value. -/
theorem Listed.first {a : α} {as : List α} {item : Value × Spaced} {items : List (Value × Spaced)}
    (h : Listed omits value (a :: as) (item :: items)) :
    item.2.IsSpaced ∧ Spells omits (value a) item.2.core := by
  obtain ⟨same, -⟩ := List.cons.inj h.all
  rw [← same]
  exact ⟨h.spaced item List.mem_cons_self, h.spelled item List.mem_cons_self⟩

/-- The other items list the other values. -/
theorem Listed.rest {a : α} {as : List α} {item : Value × Spaced} {items : List (Value × Spaced)}
    (h : Listed omits value (a :: as) (item :: items)) : Listed omits value as items where
  all := (List.cons.inj h.all).2
  spaced i mem := h.spaced i (List.mem_cons_of_mem _ mem)
  spelled i mem := h.spelled i (List.mem_cons_of_mem _ mem)

/-- The items behind the first as they are written, each with its comma. -/
def laterItems (items : List (Value × Spaced)) : List Char :=
  (items.map fun item => item.2.chars).flatMap (',' :: ·)

/-- The later items are each behind a comma. -/
theorem laterItems_cons (item : Value × Spaced) (items : List (Value × Spaced)) :
    laterItems (item :: items)
      = ',' :: (item.2.before ++ (item.2.core ++ (item.2.after ++ laterItems items))) := by
  simp only [laterItems, List.map_cons, List.flatMap_cons, Spaced.chars, List.cons_append,
    List.append_assoc]

/-- The items of a list end what stands before them. -/
theorem ends_laterItems {after : List Char} (space : IsSpacing after)
    (items : List (Value × Spaced)) (rest : List UInt8) :
    Ends (encode (after ++ laterItems items) ++ ascii ']' :: rest) :=
  ends_parts .list space _ rest

/-- The items from one that is ahead on, where reading the later ones is known. -/
theorem items_of_more (h : r.Reads omits value) {a : α} {core : List Char}
    (spelled : Spells omits (value a) core) {first : Bool} {x : UInt8} {fuel rest : List UInt8}
    (ends : Ends rest) {c d : Cursor} {p : Place} {as : List α}
    (more : moreItems first c = (.ok true, ⟨encode core ++ rest, p⟩))
    (later : ∀ q, ∃ q', items r fuel false ⟨rest, q⟩ = (.ok as, { d with place := q' })) :
    ∃ q', items r (x :: fuel) first c = (.ok (a :: as), { d with place := q' }) := by
  obtain ⟨q, item⟩ := h a core spelled [] isSpacing_nil rest ends p
  obtain ⟨q', others⟩ := later q
  refine ⟨q', ?_⟩
  rw [List.nil_append] at item
  rw [items, bind_of_ok _ more, if_pos rfl, bind_of_ok _ item, bind_of_ok _ others]
  rfl

/-- The items behind the first are read up to the closing. -/
theorem items_later (h : r.Reads omits value) (rest : List UInt8) {as : List α} :
    ∀ {written : List (Value × Spaced)}, Listed omits value as written →
    ∀ fuel : List UInt8, as.length < fuel.length → ∀ after, IsSpacing after → ∀ p,
      ∃ p', items r fuel false ⟨encode (after ++ laterItems written) ++ ascii ']' :: rest, p⟩
        = (.ok as, ⟨ascii ']' :: rest, p'⟩) := by
  -- on the values, with the items that are written for them alongside
  induction as with
  | nil =>
      intro written listed fuel enough after space p
      obtain ⟨x, fuel, rfl⟩ := List.exists_cons_of_length_pos (Nat.zero_lt_of_lt enough)
      refine ⟨(encode after).foldl Place.after p, ?_⟩
      rw [List.map_eq_nil_iff.mp listed.all]
      show items r (x :: fuel) false ⟨encode (after ++ []) ++ ascii ']' :: rest, p⟩ = _
      rw [List.append_nil, items, bind_of_ok _ (moreItems_end false space rest p),
        if_neg Bool.false_ne_true]
      rfl
  | cons a as ih =>
      intro written listed fuel enough after space p
      obtain ⟨x, fuel, rfl⟩ := List.exists_cons_of_length_pos (Nat.zero_lt_of_lt enough)
      cases written with
      | nil => exact nomatch listed.all
      | cons item written =>
          obtain ⟨spaced, spelled⟩ := listed.first
          obtain ⟨q, more⟩ := moreItems_later space spaced.1 (spelled.head.append
            (encode (item.2.after ++ laterItems written) ++ ascii ']' :: rest)) p
          have form : encode (after ++ laterItems (item :: written)) ++ ascii ']' :: rest
              = encode after ++ ascii ',' :: (encode item.2.before ++ (encode item.2.core ++
                (encode (item.2.after ++ laterItems written) ++ ascii ']' :: rest))) := by
            simp only [laterItems_cons, encode_append,
              encode_ascii (show ','.toNat < 0x80 by decide), List.cons_append,
              List.append_assoc]
          rw [form]
          exact items_of_more (d := ⟨ascii ']' :: rest, p⟩) h spelled
            (ends_laterItems spaced.2 written rest) more
            (ih listed.rest fuel (Nat.lt_of_succ_lt_succ enough) item.2.after spaced.2)

/-- All items are read up to the closing. -/
theorem items_first (h : r.Reads omits value) {as : List α} {written : List (Value × Spaced)}
    (listed : Listed omits value as written) {gap : List Char} (space : IsSpacing gap)
    (rest : List UInt8) {fuel : List UInt8} (enough : as.length < fuel.length) (p : Place) :
    ∃ p', items r fuel true
        ⟨encode (gap ++ commaSeparated (written.map fun item => item.2.chars))
          ++ ascii ']' :: rest, p⟩
      = (.ok as, ⟨ascii ']' :: rest, p'⟩) := by
  obtain ⟨x, fuel, rfl⟩ := List.exists_cons_of_length_pos (Nat.zero_lt_of_lt enough)
  cases as with
  | nil =>
      refine ⟨(encode gap).foldl Place.after p, ?_⟩
      rw [List.map_eq_nil_iff.mp listed.all]
      show items r (x :: fuel) true ⟨encode (gap ++ []) ++ ascii ']' :: rest, p⟩ = _
      rw [List.append_nil, items, bind_of_ok _ (moreItems_end true space rest p),
        if_neg Bool.false_ne_true]
      rfl
  | cons a as =>
      cases written with
      | nil => exact nomatch listed.all
      | cons item written =>
          obtain ⟨spaced, spelled⟩ := listed.first
          have more := moreItems_first (space.append spaced.1) (spelled.head.append
            (encode (item.2.after ++ laterItems written) ++ ascii ']' :: rest)) p
          have form : encode (gap ++ commaSeparated
                ((item :: written).map fun item => item.2.chars)) ++ ascii ']' :: rest
              = encode (gap ++ item.2.before) ++ (encode item.2.core ++
                (encode (item.2.after ++ laterItems written) ++ ascii ']' :: rest)) := by
            simp only [List.map_cons, commaSeparated_cons, laterItems, Spaced.chars,
              encode_append, List.append_assoc]
          rw [form]
          exact items_of_more (d := ⟨ascii ']' :: rest, p⟩) h spelled
            (ends_laterItems spaced.2 written rest) more
            (items_later h rest listed.rest fuel (Nat.lt_of_succ_lt_succ enough) item.2.after
              spaced.2)

/-- **LISTS**: a list is read where its items are. -/
theorem Reader.Reads.list (h : r.Reads omits value) :
    (list r).Reads omits fun as => .list (as.map value) := by
  intro as cs spelled ws spaceBefore rest ends place
  cases spelled with
  | @list _ gap written all space spaced spelled =>
      have enough : as.length
          < (encode (gap ++ commaSeparated (written.map fun item => item.2.chars))
              ++ ascii ']' :: rest).length := by
        -- every item has a first byte, so the bytes ahead are fuel enough
        have some : ∀ part ∈ written.map fun item => item.2.chars, part ≠ [] := by
          refine List.forall_mem_map.mpr fun item listed none => ?_
          obtain ⟨b, bs, head, -⟩ := (spelled item listed).head
          rw [(List.append_eq_nil_iff.mp (List.append_eq_nil_iff.mp none).2).1] at head
          exact nomatch head
        have same := congrArg List.length all
        rw [List.length_map, List.length_map] at same
        have few := length_lt_encode_parts some gap (ascii ']') rest
        rwa [List.length_map, same] at few
      obtain ⟨p, read⟩ := items_first h ⟨all, spaced, spelled⟩ space rest enough
        (((encode ws).foldl Place.after place).after (ascii '['))
      obtain ⟨q, closed⟩ := takes_listEnd rest p
      refine ⟨q, ?_⟩
      rw [encode_bracketed (by decide), Json.list,
        bind_of_ok _ (valueStart_spacing spaceBefore (by decide) _ _), if_pos (by decide)]
      exact placed_of_ok (closedBy_of_ok read closed)

end Lists

/-! ## Members -/

/-- The members with another value for the one of a name. -/
def put (name : String) (v : Value) (members : List (String × Value)) : List (String × Value) :=
  members.map fun m => if m.1 = name then (m.1, v) else m

/-- The members with those that have not been seen emptied. -/
def seenOf (seen : List String) (members : List (String × Value)) : List (String × Value) :=
  members.map fun m => if m.1 ∈ seen then m else (m.1, m.2.emptied)

theorem seenOf_nil (members : List (String × Value)) :
    seenOf [] members = emptiedMembers members := by
  induction members with
  | nil => rfl
  | cons m members ih =>
      show (if m.1 ∈ [] then m else (m.1, m.2.emptied)) :: seenOf [] members = _
      rw [ih, if_neg List.not_mem_nil]
      rfl

/-- Putting the value of one more member is seeing that member. -/
theorem put_seenOf {members : List (String × Value)} (distinct : (members.map Prod.fst).Nodup)
    {name : String} {v : Value} (own : (name, v) ∈ members) (seen : List String) :
    put name v (seenOf seen members) = seenOf (name :: seen) members := by
  rw [put, seenOf, seenOf, List.map_map]
  refine List.map_congr_left fun m listed => ?_
  have kept : (if m.1 ∈ seen then m else (m.1, m.2.emptied)).1 = m.1 := by
    split
    · rfl
    · rfl
  rw [Function.comp_apply, kept]
  by_cases same : m.1 = name
  · have found : m = (name, v) := List.inj_on_of_nodup_map distinct listed own same
    rw [if_pos same, if_pos (by rw [same]; exact List.mem_cons_self), found]
  · rw [if_neg same]
    by_cases before : m.1 ∈ seen
    · rw [if_pos before, if_pos (List.mem_cons_of_mem _ before)]
    · rw [if_neg before, if_neg (List.not_mem_cons_of_ne_of_not_mem same before)]

/-- Where no member is left that holds anything, all are as they are to be. -/
theorem seenOf_all {seen : List String} {members : List (String × Value)}
    (all : ∀ m ∈ members, m.1 ∈ seen ∨ m.2.emptied = m.2) : seenOf seen members = members := by
  have same : ∀ m ∈ members, (if m.1 ∈ seen then m else (m.1, m.2.emptied)) = m := by
    intro m listed
    split
    · rfl
    · next unseen =>
        rcases all m listed with seen | empty
        · exact absurd seen unseen
        · rw [empty]
  rw [seenOf, List.map_congr_left same, List.map_id']

/-! ## Records -/

section Records

variable {σ : Type} {shown : σ → List (String × Value)} {l : Layout σ}

/-- A field of the records that `shown` shows: from whatever spells its value a step is read that
    puts this value, and leaves every other member as it is. -/
def Member.Sets (f : Member σ) (omits : Bool) (shown : σ → List (String × Value)) : Prop :=
  ∀ a v, (f.name, v) ∈ shown a → ∀ cs, Spells omits v cs → ∀ ws, IsSpacing ws →
    ∃ store, f.read.TakesBefore (encode (ws ++ cs)) store ∧
      ∀ record, shown (store record) = put f.name v (shown record)

/-- A field is set where its type is read, and what is read is stored in its place. -/
theorem Reader.Reads.sets {r : Reader α} {value : α → Value} (h : r.Reads omits value)
    {name : String} {optional : Bool} {store : α → σ → σ} (part : σ → α)
    (own : ∀ a v, (name, v) ∈ shown a → v = value (part a))
    (puts : ∀ b record, shown (store b record) = put name (value b) (shown record)) :
    Member.Sets ⟨name, optional, do let b ← r; pure (store b)⟩ omits shown := by
  intro a v mem cs spelled ws space
  obtain rfl := own a v mem
  exact ⟨store (part a), (h (part a) cs spelled ws space).map store, puts (part a)⟩

/-- What makes a layout that of the records that `shown` shows: the same names, each of them once,
    fields that are set, and a blank record that holds nothing; the members determine the record. -/
structure Layout.Shows (l : Layout σ) (omits : Bool) (shown : σ → List (String × Value)) :
    Prop where
  names : ∀ a, (shown a).map Prod.fst = l.fields.map Member.name
  distinct : (l.fields.map Member.name).Nodup
  optional : omits = true → ∀ f ∈ l.fields, f.optional = true
  sets : ∀ f ∈ l.fields, f.Sets omits shown
  blank : ∀ a, shown l.blank = emptiedMembers (shown a)
  determines : ∀ a b, shown a = shown b → a = b

/-- Where reading the members of `a` stands: `entries` are still ahead, and `record` holds the
    members that have been seen and no others. -/
structure Reading (omits : Bool) (shown : σ → List (String × Value)) (a : σ)
    (seen : List String) (record : σ) (entries : List Entry) : Prop where
  fits : ∀ e ∈ entries, e.Fits omits (shown a)
  once : entries.Pairwise fun e f => e.own.isSome = true → e.name ≠ f.name
  fresh : ∀ e ∈ entries, e.name ∉ seen
  whole : ∀ member ∈ shown a, member.1 ∈ seen ∨ (∃ e ∈ entries, e.name = member.1) ∨
    (omits = true ∧ member.2.emptied = member.2)
  laid : shown record = seenOf seen (shown a)

/-- Behind a member of the record it has been seen and is stored. -/
theorem Reading.stored (laws : l.Shows omits shown) {a record : σ} {seen : List String}
    {e : Entry} {entries : List Entry} (h : Reading omits shown a seen record (e :: entries))
    {v : Value} (own : e.own = some v) {record' : σ}
    (stored : shown record' = put e.name v (shown record)) :
    Reading omits shown a (e.name :: seen) record' entries where
  fits f mem := h.fits f (List.mem_cons_of_mem _ mem)
  once := (List.pairwise_cons.mp h.once).2
  fresh f mem := by
    have other := (List.pairwise_cons.mp h.once).1 f mem (by rw [own]; rfl)
    exact List.not_mem_cons_of_ne_of_not_mem (Ne.symm other)
      (h.fresh f (List.mem_cons_of_mem _ mem))
  whole member mem := by
    rcases h.whole member mem with seen | ⟨f, listed, same⟩ | empty
    · exact Or.inl (List.mem_cons_of_mem _ seen)
    · rcases List.mem_cons.mp listed with rfl | listed
      · exact Or.inl (by rw [← same]; exact List.mem_cons_self)
      · exact Or.inr (Or.inl ⟨f, listed, same⟩)
    · exact Or.inr (Or.inr empty)
  laid := by
    have distinct : ((shown a).map Prod.fst).Nodup := by
      rw [laws.names]
      exact laws.distinct
    have mem := ((h.fits e List.mem_cons_self).own v own).1
    rw [stored, h.laid, put_seenOf distinct mem]

/-- Behind a member that was added nothing has changed. -/
theorem Reading.passed {a record : σ} {seen : List String} {e : Entry} {entries : List Entry}
    (h : Reading omits shown a seen record (e :: entries)) (added : e.own = none) :
    Reading omits shown a seen record entries where
  fits f mem := h.fits f (List.mem_cons_of_mem _ mem)
  once := (List.pairwise_cons.mp h.once).2
  fresh f mem := h.fresh f (List.mem_cons_of_mem _ mem)
  whole member mem := by
    rcases h.whole member mem with seen | ⟨f, listed, same⟩ | empty
    · exact Or.inl seen
    · rcases List.mem_cons.mp listed with rfl | listed
      · refine absurd ?_ ((h.fits f List.mem_cons_self).added added).1
        rw [same]
        exact List.mem_map_of_mem mem
      · exact Or.inr (Or.inl ⟨f, listed, same⟩)
    · exact Or.inr (Or.inr empty)
  laid := h.laid

/-- Where nothing is ahead, no field is missing and the record is whole. -/
theorem Reading.finished (laws : l.Shows omits shown) {a record : σ} {seen : List String}
    (h : Reading omits shown a seen record []) :
    l.firstMissing? seen = none ∧ record = a := by
  -- with no member ahead, one that has not been seen is empty and may be left out
  have whole : ∀ member ∈ shown a, member.1 ∈ seen ∨
      (omits = true ∧ member.2.emptied = member.2) := by
    intro member mem
    rcases h.whole member mem with seen | ⟨f, none, -⟩ | empty
    · exact Or.inl seen
    · exact nomatch none
    · exact Or.inr empty
  constructor
  · rw [Layout.firstMissing?, Option.map_eq_none_iff, List.find?_eq_none]
    intro f listed
    have named : f.name ∈ (shown a).map Prod.fst := by
      rw [laws.names]
      exact List.mem_map_of_mem listed
    obtain ⟨member, mem, same⟩ := List.mem_map.mp named
    rcases whole member mem with seen | ⟨omitted, -⟩
    · rw [same] at seen
      simp [seen]
    · simp [laws.optional omitted f listed]
  · refine laws.determines record a (h.laid.trans (seenOf_all ?_))
    intro member mem
    exact (whole member mem).imp id And.right

/-- A member begins with the quote of its name. -/
theorem Entry.Fits.quote {members : List (String × Value)} {e : Entry}
    (h : e.Fits omits members) (rest : List UInt8) :
    ∃ u, encode e.pair.inner ++ rest = ascii '"' :: u := by
  obtain ⟨bs, head⟩ := h.name.head
  exact ⟨_, by rw [Pair.inner, encode_append, head, List.cons_append, List.cons_append]⟩

/-- The field of a name that the record shows. -/
theorem Layout.Shows.find (laws : l.Shows omits shown) {a : σ} {name : String} {v : Value}
    (own : (name, v) ∈ shown a) :
    ∃ f ∈ l.fields, f.name = name ∧ (l.fields.find? fun f => f.name == name) = some f := by
  have named : name ∈ l.fields.map Member.name := by
    rw [← laws.names a]
    exact List.mem_map_of_mem own
  obtain ⟨f, listed, same⟩ := List.mem_map.mp named
  cases found : l.fields.find? fun f => f.name == name with
  | none => exact absurd (beq_iff_eq.mpr same) (List.find?_eq_none.mp found f listed)
  | some g =>
      have hit : (g.name == name) = true := List.find?_some (p := fun f : Member σ => f.name == name) found
      exact ⟨g, List.mem_of_find?_eq_some found, beq_iff_eq.mp hit, rfl⟩

/-- **ONE MEMBER**: from a member that is ahead, reading goes on behind it, with the member stored
    if it is the record's and passed over if it is not. -/
theorem members_step (laws : l.Shows omits shown) {a record : σ} {seen : List String}
    {e : Entry} {entries : List Entry} (h : Reading omits shown a seen record (e :: entries))
    {rest : List UInt8} (ends : Ends rest) (x : UInt8) (fuel : List UInt8) {first : Bool}
    {c : Cursor} {p : Place}
    (more : moreMembers first c = (.ok true, ⟨encode e.pair.inner ++ rest, p⟩)) :
    ∃ seen' record' p', Reading omits shown a seen' record' entries ∧
      l.members (x :: fuel) first seen record c
        = l.members fuel false seen' record' ⟨rest, p'⟩ := by
  have fits := h.fits e List.mem_cons_self
  have spaced := fits.spaced
  -- a member is its name, a colon and its value, read one after the other
  have form : encode e.pair.inner ++ rest = encode e.pair.name.core ++
      (encode e.pair.name.after ++ [ascii ':'] ++
        (encode (e.pair.value.before ++ e.pair.value.core) ++ rest)) := by
    simp only [Pair.inner, encode_append, encode_ascii (show ':'.toNat < 0x80 by decide),
      List.append_assoc, List.cons_append, List.nil_append]
  rw [form] at more
  obtain ⟨p₁, named⟩ := takes_memberName fits.name
    (encode e.pair.name.after ++ [ascii ':'] ++
      (encode (e.pair.value.before ++ e.pair.value.core) ++ rest)) p
  obtain ⟨p₂, parted⟩ := takes_colon spaced.1.2
    (encode (e.pair.value.before ++ e.pair.value.core) ++ rest) p₁
  cases own : e.own with
  -- no field has the name of a member that was added, so its value is passed over
  | none =>
      obtain ⟨unknown, isValue⟩ := fits.added own
      obtain ⟨p₃, skipped⟩ := takes_skipValue isValue spaced.2.1 rest ends p₂
      have missed : (l.fields.find? fun f => f.name == e.name) = none := by
        refine List.find?_eq_none.mpr fun f listed same => unknown ?_
        rw [laws.names a, ← beq_iff_eq.mp same]
        exact List.mem_map_of_mem listed
      refine ⟨seen, record, p₃, h.passed own, ?_⟩
      rw [Layout.members, bind_of_ok _ more, if_pos rfl, bind_of_ok _ named, missed]
      dsimp only
      rw [bind_of_ok _ parted, bind_of_ok _ skipped]
  -- the field of a member that is the record's sets it, and has not been seen before
  | some v =>
      obtain ⟨mem, spelled⟩ := fits.own v own
      obtain ⟨f, listed, same, found⟩ := laws.find mem
      obtain ⟨store, reads, puts⟩ := laws.sets f listed a v (by rw [same]; exact mem)
        e.pair.value.core spelled e.pair.value.before spaced.2.1
      obtain ⟨p₃, stored⟩ := reads rest ends p₂
      have fresh : seen.contains e.name = false :=
        Bool.eq_false_iff.mpr fun seen =>
          h.fresh e List.mem_cons_self (List.contains_iff_mem.mp seen)
      refine ⟨e.name :: seen, store record, p₃,
        h.stored laws own (by rw [puts record, same]), ?_⟩
      rw [Layout.members, bind_of_ok _ more, if_pos rfl, bind_of_ok _ named, found]
      dsimp only
      rw [fresh, if_neg Bool.false_ne_true, bind_of_ok _ parted, bind_of_ok _ stored]

/-- The members behind the first as they are written, each with its comma. -/
def laterMembers (entries : List Entry) : List Char :=
  (entries.map fun e => e.pair.chars).flatMap (',' :: ·)

/-- The later members are each behind a comma. -/
theorem laterMembers_cons (e : Entry) (entries : List Entry) :
    laterMembers (e :: entries) = ',' :: (e.pair.name.before ++ (e.pair.inner ++
      (e.pair.value.after ++ laterMembers entries))) := by
  simp only [laterMembers, List.map_cons, List.flatMap_cons, Pair.chars_eq, List.cons_append,
    List.append_assoc]

/-- The members of an object end what stands before them. -/
theorem ends_laterMembers {after : List Char} (space : IsSpacing after) (entries : List Entry)
    (rest : List UInt8) : Ends (encode (after ++ laterMembers entries) ++ ascii '\x7d' :: rest) :=
  ends_parts .object space _ rest

/-- Where the closing is ahead and nothing else, the record is finished. -/
theorem members_end (laws : l.Shows omits shown) {a record : σ} {seen : List String}
    (h : Reading omits shown a seen record []) (first : Bool) (x : UInt8) (fuel : List UInt8)
    {ws : List Char} (space : IsSpacing ws) (rest : List UInt8) (p : Place) :
    l.members (x :: fuel) first seen record ⟨encode ws ++ ascii '\x7d' :: rest, p⟩
      = (.ok a, ⟨ascii '\x7d' :: rest, (encode ws).foldl Place.after p⟩) := by
  obtain ⟨complete, rfl⟩ := h.finished laws
  rw [Layout.members, bind_of_ok _ (moreMembers_end first space rest p),
    if_neg Bool.false_ne_true, complete]
  rfl

/-- The members behind the first are read up to the closing. -/
theorem members_later (laws : l.Shows omits shown) {a : σ} (rest : List UInt8)
    {entries : List Entry} : ∀ {seen : List String} {record : σ},
      Reading omits shown a seen record entries →
    ∀ fuel : List UInt8, entries.length < fuel.length → ∀ after, IsSpacing after → ∀ p,
      ∃ p', l.members fuel false seen record
          ⟨encode (after ++ laterMembers entries) ++ ascii '\x7d' :: rest, p⟩
        = (.ok a, ⟨ascii '\x7d' :: rest, p'⟩) := by
  -- on the members that are left, from whatever has been seen by then
  induction entries with
  | nil =>
      intro seen record h fuel enough after space p
      obtain ⟨x, fuel, rfl⟩ := List.exists_cons_of_length_pos (Nat.zero_lt_of_lt enough)
      refine ⟨(encode after).foldl Place.after p, ?_⟩
      rw [show laterMembers [] = [] from rfl, List.append_nil]
      exact members_end laws h false x fuel space rest p
  | cons e entries ih =>
      intro seen record h fuel enough after space p
      obtain ⟨x, fuel, rfl⟩ := List.exists_cons_of_length_pos (Nat.zero_lt_of_lt enough)
      have spaced := (h.fits e List.mem_cons_self).spaced
      obtain ⟨u, begins⟩ := (h.fits e List.mem_cons_self).quote
        (encode (e.pair.value.after ++ laterMembers entries) ++ ascii '\x7d' :: rest)
      obtain ⟨q, more⟩ := moreMembers_later space spaced.1.1 u p
      rw [← begins] at more
      obtain ⟨seen', record', p₁, h', step⟩ := members_step laws h
        (ends_laterMembers spaced.2.2 entries rest) x fuel more
      obtain ⟨p₂, read⟩ := ih h' fuel (Nat.lt_of_succ_lt_succ enough) e.pair.value.after
        spaced.2.2 p₁
      refine ⟨p₂, ?_⟩
      rw [← read, ← step, laterMembers_cons]
      simp only [encode_append, encode_ascii (show ','.toNat < 0x80 by decide),
        List.cons_append, List.append_assoc]

/-- All members are read up to the closing. -/
theorem members_first (laws : l.Shows omits shown) {a : σ} {entries : List Entry}
    (h : Reading omits shown a [] l.blank entries) {gap : List Char} (space : IsSpacing gap)
    (rest : List UInt8) {fuel : List UInt8} (enough : entries.length < fuel.length)
    (p : Place) :
    ∃ p', l.members fuel true [] l.blank
        ⟨encode (gap ++ commaSeparated (entries.map fun e => e.pair.chars))
          ++ ascii '\x7d' :: rest, p⟩
      = (.ok a, ⟨ascii '\x7d' :: rest, p'⟩) := by
  obtain ⟨x, fuel, rfl⟩ := List.exists_cons_of_length_pos (Nat.zero_lt_of_lt enough)
  cases entries with
  | nil =>
      refine ⟨(encode gap).foldl Place.after p, ?_⟩
      rw [List.map_nil, commaSeparated, List.append_nil]
      exact members_end laws h true x fuel space rest p
  | cons e entries =>
      have spaced := (h.fits e List.mem_cons_self).spaced
      obtain ⟨u, begins⟩ := (h.fits e List.mem_cons_self).quote
        (encode (e.pair.value.after ++ laterMembers entries) ++ ascii '\x7d' :: rest)
      have more := moreMembers_first (space.append spaced.1.1) u p
      rw [← begins] at more
      obtain ⟨seen, record, p₁, h', step⟩ := members_step laws h
        (ends_laterMembers spaced.2.2 entries rest) x fuel more
      obtain ⟨p₂, read⟩ := members_later laws rest h' fuel (Nat.lt_of_succ_lt_succ enough)
        e.pair.value.after spaced.2.2 p₁
      refine ⟨p₂, ?_⟩
      rw [← read, ← step, List.map_cons, commaSeparated_cons]
      simp only [laterMembers, Pair.chars_eq, encode_append, List.append_assoc]

/-- **RECORDS**: a record is read where its fields are set, whatever the order of its members and
    whatever stands beside them, and whether or not those that hold nothing are there. -/
theorem Layout.Shows.reads (laws : l.Shows omits shown) :
    l.read.Reads omits fun a => .object (shown a) := by
  intro a cs spelled ws spaceBefore rest ends place
  cases spelled with
  | @object _ gap entries own spelled added once whole names space spaced =>
      -- before the first member nothing has been seen and every field is blank
      have start : Reading omits shown a [] l.blank entries := {
        fits := fun e mem => {
          own := fun v same => ⟨own e mem v same, spelled e mem v same⟩
          added := added e mem
          name := names e mem
          spaced := spaced e mem }
        once := once
        fresh := fun e mem => List.not_mem_nil
        whole := fun member mem => Or.inr (whole member mem)
        laid := by rw [seenOf_nil, laws.blank a] }
      have enough : entries.length
          < (encode (gap ++ commaSeparated (entries.map fun e => e.pair.chars))
              ++ ascii '\x7d' :: rest).length := by
        have some : ∀ part ∈ entries.map fun e => e.pair.chars, part ≠ [] :=
          List.forall_mem_map.mpr fun e _ => e.pair.chars_ne_nil
        have few := length_lt_encode_parts some gap (ascii '\x7d') rest
        rwa [List.length_map] at few
      obtain ⟨p, read⟩ := members_first laws start space rest enough
        (((encode ws).foldl Place.after place).after (ascii '\x7b'))
      obtain ⟨q, closed⟩ := takes_objectEnd rest p
      refine ⟨q, ?_⟩
      rw [encode_bracketed (by decide), Layout.read,
        bind_of_ok _ (valueStart_spacing spaceBefore (by decide) _ _), if_pos (by decide)]
      exact placed_of_ok (closedBy_of_ok read closed)

end Records

end Courier.Json
