import Courier.Settings.Tree

/-! # Merging — what stands where in two layers

    A tree is ordered if the keys of every table in it ascend, so that each
    key has one value and a table is known by the values of its keys.
    Merging ordered trees goes key by key (`child?_merge`), and so it goes
    behind a whole list of keys where the upper layer has nothing but tables
    on the way (`at?_merge`).  Setting one value can be done before or after
    another layer is merged, where that layer leaves the place of the value
    alone (`set_merge`, `merge_set`). -/

namespace Courier

/-! ## Entries -/

namespace Entries

variable {α : Type}

@[simp] theorem value?_cons_self (key : String) (v : α) (rest : List (String × α)) :
    value? key ((key, v) :: rest) = some v := by
  simp [value?]

/-- The value of a key is not that of another one in front. -/
theorem value?_cons_of_ne {key other : String} (v : α) (rest : List (String × α))
    (h : other ≠ key) : value? other ((key, v) :: rest) = value? other rest := by
  simp [value?, Ne.symm h]

/-- A value of a key is an entry. -/
theorem mem_of_value? {key : String} {v : α} {entries : List (String × α)}
    (h : value? key entries = some v) : (key, v) ∈ entries := by
  obtain ⟨⟨other, w⟩, found, rfl⟩ := Option.map_eq_some_iff.mp h
  obtain rfl : other = key := by simpa using List.find?_some found
  exact List.mem_of_find?_eq_some found

/-- In ascending entries the values of keys are exactly the entries. -/
theorem value?_eq_some_iff {entries : List (String × α)} (asc : AscendingKeys entries)
    {key : String} {v : α} : value? key entries = some v ↔ (key, v) ∈ entries := by
  induction entries with
  | nil => exact iff_of_false (fun h => nomatch h) (fun h => nomatch h)
  | cons e rest ih =>
      obtain ⟨k, w⟩ := e
      obtain ⟨least, asc⟩ := List.pairwise_cons.mp asc
      by_cases same : key = k
      · subst same
        rw [value?_cons_self, List.mem_cons, Prod.mk.injEq, Option.some.injEq]
        constructor
        · exact fun h => Or.inl ⟨rfl, h.symm⟩
        · rintro (h | h)
          · exact h.2.symm
          · exact absurd (least _ h) (String.lt_irrefl key)
      · rw [value?_cons_of_ne w rest same, ih asc, List.mem_cons]
        exact ⟨Or.inr, fun h => h.resolve_left fun e => same (Prod.mk.inj e).1⟩

/-- Ascending entries with the same values by key are the same. -/
theorem eq_of_value? {a b : List (String × α)} (asc : AscendingKeys a) (asc' : AscendingKeys b)
    (same : ∀ key, value? key a = value? key b) : a = b := by
  have distinct {es : List (String × α)} (h : AscendingKeys es) : es.Nodup :=
    h.imp fun {a b} lt (eq : a = b) => absurd (eq ▸ lt) (String.lt_irrefl b.1)
  refine List.Perm.eq_of_pairwise (fun x y _ _ lt gt => absurd gt (String.lt_asymm lt)) asc asc'
    ((List.perm_ext_iff_of_nodup (distinct asc) (distinct asc')).mpr fun e => ?_)
  rw [← value?_eq_some_iff asc, ← value?_eq_some_iff asc', same]

/-- A key has one place among ascending entries, whatever is placed there. -/
theorem exists_place {es : List (String × α)} (asc : AscendingKeys es) (key : String) :
    ∃ front back, (∀ e ∈ back, e.1 ≠ key) ∧ ∀ v, place key v es = front ++ (key, v) :: back := by
  induction es with
  | nil => exact ⟨[], [], nofun, fun v => rfl⟩
  | cons e rest ih =>
      obtain ⟨k, w⟩ := e
      obtain ⟨least, behind⟩ := List.pairwise_cons.mp asc
      by_cases lt : key < k
      · refine ⟨[], (k, w) :: rest, ?_, fun v => by rw [place, if_pos lt, List.nil_append]⟩
        refine List.forall_mem_cons.mpr ⟨(String.ne_of_lt lt).symm, fun e mem => ?_⟩
        exact (String.ne_of_lt (String.lt_trans lt (least e mem))).symm
      · by_cases same : key = k
        · subst same
          exact ⟨[], rest, fun e mem => (String.ne_of_lt (least e mem)).symm,
            fun v => by rw [place, if_neg lt, if_pos rfl, List.nil_append]⟩
        · obtain ⟨front, back, other, placed⟩ := ih behind
          exact ⟨(k, w) :: front, back, other,
            fun v => by rw [place, if_neg lt, if_neg same, placed, List.cons_append]⟩

theorem ascending_sorted (es : List (String × α)) : AscendingKeys (sorted es) := by
  unfold sorted
  suffices ∀ placed : List (String × α), AscendingKeys placed →
      AscendingKeys (es.foldl (fun placed e => place e.1 e.2 placed) placed) from
    this [] List.Pairwise.nil
  induction es with
  | nil => exact fun placed asc => asc
  | cons e es ih => exact fun placed asc => ih _ (ascending_place _ _ asc)

theorem mem_sorted {es : List (String × α)} {e : String × α} (h : e ∈ sorted es) : e ∈ es := by
  unfold sorted at h
  suffices ∀ placed : List (String × α),
      e ∈ es.foldl (fun placed e => place e.1 e.2 placed) placed → e ∈ placed ∨ e ∈ es from
    (this [] h).resolve_left fun none => nomatch none
  clear h
  induction es with
  | nil => exact fun placed h => Or.inl h
  | cons d es ih =>
      intro placed h
      rcases ih _ h with h | h
      · exact (mem_place h).elim (fun same => Or.inr (same ▸ List.mem_cons_self)) Or.inl
      · exact Or.inr (List.mem_cons_of_mem _ h)

end Entries

namespace SettingTree

/-- Whether a tree is a table. -/
def IsTable (t : SettingTree) : Prop := ∃ entries, t = table entries

instance : DecidablePred IsTable
  | table entries => isTrue ⟨entries, rfl⟩
  | absent | bool _ | unsigned _ | signed _ | real _ | char _ | text _ | list _ => isFalse nofun

/-- Whether the keys of every table in the tree ascend. -/
def IsOrdered (t : SettingTree) : Prop :=
  ∀ path u, t.at? path = some u → AscendingKeys u.entries

/-- Whether the tree has nothing but tables at a list of keys and on the way there. -/
def IsTableTo : SettingTree → List String → Prop
  | t, [] => t.IsTable
  | t, key :: rest => t.IsTable ∧ ∀ c, t.child? key = some c → c.IsTableTo rest

instance decidableIsTableTo : (t : SettingTree) → (path : List String) →
    Decidable (t.IsTableTo path)
  | t, [] => inferInstanceAs (Decidable t.IsTable)
  | t, key :: rest =>
    haveI (c : SettingTree) := decidableIsTableTo c rest
    inferInstanceAs (Decidable (t.IsTable ∧ ∀ c ∈ t.child? key, c.IsTableTo rest))

/-- The tree with a value set behind a list of keys. -/
def set (t : SettingTree) (path : List String) (v : SettingTree) : SettingTree :=
  t.merge (nested v path)

variable {t u lower upper : SettingTree} {path : List String} {key : String}

/-! ## Places -/

/-- A path in two parts is walked in two parts. -/
theorem at?_append (t : SettingTree) (p q : List String) :
    t.at? (p ++ q) = (t.at? p).bind fun c => c.at? q := by
  induction p generalizing t with
  | nil => rfl
  | cons k p ih =>
      show (t.child? k).bind _ = ((t.child? k).bind _).bind _
      rw [Option.bind_assoc]
      exact congrArg _ (funext fun c => ih c)

theorem at?_singleton (t : SettingTree) (key : String) : t.at? [key] = t.child? key := by
  show (t.child? key).bind some = _
  exact Option.bind_fun_some _

/-- Only tables have anything behind a key. -/
theorem isTable_of_child? {c : SettingTree} (h : t.child? key = some c) : t.IsTable := by
  cases t with
  | table entries => exact ⟨entries, rfl⟩
  | _ => exact nomatch h

/-- The child of nested tables is the nested tables further in. -/
theorem nested_child?_self (v : SettingTree) (key : String) (rest : List String) :
    (nested v (key :: rest)).child? key = some (nested v rest) := by
  simp [nested, child?, entries]

/-- A nested value stands where it was put. -/
theorem nested_at? (v : SettingTree) (path : List String) :
    (nested v path).at? path = some v := by
  induction path with
  | nil => rfl
  | cons k rest ih =>
      show ((nested v (k :: rest)).child? k).bind _ = _
      rw [nested_child?_self]
      exact ih

/-! ## Order -/

theorem IsOrdered.ascending (h : t.IsOrdered) : AscendingKeys t.entries := h [] t rfl

/-- A child of an ordered tree is ordered. -/
theorem IsOrdered.child {c : SettingTree} (h : t.IsOrdered) (hc : t.child? key = some c) :
    c.IsOrdered := by
  intro path u hu
  refine h (key :: path) u ?_
  show (t.child? key).bind _ = _
  rw [hc]
  exact hu

/-- A child of an ordered tree, or its absence, is ordered. -/
theorem IsOrdered.getD_child? (h : t.IsOrdered) (key : String) :
    ((t.child? key).getD absent).IsOrdered := by
  cases hc : t.child? key with
  | none =>
      rintro (_ | ⟨k, rest⟩) u hu
      · obtain rfl := Option.some.inj hu
        exact List.Pairwise.nil
      · exact nomatch hu
  | some c => exact h.child hc

/-- A tree is ordered when its keys ascend and its children are ordered. -/
theorem isOrdered_of_children (asc : AscendingKeys t.entries)
    (h : ∀ key c, t.child? key = some c → c.IsOrdered) : t.IsOrdered := by
  rintro (_ | ⟨k, rest⟩) u hu
  · obtain rfl := Option.some.inj hu
    exact asc
  · obtain ⟨c, hc, hu⟩ := Option.bind_eq_some_iff.mp hu
    exact h k c hc rest u hu

/-- What is no table is ordered. -/
theorem isOrdered_of_entries_eq_nil (h : t.entries = []) : t.IsOrdered := by
  refine isOrdered_of_children (h ▸ List.Pairwise.nil) fun key c hc => ?_
  rw [child?, h] at hc
  exact nomatch hc

/-- A table is ordered when its keys ascend and its entries are ordered. -/
theorem isOrdered_table {es : List (String × SettingTree)} (asc : AscendingKeys es)
    (h : ∀ e ∈ es, e.2.IsOrdered) : (table es).IsOrdered :=
  isOrdered_of_children asc fun key c hc =>
    h (key, c) ((Entries.value?_eq_some_iff asc).mp hc)

/-- An entry of an ordered table is ordered. -/
theorem IsOrdered.of_mem {es : List (String × SettingTree)} (h : (table es).IsOrdered)
    {e : String × SettingTree} (mem : e ∈ es) : e.2.IsOrdered :=
  h.child (show (table es).child? e.1 = some e.2 from
    (Entries.value?_eq_some_iff h.ascending).mpr mem)

/-- A table made of a list of entries is ordered when they are. -/
theorem isOrdered_ofList {es : List (String × SettingTree)} (h : ∀ e ∈ es, e.2.IsOrdered) :
    (ofList es).IsOrdered :=
  isOrdered_table (Entries.ascending_sorted es) fun e mem => h e (Entries.mem_sorted mem)

/-- An ordered table stays so when an ordered entry is put into its place. -/
theorem isOrdered_place {es : List (String × SettingTree)} {c : SettingTree}
    (h : (table es).IsOrdered) (hc : c.IsOrdered) (key : String) :
    (table (Entries.place key c es)).IsOrdered := by
  refine isOrdered_table (Entries.ascending_place key c h.ascending) fun e mem => ?_
  rcases Entries.mem_place mem with rfl | mem
  · exact hc
  · exact h.of_mem mem

/-- Nested tables around an ordered tree are ordered. -/
theorem isOrdered_nested {v : SettingTree} (h : v.IsOrdered) (path : List String) :
    (nested v path).IsOrdered := by
  induction path with
  | nil => exact h
  | cons k rest ih =>
      refine isOrdered_table (List.pairwise_singleton ..) fun e mem => ?_
      obtain rfl := List.mem_singleton.mp mem
      exact ih

/-- Ordered tables with the same values by key are the same. -/
theorem eq_of_child? (ht : t.IsTable) (hu : u.IsTable) (asc : AscendingKeys t.entries)
    (asc' : AscendingKeys u.entries) (same : ∀ key, t.child? key = u.child? key) : t = u := by
  obtain ⟨es, rfl⟩ := ht
  obtain ⟨es', rfl⟩ := hu
  exact congrArg table (Entries.eq_of_value? asc asc' same)

/-! ## Merging -/

theorem not_isTable_absent : ¬absent.IsTable := fun ⟨_, same⟩ => nomatch same

/-- Only a table is merged, and only over a table. -/
theorem merge_of_bare (h : ¬(lower.IsTable ∧ upper.IsTable)) : lower.merge upper = upper := by
  rw [merge]
  rintro ls es rfl rfl
  exact h ⟨⟨ls, rfl⟩, ⟨es, rfl⟩⟩

theorem absent_merge (t : SettingTree) : absent.merge t = t :=
  merge_of_bare fun h => not_isTable_absent h.1

/-- Tables merge entry by entry. -/
theorem merge_tables (ls es : List (String × SettingTree)) :
    (table ls).merge (table es) = table (mergeEntries ls es) := by
  rw [merge]

theorem merge_isTable (lower : SettingTree) (h : upper.IsTable) : (lower.merge upper).IsTable := by
  by_cases both : lower.IsTable ∧ upper.IsTable
  · obtain ⟨⟨ls, rfl⟩, ⟨es, rfl⟩⟩ := both
    exact ⟨_, merge_tables ls es⟩
  · rwa [merge_of_bare both]

/-- Entries are merged from the first on. -/
theorem mergeEntries_cons (lower : List (String × SettingTree)) (key : String) (v : SettingTree)
    (rest : List (String × SettingTree)) : mergeEntries lower ((key, v) :: rest) =
      mergeEntries (Entries.place key (((Entries.value? key lower).getD absent).merge v) lower)
        rest := by
  rw [mergeEntries]
  cases Entries.value? key lower with
  | none => rw [Option.getD_none, absent_merge]
  | some old => rfl

/-- The value of a key after merging entries: that of the upper ones, merged onto the lower. -/
theorem value?_mergeEntries {es : List (String × SettingTree)} (asc : AscendingKeys es)
    (lower : List (String × SettingTree)) (key : String) :
    Entries.value? key (mergeEntries lower es) =
      match Entries.value? key es with
      | some v => some (((Entries.value? key lower).getD absent).merge v)
      | none => Entries.value? key lower := by
  induction es generalizing lower with
  | nil => rw [mergeEntries]; rfl
  | cons e rest ih =>
      obtain ⟨k, v⟩ := e
      obtain ⟨least, behind⟩ := List.pairwise_cons.mp asc
      rw [mergeEntries_cons, ih behind]
      by_cases same : key = k
      · subst same
        -- the key does not come again behind its entry
        have last : Entries.value? key rest = none := by
          cases again : Entries.value? key rest with
          | none => rfl
          | some w =>
              exact absurd (least (key, w) ((Entries.value?_eq_some_iff behind).mp again))
                (String.lt_irrefl key)
        rw [last, Entries.value?_cons_self, Entries.value?_place_self]
      · rw [Entries.value?_cons_of_ne v rest same, Entries.value?_place_of_ne _ _ same]

/-- Merged entries have ascending keys. -/
theorem ascending_mergeEntries {lower : List (String × SettingTree)} (asc : AscendingKeys lower)
    (es : List (String × SettingTree)) : AscendingKeys (mergeEntries lower es) := by
  induction es generalizing lower with
  | nil => rwa [mergeEntries]
  | cons e rest ih =>
      obtain ⟨k, v⟩ := e
      rw [mergeEntries_cons]
      exact ih (Entries.ascending_place _ _ asc)

/-- **MERGING KEY BY KEY**: what the upper table has is merged over what the lower layer has
    there, and the rest stays. -/
theorem child?_merge (lower : SettingTree) (h : upper.IsTable) (ordered : upper.IsOrdered)
    (key : String) : (lower.merge upper).child? key =
      match upper.child? key with
      | some v => some (((lower.child? key).getD absent).merge v)
      | none => lower.child? key := by
  by_cases table : lower.IsTable
  · obtain ⟨ls, rfl⟩ := table
    obtain ⟨es, rfl⟩ := h
    rw [merge_tables]
    exact value?_mergeEntries ordered.ascending ls key
  · have nothing : lower.child? key = none := by
      cases hc : lower.child? key with
      | none => rfl
      | some c => exact absurd (isTable_of_child? hc) table
    rw [merge_of_bare fun h => table h.1, nothing]
    cases upper.child? key with
    | none => rfl
    | some v => exact congrArg some (absent_merge v).symm

/-- Merged ordered trees have ascending keys. -/
theorem ascending_merge (hl : lower.IsOrdered) (hu : upper.IsOrdered) :
    AscendingKeys (lower.merge upper).entries := by
  by_cases both : lower.IsTable ∧ upper.IsTable
  · obtain ⟨⟨ls, rfl⟩, ⟨es, rfl⟩⟩ := both
    rw [merge_tables]
    exact ascending_mergeEntries hl.ascending es
  · rw [merge_of_bare both]
    exact hu.ascending

theorem isOrdered_merge (hl : lower.IsOrdered) (hu : upper.IsOrdered) :
    (lower.merge upper).IsOrdered := by
  intro path
  induction path generalizing lower upper with
  | nil =>
      intro t ht
      obtain rfl := Option.some.inj ht
      exact ascending_merge hl hu
  | cons k rest ih =>
      intro t ht
      -- a table is merged key by key; anything else replaces what is under it
      by_cases bare : upper.IsTable
      · obtain ⟨c, hc, ht⟩ := Option.bind_eq_some_iff.mp ht
        rw [child?_merge lower bare hu] at hc
        cases hv : upper.child? k with
        | some v =>
            rw [hv] at hc
            obtain rfl := Option.some.inj hc
            exact ih (hl.getD_child? k) (hu.child hv) t ht
        | none =>
            rw [hv] at hc
            exact hl.child hc rest t ht
      · rw [merge_of_bare fun h => bare h.2] at ht
        exact hu (k :: rest) t ht

/-- Where both trees have tables along a path, so has what they merge to. -/
theorem isTableTo_merge (hu : upper.IsOrdered) {path : List String} (hl : lower.IsTableTo path)
    (h : upper.IsTableTo path) : (lower.merge upper).IsTableTo path := by
  induction path generalizing lower upper with
  | nil => exact merge_isTable lower h
  | cons k rest ih =>
      refine ⟨merge_isTable lower h.1, fun c hc => ?_⟩
      rw [child?_merge lower h.1 hu] at hc
      cases hv : upper.child? k with
      | none =>
          rw [hv] at hc
          exact hl.2 c hc
      | some v =>
          rw [hv] at hc
          obtain rfl := Option.some.inj hc
          cases hw : lower.child? k with
          | none =>
              rw [Option.getD_none, absent_merge]
              exact h.2 v hv
          | some w => exact ih (hu.child hv) (hl.2 w hw) (h.2 v hv)

/-- **MERGING BEHIND MANY KEYS**: where the upper layer has only tables on the way, what it has
    behind a list of keys is merged over what the lower layer has there, and the rest stays. -/
theorem at?_merge (lower : SettingTree) (hu : upper.IsOrdered) {path : List String}
    (h : upper.IsTableTo path) (key : String) : (lower.merge upper).at? (path ++ [key]) =
      match upper.at? (path ++ [key]) with
      | some v => some (((lower.at? (path ++ [key])).getD absent).merge v)
      | none => lower.at? (path ++ [key]) := by
  induction path generalizing lower upper with
  | nil =>
      rw [List.nil_append, at?_singleton, at?_singleton, at?_singleton]
      exact child?_merge lower h hu key
  | cons k rest ih =>
      have whole (t : SettingTree) :
          t.at? (k :: rest ++ [key]) = (t.child? k).bind fun c => c.at? (rest ++ [key]) := rfl
      rw [whole, whole, whole, child?_merge lower h.1 hu]
      cases hv : upper.child? k with
      | none => rfl
      | some v =>
          have below : ((lower.child? k).getD absent).at? (rest ++ [key])
              = (lower.child? k).bind fun c => c.at? (rest ++ [key]) := by
            cases lower.child? k with
            | none => cases rest <;> rfl
            | some c => rfl
          rw [← below]
          exact ih _ (hu.child hv) (h.2 v hv)

/-! ## Setting one value -/

/-- What is set at a path is put into the table of its first key. -/
theorem set_cons (t : SettingTree) (key : String) (rest : List String) (v : SettingTree) :
    t.set (key :: rest) v =
      table (Entries.place key (((t.child? key).getD absent).set rest v) t.entries) := by
  by_cases bare : t.IsTable
  · obtain ⟨es, rfl⟩ := bare
    rw [set, nested, merge_tables, mergeEntries_cons, mergeEntries]
    rfl
  · have nothing : t.entries = [] := by
      cases t with
      | table es => exact absurd ⟨es, rfl⟩ bare
      | _ => rfl
    rw [set, merge_of_bare fun h => bare h.1, child?, nothing]
    show _ = table [(key, absent.merge _)]
    rw [absent_merge, nested]

/-- Setting a path makes a table. -/
theorem set_isTable (t : SettingTree) (key : String) (rest : List String) (v : SettingTree) :
    (t.set (key :: rest) v).IsTable := ⟨_, set_cons t key rest v⟩

/-- The child at the first key is the one with the rest of the path set. -/
theorem set_child?_self (t : SettingTree) (key : String) (rest : List String) (v : SettingTree) :
    (t.set (key :: rest) v).child? key = some (((t.child? key).getD absent).set rest v) := by
  rw [set_cons]
  exact Entries.value?_place_self ..

/-- The children at other keys are left alone. -/
theorem set_child?_of_ne (t : SettingTree) {key other : String} (rest : List String)
    (v : SettingTree) (h : other ≠ key) :
    (t.set (key :: rest) v).child? other = t.child? other := by
  rw [set_cons]
  exact Entries.value?_place_of_ne _ _ h

/-- Setting a path keeps the keys ascending. -/
theorem ascending_set (h : AscendingKeys t.entries) (key : String) (rest : List String)
    (v : SettingTree) : AscendingKeys (t.set (key :: rest) v).entries := by
  rw [set_cons]
  exact Entries.ascending_place _ _ h

/-- Setting an ordered tree at a path keeps the tree ordered. -/
theorem isOrdered_set {v : SettingTree} (ht : t.IsOrdered) (hv : v.IsOrdered)
    (path : List String) : (t.set path v).IsOrdered := isOrdered_merge ht (isOrdered_nested hv path)

/-- Below a key, a value is set before a layer is merged as behind it, if so it is with what the
    layer has at the key. -/
theorem set_merge_of_child {v : SettingTree} (hv : v.IsOrdered) (ht : t.IsOrdered)
    (hu : u.IsOrdered) (isTable : u.IsTable) {rest : List String}
    (below : ∀ w, u.child? key = some w → (((t.child? key).getD absent).set rest v).merge w
      = (((t.child? key).getD absent).merge w).set rest v) :
    (t.set (key :: rest) v).merge u = (t.merge u).set (key :: rest) v := by
  refine eq_of_child? (merge_isTable _ isTable) (set_isTable ..)
    (ascending_merge (isOrdered_set ht hv _) hu)
    (isOrdered_set (isOrdered_merge ht hu) hv _).ascending fun other => ?_
  rw [child?_merge _ isTable hu]
  by_cases same : other = key
  · subst same
    rw [set_child?_self, set_child?_self, child?_merge _ isTable hu]
    cases hw : u.child? other with
    | none => rfl
    | some w => exact congrArg some (below w hw)
  · rw [set_child?_of_ne _ _ _ same, set_child?_of_ne _ _ _ same, child?_merge _ isTable hu]

/-- Below a key, a value is set in a layer before it is merged as behind that, if so it is with
    what the layer has at the key. -/
theorem merge_set_of_child {v : SettingTree} (hv : v.IsOrdered) (ht : t.IsOrdered)
    (hu : u.IsOrdered) (isTable : u.IsTable) {rest : List String}
    (below : ∀ w, u.child? key = some w → ((t.child? key).getD absent).merge (w.set rest v)
      = (((t.child? key).getD absent).merge w).set rest v) :
    t.merge (u.set (key :: rest) v) = (t.merge u).set (key :: rest) v := by
  have ordered : (u.set (key :: rest) v).IsOrdered := isOrdered_set hu hv _
  refine eq_of_child? (merge_isTable _ (set_isTable ..)) (set_isTable ..)
    (ascending_merge ht ordered)
    (isOrdered_set (isOrdered_merge ht hu) hv _).ascending fun other => ?_
  rw [child?_merge _ (set_isTable ..) ordered]
  by_cases same : other = key
  · subst same
    rw [set_child?_self, set_child?_self, child?_merge _ isTable hu]
    cases hw : u.child? other with
    | none =>
        rw [Option.getD_none, set, absent_merge]
        rfl
    | some w => exact congrArg some (below w hw)
  · rw [set_child?_of_ne _ _ _ same, set_child?_of_ne _ _ _ same, child?_merge _ isTable hu]

/-- **SETTING BEFORE OR AFTER**: a layer that has nothing at a place, and only tables on the way
    there, is merged behind a value that is set at the place just as before it. -/
theorem set_merge {v : SettingTree} (hv : v.IsOrdered) (ht : t.IsOrdered) (hu : u.IsOrdered)
    {path : List String} (key : String) (h : u.IsTableTo path)
    (spared : u.at? (path ++ [key]) = none) :
    (t.set (path ++ [key]) v).merge u = (t.merge u).set (path ++ [key]) v := by
  induction path generalizing t u with
  | nil =>
      rw [List.nil_append, at?_singleton] at spared
      exact set_merge_of_child hv ht hu h fun w hw => nomatch spared.symm.trans hw
  | cons k rest ih =>
      refine set_merge_of_child hv ht hu h.1 fun w hw => ih (ht.getD_child? k) (hu.child hw)
        (h.2 w hw) ?_
      rw [List.cons_append, at?, hw] at spared
      exact spared

/-- **SETTING IN A LAYER**: a value may be set in a layer with only tables on the way before the
    layer is merged, or behind that, if it takes the place of nothing or is no table. -/
theorem merge_set {v : SettingTree} (hv : v.IsOrdered) (ht : t.IsOrdered) (hu : u.IsOrdered)
    {path : List String} (key : String) (h : u.IsTableTo path)
    (fresh : u.at? (path ++ [key]) = none ∨ ¬v.IsTable) :
    t.merge (u.set (path ++ [key]) v) = (t.merge u).set (path ++ [key]) v := by
  induction path generalizing t u with
  | nil =>
      rw [List.nil_append, at?_singleton] at fresh
      refine merge_set_of_child hv ht hu h fun w hw => ?_
      have bare := fresh.resolve_left fun none => nomatch none.symm.trans hw
      show _ = SettingTree.merge _ v
      rw [set, nested, merge_of_bare fun both => bare both.2,
        merge_of_bare fun both => bare both.2, merge_of_bare fun both => bare both.2]
  | cons k rest ih =>
      refine merge_set_of_child hv ht hu h.1 fun w hw => ih (ht.getD_child? k) (hu.child hw)
        (h.2 w hw) ?_
      rw [List.cons_append, at?, hw] at fresh
      exact fresh

end SettingTree

end Courier
