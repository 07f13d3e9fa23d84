import Courier.Proofs.Json.TextMap
import Courier.Store.Sqlite

/-! # Rows — a record survives being stored

    A row keeps a map of texts as JSON and a version as a signed integer.
    Reading the JSON back gives the entries in their order, and entering
    ascending entries one by one rebuilds the very map; versions below the
    greatest signed number are kept as they are. -/

namespace Courier

/-- An entry whose key is behind all others goes to the end. -/
theorem Entries.place_behind {α : Type} {key : String} (value : α) {entries : List (String × α)}
    (h : ∀ e ∈ entries, e.1 < key) : place key value entries = entries ++ [(key, value)] := by
  induction entries with
  | nil => rfl
  | cons head rest ih =>
      obtain ⟨k, v⟩ := head
      have hk : k < key := h (k, v) (List.mem_cons_self ..)
      have hne : key ≠ k := fun heq => String.lt_irrefl k (heq ▸ hk)
      rw [place, if_neg (String.lt_asymm hk), if_neg hne,
        ih fun e he => h e (List.mem_cons_of_mem _ he)]
      rfl

/-- Entering ascending entries behind those of a map appends them. -/
theorem Fields.entries_foldl_insert (es : List (String × String)) (m : Fields)
    (h : AscendingKeys (m.entries ++ es)) :
    (es.foldl (fun m e => m.insert e.1 e.2) m).entries = m.entries ++ es := by
  induction es generalizing m with
  | nil => exact (List.append_nil _).symm
  | cons e es ih =>
      have behind : (m.insert e.1 e.2).entries = m.entries ++ [e] :=
        Entries.place_behind e.2 fun d hd =>
          (List.pairwise_append.mp h).2.2 d hd e (List.mem_cons_self ..)
      have shifted : (m.insert e.1 e.2).entries ++ es = m.entries ++ e :: es := by
        rw [behind, List.append_assoc, List.singleton_append]
      show (es.foldl _ (m.insert e.1 e.2)).entries = _
      rw [ih _ (shifted ▸ h), shifted]

/-- Maps with the same entries are equal. -/
theorem Fields.eq_of_entries {a b : Fields} (h : a.entries = b.entries) : a = b := by
  cases a
  cases b
  cases h
  rfl

/-- A map is rebuilt from its own entries. -/
theorem Fields.ofList_entries (m : Fields) : Fields.ofList m.entries = m :=
  eq_of_entries (entries_foldl_insert m.entries empty m.ascending)

namespace Database

/-- **STORED DATA ROUND TRIP**: the data of every record are read back from their stored text. -/
theorem readData_dataText (data : Fields) : readData (dataText data) = .ok data := by
  rw [readData, dataText]
  rw [Json.decode_textMap]
  exact congrArg _ (Fields.ofList_entries data)

/-- The greatest version that a row can have. -/
def greatestVersion : Nat := 9223372036854775807

/-- A version within bounds is read from a row as it was written. -/
theorem versionOfRow_ofNat {n : UInt64} (h : n.toNat ≤ greatestVersion) :
    versionOfRow (.ofNat n.toNat) = n := by
  rw [versionOfRow, Int64.toInt_ofNat_of_lt (Nat.lt_succ_of_le h), Int.toNat_natCast,
    UInt64.ofNat_toNat]

theorem versionForRow_of_le {n : UInt64} (h : n.toNat ≤ greatestVersion) :
    versionForRow n = .ofNat n.toNat := if_pos (Nat.lt_succ_of_le h)

/-- A version that a row holds is stored like no other, unless both are at the end of the range. -/
theorem eq_of_versionForRow {m n : UInt64} (hn : n.toNat ≤ greatestVersion)
    (room : m.toNat < greatestVersion ∨ n.toNat < greatestVersion)
    (same : Int64.ofNat n.toNat = versionForRow m) : m = n := by
  rw [greatestVersion] at hn room
  have stored : (Int64.ofNat n.toNat).toInt = n.toNat := Int64.toInt_ofNat_of_lt (by omega)
  rw [versionForRow] at same
  by_cases hm : m.toNat < 9223372036854775808
  · rw [if_pos hm] at same
    rw [same, Int64.toInt_ofNat_of_lt hm] at stored
    exact UInt64.toNat_inj.mp (Int.ofNat.inj stored)
  · -- past the range `m` is stored as the greatest version, which leaves room for neither
    rw [if_neg hm] at same
    rw [same, Int64.toInt_maxValue] at stored
    omega

/-- A version with room above it is raised by one. -/
theorem next_integer {n : UInt64} (h : n.toNat < greatestVersion) :
    VersionCell.next (.integer (.ofNat n.toNat)) = .integer (.ofNat (n + 1).toNat) := by
  have h : n.toNat < 9223372036854775807 := h
  have below : Int64.ofNat n.toNat ≠ Int64.maxValue := by
    intro heq
    have hn : (Int64.ofNat n.toNat).toInt = n.toNat := Int64.toInt_ofNat_of_lt (by omega)
    rw [heq, Int64.toInt_maxValue] at hn
    omega
  have raised : (n + 1).toNat = n.toNat + 1 := by
    rw [UInt64.toNat_add]
    exact Nat.mod_eq_of_lt (show n.toNat + 1 < UInt64.size by unfold UInt64.size; omega)
  rw [VersionCell.next, if_neg below, raised, Int64.ofNat_add]
  rfl

end Database

end Courier
