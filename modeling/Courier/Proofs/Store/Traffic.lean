import Courier.Proofs.Store.Access
import Mathlib.Data.List.Induction

/-! # Traffic — many clients, one store, no lost update

    Any number of clients call operations of one store.  A call makes its
    first access at once; where that leaves the answer open, the client's
    second access comes whenever it is resumed, with any accesses of others
    in between.  The log lists the completed operations.

    The invariant (`Serial`) reads the successful updates of a location off
    the log: they carry the versions 0, 1, 2, …, raise each by one, and the
    location shows the data of the last of them under the number of them.
    One access preserves it (`serial_step`), so every run does. -/

namespace Courier

/-- An operation that a client has been answered. -/
structure Completed where
  client : Nat
  op : Operation
  answer : Except StoreError Record

/-- A successful update: the record that it carried, and the one that it left. -/
structure Commit where
  carried : Record
  stored : Record

/-- The successful update at a location that a completed operation was, if it was one. -/
def Completed.commit? (l : Location) : Completed → Option Commit
  | ⟨_, .update record, .ok stored⟩ =>
    if record.location = l then some ⟨record, stored⟩ else none
  | _ => none

/-- A store with its clients. -/
structure Traffic where
  store : Store
  /-- The operations behind their first access, by client. -/
  pending : Nat → Option Operation := fun _ => none
  /-- The completed operations in the order of their completion. -/
  log : List Completed := []

namespace Traffic

/-- What happens next: a client calls an operation, or makes its second access. -/
inductive Act where
  | call (client : Nat) (op : Operation)
  | resume (client : Nat)

/-- Whether a client calls an update. -/
def Act.isUpdate : Act → Bool
  | call _ (.update _) => true
  | _ => false

/-- The traffic after an act; a client has one operation at a time. -/
def step (t : Traffic) : Act → Traffic
  | .call client op =>
    match t.pending client, t.store.start op with
    | some _, _ => t
    | none, (some answer, store) => { t with store, log := t.log ++ [⟨client, op, answer⟩] }
    | none, (none, store) =>
      { t with store, pending := fun c => if c = client then some op else t.pending c }
  | .resume client =>
    match t.pending client with
    | none => t
    | some op =>
      { t with pending := fun c => if c = client then none else t.pending c,
               log := t.log ++ [⟨client, op, t.store.finish op⟩] }

/-- The traffic after some acts. -/
def run (t : Traffic) (acts : List Act) : Traffic := acts.foldl step t

/-- The traffic of a store that no client has called yet. -/
def ofStore (store : Store) : Traffic := ⟨store, fun _ => none, []⟩

/-- The updates that clients call in a run. -/
def updates (acts : List Act) : List Act := acts.filter Act.isUpdate

/-- The successful updates at a location, in their order. -/
def commits (t : Traffic) (l : Location) : List Commit := t.log.filterMap (Completed.commit? l)

/-- The data that the last of some successful updates stored. -/
def latest (done : List Commit) : Fields :=
  (done.getLast?.map fun c => c.carried.data).getD .empty

/-! ## One access -/

/-- An entry of the log adds the commit that it stands for, if it stands for one. -/
theorem commits_append (t : Traffic) (entry : Completed) (l : Location) :
    (t.log ++ [entry]).filterMap (Completed.commit? l)
      = t.commits l ++ (entry.commit? l).toList := by
  rw [List.filterMap_append]
  refine congrArg (t.commits l ++ ·) ?_
  cases h : entry.commit? l with
  | none => exact List.filterMap_cons_none h
  | some c => exact List.filterMap_cons_some h

/-- The second access of an operation completes it and changes nothing. -/
theorem step_resume (t : Traffic) (client : Nat) : (t.step (.resume client)).store = t.store ∧
    ∀ l, (t.step (.resume client)).commits l = t.commits l := by
  cases pending : t.pending client with
  | none =>
      have idle : t.step (.resume client) = t := by simp only [step, pending]
      rw [idle]
      exact ⟨rfl, fun _ => rfl⟩
  | some op =>
      have stepped : t.step (.resume client) =
          { t with pending := fun c => if c = client then none else t.pending c,
                   log := t.log ++ [⟨client, op, t.store.finish op⟩] } := by
        simp only [step, pending]
      rw [stepped]
      refine ⟨rfl, fun l => ?_⟩
      have nothing : Completed.commit? l ⟨client, op, t.store.finish op⟩ = none := by
        cases op <;> rfl
      refine (commits_append t _ l).trans ?_
      rw [nothing]
      exact List.append_nil _

/-- A call of a client that is busy with another one changes nothing; any other makes its first
    access, and completes at once where that is enough. -/
theorem step_call_cases (t : Traffic) (client : Nat) (op : Operation) :
    t.step (.call client op) = t ∨
      ((t.step (.call client op)).store = (t.store.start op).2 ∧
        ∀ l, (t.step (.call client op)).commits l = t.commits l ++
          ((t.store.start op).1.bind fun answer =>
            Completed.commit? l ⟨client, op, answer⟩).toList) := by
  cases pending : t.pending client with
  | some _ => exact Or.inl (by simp only [step, pending])
  | none =>
      refine Or.inr ?_
      rcases started : t.store.start op with ⟨known, store⟩
      cases known with
      | none =>
          have stepped : t.step (.call client op) = { t with
              store, pending := fun c => if c = client then some op else t.pending c } := by
            simp only [step, pending, started]
          rw [stepped]
          exact ⟨rfl, fun _ => (List.append_nil _).symm⟩
      | some answer =>
          have stepped : t.step (.call client op) =
              { t with store, log := t.log ++ [⟨client, op, answer⟩] } := by
            simp only [step, pending, started]
          rw [stepped]
          exact ⟨rfl, fun l => commits_append t ⟨client, op, answer⟩ l⟩

/-- No access changes a location that its operation is not about. -/
theorem sameAt_step (t : Traffic) {act : Act} {l : Location}
    (other : ∀ client op, act = .call client op → l ≠ op.location) :
    t.store.SameAt l (t.step act).store := by
  cases act with
  | call client op =>
      rcases step_call_cases t client op with idle | ⟨store, -⟩
      · rw [idle]
        exact Store.SameAt.refl l t.store
      · rw [store]
        exact Store.sameAt_start t.store op (other client op rfl)
  | resume client =>
      rw [(step_resume t client).1]
      exact Store.SameAt.refl l t.store

/-- A read of something that is there changes nothing. -/
theorem store_step_get (t : Traffic) (client : Nat) {l : Location} (there : ¬t.store.Lacks l) :
    (t.step (.call client (.get l))).store = t.store := by
  rcases step_call_cases t client (.get l) with idle | ⟨store, -⟩
  · rw [idle]
  · rw [store, Store.start_get_of_not_lacks there]

/-- An act adds a commit at most if it is an update. -/
theorem length_commits_step (t : Traffic) (act : Act) (l : Location) :
    ((t.step act).commits l).length ≤ (t.commits l).length + if act.isUpdate then 1 else 0 := by
  cases act with
  | call client op =>
      rcases step_call_cases t client op with idle | ⟨-, commits⟩
      · rw [idle]
        exact Nat.le_add_right ..
      · rw [commits l, List.length_append]
        refine Nat.add_le_add_left ?_ _
        cases op with
        | get location =>
            cases (t.store.start (.get location)).1 <;> exact Nat.le_refl _
        | update record => exact Option.length_toList_le
  | resume client =>
      rw [(step_resume t client).2 l]
      exact Nat.le_refl _

/-- There is room for a version below the greatest one. -/
theorem hasRoom_of_lt {s : Store} {n : Nat} (h : n < Database.greatestVersion) :
    s.HasRoom (.ofNat n) := by
  cases s with
  | memory m => exact trivial
  | sqlite db =>
      show (UInt64.ofNat n).toNat < _
      rw [UInt64.toNat_ofNat_of_lt' (Nat.lt_trans h (by decide))]
      exact h

/-! ## The invariant -/

/-- The successful updates at a location are in order, and the location shows what they made. -/
structure Serial (t : Traffic) (l : Location) : Prop where
  /-- Each stored what it carried, under the next version. -/
  raised : ∀ c ∈ t.commits l, c.stored = { c.carried with version := c.carried.version + 1 }
  /-- They carried the versions from zero on, without a gap. -/
  carried : (t.commits l).map (fun c => c.carried.version.toNat)
    = List.range (t.commits l).length
  shows : t.store.Shows l (latest (t.commits l)) (.ofNat (t.commits l).length)

/-- Nothing is stored and nothing has been updated. -/
theorem serial_of_isEmpty {store : Store} (fresh : store.IsEmpty) (l : Location) :
    Serial (ofStore store) l where
  raised := fun _ h => nomatch h
  carried := rfl
  shows := by
    refine Or.inr ⟨?_, rfl, rfl⟩
    cases store with
    | memory m =>
        show Table.findIn l m.records.rows = none
        rw [show m.records.rows = [] from fresh]
        rfl
    | sqlite db =>
        show Table.findIn l db.rows.rows = none
        rw [show db.rows.rows = [] from fresh]
        rfl

/-- A state with the same successful updates at a location, which shows the same. -/
theorem Serial.congr {t t' : Traffic} {l : Location} (h : Serial t l)
    (commits : t'.commits l = t.commits l)
    (shows : t'.store.Shows l (latest (t.commits l)) (.ofNat (t.commits l).length)) :
    Serial t' l where
  raised := by
    rw [commits]
    exact h.raised
  carried := by
    rw [commits]
    exact h.carried
  shows := by
    rw [commits]
    exact shows

/-- The versions that were stored are the carried ones, each raised by one. -/
theorem Serial.stored {t : Traffic} {l : Location} (h : Serial t l)
    (few : (t.commits l).length < Database.greatestVersion) :
    (t.commits l).map (fun c => c.stored.version.toNat)
      = List.range' 1 (t.commits l).length := by
  have raised : ∀ c ∈ t.commits l, c.stored.version.toNat = 1 + c.carried.version.toNat := by
    intro c hc
    have below : c.carried.version.toNat ∈ List.range (t.commits l).length := by
      rw [← h.carried]
      exact List.mem_map_of_mem hc
    have small : c.carried.version.toNat + 1 < UInt64.size :=
      Nat.lt_trans (Nat.lt_of_le_of_lt (List.mem_range.mp below) few) (by decide)
    rw [h.raised c hc, UInt64.toNat_add, Nat.add_comm 1]
    exact Nat.mod_eq_of_lt small
  calc (t.commits l).map (fun c => c.stored.version.toNat)
      = (t.commits l).map ((1 + ·) ∘ fun c => c.carried.version.toNat) :=
        List.map_congr_left raised
    _ = (List.range (t.commits l).length).map (1 + ·) := by rw [← List.map_map, h.carried]
    _ = List.range' 1 (t.commits l).length := by rw [List.range_eq_range', List.map_add_range']

/-- One more successful update, against the version that the location showed. -/
theorem Serial.concat {t t' : Traffic} {record : Record} (h : Serial t record.location)
    (few : (t.commits record.location).length < UInt64.size)
    (same : record.version = .ofNat (t.commits record.location).length)
    (commits : t'.commits record.location = t.commits record.location
      ++ [⟨record, { record with version := record.version + 1 }⟩])
    (held : t'.store.Holds record.location record.data (record.version + 1)) :
    Serial t' record.location where
  raised := by
    intro c hc
    rw [commits] at hc
    rcases List.mem_append.mp hc with hc | hc
    · exact h.raised c hc
    · rw [List.mem_singleton.mp hc]
  carried := by
    -- the record was read behind all the commits, so its version counts them
    have number : record.version.toNat = (t.commits record.location).length := by
      rw [same, UInt64.toNat_ofNat_of_lt' few]
    rw [commits, List.map_append, h.carried, List.length_append, List.length_singleton,
      List.range_succ, ← number]
    rfl
  shows := by
    refine Or.inl ?_
    have last : latest (t'.commits record.location) = record.data := by
      rw [commits, latest, List.getLast?_concat]
      rfl
    rw [last, commits, List.length_append, List.length_singleton, UInt64.ofNat_add, ← same]
    exact held

/-- An access whose answer is no success at the location adds no successful update there. -/
theorem commits_step_call {t : Traffic} {client : Nat} {op : Operation} {l : Location}
    (commits : ∀ l, (t.step (.call client op)).commits l = t.commits l ++
      ((t.store.start op).1.bind fun answer => Completed.commit? l ⟨client, op, answer⟩).toList)
    (none : ∀ answer, (t.store.start op).1 = some answer →
      Completed.commit? l ⟨client, op, answer⟩ = none) :
    (t.step (.call client op)).commits l = t.commits l := by
  rw [commits l]
  cases known : (t.store.start op).1 with
  | none => exact List.append_nil _
  | some answer =>
      show _ ++ (Completed.commit? l ⟨client, op, answer⟩).toList = _
      rw [none answer known]
      exact List.append_nil _

/-- **ONE ACCESS KEEPS THE ORDER**: whatever access comes next, the location stays in order. -/
theorem serial_step {t : Traffic} {l : Location} (h : Serial t l)
    (few : (t.commits l).length < Database.greatestVersion) (act : Act) :
    Serial (t.step act) l := by
  cases act with
  | resume client =>
      obtain ⟨store, commits⟩ := step_resume t client
      exact h.congr (commits l) (store ▸ h.shows)
  | call client op =>
      rcases step_call_cases t client op with idle | ⟨store, commits⟩
      · rw [idle]
        exact h
      -- a read may create what its location showed already; only an update can commit
      cases op with
      | get location =>
          refine h.congr (commits_step_call commits fun _ _ => rfl) ?_
          rw [store]
          by_cases here : l = location
          · subst here
            obtain ⟨s', held, started⟩ := h.shows.start_get
            rw [started.store]
            exact Or.inl held
          · exact (Store.sameAt_start t.store (.get location) here).shows h.shows
      | update record =>
          by_cases here : l = record.location
          · subst here
            have room : t.store.HasRoom (.ofNat (t.commits record.location).length) :=
              hasRoom_of_lt few
            rcases h.shows.start_update room with ⟨same, s', started, held⟩ | ⟨e, started⟩
            · rw [started] at store
              refine h.concat (Nat.lt_trans few (by decide)) same ?_ (store ▸ held)
              rw [commits, started]
              exact congrArg (fun c => t.commits record.location ++ Option.toList c) (if_pos rfl)
            · refine h.congr (commits_step_call commits fun answer known => ?_) ?_
              · rw [started.answer known]
                rfl
              · rw [store, started.store]
                exact h.shows
          · refine h.congr (commits_step_call commits fun answer _ => ?_) ?_
            · cases answer with
              | error e => rfl
              | ok stored => exact if_neg (Ne.symm here)
            · rw [store]
              exact (Store.sameAt_start t.store (.update record) here).shows h.shows

/-- Every run keeps every location in order, and has called each update that succeeded. -/
theorem serial_run {store : Store} (fresh : store.IsEmpty) (l : Location) (acts : List Act)
    (few : (updates acts).length < Database.greatestVersion) :
    Serial ((ofStore store).run acts) l ∧
      (((ofStore store).run acts).commits l).length ≤ (updates acts).length := by
  induction acts using List.reverseRecOn with
  | nil => exact ⟨serial_of_isEmpty fresh l, Nat.le_refl _⟩
  | append_singleton acts act ih =>
      have counted : (updates (acts ++ [act])).length
          = (updates acts).length + if act.isUpdate then 1 else 0 := by
        unfold updates
        rw [List.filter_append, List.length_append]
        cases h : act.isUpdate <;> simp [h]
      have stepped : (ofStore store).run (acts ++ [act])
          = ((ofStore store).run acts).step act := by
        rw [run]
        rw [List.foldl_append]
        rfl
      obtain ⟨serial, le⟩ := ih (by omega)
      have grown := length_commits_step ((ofStore store).run acts) act l
      rw [stepped]
      exact ⟨serial_step serial (by omega) act, by omega⟩

/-- Where a store that was empty has seen few enough updates, every location shows a record whose
    version can be raised. -/
theorem shows_run {store : Store} (fresh : store.IsEmpty) (l : Location) (acts : List Act)
    (few : (updates acts).length < Database.greatestVersion) :
    let t := (ofStore store).run acts
    ∃ data version, t.store.Shows l data version ∧ t.store.HasRoom version := by
  intro t
  obtain ⟨serial, le⟩ := serial_run fresh l acts few
  exact ⟨_, _, serial.shows, hasRoom_of_lt (Nat.lt_of_le_of_lt le few)⟩

/-! ## No lost update -/

/-- A call of an update leaves everything as it is, or it is a success at once: then its location
    showed the very version that the update carries. -/
theorem step_update {t : Traffic} {record : Record} (h : Serial t record.location)
    (few : (t.commits record.location).length < Database.greatestVersion) (client : Nat) :
    ((t.step (.call client (.update record))).store = t.store ∧
      ∀ l, (t.step (.call client (.update record))).commits l = t.commits l) ∨
    ((∃ data, (t.store.getOrCreate record.location).1
        = .ok ⟨record.location, data, record.version⟩) ∧
      (t.step (.call client (.update record))).commits record.location
        = t.commits record.location
          ++ [⟨record, { record with version := record.version + 1 }⟩]) := by
  rcases step_call_cases t client (.update record) with idle | ⟨store, commits⟩
  · rw [idle]
    exact Or.inl ⟨rfl, fun _ => rfl⟩
  rcases h.shows.start_update (hasRoom_of_lt few) with ⟨same, s', started, -⟩ | ⟨e, started⟩
  · refine Or.inr ⟨⟨latest (t.commits record.location), ?_⟩, ?_⟩
    · rw [same]
      exact h.shows.getOrCreate
    · rw [commits, started]
      exact congrArg (fun c => t.commits record.location ++ Option.toList c) (if_pos rfl)
  · refine Or.inl ⟨?_, fun l => commits_step_call commits fun answer known => ?_⟩
    · rw [store, started.store]
    · rw [started.answer known]
      rfl

/-- **NO LOST UPDATE**: let any clients call operations of a store that starts empty, with any
    accesses of others between the two of each.  At every location the successful updates make the
    versions 1, 2, 3, … out of 0, 1, 2, …, and the location reads as the last of them, or as the
    empty map at version zero.  Whatever access comes next, an update that does not succeed, a
    second access and a read of something stored leave the whole store as it is; an update that
    does succeed carries the version that its location reads as; and every other location keeps
    what it has. -/
theorem no_lost_update {store : Store} (fresh : store.IsEmpty) (acts : List Act)
    (few : (updates acts).length < Database.greatestVersion) :
    let t := (ofStore store).run acts
    (∀ l, (t.commits l).map (fun c => c.carried.version.toNat)
          = List.range (t.commits l).length ∧
        (t.commits l).map (fun c => c.stored.version.toNat)
          = List.range' 1 (t.commits l).length ∧
        (t.store.getOrCreate l).1
          = .ok ⟨l, latest (t.commits l), .ofNat (t.commits l).length⟩) ∧
      (∀ client record, let t' := t.step (.call client (.update record))
        (t'.store = t.store ∧ ∀ l, t'.commits l = t.commits l) ∨
        ((∃ data, (t.store.getOrCreate record.location).1
            = .ok ⟨record.location, data, record.version⟩) ∧
          t'.commits record.location = t.commits record.location
            ++ [⟨record, { record with version := record.version + 1 }⟩])) ∧
      (∀ client, let t' := t.step (.resume client)
        t'.store = t.store ∧ ∀ l, t'.commits l = t.commits l) ∧
      (∀ client l, ¬t.store.Lacks l → (t.step (.call client (.get l))).store = t.store) ∧
      (∀ act l, (∀ client op, act = .call client op → l ≠ op.location) →
        t.store.SameAt l (t.step act).store) := by
  intro t
  have serial (l : Location) := serial_run fresh l acts few
  refine ⟨fun l => ?_, fun client record => ?_, step_resume t, fun client l => ?_, fun act l => ?_⟩
  · obtain ⟨serial, le⟩ := serial l
    exact ⟨serial.carried, serial.stored (Nat.lt_of_le_of_lt le few), serial.shows.getOrCreate⟩
  · obtain ⟨serial, le⟩ := serial record.location
    exact step_update serial (Nat.lt_of_le_of_lt le few) client
  · exact store_step_get t client
  · exact sameAt_step t

/-- Two clients that read the same record and then both update it. -/
def race (l : Location) : List Act :=
  [.call 0 (.get l), .call 1 (.get l), .resume 1, .resume 0,
    .call 0 (.update ⟨l, .ofList [("owner", "first")], 0⟩),
    .call 1 (.update ⟨l, .ofList [("owner", "second")], 0⟩), .resume 1]

/-- Two updates of one version meet in a database, and one of them is refused. -/
theorem no_lost_update_race :
    let l : Location := ⟨"cnsi-system", "governor-access-token"⟩
    let t := (ofStore (.sqlite {})).run (race l)
    (Store.sqlite {}).IsEmpty ∧ (updates (race l)).length < Database.greatestVersion ∧
      (t.commits l).map (fun c => c.stored.version.toNat) = [1] ∧
      (t.store.getOrCreate l).1 = .ok ⟨l, .ofList [("owner", "first")], 1⟩ := by
  intro l t
  have few : (updates (race l)).length < Database.greatestVersion := by decide
  have fresh : (Store.sqlite {}).IsEmpty := rfl
  obtain ⟨-, versions, shown⟩ := (no_lost_update fresh (race l) few).1 l
  have once : (t.commits l).length = 1 := by decide +kernel
  have last : latest (t.commits l) = .ofList [("owner", "first")] := by decide +kernel
  refine ⟨fresh, few, versions.trans ?_, shown.trans ?_⟩
  · rw [once]
    rfl
  · rw [last, once]
    rfl

end Traffic

end Courier
