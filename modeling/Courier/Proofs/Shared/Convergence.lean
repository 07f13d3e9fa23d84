import Courier.Proofs.Shared.Order
import Mathlib.Data.List.Induction

/-! # Convergence — replicas left to themselves agree on one token

    Replicas that nobody disturbs end with one token, the one in the record.
    With a usable credential in the record at the start nobody writes at all;
    otherwise one call does, and all others adopt what it wrote.  Since no
    call meets more than one conflict, none gives up. -/

namespace Courier

namespace Fleet

/-- Whether an act is a calm move of a call, or reads, or concerns another record. -/
def Act.IsCalm (f : Fleet) (now : Instant) : Act → Prop
  | .move i m => ∀ replica, f.replicas[i]? = some replica →
      m.IsCalm (f.settings replica).maxAge now
  | .foreign (.get _) => True
  | .foreign (.update record) => record.location ≠ f.location

/-- The number of successful writes of all calls. -/
def publications (f : Fleet) : Nat := total Caller.publications f.callers

/-- Whether an act is calm is not changed by a run. -/
theorem isCalm_run (f : Fleet) (schedule : List Act) {now : Instant} (act : Act) :
    act.IsCalm (f.run schedule) now ↔ act.IsCalm f now := by
  cases act with
  | move i m => simp only [Act.IsCalm, replicas_run, settings_run]
  | foreign op => cases op <;> simp only [Act.IsCalm, location_run]

/-- A fleet whose calls are all in order with a record that may have been published once. -/
structure InOrder (start : Record) (now : Instant) (current : Record) (n : Nat) (f : Fleet) :
    Prop where
  phase : Phase start now current n
  reads : f.store.Reads current
  room : f.store.HasRoom start.version
  location : f.location = start.location
  callers : ∀ c ∈ f.callers, c.InOrder start current (f.store.Has current) now
  publications : f.publications = n

variable {start current : Record} {now : Instant} {n : Nat} {f : Fleet}

/-- What others do elsewhere, and reads, leave the record as it reads. -/
theorem reads_foreign (reads : f.store.Reads current) (location : f.location = current.location)
    {op : Operation} (calm : Act.IsCalm f now (.foreign op)) :
    (f.store.start op).2.Reads current ∧
      (f.store.Has current → (f.store.start op).2.Has current) := by
  refine reads.start_of_spared ?_
  rintro record rfl
  rw [← location]
  exact calm

/-- **ONE CALM ACT**: a fleet in order stays in order. -/
theorem inOrder_step (h : f.InOrder start now current n) {act : Act} (calm : act.IsCalm f now) :
    ∃ current' n', (f.step act).InOrder start now current' n' := by
  cases act with
  | foreign op =>
      have location : f.location = current.location := h.location.trans h.phase.location_eq.symm
      obtain ⟨reads, held⟩ := reads_foreign h.reads location calm
      -- a foreign call of the store may only fill a location that it finds empty
      exact ⟨current, n,
        { phase := h.phase
          reads := reads
          room := (Store.hasRoom_start f.store op start.version).mpr h.room
          location := h.location
          callers := fun c mem => (h.callers c mem).mono held
          publications := h.publications }⟩
  | move i m =>
      rcases step_move_cases f i m with idle | ⟨c, present, moved⟩
      · rw [idle]
        exact ⟨current, n, h⟩
      have replica := replicas_getElem? present
      have ordered := h.callers c (List.mem_of_getElem? present)
      obtain ⟨current', n', goesOn, inOrder, published⟩ := Caller.goesOn_move h.phase h.reads h.room
        ordered (f.isFree c.replica) (calm c.replica replica)
      rw [← h.location] at goesOn inOrder published
      rw [moved]
      refine ⟨current', n',
        { phase := goesOn.phase
          reads := goesOn.reads
          room := ?_
          location := h.location
          callers := ?_
          publications := ?_ }⟩
      · exact Caller.hasRoom_move h.room (f.isFree c.replica) m
      · -- the others are in order with whatever the record has become
        intro d mem
        rcases List.mem_or_eq_of_mem_set mem with old | rfl
        · exact goesOn.others d (h.callers d old)
        · exact inOrder
      · have sum := total_set Caller.publications f.callers
          (c.move f.location (f.settings c.replica) (f.isFree c.replica) f.store m).1 present
        have before : total Caller.publications f.callers = n := h.publications
        show total Caller.publications (f.callers.set i _) = n'
        omega

/-- A whole calm schedule keeps a fleet in order. -/
theorem inOrder_run (h : f.InOrder start now start 0) (schedule : List Act)
    (calm : ∀ act ∈ schedule, act.IsCalm f now) :
    ∃ current n, (f.run schedule).InOrder start now current n := by
  induction schedule using List.reverseRecOn with
  | nil => exact ⟨start, 0, h⟩
  | append_singleton schedule act ih =>
      obtain ⟨current, n, inOrder⟩ := ih fun act mem => calm act (List.mem_append_left _ mem)
      have last := calm act (List.mem_append_right _ (List.mem_singleton.mpr rfl))
      rw [run_concat]
      exact inOrder_step inOrder ((isCalm_run f schedule act).mpr last)

/-- Where no call has taken its lock yet, everything is in order. -/
theorem inOrder_of_isFresh {data : Fields} {version : UInt64} (fresh : f.IsFresh)
    (shows : f.store.Shows f.location data version) (room : f.store.HasRoom version) :
    f.InOrder ⟨f.location, data, version⟩ now ⟨f.location, data, version⟩ 0 where
  phase := .untouched
  reads := shows
  room := room
  location := rfl
  callers := by
    intro c mem
    rw [fresh c mem]
    rfl
  publications := by
    refine total_eq_zero fun c mem => ?_
    rw [fresh c mem]
    rfl

/-- What a call that has returned says, in a fleet in order whose refreshes succeed. -/
theorem InOrder.result (h : f.InOrder start now current n) {c : Caller} (mem : c ∈ f.callers)
    (succeeds : c.refreshFailed = false) {result : Except TokenError String}
    (returned : c.call = some (.done result)) : ∃ credential,
      Credential.usableIn? current now = some credential ∧ result = .ok credential.token := by
  have ordered := h.callers c mem
  cases result with
  | ok token =>
      simp only [Caller.InOrder, returned] at ordered
      obtain ⟨credential, usable, rfl⟩ := ordered
      exact ⟨credential, usable, rfl⟩
  | error e =>
      simp only [Caller.InOrder, returned] at ordered
      cases ordered.symm.trans succeeds

/-- A plain move in a fleet in order makes no refresh fail. -/
theorem InOrder.refreshFailed_step (h : f.InOrder start now current n)
    (succeeds : ∀ c ∈ f.callers, c.refreshFailed = false) {i : Nat} {c : Caller}
    (present : f.callers[i]? = some c) {m : Move} {grant : Grant} (plain : m.IsPlain now grant) :
    ∀ d ∈ (f.step (.move i m)).callers, d.refreshFailed = false := by
  rcases step_move_cases f i m with idle | ⟨c', there, moved⟩
  · rw [idle]
    exact succeeds
  · obtain rfl := Option.some.inj (there.symm.trans present)
    rw [moved]
    intro d mem
    rcases List.mem_or_eq_of_mem_set mem with old | rfl
    · exact succeeds d old
    · have caller := List.mem_of_getElem? present
      exact Caller.refreshFailed_move (fun state => (h.callers _ caller).isRunning)
        (succeeds _ caller) _ plain

/-- **REPLICAS CONVERGE**: let the calls of any replicas move in any order, under a clock that
    stands, in a store that does not fail, with nobody else writing the record, with grants that
    last and with refreshes that succeed.  Of the start, a store that does not fail asks that the
    record reads as something whose version can be raised, which holds of every store that was
    empty once (`Traffic.shows_run`).  Then the record can be read at the end, and each call that
    has returned has returned the token of the usable credential in it.  When all of them have, the
    successful writes are none if the record held a usable credential at the start, and one
    otherwise.  Every act leaves the calls as they are or lowers their weight; and as long as some
    call has not returned, there is such an act that lowers it, so that the calls can go on until
    all have returned. -/
theorem replicas_converge {f : Fleet} {data : Fields} {version : UInt64} {now : Instant}
    (fresh : f.IsFresh) (any : f.callers ≠ []) (shows : f.store.Shows f.location data version)
    (room : f.store.HasRoom version) (schedule : List Act)
    (calm : ∀ act ∈ schedule, act.IsCalm f now)
    (succeeds : ∀ c ∈ (f.run schedule).callers, c.refreshFailed = false) :
    let g := f.run schedule
    (∃ record, (g.store.getOrCreate f.location).1 = .ok record ∧
      (∀ c ∈ g.callers, ∀ result, c.call = some (.done result) → ∃ credential,
        Credential.usableIn? record now = some credential ∧ result = .ok credential.token) ∧
      ((∀ c ∈ g.callers, ∃ result, c.call = some (.done result)) → ∃ credential,
        Credential.usableIn? record now = some credential ∧
        (∀ c ∈ g.callers, c.call = some (.done (.ok credential.token))) ∧
        g.publications = if (Credential.usableIn? ⟨f.location, data, version⟩ now).isSome
          then 0 else 1)) ∧
    (∀ act, (g.step act).callers = g.callers ∨ (g.step act).weight < g.weight) ∧
    (∀ c ∈ g.callers, (∀ result, c.call ≠ some (.done result)) → ∀ grants : Nat → Grant,
      (∀ replica ∈ f.replicas, (grants replica).IsLasting (f.settings replica).maxAge now) →
      ∃ act : Act, act.IsCalm f now ∧ (g.step act).weight < g.weight ∧
        ∀ d ∈ (g.step act).callers, d.refreshFailed = false) := by
  intro g
  obtain ⟨current, n, inOrder⟩ := inOrder_run (inOrder_of_isFresh fresh shows room) schedule calm
  have location : current.location = f.location := inOrder.phase.location_eq
  have results {c : Caller} (mem : c ∈ g.callers) {result : Except TokenError String}
      (returned : c.call = some (.done result)) := inOrder.result mem (succeeds c mem) returned
  refine ⟨⟨current, ?_, fun c mem result returned => results mem returned, ?_⟩, weight_step g, ?_⟩
  · rw [← location]
    exact inOrder.reads.getOrCreate
  · intro returned
    -- there is a call, and it has returned the token of the credential in the record
    have inhabited : g.callers ≠ [] := by
      intro none
      have same := replicas_run f schedule
      rw [show (f.run schedule).replicas = [] from congrArg (List.map _) none] at same
      exact any (List.map_eq_nil_iff.mp same.symm)
    obtain ⟨c, mem⟩ := List.exists_mem_of_ne_nil g.callers inhabited
    obtain ⟨result, ended⟩ := returned c mem
    obtain ⟨credential, usable, -⟩ := results mem ended
    refine ⟨credential, usable, fun d there => ?_, ?_⟩
    · obtain ⟨result, ended⟩ := returned d there
      obtain ⟨credential', usable', rfl⟩ := results there ended
      rw [ended, Option.some.inj (usable'.symm.trans usable)]
    · exact inOrder.publications.trans (inOrder.phase.count usable)
  · intro c mem running grants lasting
    obtain ⟨i, d, m, present, plain, lower⟩ := exists_weight_step_lt mem running (fun _ => now) grants
    refine ⟨.move i m, fun replica same => ?_, lower, ?_⟩
    · rw [← replicas_run f schedule] at same lasting
      have item : g.replicas[i]? = some d.replica := replicas_getElem? present
      obtain rfl := Option.some.inj (item.symm.trans same)
      exact plain.isCalm (lasting d.replica (List.mem_of_getElem? item))
    · exact inOrder.refreshFailed_step succeeds present plain

/-- Two callers race for one record: both end with the token of the one that wrote first. -/
theorem replicas_converge_lost_race :
    let f := pair (.memory {})
    f.IsFresh ∧ (∀ act ∈ lostRace .epoch, act.IsCalm f .epoch) ∧
      (∀ c ∈ (f.run (lostRace .epoch)).callers, c.call = some (.done (.ok "first"))) ∧
      (f.run (lostRace .epoch)).publications = 1 ∧
      ∃ act : Act, act.IsCalm f .epoch ∧ (f.step act).weight < f.weight := by
  intro f
  have fresh : f.IsFresh := isFresh_pair (.memory {})
  have any : f.callers ≠ [] := fun none => nomatch none
  have shows : f.store.Shows f.location .empty 0 := Or.inr ⟨rfl, rfl, rfl⟩
  have room : f.store.HasRoom 0 := trivial
  have lifetime : 0 < (min (Span.ofSeconds 3600) RefreshSettings.standard.maxAge).toNanos := by
    decide
  have year : Rfc3339.yearOf (Instant.epoch.later
      (min (Span.ofSeconds 3600) RefreshSettings.standard.maxAge)) = 1970 := by decide
  have readable : (0 : Int) ≤ 1970 ∧ (1970 : Int) ≤ 9999 := by decide
  have lasting {token : String} (h : token ≠ "") (replica : Nat) :
      Grant.IsLasting ⟨token, 3600⟩ (f.settings replica).maxAge .epoch :=
    ⟨h, lifetime, year ▸ readable⟩
  -- nobody else writes, the clock stands still, and every grant lasts
  have calm : ∀ act ∈ lostRace .epoch, act.IsCalm f .epoch := by
    simp only [lostRace, List.forall_mem_cons]
    exact ⟨fun _ _ => trivial, fun _ _ => rfl, fun _ _ => trivial, fun _ _ => rfl, fun _ _ => rfl,
      fun _ _ => rfl, fun replica _ => lasting (by decide) replica,
      fun replica _ => lasting (by decide) replica, fun _ _ => rfl, fun _ _ => rfl, fun _ _ => rfl,
      fun _ _ => rfl, fun _ _ => rfl, fun _ mem => nomatch mem⟩
  have ends : (f.run (lostRace .epoch)).callers.map Caller.token?
      = [some "first", some "first"] := by decide +kernel
  have first : ∀ c ∈ (f.run (lostRace .epoch)).callers, c.call = some (.done (.ok "first")) := by
    intro c mem
    have token : c.token? ∈ (f.run (lostRace .epoch)).callers.map Caller.token? :=
      List.mem_map_of_mem mem
    rw [ends] at token
    rcases List.mem_cons.mp token with token | token
    · exact Caller.call_of_token? token
    · exact Caller.call_of_token? (List.mem_singleton.mp token)
  have succeeds : ∀ c ∈ (f.run (lostRace .epoch)).callers, c.refreshFailed = false := by
    intro c mem
    simp only [Caller.refreshFailed, first c mem]
  obtain ⟨⟨record, -, -, whole⟩, -, -⟩ :=
    replicas_converge fresh any shows room (lostRace .epoch) calm succeeds
  obtain ⟨credential, -, -, publications⟩ := whole fun c mem => ⟨_, first c mem⟩
  have nobody : Credential.usableIn? ⟨f.location, .empty, 0⟩ .epoch = none := by decide +kernel
  rw [nobody] at publications
  -- before anything happens, too, there is an act that leads on
  have begins : ∀ c ∈ (f.run []).callers, c.refreshFailed = false := by
    intro c mem
    rw [fresh c mem]
    rfl
  obtain ⟨-, -, goesOn⟩ :=
    replicas_converge fresh any shows room [] (fun _ mem => nomatch mem) begins
  obtain ⟨act, calmAct, lower, -⟩ := goesOn { replica := 0 } (List.mem_cons_self ..)
    (fun _ returned => nomatch returned) (fun _ => ⟨"first", 3600⟩)
    fun replica _ => lasting (by decide) replica
  exact ⟨fresh, calm, first, publications, act, calmAct, lower⟩

end Fleet

end Courier
