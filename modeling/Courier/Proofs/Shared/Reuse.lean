import Courier.Proofs.Shared.Effort
import Courier.Proofs.Shared.Publication

/-! # Reuse — one credential serves all calls until it expires

    Once a record holds a credential, a call that reads the clock before the
    expiry returns its token and does nothing else, so the record serves every
    call of every replica and stays as it is (`Serving`).  A call that reads
    the clock at the expiry or later finds nothing usable: the next thing it
    does is to ask the issuer (`Asks`), whatever happens around it.  Together
    with publication this is the life of a credential from the grant to its
    end (`published_credential_is_reused`). -/

namespace Courier

/-- A credential with a token is usable exactly before its expiry. -/
theorem Credential.isUsableAt_eq {c : Credential} (token : c.token ≠ "") (now : Instant) :
    c.isUsableAt now = now.isBefore c.expiresAt := by
  rw [isUsableAt, isEmpty_eq_false token]
  rfl

/-- Whether a move is no failure of the store, and an access only at a permitted reading of the
    clock. -/
def Move.IsSound (permitted : Instant → Prop) : Move → Prop
  | .access reading => permitted reading
  | .fail .. => False
  | _ => True

/-- A plain move is sound where its instant is permitted. -/
theorem Move.IsPlain.isSound {m : Move} {now : Instant} {grant : Grant} {permitted : Instant → Prop}
    (plain : m.IsPlain now grant) (may : permitted now) : m.IsSound permitted :=
  plain.elim trivial may trivial trivial trivial

namespace Caller

/-- Whether a call has been told nothing yet. -/
def Waits (c : Caller) : Prop := c.call = none ∨ c.call = some .looking

/-- Whether a call has sent a request to the issuer, or does so next. -/
def Asks (c : Caller) : Prop :=
  1 ≤ c.requests ∨ ∃ engine backoff, c.call = some (.refreshing (.due engine backoff))

variable {location : Location} {settings : RefreshSettings} {store : Store} {c : Caller}

/-- A call that waits is about to look. -/
theorem Waits.eq_looking (h : c.Waits) {call : SharedCall} (stands : c.call = some call) :
    call = .looking := by
  rcases h with waits | looks
  · rw [waits] at stands
    cases stands
  · exact Option.some.inj (stands.symm.trans looks)

theorem Waits.pendingWrites_eq (h : c.Waits) : c.pendingWrites = 0 := by
  rcases h with waits | looks
  · rw [pendingWrites, waits]
  · rw [pendingWrites, looks]

/-- A call that goes on waiting has spent nothing on that. -/
theorem Waits.spent_of_quiet {c' : Caller} (h : c.Waits) (h' : c'.Waits) (quiet : c'.past = c.past) :
    c'.requests = c.requests ∧ c'.writes = c.writes := by
  constructor
  · rw [requests, requests, quiet]
  · rw [writes, writes, quiet, h.pendingWrites_eq, h'.pendingWrites_eq]

/-- A call that returns upon its first read has spent neither a request nor a write on that. -/
theorem Waits.spent_of_read {c' : Caller} {answer : Except StoreError Record} {now : Instant}
    {result : Except TokenError String} (h : c.Waits)
    (told : c'.past = c.past ++ [⟨.read answer now, store⟩])
    (returned : c'.call = some (.done result)) :
    c'.requests = c.requests ∧ c'.writes = c.writes := by
  constructor
  · rw [requests, told, List.countP_append]
    rfl
  · rw [writes, writes, told, List.countP_append, h.pendingWrites_eq, pendingWrites, returned]
    rfl

/-- A call that has returned leaves the store alone. -/
theorem store_move_of_done {result : Except TokenError String} (location : Location)
    (settings : RefreshSettings) (free : Bool) (store : Store) (m : Move)
    (returned : c.call = some (.done result)) :
    (c.move location settings free store m).2 = store := by
  rcases store_move_cases location settings free store c m with same | ⟨op, needs, -, -⟩
  · exact same
  · rw [operation?_of_call returned] at needs
    cases needs

/-- A call that has returned and asks has asked. -/
theorem Asks.requests_pos (h : c.Asks) {result : Except TokenError String}
    (returned : c.call = some (.done result)) : 1 ≤ c.requests := by
  rcases h with sent | ⟨engine, backoff, due⟩
  · exact sent
  · cases returned.symm.trans due

/-- Whatever it is told, a call does not forget a request. -/
theorem requests_le_hear (settings : RefreshSettings) (store : Store) (c : Caller)
    (event : SharedEvent) : c.requests ≤ (c.hear settings store event).requests := by
  rw [requests, requests, countP_past_hear]
  exact Nat.le_add_right _ _

/-- **ONE MOVE OF A CALL THAT ASKS**: whatever it is, the call has asked or asks next. -/
theorem Asks.move (h : c.Asks) (location : Location) (settings : RefreshSettings) (free : Bool)
    (store : Store) (m : Move) : (c.move location settings free store m).1.Asks := by
  have moved := moved_move location settings free store c m
  generalize c.move location settings free store m = next at moved ⊢
  cases moved with
  | idle | opened => exact h
  | begun waits =>
      rcases h with sent | ⟨engine, backoff, due⟩
      · exact Or.inl sent
      · cases waits.symm.trans due
  | answered needs | finished needs | failed needs =>
      rcases h with sent | ⟨engine, backoff, due⟩
      · exact Or.inl (Nat.le_trans sent (requests_le_hear ..))
      · -- a refresh needs no operation of the store
        rw [operation?_of_call due] at needs
        cases needs
  | @heard state event stands expected =>
      rcases h with sent | ⟨engine, backoff, due⟩
      · exact Or.inl (Nat.le_trans sent (requests_le_hear ..))
      · -- the refresh that is due expects nothing before its request is sent
        obtain rfl := SharedCall.refreshing.inj (Option.some.inj (stands.symm.trans due))
        cases event with
        | sent now =>
            refine Or.inl ?_
            rw [requests, countP_past_hear]
            exact Nat.le_add_left _ _
        | answered answer => exact absurd expected id
        | woken => exact absurd expected id
        | cancelled => exact absurd expected id

variable {record : Record} {own : Credential}

/-- **ONE MOVE OF A CALL THAT WAITS**: it goes on waiting, or it is told the record and returns the
    token in it, if that is usable still, or begins a refresh.  The record stays. -/
theorem Waits.move (h : c.Waits) (settings : RefreshSettings) (there : store.Has record)
    (held : Credential.ofRecord? record = some own) (free : Bool) {m : Move}
    {permitted : Instant → Prop} (sound : m.IsSound permitted) :
    let moved := c.move record.location settings free store m
    moved.2.Has record ∧ ((moved.1.Waits ∧ moved.1.past = c.past) ∨
      ∃ now, permitted now ∧ moved.1.past = c.past ++ [⟨.read (.ok record) now, store⟩] ∧
        moved.1.call = some (if own.isUsableAt now = true then .done (.ok own.token)
          else .refreshing (.start settings))) := by
  intro moved
  cases m with
  | enter =>
      rcases move_enter_cases record.location settings free store c with same | ⟨-, -, begun⟩
      · rw [show moved = _ from same]
        exact ⟨there, Or.inl ⟨h, rfl⟩⟩
      · rw [show moved = _ from begun]
        exact ⟨there, Or.inl ⟨Or.inr rfl, rfl⟩⟩
  | access now =>
      rcases h with waits | looks
      · have idle : moved = (c, store) := by
          simp only [moved, Caller.move, operation?, waits, Option.bind_none]
        rw [idle]
        exact ⟨there, Or.inl ⟨Or.inl waits, rfl⟩⟩
      · have needs : c.operation? record.location = some (.get record.location) :=
          operation?_of_call looks
        obtain ⟨store', there', told | opened⟩ :=
          move_access_of_reads (Or.inl there) (fun _ => there) needs free now
        · rw [show moved = _ from told]
          -- the record is read: it is used as it stands, or it is stale and a refresh begins
          refine ⟨there', Or.inr ⟨now, sound, rfl, ?_⟩⟩
          refine (call_hear settings store looks _).trans (congrArg some ?_)
          split
          · next usable =>
              exact SharedCall.step_looking_of_usable
                (Credential.usableIn?_eq_some.mpr ⟨held, usable⟩)
          · next stale =>
              refine SharedCall.step_looking_of_none ?_
              rw [Credential.usableIn?, held, Option.filter_some, if_neg stale]
        · rw [show moved = _ from opened]
          exact ⟨there', Or.inl ⟨Or.inr looks, rfl⟩⟩
  | fail now cause reached => exact absurd sound id
  | refresh event =>
      rcases move_refresh_cases record.location settings free store c event with
        same | ⟨state, stands, -, -⟩
      · rw [show moved = _ from same]
        exact ⟨there, Or.inl ⟨h, rfl⟩⟩
      · cases h.eq_looking stands

end Caller

namespace Fleet

/-- Whether a call has been told nothing yet. -/
def Waits (k : Nat) (f : Fleet) : Prop := ∃ c, f.callers[k]? = some c ∧ c.Waits

/-- Whether a call has sent a request to the issuer, or does so next. -/
def Asks (k : Nat) (f : Fleet) : Prop := ∃ c, f.callers[k]? = some c ∧ c.Asks

/-- Whether an act is no failure of the store and spares the record, and whichever call reads the
    clock behind an access does so before an expiry, but for one that is late. -/
def Act.IsTimely (location : Location) (expiry : Instant) (late : Option Nat) : Act → Prop :=
  Act.Obeys location fun j m => m.IsSound fun now => now.isBefore expiry = true ↔ late ≠ some j

/-- Plain moves are timely where the readings of the clock are. -/
theorem Act.isTimely_of_isPlain {location : Location} {expiry : Instant} {late : Option Nat}
    {readings : Nat → Instant} {grant : Grant}
    (fits : ∀ j, (readings j).isBefore expiry = true ↔ late ≠ some j) {act : Act}
    (plain : ∃ j m, act = .move j m ∧ Move.IsPlain (readings j) grant m) :
    act.IsTimely location expiry late := by
  obtain ⟨j, m, rfl, plain⟩ := plain
  exact plain.isSound (fits j)

/-- Whether a record with a credential has served all calls so far: it is there, each call has been
    told nothing yet or has returned the token, and all but one have neither asked the issuer nor
    written. -/
structure Serving (record : Record) (own : Credential) (i : Nat) (f : Fleet) : Prop where
  location : f.location = record.location
  there : f.store.Has record
  callers : ∀ c ∈ f.callers, c.Waits ∨ c.call = some (.done (.ok own.token))
  idle : ∀ j d, j ≠ i → f.callers[j]? = some d → d.requests = 0 ∧ d.writes = 0

/-- Whether a record with a credential serves all calls up to the expiry, and not the first one
    behind it. -/
structure Reuses (record : Record) (own : Credential) (i : Nat) (f : Fleet) : Prop where
  serving : f.Serving record own i
  /-- Before the expiry, all calls can be brought to return, and return the token. -/
  returns : ∃ rest, (∀ act ∈ rest, act.IsTimely f.location own.expiresAt none) ∧
    ∀ c ∈ (f.run rest).callers, c.call = some (.done (.ok own.token))
  /-- A call that is the first to read the clock at the expiry or later asks the issuer, whatever
      happens once it has been told the record. -/
  asks : ∀ k, f.Waits k → ∀ schedule,
    (∀ act ∈ schedule, act.IsTimely f.location own.expiresAt (some k)) →
    (f.run schedule).Waits k ∨ ∀ more, ((f.run schedule).run more).Asks k
  /-- It can be brought to return, and has asked by then. -/
  hasAsked : ∀ k, f.Waits k → ∀ schedule,
    (∀ act ∈ schedule, act.IsTimely f.location own.expiresAt (some k)) →
    ∃ rest, (∀ act ∈ rest, act.IsTimely f.location own.expiresAt (some k)) ∧
      ∃ c result, ((f.run schedule).run rest).callers[k]? = some c ∧
        c.call = some (.done result) ∧ 1 ≤ c.requests

variable {f : Fleet} {record : Record} {own : Credential} {i k : Nat} {late : Option Nat}

/-- **ONE ACT**: whatever it is, a call that asks has asked or asks next. -/
theorem Asks.step (h : f.Asks k) (act : Act) : (f.step act).Asks k := by
  obtain ⟨c, present, asks⟩ := h
  by_cases itself : ∃ m, act = .move k m
  · obtain ⟨m, rfl⟩ := itself
    exact ⟨_, callers_step_self present m, asks.move ..⟩
  · refine ⟨c, ?_, asks⟩
    rw [callers_step_of_ne f fun m same => itself ⟨m, same⟩]
    exact present

theorem Asks.run (h : f.Asks k) (schedule : List Act) : (f.run schedule).Asks k := by
  induction schedule using List.reverseRecOn with
  | nil => exact h
  | append_singleton schedule act ih =>
      rw [run_concat]
      exact ih.step act

/-- A call that is served is replaced by what its move has made of it. -/
theorem Serving.replace (h : f.Serving record own i) {j : Nat} {c c' : Caller} {store : Store}
    (present : f.callers[j]? = some c) (there : store.Has record)
    (served : c'.Waits ∨ c'.call = some (.done (.ok own.token)))
    (spent : c'.requests = c.requests ∧ c'.writes = c.writes) :
    Serving record own i { f with store := store, callers := f.callers.set j c' } where
  location := h.location
  there := there
  callers := by
    intro d mem
    rcases List.mem_or_eq_of_mem_set mem with old | rfl
    · exact h.callers d old
    · exact served
  idle := by
    intro l d other at'
    by_cases same : j = l
    · subst same
      have inside : j < f.callers.length := (List.getElem?_eq_some_iff.mp present).1
      rw [List.getElem?_set_self inside] at at'
      rw [← Option.some.inj at', spent.1, spent.2]
      exact h.idle j c other present
    · rw [List.getElem?_set_ne same] at at'
      exact h.idle l d other at'

variable (held : Credential.ofRecord? record = some own) (token : own.token ≠ "")

include held token

/-- **ONE TIMELY ACT**: the record goes on serving, or a call that is late asks the issuer. -/
theorem Serving.step (h : f.Serving record own i) {act : Act}
    (timely : act.IsTimely record.location own.expiresAt late) :
    (f.step act).Serving record own i ∨ ∃ k, late = some k ∧ (f.step act).Asks k := by
  cases act with
  | foreign op =>
      have spared := Store.Reads.start_of_spared (Or.inl h.there) (spared_of_obeys timely)
      exact Or.inl { location := h.location
                     there := spared.2 h.there
                     callers := h.callers
                     idle := h.idle }
  | move j m =>
      rcases step_move_cases f j m with idle | ⟨c, present, moved⟩
      · rw [idle]
        exact Or.inl h
      rcases h.callers c (List.mem_of_getElem? present) with waits | returned
      · have served := waits.move (f.settings c.replica) h.there held (f.isFree c.replica) timely
        rw [← h.location] at served
        obtain ⟨there, ⟨waits', quiet⟩ | ⟨now, allowed, told, next⟩⟩ := served
        · rw [moved]
          exact Or.inl (h.replace present there (Or.inl waits') (waits.spent_of_quiet waits' quiet))
        · rw [Credential.isUsableAt_eq token] at next
          split at next
          · rw [moved]
            exact Or.inl (h.replace present there (Or.inr next) (waits.spent_of_read told next))
          · next expired =>
              -- only the call that is late may read the clock by then
              have isLate : late = some j := not_not.mp fun early => expired (allowed.mpr early)
              exact Or.inr ⟨j, isLate, _, callers_step_self present m, Or.inr ⟨_, _, next⟩⟩
      · rw [moved, Caller.move_of_done _ _ m returned, Caller.store_move_of_done _ _ _ _ m returned]
        exact Or.inl (h.replace present h.there (Or.inr returned) ⟨rfl, rfl⟩)

/-- A whole schedule before the expiry: the record serves all calls. -/
theorem Serving.run (h : f.Serving record own i) (schedule : List Act)
    (timely : ∀ act ∈ schedule, act.IsTimely record.location own.expiresAt none) :
    (f.run schedule).Serving record own i := by
  induction schedule using List.reverseRecOn with
  | nil => exact h
  | append_singleton schedule act ih =>
      have before := ih fun act mem => timely act (List.mem_append_left _ mem)
      have last := timely act (List.mem_append_right _ (.head _))
      rw [run_concat]
      rcases before.step held token last with serving | ⟨k, nobody, -⟩
      · exact serving
      · cases nobody

/-- One act around a call that is late: it goes on waiting, or asks the issuer. -/
theorem Serving.waits_step (h : f.Serving record own i) (waits : f.Waits k) {act : Act}
    (timely : act.IsTimely record.location own.expiresAt (some k)) :
    (f.step act).Waits k ∨ (f.step act).Asks k := by
  obtain ⟨c, present, waits⟩ := waits
  by_cases itself : ∃ m, act = .move k m
  · obtain ⟨m, rfl⟩ := itself
    have moved := callers_step_self present m
    rw [h.location] at moved
    obtain ⟨-, ⟨waits', -⟩ | ⟨now, allowed, -, next⟩⟩ :=
      waits.move (f.settings c.replica) h.there held (f.isFree c.replica) timely
    · exact Or.inl ⟨_, moved, waits'⟩
    · have expired : ¬now.isBefore own.expiresAt = true := fun before => allowed.mp before rfl
      rw [Credential.isUsableAt_eq token, if_neg expired] at next
      exact Or.inr ⟨_, moved, Or.inr ⟨_, _, next⟩⟩
  · refine Or.inl ⟨c, ?_, waits⟩
    rw [callers_step_of_ne f fun m same => itself ⟨m, same⟩]
    exact present

/-- A whole schedule around a call that is late: the record serves the others and the call goes on
    waiting, or it asks the issuer. -/
theorem Serving.waits_run (h : f.Serving record own i) (waits : f.Waits k) (schedule : List Act)
    (timely : ∀ act ∈ schedule, act.IsTimely record.location own.expiresAt (some k)) :
    ((f.run schedule).Serving record own i ∧ (f.run schedule).Waits k) ∨
      (f.run schedule).Asks k := by
  induction schedule using List.reverseRecOn with
  | nil => exact Or.inl ⟨h, waits⟩
  | append_singleton schedule act ih =>
      have last := timely act (List.mem_append_right _ (.head _))
      rw [run_concat]
      rcases ih fun act mem => timely act (List.mem_append_left _ mem) with
        ⟨serving, waits⟩ | asks
      · rcases serving.step held token last, serving.waits_step held token waits last with
          ⟨serving | ⟨l, same, asks⟩, waits | asks'⟩
        · exact Or.inl ⟨serving, waits⟩
        · exact Or.inr asks'
        · obtain rfl := Option.some.inj same
          exact Or.inr asks
        · exact Or.inr asks'
      · exact Or.inr (asks.step act)

/-- **ONE CREDENTIAL SERVES ALL CALLS UNTIL IT EXPIRES**: a record that serves goes on serving, and
    the first call that reads the clock too late asks the issuer. -/
theorem Serving.reuses (h : f.Serving record own i) {now : Instant}
    (early : now.isBefore own.expiresAt = true) (grant : Grant) : f.Reuses record own i := by
  have late : ¬own.expiresAt.isBefore own.expiresAt = true := by
    rw [Instant.isBefore_iff]
    omega
  constructor
  case serving => exact h
  case returns =>
    obtain ⟨rest, plain, returned⟩ := exists_run_all_returned f (fun _ => now) grant
    have fits (j : Nat) : now.isBefore own.expiresAt = true ↔ none ≠ some j :=
      iff_of_true early (Option.some_ne_none j).symm
    have timely : ∀ act ∈ rest, act.IsTimely record.location own.expiresAt none :=
      fun act mem => Act.isTimely_of_isPlain fits (plain act mem)
    rw [h.location]
    refine ⟨rest, timely, fun c mem => ?_⟩
    obtain ⟨result, ended⟩ := returned c mem
    rcases (h.run held token rest timely).callers c mem with waits | served
    · cases waits.eq_looking ended
    · exact served
  case asks =>
    intro k waits schedule timely
    rw [h.location] at timely
    rcases h.waits_run held token waits schedule timely with ⟨-, waits⟩ | asks
    · exact Or.inl waits
    · exact Or.inr fun more => asks.run more
  case hasAsked =>
    intro k waits schedule timely
    rw [h.location] at timely ⊢
    -- only the call itself reads the clock too late
    have fits (j : Nat) : (if j = k then own.expiresAt else now).isBefore own.expiresAt = true ↔
        some k ≠ some j := by
      by_cases same : j = k
      · rw [if_pos same, same]
        exact iff_of_false late fun different => different rfl
      · rw [if_neg same]
        exact iff_of_true early fun equal => same (Option.some.inj equal).symm
    obtain ⟨rest, plain, returned⟩ := exists_run_all_returned (f.run schedule) _ grant
    have timely' : ∀ act ∈ rest, act.IsTimely record.location own.expiresAt (some k) :=
      fun act mem => Act.isTimely_of_isPlain fits (plain act mem)
    have whole := List.forall_mem_append.mpr ⟨timely, timely'⟩
    have ends := h.waits_run held token waits (schedule ++ rest) whole
    rw [run_append] at ends
    refine ⟨rest, timely', ?_⟩
    rcases ends with ⟨-, c, present, waits⟩ | ⟨c, present, asks⟩
    · obtain ⟨result, ended⟩ := returned c (List.mem_of_getElem? present)
      cases waits.eq_looking ended
    · obtain ⟨result, ended⟩ := returned c (List.mem_of_getElem? present)
      exact ⟨c, result, present, ended, asks.requests_pos ended⟩

omit held token

/-- Once a call alone has returned its token, the record that it has published serves all calls. -/
theorem Publishing.serving {start : Record} {grant : Grant} {maxAge : Span} {now : Instant}
    (h : f.Publishing start grant maxAge now i)
    (there : f.store.Has
      ((Credential.issued grant.token grant.lifetime maxAge now).writeTo start).raised)
    (returned : f.callOf i = some (.done (.ok grant.token))) :
    f.Serving ((Credential.issued grant.token grant.lifetime maxAge now).writeTo start).raised
      (.issued grant.token grant.lifetime maxAge now) i where
  location := h.location
  there := there
  callers := by
    intro d mem
    obtain ⟨j, at'⟩ := List.mem_iff_getElem?.mp mem
    by_cases itself : j = i
    · subst itself
      rw [callOf, at'] at returned
      exact Or.inr returned
    · rw [h.others j d itself at']
      exact Or.inl (Or.inl rfl)
  idle := by
    intro j d other at'
    rw [h.others j d other at']
    exact ⟨rfl, rfl⟩

/-- **PUBLISH, HEAL, REUSE**: let no call have begun, let the record show any data without a usable
    credential at a version that can be raised, and let one call move alone: under a clock that
    stands, in a store that does not fail, with nobody else writing the record, and with a refresh
    that succeeds with a grant whose credential lasts and can be read back.  The call can be brought
    to return, and returns the token of the grant; the record is the one at the start but for the
    credential in its two keys and the next version.  From then on, whatever calls of whatever
    replicas do at readings of the clock before the expiry, the record stays and serves them all,
    without a request or a write of theirs; and the first call that reads the clock at the expiry or
    later asks the issuer. -/
theorem published_credential_is_reused {f : Fleet} {i : Nat} {c : Caller} {data : Fields}
    {version : UInt64} {now : Instant} {grant : Grant} (fresh : f.IsFresh)
    (present : f.callers[i]? = some c) (shows : f.store.Shows f.location data version)
    (room : f.store.HasRoom version)
    (unusable : Credential.usableIn? ⟨f.location, data, version⟩ now = none)
    (lasting : (Credential.issued grant.token grant.lifetime (f.settings c.replica).maxAge
      now).Lasting now) (alone : List Act)
    (obeys : ∀ act ∈ alone, act.Obeys f.location fun j m => j = i ∧ m.Brings now grant)
    (succeeds : ∀ d, (f.run alone).callers[i]? = some d → d.refreshFailed = false) :
    let own := Credential.issued grant.token grant.lifetime (f.settings c.replica).maxAge now
    let g := f.run alone
    (∃ rest, (∀ act ∈ rest, act.Obeys f.location fun j m => j = i ∧ m.Brings now grant) ∧
      (g.run rest).callOf i = some (.done (.ok grant.token))) ∧
    ∀ result, g.callOf i = some (.done result) → result = .ok grant.token ∧
      ∃ record, (g.store.getOrCreate f.location).1 = .ok record ∧
        Record.IsRenewal ⟨f.location, data, version⟩ record own ∧
        ∀ later, (∀ act ∈ later, act.IsTimely f.location own.expiresAt none) →
          (g.run later).Reuses record own i := by
  intro own g
  have publishing := (publishing_of_isFresh fresh present shows room grant now).run unusable alone
    obeys
  refine ⟨publishing.exists_run unusable succeeds, fun result returned => ?_⟩
  obtain ⟨rfl, there⟩ := publishing.result succeeds returned
  have serving := publishing.serving there returned
  have held : Credential.ofRecord? (own.writeTo ⟨f.location, data, version⟩).raised = some own :=
    Credential.ofRecord?_writeTo ⟨f.location, data, version⟩ lasting.token lasting.readable
  have early : now.isBefore own.expiresAt = true := by
    rw [← Credential.isUsableAt_eq lasting.token]
    exact lasting.usable
  refine ⟨rfl, (own.writeTo ⟨f.location, data, version⟩).raised, ?_, own.isRenewal_writeTo _, ?_⟩
  · exact Store.Shows.getOrCreate (Or.inl there)
  · intro later timely
    exact (serving.run held lasting.token later timely).reuses held lasting.token early grant

/-- Data with a credential whose expiry cannot be read. -/
def garbled : Fields := .ofList
  [(Credential.tokenKey, "stale"), (Credential.expiryKey, "tomorrow"), ("owner", "peer")]

/-- A row of garbled data is healed by one caller, and its credential reused by the next. -/
theorem published_credential_is_reused_garbled :
    let location : Location := ⟨"cnsi-system", "governor-access-token"⟩
    let f := pair (.sqlite ⟨⟨[(location, ⟨Database.dataText garbled, .integer 6⟩)]⟩⟩)
    let alone : List Act := [.move 0 .enter, .move 0 (.access .epoch), .move 0 (.access .epoch),
      .move 0 (.refresh (.sent .epoch)), .move 0 (.refresh (.answered (.ok ⟨"fresh", 3600⟩))),
      .move 0 (.access .epoch), .move 0 (.access .epoch), .move 0 (.access .epoch)]
    let later : List Act := [.move 1 .enter, .move 1 (.access .epoch), .move 1 (.access .epoch)]
    f.IsFresh ∧ (f.run alone).callOf 0 = some (.done (.ok "fresh")) ∧
      ∃ record, ((f.run alone).store.getOrCreate location).1 = .ok record ∧ record.version = 7 ∧
        record.data.get? "owner" = some "peer" ∧
        record.data.get? Credential.expiryKey = some "1970-01-01T00:10:00+00:00" ∧
        ((f.run alone).run later).Reuses record
          (.issued "fresh" (.ofSeconds 3600) RefreshSettings.standard.maxAge .epoch) 0 := by
  intro location f alone later
  have fresh : f.IsFresh := isFresh_pair _
  have shows : f.store.Shows location garbled 6 :=
    Or.inl ⟨_, rfl, Database.readData_dataText garbled, by decide⟩
  have room : f.store.HasRoom 6 := show (6 : UInt64).toNat < Database.greatestVersion by decide
  have unusable : Credential.usableIn? ⟨location, garbled, 6⟩ .epoch = none := by decide +kernel
  have lasting : (Credential.issued "fresh" (.ofSeconds 3600) RefreshSettings.standard.maxAge
      .epoch).Lasting .epoch := ⟨by decide, by decide +kernel, by decide +kernel⟩
  have obeys : ∀ act ∈ alone, act.Obeys location fun j m =>
      j = 0 ∧ m.Brings .epoch ⟨"fresh", 3600⟩ := by
    simp only [alone, List.forall_mem_cons]
    exact ⟨⟨rfl, trivial⟩, ⟨rfl, rfl⟩, ⟨rfl, rfl⟩, ⟨rfl, rfl⟩, ⟨rfl, rfl⟩, ⟨rfl, rfl⟩,
      ⟨rfl, rfl⟩, ⟨rfl, rfl⟩, List.forall_mem_nil _⟩
  -- the call alone is granted its token and publishes it
  have ends : (f.run alone).callers[0]?.bind Caller.token? = some "fresh" := by decide +kernel
  obtain ⟨d, there, token⟩ := Option.bind_eq_some_iff.mp ends
  have ended := Caller.call_of_token? token
  have returned : (f.run alone).callOf 0 = some (.done (.ok "fresh")) := by
    rw [callOf, there]
    exact ended
  have succeeds : ∀ d, (f.run alone).callers[0]? = some d → d.refreshFailed = false := by
    intro e at'
    rw [← Option.some.inj (there.symm.trans at'), Caller.refreshFailed, ended]
  have present : f.callers[0]? = some { replica := 0 } := rfl
  obtain ⟨-, whole⟩ := published_credential_is_reused fresh present shows room unusable lasting
    alone obeys succeeds
  obtain ⟨-, record, read, renewal, reuses⟩ := whole _ returned
  refine ⟨fresh, returned, record, read, renewal.version, ?_, ?_, ?_⟩
  · rw [renewal.others "owner" (by decide) (by decide)]
    decide +kernel
  · rw [renewal.expiry]
    decide +kernel
  · refine reuses later ?_
    -- the later call reads the clock before the credential expires
    have early : Instant.epoch.isBefore (Credential.issued "fresh" (.ofSeconds 3600)
      RefreshSettings.standard.maxAge .epoch).expiresAt = true := by decide +kernel
    simp only [later, List.forall_mem_cons]
    have reads : Instant.epoch.isBefore _ = true ↔ none ≠ some 1 :=
      iff_of_true early (Option.some_ne_none 1).symm
    exact ⟨trivial, reads, reads, List.forall_mem_nil _⟩

end Fleet

end Courier
