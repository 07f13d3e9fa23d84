import Courier.Proofs.Local.Discretion
import Courier.Proofs.Shared.Fleet
import Courier.Proofs.Store.Discretion

/-! # Discretion of shared providers — two fleets told the same, but for the tokens

    Two fleets are alike as long as the same happens to them over records
    that are alike: the same calls stand at the same places, and every record
    that one of them has been given or is about to write has its like in the
    other.  One act keeps fleets alike (`Fleet.Twin.step`), hence so does any
    schedule, and records that are alike show alike. -/

namespace Courier

/-! ## One call -/

/-- The same news of a call, but for granted tokens and for the values of records. -/
inductive SharedEvent.Twin : SharedEvent → SharedEvent → Prop where
  | read {answer answer' : Except StoreError Record} (answers : AnswerTwin answer answer')
      (now : Instant) : Twin (.read answer now) (.read answer' now)
  | refresh {event event' : RefreshEvent} (events : event.Twin event') :
      Twin (.refresh event) (.refresh event')
  | written {answer answer' : Except StoreError Record} (answers : AnswerTwin answer answer') :
      Twin (.written answer) (.written answer')

/-- The same standing of a call, but for tokens and the values of records. -/
inductive SharedCall.Twin : SharedCall → SharedCall → Prop where
  | looking : Twin .looking .looking
  | refreshing {state state' : Refreshing} (states : state.Twin state') :
      Twin (.refreshing state) (.refreshing state')
  | rereading (round : Nat) {fresh fresh' : Credential} (credentials : fresh.Twin fresh') :
      Twin (.rereading round fresh) (.rereading round fresh')
  | writing (round : Nat) {fresh fresh' : Credential} {edited edited' : Record}
      (credentials : fresh.Twin fresh') (records : edited.Twin edited') :
      Twin (.writing round fresh edited) (.writing round fresh' edited')
  | done (result result' : Except TokenError String) : Twin (.done result) (.done result')

/-- An event is a twin of itself. -/
theorem SharedEvent.Twin.refl : (event : SharedEvent) → event.Twin event
  | .read answer now => .read (.refl (fun _ => rfl) Record.Twin.refl answer) now
  | .refresh event => .refresh (.refl event)
  | .written answer => .written (.refl (fun _ => rfl) Record.Twin.refl answer)

namespace SharedCall

theorem Twin.refl : (call : SharedCall) → call.Twin call
  | .looking => .looking
  | .refreshing state => .refreshing (.refl state)
  | .rereading round fresh => .rereading round (.refl fresh)
  | .writing round fresh edited => .writing round (.refl fresh) (.refl edited)
  | .done result => .done result result

/-- A twin refresh leaves twin calls. -/
theorem twin_ofRefreshing {state state' : Refreshing} (h : state.Twin state') :
    (ofRefreshing state).Twin (ofRefreshing state') := by
  cases h with
  | due engine backoff => exact .refreshing (.due engine backoff)
  | awaiting engine backoff requestedAt => exact .refreshing (.awaiting engine backoff requestedAt)
  | pausing engine backoff wait => exact .refreshing (.pausing engine backoff wait)
  | ended results =>
      cases results with
      | ok credentials => exact .rereading 1 credentials
      | error failures => exact .done _ _

/-- After a conflict twin credentials leave twin calls. -/
theorem twin_afterConflict (round : Nat) {fresh fresh' : Credential} (h : fresh.Twin fresh') :
    (afterConflict round fresh).Twin (afterConflict round fresh') := by
  rw [afterConflict, afterConflict]
  split
  · exact .rereading _ h
  · exact .done _ _

variable (settings : RefreshSettings) {call call' : SharedCall}

/-- A look at records that are alike finds what is usable in both, or in neither. -/
theorem twin_looking_read {answer answer' : Except StoreError Record}
    (answers : AnswerTwin answer answer') (now : Instant) :
    (looking.step settings (.read answer now)).Twin
      (looking.step settings (.read answer' now)) := by
  cases answers with
  | error same => exact .done _ _
  | @ok r r' records =>
      have usable := Credential.twin_usableIn? records now
      simp only [SharedCall.step]
      generalize Credential.usableIn? r now = c, Credential.usableIn? r' now = c' at usable ⊢
      cases usable with
      | none => exact .refreshing (.refl _)
      | some alike => exact .done _ _

/-- Twin answers to a look after a conflict leave twin calls. -/
theorem twin_rereading_read (round : Nat) {fresh fresh' : Credential} (h : fresh.Twin fresh')
    {answer answer' : Except StoreError Record} (answers : AnswerTwin answer answer')
    (now : Instant) :
    ((rereading round fresh).step settings (.read answer now)).Twin
      ((rereading round fresh').step settings (.read answer' now)) := by
  cases answers with
  | error same => exact .done _ _
  | @ok r r' records =>
      have usable := Credential.twin_usableIn? records now
      simp only [SharedCall.step]
      generalize Credential.usableIn? r now = c, Credential.usableIn? r' now = c' at usable ⊢
      cases usable with
      | none => exact .writing round h (h.writeTo records)
      | some alike => exact .done _ _

/-- Twin answers to a write leave twin calls. -/
theorem twin_writing_written (round : Nat) {fresh fresh' : Credential} (h : fresh.Twin fresh')
    (edited edited' : Record) {answer answer' : Except StoreError Record}
    (answers : AnswerTwin answer answer') :
    ((writing round fresh edited).step settings (.written answer)).Twin
      ((writing round fresh' edited').step settings (.written answer')) := by
  cases answers with
  | ok records => exact .done _ _
  | @error e e' same =>
      obtain rfl : e = e' := same
      cases e with
      | conflict location expected => exact twin_afterConflict round h
      | notFound location => exact .done _ _
      | database reason => exact .done _ _
      | badData fault => exact .done _ _

/-- **ONE EVENT**: what is told alike leaves calls alike. -/
theorem Twin.step (h : call.Twin call') {event event' : SharedEvent}
    (told : event.Twin event') :
    (call.step settings event).Twin (call'.step settings event') := by
  cases h with
  | looking =>
      cases told with
      | read answers now => exact twin_looking_read settings answers now
      | refresh events => exact .looking
      | written answers => exact .looking
  | refreshing states =>
      cases told with
      | refresh events => exact twin_ofRefreshing (states.step settings.maxAge events)
      | read answers now => exact .refreshing states
      | written answers => exact .refreshing states
  | rereading round credentials =>
      cases told with
      | read answers now => exact twin_rereading_read settings round credentials answers now
      | refresh events => exact .rereading round credentials
      | written answers => exact .rereading round credentials
  | writing round credentials records =>
      cases told with
      | written answers => exact twin_writing_written settings round credentials _ _ answers
      | read answers now => exact .writing round credentials records
      | refresh events => exact .writing round credentials records
  | done result result' => cases told <;> exact .done result result'

/-- Calls that stand alike need operations that are alike. -/
theorem Twin.operation? (h : call.Twin call') (location : Location) :
    Option.Rel Operation.Twin (call.operation? location) (call'.operation? location) := by
  cases h with
  | looking => exact .some (.get location)
  | refreshing states => exact .none
  | rereading round credentials => exact .some (.get location)
  | writing round credentials records => exact .some (.update records)
  | done result result' => exact .none

end SharedCall

/-- Twin operations with twin answers are twin events. -/
theorem Operation.Twin.told {op op' : Operation} (ops : op.Twin op') (now : Instant)
    {answer answer' : Except StoreError Record} (answers : AnswerTwin answer answer') :
    (op.told now answer).Twin (op'.told now answer') := by
  cases ops with
  | get location => exact .read answers now
  | update records => exact .written answers

/-! ## A caller -/

/-- The same move, but for the token that an answer grants. -/
inductive Move.Twin : Move → Move → Prop where
  | enter : Twin .enter .enter
  | access (now : Instant) : Twin (.access now) (.access now)
  | fail (now : Instant) (cause : StoreError) (reached : Bool) :
      Twin (.fail now cause reached) (.fail now cause reached)
  | refresh {event event' : RefreshEvent} (events : event.Twin event') :
      Twin (.refresh event) (.refresh event')

/-- The same call of the same replica, which stands alike and was told alike. -/
structure Caller.Twin (c c' : Caller) : Prop where
  replica : c.replica = c'.replica
  call : Option.Rel SharedCall.Twin c.call c'.call
  midway : c.midway = c'.midway
  past : List.Forall₂ (fun m m' => m.event.Twin m'.event) c.past c'.past

namespace Caller

theorem Twin.refl (c : Caller) : c.Twin c := by
  refine ⟨rfl, ?_, rfl, List.forall₂_same.mpr fun m _ => .refl m.event⟩
  cases c.call with
  | none => exact .none
  | some call => exact .some (.refl call)

variable {c c' : Caller} (location : Location) (settings : RefreshSettings) (free : Bool)
variable {store store' : Store}

/-- Twin callers need twin operations. -/
theorem Twin.operation? (h : c.Twin c') :
    Option.Rel Operation.Twin (c.operation? location) (c'.operation? location) := by
  have calls := h.call
  rw [Caller.operation?, Caller.operation?]
  generalize c.call = call, c'.call = call' at calls ⊢
  cases calls with
  | none => exact .none
  | some alike => exact alike.operation? location

/-- Twin callers that hear twin events are twins. -/
theorem Twin.hear (h : c.Twin c') {event event' : SharedEvent} (told : event.Twin event') :
    (c.hear settings store event).Twin (c'.hear settings store' event') := by
  refine ⟨h.replica, ?_, rfl, List.rel_append h.past (.cons told .nil)⟩
  have calls := h.call
  rw [Caller.hear, Caller.hear]
  dsimp only
  generalize c.call = call, c'.call = call' at calls ⊢
  cases calls with
  | none => exact .none
  | some alike => exact .some (alike.step settings told)

theorem Twin.holdsLock (h : c.Twin c') : c.holdsLock = c'.holdsLock := by
  have calls := h.call
  rw [Caller.holdsLock, Caller.holdsLock]
  generalize c.call = call, c'.call = call' at calls ⊢
  cases calls with
  | none => rfl
  | some alike => cases alike <;> rfl

/-- An access keeps callers and stores twins. -/
theorem Twin.access (h : c.Twin c') (stores : store.Twin store') (now : Instant) :
    (c.move location settings free store (.access now)).1.Twin
        (c'.move location settings free store' (.access now)).1 ∧
      (c.move location settings free store (.access now)).2.Twin
        (c'.move location settings free store' (.access now)).2 := by
  have needs := h.operation? location
  simp only [move]
  generalize c.operation? location = op, c'.operation? location = op' at needs ⊢
  cases needs with
  | none => exact ⟨h, stores⟩
  | @some op op' ops =>
      rw [← h.midway]
      cases c.midway with
      | true => exact ⟨h.hear settings (ops.told now (stores.finish ops)), stores⟩
      | false =>
          obtain ⟨answers, after⟩ := stores.start ops
          dsimp only
          generalize store.start op = started, store'.start op' = started' at answers after ⊢
          obtain ⟨known, next⟩ := started
          obtain ⟨known', next'⟩ := started'
          cases answers with
          | none => exact ⟨⟨h.replica, h.call, rfl, h.past⟩, after⟩
          | some alike => exact ⟨h.hear settings (ops.told now alike), after⟩

/-- A failing access keeps callers and stores twins. -/
theorem Twin.fail (h : c.Twin c') (stores : store.Twin store') (now : Instant)
    (cause : StoreError) (reached : Bool) :
    (c.move location settings free store (.fail now cause reached)).1.Twin
        (c'.move location settings free store' (.fail now cause reached)).1 ∧
      (c.move location settings free store (.fail now cause reached)).2.Twin
        (c'.move location settings free store' (.fail now cause reached)).2 := by
  have needs := h.operation? location
  simp only [move]
  generalize c.operation? location = op, c'.operation? location = op' at needs ⊢
  cases needs with
  | none => exact ⟨h, stores⟩
  | some ops =>
      refine ⟨h.hear settings (ops.told now (.error rfl)), ?_⟩
      rw [← h.midway]
      dsimp only
      split
      · exact (stores.start ops).2
      · exact stores

/-- An event of the refresh keeps callers and stores twins. -/
theorem Twin.refresh (h : c.Twin c') (stores : store.Twin store') {event event' : RefreshEvent}
    (events : event.Twin event') :
    (c.move location settings free store (.refresh event)).1.Twin
        (c'.move location settings free store' (.refresh event')).1 ∧
      (c.move location settings free store (.refresh event)).2.Twin
        (c'.move location settings free store' (.refresh event')).2 := by
  simp only [move]
  generalize stands : c.call = call, stands' : c'.call = call'
  have calls := h.call
  rw [stands, stands'] at calls
  cases calls with
  | none => exact ⟨h, stores⟩
  | some alike =>
      cases alike with
      | looking => exact ⟨h, stores⟩
      | rereading round credentials => exact ⟨h, stores⟩
      | writing round credentials records => exact ⟨h, stores⟩
      | done result result' => exact ⟨h, stores⟩
      | @refreshing state state' states =>
          refine ⟨?_, stores⟩
          by_cases expected : state.expects event
          · simp only [if_pos expected, if_pos ((states.expects events).mp expected)]
            exact h.hear settings (.refresh events)
          · simp only [if_neg expected, if_neg fun e => expected ((states.expects events).mpr e)]
            exact h

/-- **ONE MOVE**: the same move keeps calls alike, and the stores that they move on. -/
theorem Twin.move (h : c.Twin c') (stores : store.Twin store') {m m' : Move}
    (moves : m.Twin m') :
    (c.move location settings free store m).1.Twin (c'.move location settings free store' m').1 ∧
      (c.move location settings free store m).2.Twin
        (c'.move location settings free store' m').2 := by
  cases moves with
  | enter =>
      refine ⟨?_, stores⟩
      have waits : c.call.isNone = c'.call.isNone := by
        have calls := h.call
        generalize c.call = call, c'.call = call' at calls ⊢
        cases calls <;> rfl
      simp only [Caller.move, waits]
      split
      · exact ⟨h.replica, .some .looking, h.midway, h.past⟩
      · exact h
  | access now => exact h.access location settings free stores now
  | fail now cause reached => exact h.fail location settings free stores now cause reached
  | refresh events => exact h.refresh location settings free stores events

end Caller

/-! ## Records that calls handle -/

/-- The record in an answer of the store. -/
def SharedEvent.record? : SharedEvent → Option Record
  | read (.ok record) _ => some record
  | written (.ok record) => some record
  | _ => none

/-- The record that a call is about to write. -/
def SharedCall.edited? : SharedCall → Option Record
  | writing _ _ edited => some edited
  | _ => none

/-- The records that a call has handled: those it was given, and the one it is about to write. -/
def Caller.handled (c : Caller) : List Record :=
  (c.past.filterMap fun m => m.event.record?) ++ (c.call.bind SharedCall.edited?).toList

/-- Twin events bring twin records. -/
theorem SharedEvent.Twin.record? {event event' : SharedEvent} (h : event.Twin event') :
    Option.Rel Record.Twin event.record? event'.record? := by
  cases h with
  | refresh events => exact .none
  | read answers now =>
      cases answers with
      | ok records => exact .some records
      | error same => exact .none
  | written answers =>
      cases answers with
      | ok records => exact .some records
      | error same => exact .none

/-- Twin callers have handled twin records. -/
theorem Caller.Twin.handled {c c' : Caller} (h : c.Twin c') :
    List.Forall₂ Record.Twin c.handled c'.handled := by
  refine List.rel_append (List.rel_filterMap (fun _ _ twins => twins.record?) h.past) ?_
  have calls := h.call
  generalize c.call = call, c'.call = call' at calls ⊢
  cases calls with
  | none => exact .nil
  | some twins =>
      cases twins with
      | writing round credentials records => exact .cons records .nil
      | looking => exact .nil
      | refreshing states => exact .nil
      | rereading round credentials => exact .nil
      | done result result' => exact .nil

/-! ## A fleet -/

section Lists

variable {α : Type} {R : α → α → Prop} {items items' : List α}

/-- Related lists have related items at every place. -/
theorem forall₂_getElem? (h : List.Forall₂ R items items') (i : Nat) :
    Option.Rel R items[i]? items'[i]? := by
  induction h generalizing i with
  | nil => exact .none
  | cons related _ ih =>
      cases i with
      | zero => exact .some related
      | succ i => exact ih i

/-- Related lists stay so when related items are set. -/
theorem forall₂_set (h : List.Forall₂ R items items') (i : Nat) {a a' : α} (related : R a a') :
    List.Forall₂ R (items.set i a) (items'.set i a') := by
  induction h generalizing i with
  | nil => exact .nil
  | cons others rest ih =>
      cases i with
      | zero => exact .cons related rest
      | succ i => exact .cons others (ih i)

end Lists

namespace Fleet

/-- The same act, but for granted tokens and for the values of records. -/
inductive Act.Twin : Act → Act → Prop where
  | move (i : Nat) {m m' : Move} (moves : m.Twin m') : Twin (.move i m) (.move i m')
  | foreign {op op' : Operation} (ops : op.Twin op') : Twin (.foreign op) (.foreign op')

/-- The same replicas over one location, with calls and stores that are alike. -/
structure Twin (f f' : Fleet) : Prop where
  location : f.location = f'.location
  settings : f.settings = f'.settings
  store : f.store.Twin f'.store
  callers : List.Forall₂ Caller.Twin f.callers f'.callers

/-- A fleet beside itself over another store. -/
theorem twin_of_store (f : Fleet) {store : Store} (h : f.store.Twin store) :
    f.Twin { f with store } :=
  ⟨rfl, rfl, h, List.forall₂_same.mpr fun c _ => .refl c⟩

variable {f f' : Fleet}

theorem Twin.isFree (h : f.Twin f') (replica : Nat) : f.isFree replica = f'.isFree replica := by
  have callers := h.callers
  rw [Fleet.isFree, Fleet.isFree]
  generalize f.callers = cs, f'.callers = cs' at callers ⊢
  induction callers with
  | nil => rfl
  | cons alike _ ih =>
      rw [List.all_cons, List.all_cons, ih, alike.replica, alike.holdsLock]

/-- **ONE ACT**: the same act keeps fleets alike. -/
theorem Twin.step (h : f.Twin f') {act act' : Act} (acts : act.Twin act') :
    (f.step act).Twin (f'.step act') := by
  cases acts with
  | foreign ops => exact ⟨h.location, h.settings, (h.store.start ops).2, h.callers⟩
  | @move i m m' moves =>
      have there := forall₂_getElem? h.callers i
      simp only [Fleet.step]
      generalize present : f.callers[i]? = c, present' : f'.callers[i]? = c' at there ⊢
      cases there with
      | none => exact h
      | @some c c' twins =>
          dsimp only
          rw [← h.location, ← h.settings, ← twins.replica, ← h.isFree]
          have moved := twins.move f.location (f.settings c.replica) (f.isFree c.replica) h.store moves
          exact ⟨rfl, rfl, moved.2, forall₂_set h.callers i moved.1⟩

/-- **TWIN FLEETS STAY TWINS** over twin schedules. -/
theorem Twin.run (h : f.Twin f') {acts acts' : List Act}
    (same : List.Forall₂ Act.Twin acts acts') : (f.run acts).Twin (f'.run acts') :=
  List.rel_foldl (fun _ _ twins _ _ acts => twins.step acts) h same

/-- The provider of a replica as logs show it. -/
def describe (replica : Nat) (apiToken : String) (clock : Timepiece) (f : Fleet) : String :=
  Refresher.describeShared ⟨apiToken, clock, f.settings replica⟩ f.location

/-- Every record that the calls have handled, as logs show it. -/
def describeHandled (f : Fleet) : List String :=
  (f.callers.flatMap Caller.handled).map Record.describe

/-- Twin fleets describe their replicas alike. -/
theorem Twin.describe (h : f.Twin f') (replica : Nat) (apiToken apiToken' : String)
    (clock : Timepiece) : f.describe replica apiToken clock = f'.describe replica apiToken' clock := by
  unfold Fleet.describe Refresher.describeShared Refresher.describe
  rw [h.location, h.settings]

theorem Twin.describeHandled (h : f.Twin f') : f.describeHandled = f'.describeHandled := by
  have handled := List.rel_flatMap h.callers fun _ _ twins => Caller.Twin.handled twins
  rw [Fleet.describeHandled, Fleet.describeHandled, ← List.forall₂_eq_eq_eq,
    List.forall₂_map_left_iff, List.forall₂_map_right_iff]
  exact handled.imp fun _ _ records => records.describe

end Fleet

/-- **DESCRIPTIONS KEEP SECRETS**: what logs show of a provider, of its cached credential and of the
    records that it handles is the same at every point of two runs that are told the same, whatever
    the API tokens, the granted tokens and the values in records.  A record shows where it lives, its
    keys and its version, and none of its values. -/
theorem descriptions_keep_secrets :
    (∀ (settings : RefreshSettings) (acts acts' : List Crowd.Act),
      List.Forall₂ Crowd.Act.Twin acts acts' → ∀ n : Nat,
        let s := (Crowd.new settings).run (acts.take n)
        let s' := (Crowd.new settings).run (acts'.take n)
        (∀ apiToken apiToken' clock, s.describe apiToken clock = s'.describe apiToken' clock) ∧
        s.provider.cached.map Credential.describe = s'.provider.cached.map Credential.describe) ∧
    (∀ (fleet : Fleet) (store' : Store) (acts acts' : List Fleet.Act), fleet.store.Twin store' →
      List.Forall₂ Fleet.Act.Twin acts acts' → ∀ n : Nat,
        let f := fleet.run (acts.take n)
        let f' := Fleet.run { fleet with store := store' } (acts'.take n)
        (∀ replica apiToken apiToken' clock,
          f.describe replica apiToken clock = f'.describe replica apiToken' clock) ∧
        f.describeHandled = f'.describeHandled) ∧
    ∀ r r' : Record, r.location = r'.location → r.data.keys = r'.data.keys →
      r.version = r'.version → r.describe = r'.describe := by
  refine ⟨fun settings acts acts' same n => ?_, fun fleet store' acts acts' stores same n => ?_,
    fun r r' => Record.describe_congr⟩
  · have twins := (Crowd.twin_new settings).run (List.forall₂_take n same)
    exact ⟨twins.describe, twins.cached⟩
  · have twins := (fleet.twin_of_store stores).run (List.forall₂_take n same)
    exact ⟨twins.describe, twins.describeHandled⟩

/-- A call that is granted a token. -/
def Crowd.oneRefresh (token : String) : List Crowd.Act :=
  [.arrive, .enter .epoch, .refresh (.sent .epoch), .refresh (.answered (.ok ⟨token, 60⟩))]

/-- A call that is granted a token, and publishes it. -/
def Fleet.onePublication (token : String) : List Fleet.Act :=
  [.move 0 .enter, .move 0 (.access .epoch), .move 0 (.refresh (.sent .epoch)),
    .move 0 (.refresh (.answered (.ok ⟨token, 60⟩))), .move 0 (.access .epoch),
    .move 0 (.access .epoch)]

/-- Two API tokens, and two tokens that are granted, cached and published. -/
theorem descriptions_keep_secrets_two_tokens :
    let first := (Crowd.new .standard).run (Crowd.oneRefresh "first")
    let second := (Crowd.new .standard).run (Crowd.oneRefresh "second")
    let published := (Fleet.pair (.memory {})).run (Fleet.onePublication "first")
    let published' := (Fleet.pair (.memory {})).run (Fleet.onePublication "second")
    first.provider.cached.map Credential.token = some "first" ∧
    second.provider.cached.map Credential.token = some "second" ∧
    first.describe "api-1" .system = second.describe "api-2" .system ∧
    published.describeHandled.length = 3 ∧
    published.describeHandled = published'.describeHandled ∧
    Record.describe ⟨⟨"ns", "name"⟩, Fields.empty.insert "key" "a", 1⟩
      = Record.describe ⟨⟨"ns", "name"⟩, Fields.empty.insert "key" "b", 1⟩ := by
  intro first second published published'
  have answers : Matched IssuerError.Twin Grant.Twin (.ok ⟨"first", 60⟩) (.ok ⟨"second", 60⟩) :=
    .ok ⟨rfl, by decide⟩
  have calls : List.Forall₂ Crowd.Act.Twin (Crowd.oneRefresh "first") (Crowd.oneRefresh "second") :=
    .cons .arrive (.cons (.enter .epoch) (.cons (.refresh (.sent .epoch))
      (.cons (.refresh (.answered answers)) .nil)))
  have moves : List.Forall₂ Fleet.Act.Twin (Fleet.onePublication "first")
      (Fleet.onePublication "second") :=
    .cons (.move 0 .enter) (.cons (.move 0 (.access .epoch)) (.cons (.move 0 (.refresh (.sent .epoch)))
      (.cons (.move 0 (.refresh (.answered answers))) (.cons (.move 0 (.access .epoch))
        (.cons (.move 0 (.access .epoch)) .nil)))))
  obtain ⟨provider, fleet, record⟩ := descriptions_keep_secrets
  have shown := provider .standard _ _ calls 4
  have empty : Store.Twin (.memory {}) (.memory {}) := .memory .nil
  have handled := fleet (.pair (.memory {})) _ _ _ empty moves 6
  exact ⟨rfl, rfl, shown.1 "api-1" "api-2" .system, rfl, handled.2, record _ _ rfl rfl rfl⟩

end Courier
