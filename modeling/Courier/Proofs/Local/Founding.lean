import Courier.Proofs.History
import Courier.Proofs.Local.Window

/-! # First windows — no request before the first credential was found expired

    A provider is handed to its callers with a credential in its cache.  Behind
    that, nobody makes a request before a call has taken the lock at a reading
    of the clock at which that credential is not usable: the call that makes
    the request, or one whose refresh has replaced the credential since.

    The log of a crowd is lawful in that sense (`Founded.becomes`), whoever
    comes and goes, and however the clock moves. -/

namespace Courier.Crowd

variable {c d : Credential} {log notes : List Note} {i k : Nat} {s : Crowd}

/-- Whether a log explains that a call refreshes: a credential was found unusable by that call, or
    by one whose refresh has succeeded since. -/
def Explains (c : Credential) (log : List Note) (k : Nat) : Prop :=
  ∃ j now, .took j now ∈ log ∧ c.isUsableAt now = false ∧ (j = k ∨ ∃ d, .refreshed j d ∈ log)

/-- Whether a log explains that a credential is gone. -/
def Replaces (c : Credential) (log : List Note) : Prop :=
  ∃ j now, .took j now ∈ log ∧ c.isUsableAt now = false ∧ ∃ d, .refreshed j d ∈ log

/-- Whether every request in a log is explained by what comes before it. -/
def Explained (c : Credential) (log : List Note) : Prop :=
  History.Lawful (fun earlier note => earlier ++ [note])
    (fun earlier note => ∀ k event, note = .heard k event → Explains c earlier k) [] log

theorem Explains.append (h : Explains c log k) (more : List Note) : Explains c (log ++ more) k := by
  obtain ⟨j, now, took, expired, own | ⟨d, refreshed⟩⟩ := h
  · exact ⟨j, now, List.mem_append_left _ took, expired, .inl own⟩
  · exact ⟨j, now, List.mem_append_left _ took, expired, .inr ⟨d, List.mem_append_left _ refreshed⟩⟩

theorem Replaces.append (h : Replaces c log) (more : List Note) : Replaces c (log ++ more) := by
  obtain ⟨j, now, took, expired, d, refreshed⟩ := h
  exact ⟨j, now, List.mem_append_left _ took, expired, d, List.mem_append_left _ refreshed⟩

theorem Replaces.explains (h : Replaces c log) (k : Nat) : Explains c log k := by
  obtain ⟨j, now, took, expired, refreshed⟩ := h
  exact ⟨j, now, took, expired, .inr refreshed⟩

/-- Where the refresh of a call that is explained succeeds, the credential is gone. -/
theorem Explains.replaces (h : Explains c log i) (notes : List Note) (d : Credential)
    (success : .refreshed i d ∈ notes) : Replaces c (log ++ notes) := by
  obtain ⟨j, now, took, expired, rfl | ⟨e, refreshed⟩⟩ := h
  · exact ⟨j, now, List.mem_append_left _ took, expired, d, List.mem_append_right _ success⟩
  · exact ⟨j, now, List.mem_append_left _ took, expired, e, List.mem_append_left _ refreshed⟩

/-- To note one thing after the other is to append them all. -/
theorem foldl_concat (log notes : List Note) :
    notes.foldl (fun earlier note => earlier ++ [note]) log = log ++ notes := by
  induction notes generalizing log with
  | nil => exact (List.append_nil log).symm
  | cons note notes ih => rw [List.foldl_cons, ih, List.append_assoc, List.singleton_append]

/-- What is added to a log is explained if the log explains all of it. -/
theorem Explained.append (h : Explained c log)
    (each : ∀ k event, .heard k event ∈ notes → Explains c log k) : Explained c (log ++ notes) := by
  refine History.lawful_append.mpr ⟨h, ?_⟩
  rw [foldl_concat, List.nil_append]
  clear h
  induction notes generalizing log with
  | nil => exact trivial
  | cons note notes ih =>
      refine ⟨fun k event same => each k event (same ▸ .head _), ih fun k event mem => ?_⟩
      exact (each k event (.tail _ mem)).append [note]

/-- News of a call that is explained are explained, whatever else comes behind them. -/
theorem Explained.append_heard {event : RefreshEvent} (h : Explained c log)
    (explains : Explains c log i) (unheard : ∀ k event, .heard k event ∉ notes) :
    Explained c (log ++ .heard i event :: notes) := by
  refine h.append fun k event' mem => ?_
  rcases List.mem_cons.mp mem with same | mem
  · obtain ⟨rfl, -⟩ := Note.heard.inj same
    exact explains
  · exact absurd mem (unheard k event')

/-- A request that is explained comes behind its explanation. -/
theorem Explained.explains {before after : List Note} {event : RefreshEvent}
    (h : Explained c (before ++ .heard k event :: after)) : Explains c before k := by
  have allowed := h.split.1 k event rfl
  rwa [foldl_concat, List.nil_append] at allowed

/-- What holds behind every act of a crowd that was handed a credential. -/
structure Founded (c : Credential) (s : Crowd) : Prop where
  running : s.IsRunning
  explained : Explained c s.log
  cached : s.provider.cached = some c ∨ Replaces c s.log
  busy : ∀ i state, s.holder = some (i, state) → Explains c s.log i

/-- While nobody holds the lock, nobody is busy. -/
theorem founded_of_free (free : s.holder = none) (explained : Explained c s.log)
    (cached : s.provider.cached = some c ∨ Replaces c s.log) : Founded c s where
  running _ _ holds := nomatch free.symm.trans holds
  explained := explained
  cached := cached
  busy _ _ holds := nomatch free.symm.trans holds

/-- While a call holds the lock, it is the only one that is busy. -/
theorem founded_of_held {state : Refreshing} (held : s.holder = some (i, state))
    (running : state.IsRunning) (explains : Explains c s.log i) (explained : Explained c s.log)
    (cached : s.provider.cached = some c ∨ Replaces c s.log) : Founded c s where
  running j next holds := by
    obtain ⟨-, rfl⟩ := Prod.mk.inj (Option.some.inj (held.symm.trans holds))
    exact running
  explained := explained
  cached := cached
  busy j next holds := by
    obtain ⟨rfl, -⟩ := Prod.mk.inj (Option.some.inj (held.symm.trans holds))
    exact explains

/-- A crowd that takes over a provider with a credential in its cache. -/
theorem founded_start {p : LocalProvider} (cached : p.cached = some c) :
    Founded c { provider := p } :=
  founded_of_free rfl trivial (.inl cached)

/-- Where the lock is not taken, only the log changes, by notes that need no explanation. -/
theorem Founded.noted (h : Founded c s) {s' : Crowd} (log : s'.log = s.log ++ notes)
    (provider : s'.provider = s.provider) (holder : ∀ x, s'.holder = some x → s.holder = some x)
    (unheard : ∀ k event, .heard k event ∉ notes) : Founded c s' where
  running i state holds := h.running i state (holder _ holds)
  explained := log ▸ h.explained.append fun k event mem => absurd mem (unheard k event)
  cached := by
    rw [log, provider]
    exact h.cached.imp_right (·.append notes)
  busy i state holds := log ▸ (h.busy i state (holder _ holds)).append notes

/-- **ONE ACT**: whatever becomes of the crowd, its requests are explained. -/
theorem Founded.becomes {s' : Crowd} (h : Founded c s) (becomes : s.Becomes s') :
    Founded c s' := by
  cases becomes with
  | same => exact h
  | arrived => exact h.noted rfl rfl (fun _ holds => holds) (by simp)
  | queueLeft i waits => exact h.noted rfl rfl (fun _ holds => holds) (by simp)
  | lockLeft i state inside => exact h.noted rfl rfl (fun _ holds => nomatch holds) (by simp)
  | found i queue now d free first cached usable =>
      exact h.noted rfl rfl (fun _ holds => nomatch holds) (by simp)
  | missed i queue now free first unusable =>
      -- the credential was found unusable just now, or was gone before
      have explains : Explains c (s.log ++ [.took i now]) i := by
        rcases h.cached with cached | replaced
        · exact ⟨i, now, List.mem_append_right _ (.head _), unusable c cached, .inl rfl⟩
        · exact (replaced.explains i).append _
      exact founded_of_held rfl trivial explains (h.explained.append (by simp))
        (h.cached.imp_right (·.append _))
  | wentOn i state event inside expected running =>
      have explains := h.busy i state inside
      exact founded_of_held rfl running (explains.append _)
        (h.explained.append_heard explains (by simp)) (h.cached.imp_right (·.append _))
  | succeeded i engine backoff requestedAt grant d inside issued =>
      have explains := h.busy i _ inside
      exact founded_of_free rfl (h.explained.append_heard explains (by simp))
        (.inr (explains.replaces _ d (.tail _ (.head _))))
  | failed i state event cause inside =>
      have explains := h.busy i state inside
      exact founded_of_free rfl (h.explained.append_heard explains (by simp))
        (h.cached.imp_right (·.append _))

/-- **EVERY RUN**: behind any acts, the requests of a crowd are explained. -/
theorem founded_run {p : LocalProvider} (cached : p.cached = some c) (acts : List Act) :
    Founded c (run { provider := p } acts) := by
  induction acts using List.reverseRecOn with
  | nil => exact founded_start cached
  | append_singleton acts act ih =>
      rw [run, List.foldl_append]
      exact ih.becomes (step_becomes ih.running act)

/-- No call of a provider makes a request before the credential that was handed over with it was
    found unusable, by this call or by one whose refresh has replaced it since. -/
theorem explains_of_heard {p : LocalProvider} (cached : p.cached = some c) {acts : List Act}
    {before after : List Note} {event : RefreshEvent}
    (log : (run { provider := p } acts).log = before ++ .heard k event :: after) :
    Explains c before k := by
  have explained := (founded_run cached acts).explained
  rw [log] at explained
  exact explained.explains

end Courier.Crowd
