import Courier.Token.Refreshing

/-! # The provider of one process — a cached credential behind a lock

    A call takes the lock, reads the clock and answers from the cache if
    the credential there is usable.  Otherwise it refreshes while it holds
    the lock; success replaces the cache, failure leaves it alone. -/

namespace Courier

/-- A provider with its cache. -/
structure LocalProvider where
  settings : RefreshSettings
  cached : Option Credential := none

/-- A call of a provider, from the moment it holds the lock. -/
inductive LocalCall where
  | refreshing (state : Refreshing)
  | done (result : Except TokenError String)

namespace LocalProvider

/-- The call that has just taken the lock at a reading of the clock. -/
def enter (p : LocalProvider) (now : Instant) : LocalCall :=
  match p.cached.filter fun c => c.isUsableAt now with
  | some credential => .done (.ok credential.token)
  | none => .refreshing (.start p.settings)

/-- The provider and the call once a refresh stands there. -/
def settle (p : LocalProvider) : Refreshing → LocalProvider × LocalCall
  | .ended (.ok credential) =>
    ({ p with cached := some credential }, .done (.ok credential.token))
  | .ended (.error cause) => (p, .done (.error (.refresh cause)))
  | state => (p, .refreshing state)

/-- The provider and the call after an event of its refresh. -/
def step (p : LocalProvider) : LocalCall → RefreshEvent → LocalProvider × LocalCall
  | .refreshing state, event => p.settle (state.step p.settings.maxAge event)
  | .done result, _ => (p, .done result)

end LocalProvider

end Courier
