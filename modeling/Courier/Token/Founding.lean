import Courier.Secret.ApiToken
import Courier.Token.Error

/-! # Founding a provider — a secret, and a first call that proves it

    A provider is founded on a secret: the API token in it is proved by a
    first call.  Without an API token there is no such call, and whatever it
    would have changed is untouched. -/

namespace Courier

/-- The outcome of founding a provider on what was read for a secret, and the world behind it;
    `prove` makes the first call with an API token. -/
def founded {Provider World : Type} (ref : SecretRef) (content : Except FileFault String)
    (prove : String → Except TokenError Provider × World) (untouched : World) :
    Except TokenError Provider × World :=
  match apiTokenOf ref content with
  | .error cause => (.error (.secret cause), untouched)
  | .ok apiToken =>
    let proved := prove apiToken
    (proved.1.mapError .validation, proved.2)

end Courier
