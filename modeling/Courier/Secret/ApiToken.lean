import Courier.Secret.Error
import Courier.Text.Blank

/-! # The API token — a secret value without the blanks around it -/

namespace Courier

/-- The API token in what was read for a secret; a blank value is none. -/
def apiTokenOf (ref : SecretRef) : Except FileFault String → Except SecretError String
  | .error fault => .error (.read ref fault)
  | .ok value => if Text.trim value = "" then .error (.blank ref) else .ok (Text.trim value)

end Courier
