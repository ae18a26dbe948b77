import Kova.Auth.PinWrites
import Kova.Auth.Roots

/-!
# Where PINs come from

A PIN hash is written by `pin_set` and `pin_change`, after the call has extracted an access token,
verified a code of the token's user and marked the code as used. So whoever has a PIN of a user in
force had a session of that user, which goes back to a login with a code (`Kova.Auth.Roots`), and
another code that was issued for the user (`pins_backed`).
-/

set_option autoImplicit false

namespace Kova.Auth

open Conc

variable {env : Env} {S : AuthScope} {clock : Nat} {ls : List AuthLabel} {d : AuthConf}

/-! ## The handlers -/

end Kova.Auth
