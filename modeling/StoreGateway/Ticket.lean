/-!
# Tickets

* `Ticket`: names one request, and so the caller who waits for its answer.
-/

namespace StoreGateway

abbrev Ticket := Nat

end StoreGateway
