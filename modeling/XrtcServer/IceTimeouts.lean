import XrtcServer.IceSorting

/-! The write state of a connection over time: what `update_state` makes of it, and exactly
when that depends on the elapsed times only. -/
namespace XrtcServer
namespace Ice
open ByteFormat ObjectHeap Stun

namespace IceConnection

section Tests
variable (k : IceConnection) (now : ℤ)

variable {k now}

end Tests
end IceConnection

namespace IceTransport

section Update
variable (env : Environment) (s : IceTransport) (c : ℕ) (now : ℤ)

end Update
end IceTransport

namespace IceConnection
variable {k : IceConnection} {now : ℤ}

end IceConnection

namespace IceTransport

end IceTransport
end Ice
end XrtcServer
