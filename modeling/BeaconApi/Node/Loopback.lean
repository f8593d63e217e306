import BeaconApi.Client.Transport
import BeaconApi.Node.Routes

namespace BeaconApi.Node

/-- What stands in a URL behind the address of the node. -/
def targetOf (address url : String) : String :=
  String.ofList (url.toList.drop address.length)

/-- The transport that hands every request to a node, which answers at an address. -/
def loopback {m : Type → Type} [Monad m] (node : Backend m) (version address : String) :
    Transport m where
  send method url body := do
    let response ← answer node version
      ⟨method.name, targetOf address url, (body.getD "").toUTF8⟩
    return .ok (response.status, response.body)

end BeaconApi.Node
