import BeaconApi.Node.Memory.Perform
import BeaconApi.Node.Routes
import BeaconApi.Proofs.Server.Registration

universe u

namespace BeaconApi.Node

variable {m : Type → Type u} [Monad m] (node : Backend m) (version : String)

theorem routes_registrable : Router.Registrable (routes node version) := by
  have h : Router.Registrable (routes Memory.backend "") := by decide +kernel
  exact h.of_labels rfl

/-- The router that `RoutingTable.ofRoutes` builds from the routes of a node answers as the node does. -/
theorem exists_table : ∃ table, RoutingTable.ofRoutes (routes node version) = .ok table ∧
    ∀ request, Prod.fst <$> table.answer request = answer node version request := by
  obtain ⟨table, htable⟩ := (routes_registrable node version).exists_table
  exact ⟨table, htable, fun request => congrArg _ ((RoutingTable.serves_of_ofRoutes htable).answer_eq request)⟩

end BeaconApi.Node
