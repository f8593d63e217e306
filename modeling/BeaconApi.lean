import BeaconApi.Client.Chain
import BeaconApi.Client.Duties
import BeaconApi.Client.Pool
import BeaconApi.Client.Status
import BeaconApi.Client.Transport
import BeaconApi.Node.Faults
import BeaconApi.Node.Loopback
import BeaconApi.Node.Routes
import BeaconApi.Node.Settings
import BeaconApi.Proofs.Api.ErrorBody
import BeaconApi.Proofs.Beacon.Keys
import BeaconApi.Proofs.Beacon.Names
import BeaconApi.Proofs.Client.Absence
import BeaconApi.Proofs.Client.Agreement
import BeaconApi.Proofs.Client.Health
import BeaconApi.Proofs.Client.Judgement
import BeaconApi.Proofs.Client.Production
import BeaconApi.Proofs.Client.Submissions
import BeaconApi.Proofs.Client.Versions
import BeaconApi.Proofs.Concurrent.Alone
import BeaconApi.Proofs.Concurrent.Submissions
import BeaconApi.Proofs.Memory.Dependent
import BeaconApi.Proofs.Memory.Retention
import BeaconApi.Proofs.Node.Router
import BeaconApi.Proofs.Node.States
import BeaconApi.Proofs.Request.Values
import BeaconApi.Proofs.Server.Registration
import BeaconApi.Proofs.Server.Writing
import BeaconApi.Server.Table
