import ControlPlane.Discovery
import ControlPlane.Nonce
import ControlPlane.Delta.Watches
import ControlPlane.Delta.Session
import ControlPlane.Delta.Step
import ControlPlane.Delta.Callbacks
import ControlPlane.Delta.Store
import ControlPlane.Delta.Ownership
import ControlPlane.Delta.Nonces
import ControlPlane.Delta.Reconcile
import ControlPlane.Delta.Cancels
import ControlPlane.Delta.Drain
import ControlPlane.Delta.Responses
import ControlPlane.Server.Stream
import ControlPlane.Server.World
import ControlPlane.Server.Nonces
import ControlPlane.Server.Watches
import ControlPlane.Server.Slots
import ControlPlane.Server.Callbacks
import ControlPlane.Server.NonceCheck
import ControlPlane.Processors
import ControlPlane.Nodes
import ControlPlane.Handler
