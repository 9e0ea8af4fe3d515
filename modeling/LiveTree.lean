import LiveTree.Session.Run
import LiveTree.Settings.Override
import LiveTree.Proofs.Position.Walking
import LiveTree.Proofs.Position.Collisions
import LiveTree.Proofs.Position.Undoing
import LiveTree.Proofs.Relocation.Conservation
import LiveTree.Proofs.Relocation.Pairing
import LiveTree.Proofs.Relocation.UsageTracking
import LiveTree.Proofs.Relocation.Finality
import LiveTree.Proofs.Relocation.Insertion
import LiveTree.Proofs.Relocation.Answering
import LiveTree.Proofs.Relocation.Agreement
import LiveTree.Proofs.Relocation.Abandonment
import LiveTree.Proofs.Relocation.Clearing
import LiveTree.Proofs.Relocation.Interruption
import LiveTree.Proofs.Relocation.Parting
import LiveTree.Proofs.Relocation.Moving
import LiveTree.Proofs.Relocation.Representation
import LiveTree.Proofs.Session.OneFate
import LiveTree.Proofs.Session.Orderliness
import LiveTree.Proofs.Session.Closing
import LiveTree.Proofs.Session.Cancelling
import LiveTree.Proofs.Session.Generations
import LiveTree.Proofs.Session.Inertness
import LiveTree.Proofs.Frame.Alongside
import LiveTree.Proofs.Frame.Broadcast
import LiveTree.Proofs.Frame.EndOfFrame
import LiveTree.Proofs.Frame.Reports
import LiveTree.Proofs.Frame.Wakes
import LiveTree.Proofs.Lifecycle.Retirements
import LiveTree.Proofs.Lifecycle.Words
import LiveTree.Proofs.Settings.Overriding
