import IngressGuard.Main
import IngressGuard.Netlink.Client
import IngressGuard.Proofs.BlockTable.Minimality
import IngressGuard.Proofs.BlockTable.Reconstruction
import IngressGuard.Proofs.Cycle.Bookkeeping
import IngressGuard.Proofs.Cycle.Exactness
import IngressGuard.Proofs.Cycle.Idempotence
import IngressGuard.Proofs.Cycle.Modes
import IngressGuard.Proofs.Cycle.Order
import IngressGuard.Proofs.Cycle.Passage
import IngressGuard.Proofs.Daemon.EventPath
import IngressGuard.Proofs.Daemon.Provenance
import IngressGuard.Proofs.Daemon.Refresh
import IngressGuard.Proofs.Enforcer.Affected
import IngressGuard.Proofs.Enforcer.Convergence
import IngressGuard.Proofs.Enforcer.Isolation
import IngressGuard.Proofs.Enforcer.Latch
import IngressGuard.Proofs.Enforcer.Reporting
import IngressGuard.Proofs.Enforcer.Session
import IngressGuard.Proofs.Frame.Agreement
import IngressGuard.Proofs.Hook.Loss
import IngressGuard.Proofs.Kernel.Contract
import IngressGuard.Proofs.Kernel.Record
import IngressGuard.Proofs.Net.Nesting
import IngressGuard.Proofs.Net.PrefixText
import IngressGuard.Proofs.Netlink.Replies
import IngressGuard.Proofs.Policy.Translation
import IngressGuard.Proofs.Selector.Grammar
import IngressGuard.Proofs.Selector.Parser
import IngressGuard.Proofs.Selector.Printing
import IngressGuard.Proofs.Selector.Reparse
import IngressGuard.Proofs.Simulation.Time
