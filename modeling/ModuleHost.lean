import ModuleHost.Number.Layout
import ModuleHost.Text.Units
import ModuleHost.Text.Utf8
import ModuleHost.Text.Quoted
import ModuleHost.Value.Error
import ModuleHost.Value.Failure
import ModuleHost.Value.Basic
import ModuleHost.Heap.Closures
import ModuleHost.Heap.Windows
import ModuleHost.Heap.Containers
import ModuleHost.Heap.Watch
import ModuleHost.Value.View
import ModuleHost.Timer.Queue
import ModuleHost.Wasm.Memory
import ModuleHost.Host.Table
import ModuleHost.Engine.Compile
import ModuleHost.Session.State
import ModuleHost.Session.HostCalls
import ModuleHost.Session.Run
import ModuleHost.Scenario.Play
import ModuleHost.Session.Machine
import ModuleHost.Proofs.Closures.History
import ModuleHost.Proofs.Closures.Identity
import ModuleHost.Proofs.Session.Announcements
import ModuleHost.Proofs.Watch.Reports
import ModuleHost.Proofs.Linking.Resolution
import ModuleHost.Proofs.Timer.ExactlyOnce
import ModuleHost.Proofs.Session.Cleanups
import ModuleHost.Proofs.Deferred.Records
import ModuleHost.Proofs.Deferred.Cache
import ModuleHost.Proofs.Text.RoundTrip
import ModuleHost.Proofs.Heap.Windows
import ModuleHost.Proofs.Deferred.Bindings
import ModuleHost.Proofs.Deferred.Isolation
import ModuleHost.Proofs.Heap.Copies
import ModuleHost.Proofs.Session.Refusals
import ModuleHost.Proofs.Timer.Handles
import ModuleHost.Proofs.Session.Microtasks
import ModuleHost.Proofs.Session.Quiescence
import ModuleHost.Proofs.Timer.Draining
import ModuleHost.Proofs.Timer.Delays
import ModuleHost.Proofs.Linking.Signatures
import ModuleHost.Proofs.Linking.Outcomes
import ModuleHost.Proofs.Linking.Sharing
import ModuleHost.Proofs.Heap.Conversions
import ModuleHost.Proofs.Heap.Scalars
import ModuleHost.Proofs.Heap.Sharing
import ModuleHost.Proofs.Heap.Texts
import ModuleHost.Proofs.Heap.Joins
import ModuleHost.Proofs.Number.Displayed
import ModuleHost.Proofs.Text.Walk
import ModuleHost.Proofs.Text.Cutting
import ModuleHost.Proofs.Text.Order
import ModuleHost.Proofs.Text.Lossy
import ModuleHost.Proofs.Heap.Objects
import ModuleHost.Proofs.Value.Sameness
import ModuleHost.Proofs.Watch.Tokens
import ModuleHost.Proofs.Deferred.Streams
import ModuleHost.Proofs.Session.Callers
import ModuleHost.Proofs.Session.Demands
