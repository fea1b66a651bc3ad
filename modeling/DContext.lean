import DContext.Overlay.Map
import DContext.Overlay.CappedStack
import DContext.System.Run
import DContext.Format.Basic
import DContext.Store.Value
import DContext.Registry.Registration
import DContext.Store.ContextStore
import DContext.Store.Reading
import DContext.Store.WellFormed
import DContext.Store.Refinement
import DContext.Store.Fork
import DContext.Store.Snapshot
import DContext.Wire.Envelope
import DContext.Wire.RoundTrip
import DContext.Future.WithContext
import DContext.Future.Composition
import DContext.Future.Schedule
import DContext.Thread.Guards
import DContext.Thread.Programs
import DContext.Wire.LocalOnly
import DContext.Wire.Codec
import DContext.Wire.Upgrade
import DContext.Wire.TypeConfusion
import DContext.Actor.Headers
import DContext.Actor.Interceptors
import DContext.Actor.Hops
import DContext.Actor.Handlers
import DContext.Future.Cancellation
import DContext.Store.Ownership
import DContext.Thread.UserCode
import DContext.Thread.Attaching
import DContext.Thread.CallPath
import DContext.Overlay.Views
import DContext.Store.Caching
import DContext.Thread.Transparency
import DContext.Registry.Building
import DContext.Wire.Decoding
import DContext.Store.Merging
import DContext.Overlay.Fronted
import DContext.Store.CachedKeys
import DContext.Sharing.Heap
import DContext.Sharing.Owners
import DContext.Store.Sharing
import DContext.Overlay.Entries
import DContext.Store.Provenance
import DContext.Wire.Network
import DContext.Format.Truncation
import DContext.Wire.Acceptance
import DContext.Thread.Panics
import DContext.Wire.Relay
import DContext.Future.Spawning
import DContext.Overlay.Keyed
import DContext.Registry.Startup
import DContext.Registry.Metadata
import DContext.Future.Nesting
import DContext.Store.Names
import DContext.Thread.Names
import DContext.Actor.Messaging
import DContext.Actor.Propagation
import DContext.Wire.Stores
import DContext.Wire.TypedKeys
import DContext.Overlay.Levels
import DContext.Thread.Observation
import DContext.Wire.Unspecified
