import LayeredStore.Path.Journey
import LayeredStore.Json.Parse
import LayeredStore.Json.Render
import LayeredStore.Json.Record
import LayeredStore.Item.Record
import LayeredStore.Outcome
import LayeredStore.Settings.Document
import LayeredStore.Tree.Session
import LayeredStore.Cache.Metadata
import LayeredStore.Flight.Session
import LayeredStore.Cache.QuotaSession
import LayeredStore.Provider
import LayeredStore.Traffic
import LayeredStore.Service.Session
import LayeredStore.Proofs.Flight.Ledger
import LayeredStore.Proofs.Flight.Sharing
import LayeredStore.Proofs.Flight.Succession
import LayeredStore.Proofs.Flight.Aborting
import LayeredStore.Proofs.Cache.QuotaHits
import LayeredStore.Proofs.Cache.Remembering
import LayeredStore.Proofs.Store.Scope
import LayeredStore.Proofs.Layer.Agreement
import LayeredStore.Proofs.Layer.Passage
import LayeredStore.Proofs.Layer.Counter
import LayeredStore.Proofs.Layer.Resting
import LayeredStore.Proofs.Traffic.Descent
import LayeredStore.Proofs.Service.Alone
import LayeredStore.Proofs.Service.Transparency
import LayeredStore.Proofs.Traffic.Single
import LayeredStore.Proofs.Traffic.Record
import LayeredStore.Proofs.Traffic.Coalescing
import LayeredStore.Proofs.Traffic.Freshness
import LayeredStore.Proofs.Traffic.Recall
import LayeredStore.Proofs.Service.Quotas
import LayeredStore.Proofs.Path.Steps
import LayeredStore.Proofs.Path.Origins
import LayeredStore.Proofs.Path.Ways
import LayeredStore.Proofs.Path.Canonical
import LayeredStore.Proofs.Path.WayForms
import LayeredStore.Proofs.Path.Writing
import LayeredStore.Proofs.Path.Prefixes
import LayeredStore.Proofs.Path.Order
import LayeredStore.Proofs.Store.Moves
import LayeredStore.Proofs.Store.Hierarchy
import LayeredStore.Proofs.Store.Failures
import LayeredStore.Proofs.Store.Losses
import LayeredStore.Proofs.Store.Rerooting
import LayeredStore.Proofs.Store.Pages
import LayeredStore.Proofs.Store.PageEnds
import LayeredStore.Proofs.Store.Reads
import LayeredStore.Proofs.Traffic.Caching
import LayeredStore.Proofs.Traffic.Lookups
import LayeredStore.Proofs.Traffic.Warming
import LayeredStore.Proofs.Since
import LayeredStore.Proofs.Tree.Ancestry
import LayeredStore.Proofs.Tree.Links
import LayeredStore.Proofs.Tree.Events
import LayeredStore.Proofs.Tree.Marks
import LayeredStore.Proofs.Tree.Places
import LayeredStore.Proofs.Tree.Outline
import LayeredStore.Proofs.Tree.Directories
import LayeredStore.Proofs.Tree.Addresses
import LayeredStore.Proofs.Tree.Names
import LayeredStore.Proofs.Settings.Acceptance
import LayeredStore.Proofs.Settings.Lifetimes
import LayeredStore.Proofs.Json.Scanning
import LayeredStore.Proofs.Json.Reading
import LayeredStore.Proofs.Json.Fidelity
import LayeredStore.Proofs.Records
