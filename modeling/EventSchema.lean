import EventSchema.Main
import EventSchema.Proofs.BackReferences.Objects
import EventSchema.Proofs.BackReferences.Ties
import EventSchema.Proofs.Catalog.Barriers
import EventSchema.Proofs.Catalog.Dependence
import EventSchema.Proofs.Catalog.Enrichment
import EventSchema.Proofs.Catalog.EventCodes
import EventSchema.Proofs.Catalog.Failures
import EventSchema.Proofs.Catalog.Identities
import EventSchema.Proofs.Catalog.Isolation
import EventSchema.Proofs.Catalog.Membership
import EventSchema.Proofs.Catalog.ObjectLinks
import EventSchema.Proofs.Catalog.Provenance
import EventSchema.Proofs.Catalog.Relocation
import EventSchema.Proofs.Catalog.ShownEnumerations
import EventSchema.Proofs.Catalog.Unread
import EventSchema.Proofs.Declarations.Layers
import EventSchema.Proofs.Identifiers.Dispositions
import EventSchema.Proofs.Inclusion.Directives
import EventSchema.Proofs.Inclusion.Overlays
import EventSchema.Proofs.Inclusion.Repetition
import EventSchema.Proofs.Inclusion.Sequences
import EventSchema.Proofs.Json.Absorption
import EventSchema.Proofs.Json.Coverage
import EventSchema.Proofs.Json.Regrouping
import EventSchema.Proofs.Record.RoundTrips
import EventSchema.Proofs.Repetition
import EventSchema.Proofs.SeeAlso
import EventSchema.Proofs.Source.Storage
import EventSchema.Source.Disk
