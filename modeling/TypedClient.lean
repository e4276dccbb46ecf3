import TypedClient.Cache
import TypedClient.Main
import TypedClient.Model.Instance
import TypedClient.Proofs.AllOf
import TypedClient.Proofs.Failures
import TypedClient.Proofs.Listing
import TypedClient.Proofs.Methods
import TypedClient.Proofs.Order.Declarations
import TypedClient.Proofs.Outcomes
import TypedClient.Proofs.RequiredFields
import TypedClient.Proofs.Resolution.Reordering
import TypedClient.Proofs.Resolution.Transparency
import TypedClient.Proofs.Source.Containment
import TypedClient.Proofs.Source.Scope
import TypedClient.Proofs.Source.Clashes
import TypedClient.Proofs.Source.Emission
import TypedClient.Proofs.Hoisting.Catalog
import TypedClient.Proofs.Hoisting.Swagger
import TypedClient.Proofs.Hoisting.OpenApi
import TypedClient.Proofs.Hoisting.Documents
import TypedClient.Proofs.Conversion.Kinds
import TypedClient.Proofs.Lockstep
import TypedClient.Proofs.Resolution.Plain
import TypedClient.Proofs.Shared.Conversion
import TypedClient.Proofs.Shared.Documents
import TypedClient.Proofs.Order.Canonical
import TypedClient.Proofs.Order.Components
import TypedClient.Proofs.Order.Unneeded
import TypedClient.Proofs.DanglingReferences
import TypedClient.Proofs.DeclaredModels
import TypedClient.Proofs.Growth
import TypedClient.Proofs.Caching.Histories
import TypedClient.Proofs.Caching.Interleaving
import TypedClient.Proofs.CommandLine.Documents
import TypedClient.Proofs.OpenApi.JsonContent
import TypedClient.Proofs.OpenApi.Chains
import TypedClient.Proofs.Parameters
import TypedClient.Proofs.Pointers
import TypedClient.Proofs.Responses
import TypedClient.Proofs.Resolution.Mapping
import TypedClient.Proofs.Instance.RequiredEntries
import TypedClient.Proofs.Instance.NestedRenderings
import TypedClient.Proofs.Naming
import TypedClient.Proofs.Order.Cycles
import TypedClient.Proofs.Source.Header
import TypedClient.Proofs.Data.TextKeys
