import ApiClient.Client.Reader
import ApiClient.Config.Reader
import ApiClient.Document.Printer
import ApiClient.Main
import ApiClient.Proofs.Distinct
import ApiClient.Proofs.Keys
import ApiClient.Proofs.Sorting
import ApiClient.Proofs.Runs
import ApiClient.Proofs.Pieces
import ApiClient.Proofs.Census
import ApiClient.Proofs.FunctionNames
import ApiClient.Proofs.ParamsTypes
import ApiClient.Proofs.Placeholders
import ApiClient.Proofs.PathVariables
import ApiClient.Proofs.Files
import ApiClient.Proofs.Pointers
import ApiClient.Proofs.ReferenceNames
import ApiClient.Proofs.SchemaReferences
import ApiClient.Proofs.Identifiers
import ApiClient.Proofs.Declarable
import ApiClient.Proofs.UnitNames
import ApiClient.Proofs.ResponseMarks
import ApiClient.Proofs.SchemaRoundTrip
import ApiClient.Proofs.DocumentRoundTrip
import ApiClient.Proofs.TreeReferences
import ApiClient.Proofs.EndpointReferences
import ApiClient.Proofs.Success
import ApiClient.Proofs.UploadFields
import ApiClient.Proofs.BodyPartition
import ApiClient.Proofs.Deferral
import ApiClient.Proofs.Growth
import ApiClient.Proofs.VendorMappings
import ApiClient.Proofs.Traces
import ApiClient.Proofs.TypeList
import ApiClient.Proofs.WrittenMembers
import ApiClient.Proofs.Comments
import ApiClient.Proofs.CommentSources
import ApiClient.Proofs.Places
import ApiClient.Proofs.Fields
import ApiClient.Proofs.SloppyFields
import ApiClient.Proofs.Literals
import ApiClient.Proofs.WrittenUnions
import ApiClient.Proofs.EnumValues
import ApiClient.Proofs.Balance
import ApiClient.Proofs.UnionShape
import ApiClient.Proofs.Intersections
import ApiClient.Proofs.ReferenceChains
import ApiClient.Proofs.PointerLookup
import ApiClient.Proofs.InheritedFiles
import ApiClient.Proofs.OutlinedFiles
import ApiClient.Proofs.OutlinedSchemas
import ApiClient.Proofs.TypeNames
import ApiClient.Proofs.ReservedNames
import ApiClient.Proofs.OperationNames
import ApiClient.Proofs.ParameterGroups
import ApiClient.Proofs.GenericNames
import ApiClient.Proofs.AllocatedNames
import ApiClient.Proofs.MemberNames
import ApiClient.Proofs.UploadPlaces
import ApiClient.Proofs.Signatures
import ApiClient.Proofs.SelfContained
import ApiClient.Proofs.PathTokens
import ApiClient.Proofs.PrefixedPaths
