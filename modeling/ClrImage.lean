import ClrImage.Blueprint.Draft
import ClrImage.Describe
import ClrImage.Pool
import ClrImage.TypeTokens
import ClrImage.Proofs.Continuation
import ClrImage.Proofs.Closure
import ClrImage.Proofs.PopulationOrder
import ClrImage.Proofs.Ledger
import ClrImage.Proofs.Audit
import ClrImage.Proofs.Isolation
import ClrImage.Proofs.Sharing
import ClrImage.Proofs.Rescoping
import ClrImage.Proofs.RegistryScopes
import ClrImage.Proofs.Attempts
import ClrImage.Proofs.Retries
import ClrImage.Proofs.Strictness
import ClrImage.Proofs.Directory
import ClrImage.Proofs.Calls
import ClrImage.Proofs.Deeds
import ClrImage.Proofs.Drafting
import ClrImage.Proofs.History
import ClrImage.Proofs.Chronicle
import ClrImage.Proofs.Sessions
import ClrImage.Proofs.Causes
import ClrImage.Proofs.Locks
import ClrImage.Proofs.SetOnce
import ClrImage.Proofs.Reports
import ClrImage.Proofs.TableCalls
import ClrImage.Proofs.DeclarationOutcomes
import ClrImage.Proofs.Checks
import ClrImage.Proofs.StubPlans
import ClrImage.Proofs.CallEffects
import ClrImage.Proofs.FullNames
import ClrImage.Proofs.Repetition
import ClrImage.Proofs.FirstFaults
import ClrImage.Proofs.FreeKeys
import ClrImage.Proofs.Piecemeal
import ClrImage.Proofs.SingleCalls
import ClrImage.Proofs.SpreadLookups
import ClrImage.Proofs.Premature
import ClrImage.Proofs.Wiring
import ClrImage.Proofs.AccessorOrder
import ClrImage.Proofs.ReferenceTexts
import ClrImage.Proofs.StackHeights
import ClrImage.Proofs.NestingWalks
import ClrImage.Proofs.Refusals
import ClrImage.Proofs.OrderlyDrafts
import ClrImage.Proofs.ParameterNumbers
import ClrImage.Proofs.FirstOffers
import ClrImage.Proofs.ConstantBlobs
import ClrImage.Proofs.NameIndex
import ClrImage.Proofs.CircularWays
