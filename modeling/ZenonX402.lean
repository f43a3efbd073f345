import ZenonX402.Lib.Codec
import ZenonX402.Lib.Json
import ZenonX402.Lib.JsMap
import ZenonX402.Lib.Prog
import ZenonX402.Lib.Trace
import ZenonX402.Lib.Sha2
import ZenonX402.Credit.Moves
import ZenonX402.Credit.Hydration
import ZenonX402.Lib.Loop
import ZenonX402.Lib.Sweep
import ZenonX402.Lib.Record
import ZenonX402.Spending.Records
import ZenonX402.Credit.Steps
import ZenonX402.Credit.HydrationLoops
import ZenonX402.Credit.RoundTrip
import ZenonX402.Credit.Runs
import ZenonX402.Credit.Authorization
import ZenonX402.Credit.Recovery
import ZenonX402.Spending.State
import ZenonX402.Spending.Transition
import ZenonX402.Spending.Owner
import ZenonX402.Spending.Limits
import ZenonX402.Spending.Proposals
import ZenonX402.Spending.Single
import ZenonX402.Credit.Frame
import ZenonX402.Credit.Identity
import ZenonX402.Credit.Atomicity
import ZenonX402.Contract.Runs
import ZenonX402.Lib.Talk
import ZenonX402.Revision.System
import ZenonX402.Lib.Measure
import ZenonX402.Observer.Snapshot
import ZenonX402.Observer.State
import ZenonX402.Observer.Transitions
import ZenonX402.Observer.Chain
import ZenonX402.Observer.Moves
import ZenonX402.Observer.Effects
import ZenonX402.Observer.Pages
import ZenonX402.Lib.Extent
import ZenonX402.Observer.Sizes
import ZenonX402.Observer.Runs
import ZenonX402.Observer.Versions
import ZenonX402.Observer.Backfill
import ZenonX402.Lib.Formats
import ZenonX402.Journal.Snapshot
import ZenonX402.Journal.Records
import ZenonX402.Lib.Fence
import ZenonX402.Order.Envelope
import ZenonX402.Order.Ports
import ZenonX402.Order.Purchase
import ZenonX402.Order.Receipt
import ZenonX402.Order.Verification
import ZenonX402.Order.Attempts
import ZenonX402.Order.Fulfillment
import ZenonX402.Order.FulfillmentOwner
import ZenonX402.Order.Liability
import ZenonX402.Order.FulfillmentRuns
import ZenonX402.Order.FulfillmentContract
import ZenonX402.Order.FulfillmentPort
import ZenonX402.Payer.Admission
import ZenonX402.Payer.AdmissionRuns
import ZenonX402.Lib.Line
import ZenonX402.Runtime.Live
import ZenonX402.Runtime.LiveRuns
import ZenonX402.Plasma.PricePolicy
import ZenonX402.Plasma.Sufficiency
import ZenonX402.Lib.Ranks
import ZenonX402.Lib.Relate
import ZenonX402.Capacity.Recorder
import ZenonX402.Capacity.Refinement
import ZenonX402.Capacity.Runs
import ZenonX402.Journal.Copies
import ZenonX402.Resource.CachedResponse
import ZenonX402.Journal.Delivery
import ZenonX402.Lib.Shape
import ZenonX402.Resource.Replay
import ZenonX402.Lib.Parsed
import ZenonX402.Resource.Wire
import ZenonX402.Resource.Evidence
import ZenonX402.Resource.Intent
import ZenonX402.Resource.Authorize
import ZenonX402.Resource.Server
import ZenonX402.Resource.Runs
import ZenonX402.Buyer.Submission
import ZenonX402.Buyer.Agreement
import ZenonX402.Buyer.Recovery
import ZenonX402.Lib.Sealed
import ZenonX402.Custody.Contract
import ZenonX402.Custody.Codec
import ZenonX402.Contract.Recovery
import ZenonX402.Spending.Encoding
import ZenonX402.Journal.Advance
import ZenonX402.Lib.Bounds
import ZenonX402.Post.Issued
import ZenonX402.Post.Record
import ZenonX402.Post.Texts
import ZenonX402.Post.History
import ZenonX402.Plasma.Amounts
import ZenonX402.Lib.Bech32
import ZenonX402.Zenon.Address
import ZenonX402.Lib.Octets
import ZenonX402.Zenon.Block
import ZenonX402.Lib.Search
import ZenonX402.Zenon.Work
import ZenonX402.Zenon.Texts
import ZenonX402.Zenon.SignerCustody
import ZenonX402.Zenon.SignerChain
import ZenonX402.Lib.Decimal
import ZenonX402.Zenon.Preimage
import ZenonX402.Zenon.Planner
import ZenonX402.Lib.Rfc8259
import ZenonX402.Zenon.ResultScanner
import ZenonX402.Zenon.ScannerTokens
import ZenonX402.Zenon.ScannerGrammar
import ZenonX402.Zenon.ScannerResponse
import ZenonX402.Lib.Insertion
import ZenonX402.Capacity.Window
import ZenonX402.Capacity.WindowAccounts
import ZenonX402.Capacity.WindowInvariant
import ZenonX402.Capacity.WindowRuns
import ZenonX402.Journal.Stringify
import ZenonX402.Plasma.Compatibility
import ZenonX402.Plasma.Observation
import ZenonX402.Plasma.Agreement
import ZenonX402.Plasma.Inputs
import ZenonX402.Plasma.Versions
