import NamedDispatch.CommandLine
import NamedDispatch.Header.ConfigText
import NamedDispatch.Main
import NamedDispatch.Plan.Text
import NamedDispatch.Remote.Catalogue
import NamedDispatch.Proofs.Header.Names
import NamedDispatch.Proofs.Header.LegalStems
import NamedDispatch.Proofs.Header.Layout
import NamedDispatch.Proofs.Header.Contents
import NamedDispatch.Proofs.Header.Audit
import NamedDispatch.Proofs.Header.Order
import NamedDispatch.Proofs.Header.Generated
import NamedDispatch.Proofs.Header.Accepted
import NamedDispatch.Proofs.Header.Stages
import NamedDispatch.Proofs.Header.Heights
import NamedDispatch.Proofs.Header.Stems
import NamedDispatch.Proofs.Header.Definitions
import NamedDispatch.Proofs.Header.Conditionals
import NamedDispatch.Proofs.Header.MaxArity
import NamedDispatch.Proofs.Header.Sequence
import NamedDispatch.Proofs.Header.Writing
import NamedDispatch.Proofs.Header.ConfigText
import NamedDispatch.Proofs.Plan.Support
import NamedDispatch.Proofs.Plan.RoundTrip
import NamedDispatch.Proofs.Plan.Shadowing
import NamedDispatch.Proofs.Plan.Rendering
import NamedDispatch.Proofs.Plan.Fitting
import NamedDispatch.Proofs.Expansion.Call
import NamedDispatch.Proofs.Expansion.Run
import NamedDispatch.Proofs.Expansion.Ladder
import NamedDispatch.Proofs.Expansion.Counting
import NamedDispatch.Proofs.Expansion.Branch
import NamedDispatch.Proofs.Expansion.PairLadder
import NamedDispatch.Proofs.Expansion.Sealed
import NamedDispatch.Proofs.Expansion.Plans
import NamedDispatch.Proofs.Expansion.Capacity
import NamedDispatch.Proofs.Expansion.Routine
import NamedDispatch.Proofs.Table.Names
import NamedDispatch.Proofs.Table.Run
import NamedDispatch.Proofs.Table.Caching
import NamedDispatch.Proofs.Table.Kept
import NamedDispatch.Proofs.Table.Keys
import NamedDispatch.Proofs.Table.Reply
import NamedDispatch.Proofs.Table.Listing
import NamedDispatch.Proofs.Table.Registry
import NamedDispatch.Proofs.Table.Sharing
import NamedDispatch.Proofs.Table.Binding
import NamedDispatch.Proofs.Table.Arity
import NamedDispatch.Proofs.Plan.Replay
import NamedDispatch.Proofs.Text.Identifiers
