import DynamicQuorum.Main
import DynamicQuorum.Proofs.Indexer.Conservation
import DynamicQuorum.Proofs.Indexer.ExtraVote
import DynamicQuorum.Proofs.Indexer.Interference
import DynamicQuorum.Proofs.Indexer.VoteOrder
import DynamicQuorum.Proofs.Quorum.Exact
import DynamicQuorum.Proofs.Quorum.Updates
import DynamicQuorum.Proofs.Proposal.Timeline
import DynamicQuorum.Proofs.Indexer.Lifecycle
import DynamicQuorum.Proofs.Indexer.Progress
import DynamicQuorum.Proofs.Indexer.Capture
import DynamicQuorum.Proofs.Word256.Product
import DynamicQuorum.Proofs.Word256.Quotient
import DynamicQuorum.Proofs.Indexer.Replay
import DynamicQuorum.Proofs.Text.Digits
import DynamicQuorum.Proofs.Word256.Decimal
import DynamicQuorum.Proofs.Address
import DynamicQuorum.Proofs.Interchange.Events
import DynamicQuorum.Proofs.Interchange.Proposals
import DynamicQuorum.Proofs.Interchange.RoundTrip
import DynamicQuorum.Proofs.Quorum.Bounds
import DynamicQuorum.Proofs.Proposal.Acceptance
import DynamicQuorum.Proofs.Indexer.Creation
import DynamicQuorum.Proofs.Quorum.LastWriter
import DynamicQuorum.Proofs.Proposal.Attachment
import DynamicQuorum.Proofs.Word256.Numeral
import DynamicQuorum.Proofs.Word256.Hexadecimal
import DynamicQuorum.Proofs.Proposal.Spelling
import DynamicQuorum.Proofs.Proposal.Governor
import DynamicQuorum.Proofs.Quorum.Truncation
import DynamicQuorum.Proofs.Indexer.Listing
import DynamicQuorum.Proofs.Text.Natural
import DynamicQuorum.Proofs.Settings.Key
import DynamicQuorum.Proofs.Settings.Edit
import DynamicQuorum.Proofs.Toml.Entries
import DynamicQuorum.Proofs.Toml.Keyed
import DynamicQuorum.Proofs.Toml.Quoted
import DynamicQuorum.Proofs.Toml.Word
import DynamicQuorum.Proofs.Toml.Page
import DynamicQuorum.Proofs.Settings.File
import DynamicQuorum.Proofs.Console.FileTree
import DynamicQuorum.Proofs.Console.Settings
