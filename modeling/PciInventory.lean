import PciInventory.Main
import PciInventory.Names.Query
import PciInventory.Proofs.Address.Packing
import PciInventory.Proofs.Overwrite
import PciInventory.Proofs.Snapshot.Fields
import PciInventory.Proofs.Snapshot.Records
import PciInventory.Proofs.Snapshot.Layout
import PciInventory.Proofs.Snapshot.RoundTrip
import PciInventory.Proofs.Snapshot.Interruption
import PciInventory.Proofs.Topology.Buses
import PciInventory.Proofs.Topology.Walk
import PciInventory.Proofs.Topology.Coverage
import PciInventory.Proofs.Topology.DepthFirst
import PciInventory.Proofs.Topology.Reach
import PciInventory.Proofs.Topology.Forest
import PciInventory.Proofs.Capability.Chain
import PciInventory.Proofs.Capability.Listing
import PciInventory.Proofs.Names.Answers
import PciInventory.Proofs.Names.Catalogue
import PciInventory.Proofs.Names.Leads
import PciInventory.Proofs.Names.Ranges
import PciInventory.Proofs.Names.Entries
import PciInventory.Proofs.Names.Lookup
import PciInventory.Proofs.Topology.Lookup
import PciInventory.Proofs.Topology.Construction
import PciInventory.Proofs.FileTree.NewName
import PciInventory.Proofs.Snapshot.Publication
import PciInventory.Proofs.Device.Modelling
import PciInventory.Proofs.Snapshot.Replay
import PciInventory.Proofs.Topology.Changed
import PciInventory.Proofs.Render.Changed
import PciInventory.Proofs.Render.Stored
import PciInventory.Proofs.CommandLine.Replay
import PciInventory.Proofs.Topology.Independence
import PciInventory.Proofs.Render.Sections
import PciInventory.Proofs.Snapshot.Trace
import PciInventory.Proofs.CommandLine.Atomicity
import PciInventory.Proofs.Snapshot.Resizing
import PciInventory.Proofs.Snapshot.Cursor
import PciInventory.Proofs.Snapshot.Footprint
import PciInventory.Proofs.Snapshot.Acceptance
import PciInventory.Proofs.Capability.Bounds
import PciInventory.Proofs.Capability.Tables
import PciInventory.Proofs.Names.Blocks
import PciInventory.Proofs.Names.Origin
import PciInventory.Proofs.Names.LineEndings
import PciInventory.Proofs.Names.Specificity
import PciInventory.Proofs.Text.Numeral
import PciInventory.Proofs.Text.Blank
import PciInventory.Proofs.Address.Grammar
import PciInventory.Proofs.Address.Order
import PciInventory.Proofs.LiveSource.Resources
import PciInventory.Proofs.Topology.Uniqueness
import PciInventory.Proofs.Resource.Slots
import PciInventory.Proofs.Device.Conventional
import PciInventory.Proofs.Names.Trimmed
import PciInventory.Proofs.Names.Tiling
import PciInventory.Proofs.Render.Lines
import PciInventory.Proofs.Render.Details
import PciInventory.Proofs.Render.Numeric
import PciInventory.Proofs.Render.Windows
import PciInventory.Proofs.LiveSource.RootBuses
import PciInventory.Proofs.Snapshot.Calls
