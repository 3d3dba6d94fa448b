import VirtualDisk.Storage.Rack
import VirtualDisk.Image.Create
import VirtualDisk.ImageSet.Chain
import VirtualDisk.Proofs.Storage.Ensures
import VirtualDisk.Proofs.Storage.Growth
import VirtualDisk.Proofs.Storage.Servers
import VirtualDisk.Proofs.Storage.Shelf
import VirtualDisk.Proofs.Storage.Ranges
import VirtualDisk.Proofs.Storage.Zeros
import VirtualDisk.Proofs.Storage.Buffers
import VirtualDisk.Proofs.Blocks.Entries
import VirtualDisk.Proofs.Blocks.Bits
import VirtualDisk.Proofs.Blocks.View
import VirtualDisk.Proofs.Blocks.Consistent
import VirtualDisk.Proofs.Blocks.Steps
import VirtualDisk.Proofs.Format.Footer
import VirtualDisk.Proofs.Format.BlockHeader
import VirtualDisk.Proofs.Blocks.Appended
import VirtualDisk.Proofs.Blocks.Written
import VirtualDisk.Proofs.Blocks.Terms
import VirtualDisk.Proofs.Blocks.Storing
import VirtualDisk.Proofs.Blocks.Selecting
import VirtualDisk.Proofs.Blocks.Allocating
import VirtualDisk.Proofs.Blocks.Transferring
import VirtualDisk.Proofs.Blocks.Torn
import VirtualDisk.Proofs.Blocks.Stranded
import VirtualDisk.Proofs.Image.Growing
import VirtualDisk.Proofs.Image.Blocks
import VirtualDisk.Proofs.Image.Opening
import VirtualDisk.Proofs.Image.Creation
import VirtualDisk.Proofs.Image.Operations
import VirtualDisk.Proofs.Image.Flat
import VirtualDisk.Proofs.Image.FlatArray
import VirtualDisk.Proofs.Image.Faults
import VirtualDisk.Proofs.Image.Reached
import VirtualDisk.Proofs.Image.HoldsWritten
import VirtualDisk.Proofs.Image.Outage
import VirtualDisk.Proofs.ImageSet.Members
import VirtualDisk.Proofs.ImageSet.View
import VirtualDisk.Proofs.ImageSet.Resolving
import VirtualDisk.Proofs.ImageSet.Calls
import VirtualDisk.Proofs.ImageSet.Assembling
import VirtualDisk.Proofs.ImageSet.Overlay
import VirtualDisk.Proofs.Blocks.Effects
import VirtualDisk.Proofs.Blocks.Governed
import VirtualDisk.Proofs.Storage.History
import VirtualDisk.Proofs.Blocks.Arranged
import VirtualDisk.Proofs.Blocks.Progress
import VirtualDisk.Proofs.Image.Accepting
import VirtualDisk.Proofs.Image.Governed
import VirtualDisk.Proofs.Image.Untrusted
import VirtualDisk.Proofs.ImageSet.Untrusted
import VirtualDisk.Proofs.Image.Appending
import VirtualDisk.Proofs.Image.Chronicle
import VirtualDisk.Proofs.Storage.Cropped
import VirtualDisk.Proofs.Blocks.Cropped
import VirtualDisk.Proofs.Image.Acted
import VirtualDisk.Proofs.Image.Damaged
import VirtualDisk.Proofs.Image.FixedArray
import VirtualDisk.Proofs.Storage.Replies
import VirtualDisk.Proofs.Image.Keeping
import VirtualDisk.Proofs.ImageSet.Upholding
import VirtualDisk.Proofs.ImageSet.Acts
import VirtualDisk.Proofs.ImageSet.Founded
import VirtualDisk.Proofs.Storage.Requests
import VirtualDisk.Proofs.Storage.SameBytes
import VirtualDisk.Proofs.Storage.ZeroRuns
import VirtualDisk.Proofs.Blocks.Twins
import VirtualDisk.Proofs.Blocks.Reading
import VirtualDisk.Proofs.Image.Reading
import VirtualDisk.Proofs.Image.ReadOnly
import VirtualDisk.Proofs.ImageSet.ReadOnly
import VirtualDisk.Proofs.Blocks.Caching
import VirtualDisk.Proofs.Blocks.Mirror
import VirtualDisk.Proofs.Image.Caching
import VirtualDisk.Proofs.Image.ExactWithRoom
import VirtualDisk.Proofs.Image.Transparent
import VirtualDisk.Proofs.Blocks.Attempts
import VirtualDisk.Proofs.Blocks.Causes
import VirtualDisk.Proofs.Blocks.Discipline
import VirtualDisk.Proofs.Image.Discipline
import VirtualDisk.Proofs.Blocks.Placing
import VirtualDisk.Proofs.Image.Attempts
import VirtualDisk.Proofs.Image.Replacing
import VirtualDisk.Proofs.Storage.Media
import VirtualDisk.Proofs.Image.Filling
import VirtualDisk.Proofs.ImageSet.Session
import VirtualDisk.Proofs.Blocks.Splitting
import VirtualDisk.Proofs.Image.FlatTransfer
import VirtualDisk.Proofs.Image.Splitting
import VirtualDisk.Proofs.ImageSet.Plain
import VirtualDisk.Proofs.Image.Layout
import VirtualDisk.Proofs.ImageSet.NewImages
import VirtualDisk.Proofs.Blocks.Footprint
import VirtualDisk.Proofs.Blocks.Tidy
import VirtualDisk.Proofs.Image.Footprint
import VirtualDisk.Proofs.Format.Demand
import VirtualDisk.Proofs.Format.Checksum
import VirtualDisk.Proofs.Format.Alteration
import VirtualDisk.Proofs.Format.Geometry
import VirtualDisk.Proofs.Image.Making
import VirtualDisk.Proofs.Image.DerivedGeometry
import VirtualDisk.Proofs.Blocks.RoundTrips
import VirtualDisk.Proofs.Blocks.Locating
import VirtualDisk.Proofs.Blocks.Margins
import VirtualDisk.Proofs.Image.Coherence
