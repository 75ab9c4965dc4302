import MediaShelf.Admission.Desk
import MediaShelf.Files.Edit
import MediaShelf.Main
import MediaShelf.Proofs.Catalog.Callers
import MediaShelf.Proofs.Catalog.Discovery
import MediaShelf.Proofs.Catalog.Plans
import MediaShelf.Proofs.Resource.Refinement
import MediaShelf.Proofs.Server.Isolation
import MediaShelf.Server.Schedule
import MediaShelf.Proofs.Catalog.Reconcile
import MediaShelf.Proofs.Catalog.Scans
import MediaShelf.Proofs.Catalog.Identity
import MediaShelf.Proofs.Catalog.Serial
import MediaShelf.Proofs.Server.Delivery
import MediaShelf.Proofs.Server.Phases
import MediaShelf.Proofs.Server.Underway
import MediaShelf.Proofs.Server.Streams
import MediaShelf.Proofs.Shelf.Round
import MediaShelf.Proofs.Admission.Books
import MediaShelf.Proofs.Admission.Fairness
import MediaShelf.Proofs.Server.Handling
import MediaShelf.Proofs.Shelf.Stakes
import MediaShelf.Proofs.Server.Holding
import MediaShelf.Proofs.Server.Slots
import MediaShelf.Proofs.Resource.Changing
import MediaShelf.Proofs.Server.Pieces
import MediaShelf.Proofs.Settings.SizeGrammar
import MediaShelf.Proofs.Settings.Serving
import MediaShelf.Proofs.Files.Stations
import MediaShelf.Proofs.Library.MediaNames
import MediaShelf.Proofs.Shelf.WholeFile
import MediaShelf.Proofs.Shelf.Agreement
import MediaShelf.Proofs.Http.SingleRange
import MediaShelf.Proofs.Http.RangeWords
import MediaShelf.Proofs.Resource.Reckoning
import MediaShelf.Proofs.Catalog.LateApply
import MediaShelf.Proofs.Files.LinkBudget
import MediaShelf.Proofs.Files.Spelling
import MediaShelf.Proofs.Settings.Acceptance
import MediaShelf.Proofs.CommandLine.Mounting
import MediaShelf.Proofs.Text.Decoding
import MediaShelf.Proofs.Library.Categories
import MediaShelf.Proofs.Catalog.IdText
import MediaShelf.Proofs.Library.Playlists
import MediaShelf.Proofs.Server.Listings
import MediaShelf.Proofs.Http.DateText
import MediaShelf.Proofs.Http.MediaTypes
import MediaShelf.Proofs.Http.ShownName
import MediaShelf.Proofs.Settings.MountTexts
import MediaShelf.Proofs.Catalog.ListOrder
import MediaShelf.Proofs.Files.Normal
import MediaShelf.Proofs.Library.Retelling
import MediaShelf.Proofs.Server.RunEnd
