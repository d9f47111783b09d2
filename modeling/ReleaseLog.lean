import ReleaseLog.Main
import ReleaseLog.Proofs.CommandLine.Grammar
import ReleaseLog.Proofs.Feed.Accounts
import ReleaseLog.Proofs.Git.Reading
import ReleaseLog.Proofs.Git.Requests
import ReleaseLog.Proofs.Git.Values
import ReleaseLog.Proofs.Host.Search
import ReleaseLog.Proofs.Program.Streams
import ReleaseLog.Proofs.Publication.Causes
import ReleaseLog.Proofs.Publication.Decoding
import ReleaseLog.Proofs.Publication.Indifference
import ReleaseLog.Proofs.Publication.Listing
import ReleaseLog.Proofs.Reference.Layout
import ReleaseLog.Proofs.Review.Bases
import ReleaseLog.Sink.Lemmas
import ReleaseLog.Text.Utf8.RoundTrip
