import UrlFilter.Proofs.BareWord
import UrlFilter.Proofs.Continuation
import UrlFilter.Proofs.Insights
import UrlFilter.Proofs.Integer
import UrlFilter.Proofs.Nesting
import UrlFilter.Proofs.Node.OfValue
import UrlFilter.Proofs.Node.Reordered
import UrlFilter.Proofs.Parenthesized
import UrlFilter.Proofs.Parser.Call
import UrlFilter.Proofs.Query.Accumulated
import UrlFilter.Proofs.Query.Classification
import UrlFilter.Proofs.Query.Failure
import UrlFilter.Proofs.Query.Rearranged
import UrlFilter.Proofs.Query.Usage
import UrlFilter.Proofs.QuotedList
import UrlFilter.Proofs.RoundTrip
import UrlFilter.Proofs.Spaced
import UrlFilter.Proofs.Token.Alone
import UrlFilter.Proofs.Token.Connected
import UrlFilter.Proofs.Token.Preferred
import UrlFilter.Proofs.Viable
import UrlFilter.Settings
import UrlFilter.Proofs.Report
