import ArgusSbomGuard.Relational.Table
import ArgusSbomGuard.Python.Json
import ArgusSbomGuard.Python.StripNul
import ArgusSbomGuard.Models.Schema
import ArgusSbomGuard.Models.Write
import ArgusSbomGuard.Models.Environment
import ArgusSbomGuard.Scan.Concurrent
import ArgusSbomGuard.Scan.Findings
import ArgusSbomGuard.Scan.Idempotence
import ArgusSbomGuard.Sbom.Placement
import ArgusSbomGuard.Alerts.Convergence
import ArgusSbomGuard.Alerts.Scopes
import ArgusSbomGuard.Delivery.Episode
import ArgusSbomGuard.Listing.Totals
import ArgusSbomGuard.Listing.Pages
import ArgusSbomGuard.Metrics.Agreement
import ArgusSbomGuard.Risk.Concurrent
import ArgusSbomGuard.System.Acceptances
import ArgusSbomGuard.System.Coverage
import ArgusSbomGuard.System.DeletedScan
import ArgusSbomGuard.System.Endpoints
import ArgusSbomGuard.Sbom.Concurrent
import ArgusSbomGuard.Metrics.Stability
import ArgusSbomGuard.Project.Latest
import ArgusSbomGuard.Scan.Reconciled
import ArgusSbomGuard.System.Details
import ArgusSbomGuard.Sbom.Diff
import ArgusSbomGuard.Auth.Concurrent
import ArgusSbomGuard.Alerts.Threshold
import ArgusSbomGuard.Listing.Filters
import ArgusSbomGuard.Listing.LoadMore
import ArgusSbomGuard.Listing.Purl
import ArgusSbomGuard.Listing.Windows
import ArgusSbomGuard.Metrics.PastDays
import ArgusSbomGuard.Listing.SbomDetail
import ArgusSbomGuard.Listing.ActiveMaps
import ArgusSbomGuard.Project.Vulns
import ArgusSbomGuard.Project.Slug
import ArgusSbomGuard.Auth.Expiry
import ArgusSbomGuard.System.Rescan
import ArgusSbomGuard.Auth.Routes
import ArgusSbomGuard.Auth.Sessions
import ArgusSbomGuard.Relational.Newest
import ArgusSbomGuard.Metrics.Trend
import ArgusSbomGuard.Relational.Growing
import ArgusSbomGuard.Listing.Tools
import ArgusSbomGuard.Listing.Walk
import ArgusSbomGuard.Risk.Tabs
import ArgusSbomGuard.Listing.View
import ArgusSbomGuard.Auth.Outsider
import ArgusSbomGuard.Auth.Headers
import ArgusSbomGuard.Alerts.Pruning
import ArgusSbomGuard.System.Maintained
import ArgusSbomGuard.Project.Rename
import ArgusSbomGuard.Python.Url
