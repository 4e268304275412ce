import Aimx.Text.Str
import Aimx.Text.Utf8
import Aimx.Text.Search
import Aimx.Text.Decimal
import Aimx.Text.Expand
import Aimx.Text.Path
import Aimx.Text.Table
import Aimx.Text.FirstFree
import Aimx.Config.Names
import Aimx.Config.Schema
import Aimx.Config.Load
import Aimx.Config.Update
import Aimx.Config.Toml
import Aimx.Smtp.Stream
import Aimx.Smtp.Session
import Aimx.Smtp.Content
import Aimx.Smtp.Transaction
import Aimx.Smtp.Transfer
import Aimx.Ingest.Frontmatter
import Aimx.Ingest.Marked
import Aimx.Ingest.Trust
import Aimx.Ingest.Slug
import Aimx.Ingest.Thread
import Aimx.Ingest.Store
import Aimx.Ingest.Dedup
import Aimx.Ingest.Delivery
import Aimx.Ingest.Locks
import Aimx.Ingest.Records
import Aimx.Ingest.Recipients
import Aimx.Ingest.AtMostOnce
import Aimx.Ingest.Deletion
import Aimx.Ingest.Durable
import Aimx.Transition.Runs
import Aimx.Hook.Spawn
import Aimx.Daemon.Authz
import Aimx.Daemon.Authorize
import Aimx.Daemon.HookBody
import Aimx.Daemon.Disk
import Aimx.Daemon.Requests
import Aimx.Daemon.Commit
import Aimx.Daemon.Accept
import Aimx.Daemon.Mark
import Aimx.Daemon.Privacy
import Aimx.Daemon.Schedule
import Aimx.Daemon.StorageRoot
import Aimx.Daemon.Targets
import Aimx.Daemon.HookSet
import Aimx.Daemon.Dispatch
import Aimx.Cli.Hooks
import Aimx.Send.Headers
import Aimx.Send.Wire
import Aimx.Send.Handler
import Aimx.Send.Sender
import Aimx.Send.Routing
import Aimx.Protocol.Frame
import Aimx.Protocol.Request
import Aimx.Protocol.Response
import Aimx.Upgrade.Run
import Aimx.Upgrade.Rollback
import Aimx.Setup.Prompts
import Aimx.Setup.Run
import Aimx.Send.QuotedPrintable
import Aimx.Text.Dirs
import Aimx.Text.Rfc2045
import Aimx.Text.Brackets
import Aimx.Mcp.Reply
import Aimx.Text.CaseMap
import Aimx.Ingest.MailFrom
import Aimx.Smtp.Panics
import Aimx.Dkim.Keys
import Aimx.Text.Unique
import Aimx.Ingest.Attachments
import Aimx.Ingest.Failures
import Aimx.Smtp.Segments
import Aimx.Mcp.Listing
import Aimx.Daemon.Marks
import Aimx.Text.FileTree
import Aimx.Cli.Mailboxes
import Aimx.Net.IpAddr
import Aimx.Verifier.Probe
import Aimx.Text.Quoted
import Aimx.Send.Params
import Aimx.Transition.Once
import Aimx.Protocol.Order
import Aimx.Mcp.Unread
import Aimx.Send.Compose
import Aimx.Hook.Identity
import Aimx.Hook.Timeout
import Aimx.Send.Transport
import Aimx.Send.Delivery
import Aimx.Net.Ipv6Text
import Aimx.Net.Spf
import Aimx.Text.QuotedStrings
import Aimx.Setup.Dns
import Aimx.Hook.StderrTail
import Aimx.Ingest.Rebuild
import Aimx.Ingest.FileNames
import Aimx.Ingest.Slugs
import Aimx.Text.LinkTree
import Aimx.Text.LinkCalls
import Aimx.Daemon.Paths
import Aimx.Daemon.Containment
import Aimx.Daemon.Ownership
import Aimx.Daemon.Rollback
import Aimx.Daemon.Wipe
import Aimx.Daemon.Refused
import Aimx.Daemon.Restart
import Aimx.Daemon.Updates
import Aimx.Setup.Steps
import Aimx.Setup.Reload
import Aimx.Setup.Converges
import Aimx.Text.Base64
import Aimx.Text.Multipart
import Aimx.Send.Parts
import Aimx.Send.FieldBlock
import Aimx.Send.PartFields
import Aimx.Send.Content
import Aimx.Text.Mime
import Aimx.Send.Assemble
import Aimx.Send.WireTree
import Aimx.Send.LineEnds
import Aimx.Send.Delivered
import Aimx.Transition.Machines
import Aimx.Ingest.Legible
import Aimx.Ingest.Recall
import Aimx.Ingest.Restarts
import Aimx.Ingest.Duplicates
import Aimx.Text.StableSort
import Aimx.Daemon.Listings
import Aimx.Daemon.Strangers
import Aimx.Verifier.Handshake
