import FeedIntake.Address.Basic
import FeedIntake.Address.Ipv4
import FeedIntake.Address.Ipv6
import FeedIntake.Bytes.Ascii
import FeedIntake.Bytes.Basic
import FeedIntake.Bytes.BigEndian
import FeedIntake.Bytes.Mark
import FeedIntake.Charset.Basic
import FeedIntake.Charset.Cells
import FeedIntake.Charset.Detection
import FeedIntake.Charset.Label
import FeedIntake.Checksum.Basic
import FeedIntake.Checksum.Blob
import FeedIntake.Checksum.Lemmas
import FeedIntake.Cli.Command
import FeedIntake.Cli.Host
import FeedIntake.Cli.Program
import FeedIntake.Config.Basic
import FeedIntake.Config.Setting
import FeedIntake.Content.Family
import FeedIntake.Content.MediaType
import FeedIntake.Digest.Basic
import FeedIntake.Digest.Sha256
import FeedIntake.Fetch.Admission
import FeedIntake.Fetch.Failure
import FeedIntake.Fetch.Network
import FeedIntake.Fetch.Reading
import FeedIntake.Fetch.Redirects
import FeedIntake.Fetch.Relay
import FeedIntake.Fetch.Response
import FeedIntake.Fetch.Script
import FeedIntake.Intake.Basic
import FeedIntake.Intake.Normalize
import FeedIntake.Json.Basic
import FeedIntake.Json.Reader
import FeedIntake.Json.Token
import FeedIntake.Json.Writer
import FeedIntake.Markup.Formula
import FeedIntake.Markup.Fragment
import FeedIntake.Markup.Processor
import FeedIntake.Markup.Tree
import FeedIntake.Numeral
import FeedIntake.Pool
import FeedIntake.Proofs.Address.Block
import FeedIntake.Proofs.Address.Spelling
import FeedIntake.Proofs.Address.Text
import FeedIntake.Proofs.Bytes.Blank
import FeedIntake.Proofs.Bytes.Split
import FeedIntake.Proofs.Checksum.Codec
import FeedIntake.Proofs.Checksum.Log
import FeedIntake.Proofs.Checksum.Refinement
import FeedIntake.Proofs.Fetch.Admission
import FeedIntake.Proofs.Fetch.Hops
import FeedIntake.Proofs.Intake.Content
import FeedIntake.Proofs.Markup.Inert
import FeedIntake.Proofs.Markup.Lines
import FeedIntake.Proofs.Markup.Plain
import FeedIntake.Proofs.Markup.Passes
import FeedIntake.Record.Field
import FeedIntake.Record.Normal
import FeedIntake.Record.Raw
import FeedIntake.Time.Calendar
import FeedIntake.Time.Field
import FeedIntake.Time.Timestamp
import FeedIntake.Url.Basic
import FeedIntake.Url.Host
import FeedIntake.Url.Path
import FeedIntake.Url.Reference
import FeedIntake.Url.Scheme
import FeedIntake.Utf8
import FeedIntake.Main
import FeedIntake.Proofs.Intake.News
import FeedIntake.Proofs.Intake.Refusal
import FeedIntake.Proofs.Intake.Replay
import FeedIntake.Proofs.Intake.Limits
import FeedIntake.Proofs.Intake.FaultIndex
import FeedIntake.Proofs.Fetch.Gate
import FeedIntake.Proofs.Bytes.Decimal
import FeedIntake.Proofs.Fetch.Relay
import FeedIntake.Proofs.Fetch.Routes
import FeedIntake.Proofs.Fetch.Exchange
import FeedIntake.Proofs.Fetch.Chain
import FeedIntake.Proofs.Fetch.Restriction
import FeedIntake.Proofs.Fetch.Confinement
import FeedIntake.Proofs.Fetch.Shape
import FeedIntake.Proofs.Pool.Accounting
import FeedIntake.Proofs.Pool.Shutdown
import FeedIntake.Proofs.Utf8.Valid
import FeedIntake.Proofs.Markup.Text
import FeedIntake.Proofs.Url.Text
import FeedIntake.Proofs.Cli.Saving
import FeedIntake.Proofs.Fetch.RelayBody
import FeedIntake.Proofs.Record.ReadBack
import FeedIntake.Proofs.Record.Null
import FeedIntake.Proofs.Url.Endpoint
import FeedIntake.Proofs.Fetch.Literal
import FeedIntake.Proofs.Address.Reserved
import FeedIntake.Proofs.Charset.Label
import FeedIntake.Proofs.Charset.Cut
import FeedIntake.Proofs.Markup.Flat
import FeedIntake.Proofs.Address.Embedded
import FeedIntake.Proofs.Utf8.Longest
import FeedIntake.Proofs.Config.Quantity
import FeedIntake.Proofs.Url.Reading
import FeedIntake.Proofs.Url.Foreign
import FeedIntake.Proofs.Fetch.Foreign
import FeedIntake.Proofs.Url.Inheritance
import FeedIntake.Proofs.Url.Unbroken
import FeedIntake.Proofs.Charset.Parameter
import FeedIntake.Proofs.Content.Sniffing
import FeedIntake.Proofs.Markup.Formula
import FeedIntake.Proofs.Time.Shape
