import WagerLedger.Clients
import WagerLedger.Config.Dotenv
import WagerLedger.Config.Environment
import WagerLedger.Config.Error
import WagerLedger.Config.Pool
import WagerLedger.Config.Settings
import WagerLedger.Date
import WagerLedger.Date.Text
import WagerLedger.Duration
import WagerLedger.Event
import WagerLedger.Event.Sink
import WagerLedger.Identifier
import WagerLedger.Interleaving
import WagerLedger.Ledger.Calls
import WagerLedger.Ledger.Error
import WagerLedger.Ledger.Fault
import WagerLedger.Ledger.Record
import WagerLedger.Ledger.State
import WagerLedger.Ledger.Store
import WagerLedger.Ledger.Table
import WagerLedger.Ledger.Transaction
import WagerLedger.Number.Binary64
import WagerLedger.Number.Binary64.Arithmetic
import WagerLedger.Number.Binary64.Shortest
import WagerLedger.Number.Binary64.Text
import WagerLedger.Number.Decimal
import WagerLedger.Number.Decimal.Arithmetic
import WagerLedger.Number.Decimal.Text
import WagerLedger.Number.Rounding
import WagerLedger.Odds
import WagerLedger.Program
import WagerLedger.Proofs.Backoff.Attempts
import WagerLedger.Proofs.Backoff.Range
import WagerLedger.Proofs.Config.Loaded
import WagerLedger.Proofs.Decimal.Cut
import WagerLedger.Proofs.Decimal.Faithful
import WagerLedger.Proofs.Decimal.Monotone
import WagerLedger.Proofs.Decimal.Same
import WagerLedger.Proofs.Decimal.Wins
import WagerLedger.Proofs.Ledger.Alike
import WagerLedger.Proofs.Ledger.Passbook
import WagerLedger.Proofs.Ledger.Published
import WagerLedger.Proofs.Odds.Frequencies
import WagerLedger.Proofs.Program.Adjusting
import WagerLedger.Proofs.Program.Alike
import WagerLedger.Proofs.Program.Attempting
import WagerLedger.Proofs.Program.Changing
import WagerLedger.Proofs.Program.Discreet
import WagerLedger.Proofs.Program.Likewise
import WagerLedger.Proofs.Program.Looks
import WagerLedger.Proofs.Program.Murmurs
import WagerLedger.Proofs.Program.Reads
import WagerLedger.Proofs.Program.Solo
import WagerLedger.Proofs.Program.Sufficiency
import WagerLedger.Proofs.Related
import WagerLedger.Proofs.Session.Apart
import WagerLedger.Proofs.Session.Attempts
import WagerLedger.Proofs.Session.Beats
import WagerLedger.Proofs.Session.Conservation
import WagerLedger.Proofs.Session.Discreet
import WagerLedger.Proofs.Session.EqualAmounts
import WagerLedger.Proofs.Session.Draws
import WagerLedger.Proofs.Session.Failing
import WagerLedger.Proofs.Session.GivingUp
import WagerLedger.Proofs.Session.History
import WagerLedger.Proofs.Session.Likewise
import WagerLedger.Proofs.Session.Lone
import WagerLedger.Proofs.Session.LoneCall
import WagerLedger.Proofs.Session.Meanwhile
import WagerLedger.Proofs.Session.Reading
import WagerLedger.Proofs.Session.Retrying
import WagerLedger.Proofs.Session.Rollbacks
import WagerLedger.Proofs.Session.Schedules
import WagerLedger.Proofs.Session.Sleeping
import WagerLedger.Proofs.Session.Story
import WagerLedger.Proofs.Session.Telling
import WagerLedger.Proofs.Session.TwoChanges
import WagerLedger.Proofs.Session.Veiled
import WagerLedger.Proofs.Session.Watching
import WagerLedger.Proofs.Session.Wins
import WagerLedger.Proofs.Wire.Lossless
import WagerLedger.Proofs.World.Alike
import WagerLedger.Proofs.World.Callers
import WagerLedger.Proofs.World.Contexts
import WagerLedger.Proofs.World.Publishing
import WagerLedger.Proofs.World.Serializability
import WagerLedger.Proofs.World.Veil
import WagerLedger.Proofs.World.Windows
import WagerLedger.Scheduler
import WagerLedger.Session
import WagerLedger.Session.Operation
import WagerLedger.Session.Rounds
import WagerLedger.Session.Scenario
import WagerLedger.Settlement
import WagerLedger.Settlement.Backoff
import WagerLedger.Settlement.Caller
import WagerLedger.Settlement.Context
import WagerLedger.Settlement.Error
import WagerLedger.Settlement.Retry
import WagerLedger.Settlement.Schedule
import WagerLedger.Text.Alphanumeric
import WagerLedger.Text.Blank
import WagerLedger.Text.CharClass
import WagerLedger.Text.Digits
import WagerLedger.Text.Printable
import WagerLedger.Text.Quoted
import WagerLedger.Timeout
import WagerLedger.Wallet
import WagerLedger.Wire.Numeral
import WagerLedger.Wire.Record
import WagerLedger.Wire.Value
import WagerLedger.Words
import WagerLedger.World
