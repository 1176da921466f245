import DailyBars.Bar.Basic
import DailyBars.Bar.Record
import DailyBars.Bar.Series
import DailyBars.Calendar.Clock
import DailyBars.Calendar.Day
import DailyBars.Calendar.Pattern
import DailyBars.Calendar.Reckoning
import DailyBars.Calendar.Window
import DailyBars.Cli.Form
import DailyBars.Cli.Help
import DailyBars.Cli.Request
import DailyBars.Cli.Run
import DailyBars.Cli.Table
import DailyBars.Config
import DailyBars.Csv.Rows
import DailyBars.Error
import DailyBars.Fx.Conversion
import DailyBars.Fx.Rates
import DailyBars.History
import DailyBars.Html.Construction
import DailyBars.Html.Document
import DailyBars.Html.Insertion
import DailyBars.Html.NamedCharacter
import DailyBars.Html.Reference
import DailyBars.Html.Token
import DailyBars.Http.Form
import DailyBars.Http.Status
import DailyBars.Http.Transport
import DailyBars.Instrument.Cash
import DailyBars.Instrument.Currency
import DailyBars.Instrument.Exchange
import DailyBars.Instrument.Metadata
import DailyBars.Instrument.Resolution
import DailyBars.Instrument.Symbol
import DailyBars.Json.Reader
import DailyBars.Json.Value
import DailyBars.Json.Writer
import DailyBars.Main
import DailyBars.Merge.Engine
import DailyBars.Merge.Scaling
import DailyBars.Number.Binary
import DailyBars.Number.Decimal
import DailyBars.Number.Reader
import DailyBars.Proofs.Bar.Merging
import DailyBars.Proofs.Bar.Series
import DailyBars.Proofs.Calendar.BusinessDays
import DailyBars.Proofs.Calendar.CheckedSteps
import DailyBars.Proofs.Calendar.Civil
import DailyBars.Proofs.Calendar.DateText
import DailyBars.Proofs.Calendar.Normalization
import DailyBars.Proofs.Calendar.Reckoning
import DailyBars.Proofs.Calendar.Window
import DailyBars.Proofs.Fx.AsOf
import DailyBars.Proofs.Fx.BaseCurrency
import DailyBars.Proofs.Fx.ConstantRates
import DailyBars.Proofs.Fx.Conversion
import DailyBars.Proofs.Fx.LookBack
import DailyBars.Proofs.Fx.Rates
import DailyBars.Proofs.History.CashCurrency
import DailyBars.Proofs.History.ServedSeries
import DailyBars.Proofs.Instrument.Codes
import DailyBars.Proofs.Instrument.Listings
import DailyBars.Proofs.Instrument.Places
import DailyBars.Proofs.Instrument.Resolution
import DailyBars.Proofs.Instrument.Suffixes
import DailyBars.Proofs.Json.PlainText
import DailyBars.Proofs.Merge.Breaker
import DailyBars.Proofs.Merge.BusinessShare
import DailyBars.Proofs.Merge.Calls
import DailyBars.Proofs.Merge.CheckedVisits
import DailyBars.Proofs.Merge.CheckedWalk
import DailyBars.Proofs.Merge.Containment
import DailyBars.Proofs.Merge.Coverage
import DailyBars.Proofs.Merge.Listing
import DailyBars.Proofs.Merge.Order
import DailyBars.Proofs.Merge.Provenance
import DailyBars.Proofs.Merge.Requests
import DailyBars.Proofs.Merge.ScalingOrders
import DailyBars.Proofs.Merge.Settlement
import DailyBars.Proofs.Merge.SteadyMarket
import DailyBars.Proofs.Merge.Trial
import DailyBars.Proofs.Merge.Union
import DailyBars.Proofs.Merge.Visits
import DailyBars.Proofs.Merge.Walk
import DailyBars.Proofs.Number.Identity
import DailyBars.Proofs.Number.Quotient
import DailyBars.Proofs.Number.Rounding
import DailyBars.Proofs.Number.Value
import DailyBars.Proofs.Provider.ChartColumns
import DailyBars.Proofs.Provider.ChartPeriod
import DailyBars.Proofs.Provider.ChartSums
import DailyBars.Proofs.Provider.ParsedBars
import DailyBars.Proofs.Rows
import DailyBars.Proofs.Source.CheckedStandings
import DailyBars.Proofs.Source.Spacing
import DailyBars.Proofs.Source.Standing
import DailyBars.Proofs.Store.Access
import DailyBars.Proofs.Store.AskedRanges
import DailyBars.Proofs.Store.CheckedDays
import DailyBars.Proofs.Store.CorruptSeries
import DailyBars.Proofs.Store.Coverage
import DailyBars.Proofs.Store.Delta
import DailyBars.Proofs.Store.Endings
import DailyBars.Proofs.Store.FileNames
import DailyBars.Proofs.Store.FileTree
import DailyBars.Proofs.Store.Growth
import DailyBars.Proofs.Store.Held
import DailyBars.Proofs.Store.Ledger
import DailyBars.Proofs.Store.Lifetimes
import DailyBars.Proofs.Store.ListedBars
import DailyBars.Proofs.Store.ListedNames
import DailyBars.Proofs.Store.Load
import DailyBars.Proofs.Store.LoadSteps
import DailyBars.Proofs.Store.LocalFolder
import DailyBars.Proofs.Store.Memo
import DailyBars.Proofs.Store.Names
import DailyBars.Proofs.Store.Objects
import DailyBars.Proofs.Store.Offline
import DailyBars.Proofs.Store.Persist
import DailyBars.Proofs.Store.Recall
import DailyBars.Proofs.Store.Recency
import DailyBars.Proofs.Store.RoundTrip
import DailyBars.Proofs.Store.SeriesExtension
import DailyBars.Proofs.Store.SeriesFile
import DailyBars.Proofs.Store.ServedRows
import DailyBars.Proofs.Store.Session
import DailyBars.Proofs.Store.SettledDays
import DailyBars.Proofs.Store.SpanRecord
import DailyBars.Proofs.Store.Status
import DailyBars.Proofs.Store.ValidTables
import DailyBars.Proofs.Store.View
import DailyBars.Proofs.Tables
import DailyBars.Proofs.Text.Letters
import DailyBars.Proofs.Text.Numerals
import DailyBars.Provider.AlphaVantage
import DailyBars.Provider.Catalogue
import DailyBars.Provider.Ft
import DailyBars.Provider.Stooq
import DailyBars.Provider.Yahoo
import DailyBars.Source.Limiter
import DailyBars.Source.Query
import DailyBars.Store.Coverage
import DailyBars.Store.FileTree
import DailyBars.Store.Key
import DailyBars.Store.Lines
import DailyBars.Store.Memo
import DailyBars.Store.Objects
import DailyBars.Store.Rolling
import DailyBars.Store.SeriesCache
import DailyBars.Store.Storage
import DailyBars.Store.Table
import DailyBars.Text.Basic
import DailyBars.Text.Quoted
import DailyBars.Text.Unprintable
import DailyBars.Toml.Document
import DailyBars.Toml.Scalar
import DailyBars.Toml.Value
