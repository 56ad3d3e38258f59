import Cigars.Sql.Table
import Cigars.Sql.Select
import Cigars.Sql.Paging
import Cigars.Coroutine.Script
import Cigars.Coroutine.Flow
import Cigars.Coroutine.Interleaving
import Cigars.Ledger.Movement
import Cigars.Heap.Store
import Cigars.Transition.Run
import Cigars.Text.Basic
import Cigars.Database.Models
import Cigars.Database.Schema
import Cigars.Database.Listing
import Cigars.Rapid.Models
import Cigars.Repository.Base
import Cigars.Repository.Local
import Cigars.Repository.Stock
import Cigars.Repository.Outcomes
import Cigars.Repository.Adding
import Cigars.Repository.Atomicity
import Cigars.Stock.Runs
import Cigars.Stock.References
import Cigars.Stock.Totals
import Cigars.Stock.History
import Cigars.Stock.LostUpdate
import Cigars.Listing.Paging
import Cigars.Listing.Unfiltered
import Cigars.Listing.Visibility
import Cigars.Listing.Sorting
import Cigars.Listing.Favorites
import Cigars.Storage.RoundTrip
import Cigars.Storage.Integrity
import Cigars.Search.FilterCollection
import Cigars.Listing.SharedFilter
import Cigars.Mvvm.CigarsDetails
import Cigars.Mvvm.StockDialogs
import Cigars.Mvvm.ListSearch
import Cigars.Listing.Filtering
import Cigars.Listing.LiteralSearch
import Cigars.Stock.Moves
import Cigars.Coroutine.Channel
import Cigars.Mvvm.Events
import Cigars.Mvvm.Loading
import Cigars.Rapid.MemoryCache
import Cigars.Collections.SortedBy
import Cigars.Rapid.Requests
import Cigars.Rapid.PageLoads
import Cigars.Rapid.QueryUrl
import Cigars.Rapid.PersistentCache
import Cigars.Collections.ListHash
import Cigars.Rapid.Lengths
import Cigars.Search.FilterEquality
import Cigars.Search.FieldTexts
import Cigars.Stock.Remainders
import Cigars.Mvvm.SaveEdit
import Cigars.Repository.NewHumidors
import Cigars.Paging.Numbered
import Cigars.Coroutine.Beside
import Cigars.Rapid.FollowedPages
import Cigars.Repository.Batches
import Cigars.Text.Split
import Cigars.Text.Digits
import Cigars.FloatingPoint.Binary
import Cigars.FloatingPoint.Literal
import Cigars.FloatingPoint.Decimal
import Cigars.Transformations.Basic
import Cigars.Transformations.Inches
import Cigars.Transformations.Price
import Cigars.Transformations.PriceField
import Cigars.FloatingPoint.Point
import Cigars.Transformations.Number
import Cigars.Transformations.PriceTexts
import Cigars.Transformations.Cursor
import Cigars.Listing.LengthOrder
import Cigars.Coroutine.Locality
import Cigars.Coroutine.Pool
import Cigars.Stock.Concurrent
import Cigars.Coroutine.Interruption
import Cigars.Coroutine.Variables
import Cigars.Application.DemoSet
import Cigars.Application.FirstStart
import Cigars.Application.Restarts
import Cigars.Collections.Replacing
import Cigars.Rapid.ConcurrentCache
import Cigars.Coroutine.Debounce
import Cigars.Search.LiveFields
import Cigars.Sql.Lifetime
import Cigars.Storage.Lifetime
import Cigars.Coroutine.Halting
import Cigars.Stock.Interrupted
import Cigars.Coroutine.Observing
import Cigars.Mvvm.EditSession
import Cigars.Coroutine.Scanning
import Cigars.Mvvm.StockSession
import Cigars.Database.Numbers
import Cigars.Sql.Real
import Cigars.FloatingPoint.Steps
import Cigars.Transformations.PriceDialog
import Cigars.Transition.Shared
import Cigars.Mvvm.DetailsScreen
import Cigars.Mvvm.CountedList
import Cigars.Mvvm.ScreenCalls
