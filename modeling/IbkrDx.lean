import IbkrDx.Protocol.TbtFrames
import IbkrDx.Engine.FormingBars
import IbkrDx.Bridge.DepthBacklog
import IbkrDx.Bridge.OrderNumbers
import IbkrDx.Bridge.RecordOrder
import IbkrDx.Engine.Recoveries
import IbkrDx.Engine.LookupEnds
import IbkrDx.Engine.HeldRequests
import IbkrDx.Protocol.Resync
import IbkrDx.Bridge.WakeUps
import IbkrDx.Client.Watchers
import IbkrDx.Engine.TickStreams
import IbkrDx.Engine.BarStreams
import IbkrDx.Protocol.Handshake
import IbkrDx.Engine.FailedReplaces
import IbkrDx.Engine.StatusGuard
import IbkrDx.Engine.OptionChains
import IbkrDx.Engine.PositionFeed
import IbkrDx.Engine.Conditions
import IbkrDx.Engine.BookDeliveries
import IbkrDx.Protocol.GenericTicks
import IbkrDx.Bridge.Completions
import IbkrDx.Engine.KeptFamilies
import IbkrDx.Engine.ScanTurns
import IbkrDx.Engine.QuoteWaits
import IbkrDx.Protocol.BarPayload
import IbkrDx.Protocol.RawFields
import IbkrDx.Engine.Dividends
import IbkrDx.Engine.BarTurns
import IbkrDx.Client.HoldingWatches
import IbkrDx.Client.CashDecimals
import IbkrDx.Engine.ReplyNames
import IbkrDx.Protocol.VenueStamps
import IbkrDx.Options.Trees
import IbkrDx.Engine.CalendarSlots
import IbkrDx.Client.Restatements
import IbkrDx.Client.AccountFigures
import IbkrDx.Client.Executions
import IbkrDx.Engine.FrozenFeeds
import IbkrDx.Contracts.Replies
import IbkrDx.Auth.Srp
import IbkrDx.Protocol.WordReads
import IbkrDx.Engine.OrderFigures
import IbkrDx.Protocol.PresetKeys
import IbkrDx.Client.PriceLadders
import IbkrDx.Protocol.ChainModel
import IbkrDx.Engine.AlgoParams
import IbkrDx.Engine.SymbolSearches
import IbkrDx.Engine.VenueNames
import IbkrDx.Protocol.BothEnds
import IbkrDx.Engine.FeedRecovery
