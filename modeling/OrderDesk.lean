import OrderDesk.Address
import OrderDesk.Broker.Publisher
import OrderDesk.Broker.Source
import OrderDesk.Config.Layer
import OrderDesk.Rpc.Inventory
import OrderDesk.Rpc.Payment
import OrderDesk.Scenario.Step
import OrderDesk.Sql.Tables
import OrderDesk.Wire.Message
import OrderDesk.Proofs.Traffic.Basic
import OrderDesk.Proofs.Traffic.Law
import OrderDesk.Proofs.Order.Life
import OrderDesk.Proofs.Store.Calls
import OrderDesk.Proofs.Desk.Request
import OrderDesk.Proofs.Desk.Linearizable
import OrderDesk.Proofs.Desk.Law
import OrderDesk.Proofs.Desk.Archive
import OrderDesk.Proofs.Desk.History
import OrderDesk.Proofs.Desk.Payment
import OrderDesk.Proofs.Desk.Announcement
import OrderDesk.Proofs.Desk.Charge
import OrderDesk.Proofs.Feed.Handling
import OrderDesk.Proofs.Feed.Replay
import OrderDesk.Proofs.Shop.Session
import OrderDesk.Proofs.Shop.Basic
import OrderDesk.Proofs.Shop.Assembly
import OrderDesk.Proofs.Desk.Ledger
import OrderDesk.Proofs.Feed.Redelivery
import OrderDesk.Proofs.Http.Effect
import OrderDesk.Proofs.Sql.Rows
import OrderDesk.Proofs.Sql.Calls
import OrderDesk.Proofs.Store.Renamed
import OrderDesk.Proofs.Sql.Agreement
import OrderDesk.Proofs.Sql.Sending
import OrderDesk.Proofs.Sql.Server
import OrderDesk.Proofs.Sql.Gaps
import OrderDesk.Proofs.Http.Secrecy
import OrderDesk.Proofs.Shop.Counters
import OrderDesk.Proofs.Event.Assembled
import OrderDesk.Proofs.Event.Paid
import OrderDesk.Proofs.Wire.Message
import OrderDesk.Proofs.Desk.Placing
import OrderDesk.Proofs.Desk.Basket
import OrderDesk.Proofs.Sql.Creation
import OrderDesk.Proofs.Sql.Report
import OrderDesk.Proofs.Feed.Playback
import OrderDesk.Proofs.Rpc.Outcome
import OrderDesk.Proofs.Http.ErrorBody
import OrderDesk.Proofs.Rpc.Newer
import OrderDesk.Proofs.Event.Accepted
import OrderDesk.Proofs.Order.Commands
import OrderDesk.Proofs.Order.Json
import OrderDesk.Proofs.Http.OrderId
import OrderDesk.Proofs.Config.Loaded
