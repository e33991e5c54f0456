import OrderDesk.Rpc.Peer
import OrderDesk.Uuid
import OrderDesk.Wire.Message

/-!
# The remote payment service
-/

namespace OrderDesk.Rpc.Payment

/-- Where orders are charged. -/
def payOrderPath : String := "/payment.v1.PaymentService/PayOrder"

/-- The header by which the payment service recognises a charge for the same order. -/
def idempotencyKey : String := "idempotency-key"

/-- The request to charge for an order. -/
def payOrderRequest (order : Uuid) (user : String) (method : Method) : Request where
  path := payOrderPath
  headers := [(idempotencyKey, order.toText)]
  message := Wire.PayOrderRequest.encode ⟨order.toText, user, method.number⟩

/-- **A charge for an order**, answered by the id of the transaction. -/
def payOrder (order : Uuid) (user : String) (method : Method) : Exchange String :=
  call (payOrderRequest order user method) Wire.PayOrderResponse.layout fun m => m.transactionUuid

end OrderDesk.Rpc.Payment
