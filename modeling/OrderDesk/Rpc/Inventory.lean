import OrderDesk.Rpc.Peer
import OrderDesk.Wire.Message

/-!
# The remote inventory
-/

namespace OrderDesk.Rpc.Inventory

/-- Where parts are listed. -/
def listPartsPath : String := "/inventory.v1.InventoryService/ListParts"

/-- The request for the parts of a filter. It always carries a filter. -/
def listPartsRequest (filter : PartsFilter) : Request where
  path := listPartsPath
  headers := []
  message := Wire.ListPartsRequest.encode ⟨some ⟨filter.ids⟩⟩

/-- **The parts of a filter**, in the order of the reply. -/
def listParts (filter : PartsFilter) : Exchange (List Part) :=
  call (listPartsRequest filter) Wire.ListPartsResponse.layout fun m =>
    m.parts.map Wire.PartRecord.toPart

end OrderDesk.Rpc.Inventory
