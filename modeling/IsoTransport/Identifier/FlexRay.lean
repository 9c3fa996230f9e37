/-!
FlexRay identifiers: the slot in the upper half, then the cycle counter, then the channel.
-/

namespace IsoTransport.FlexRay

def composeId (slot : UInt16) (cycle channel : UInt8) : UInt32 :=
  slot.toUInt32 <<< 16 ||| cycle.toUInt32 <<< 8 ||| channel.toUInt32

def splitId (id : UInt32) : UInt16 × UInt8 × UInt8 :=
  ((id >>> 16).toUInt16, (id >>> 8).toUInt8, id.toUInt8)

/-- The identifier without its cycle counter: a message keeps its slot and channel while its
frames go out in successive cycles. -/
def withoutCycle (id : UInt32) : UInt32 := id &&& 0xffff00ff

end IsoTransport.FlexRay
