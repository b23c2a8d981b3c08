import PoolTreasury.Cell.Builder
import PoolTreasury.Cell.Slice

/-! # Inbound messages

Deposits reach the treasury as jetton transfer notifications. The notification body is
the operation code `0x7362d09c`, a query id, the amount as coins, the sender's address,
and then the forward payload: either inline after a `0` bit, or in a reference after a
`1` bit. The forward payload is a 32-bit request code, a 16-bit length, and that many
bytes of base64 text as a chain of cells; the text decodes to the request's payload.
-/

namespace PoolTreasury

def opTransferNotification : Nat := 0x7362d09c
def bouncePrefix : Nat := 0xffffffff
def opTextComment : Nat := 0

/-- The requests a deposit can carry. -/
inductive OperationType where
  | createPool
  | addReserve
  | createStake
  | payCommission
deriving DecidableEq, Repr, Inhabited

namespace OperationType

def ofCode? : Nat → Option OperationType
  | 1 => some .createPool
  | 2 => some .addReserve
  | 3 => some .createStake
  | 4 => some .payCommission
  | _ => none

def code : OperationType → Nat
  | .createPool => 1
  | .addReserve => 2
  | .createStake => 3
  | .payCommission => 4

def name : OperationType → String
  | .createPool => "create_pool"
  | .addReserve => "add_reserve"
  | .createStake => "create_stake"
  | .payCommission => "pay_commission"

theorem ofCode_code (t : OperationType) : ofCode? t.code = some t := by
  cases t <;> rfl

end OperationType

/-- The inbound message of a transaction. -/
structure InboundMessage where
  /-- The immediate sender; for a jetton deposit, the treasury's jetton wallet. -/
  source : Option String := none
  /-- Native currency attached, in base units. -/
  value : Nat := 0
  /-- The serialised message body, empty when there is none. -/
  body : List UInt8 := []
  bounced : Bool := false
  /-- Amounts of auxiliary currencies by currency id, in key order. -/
  extraCurrencies : List (String × String) := []
deriving DecidableEq, Repr

/-- A confirmed transaction on the treasury account. -/
structure LedgerTransaction where
  hash : String
  /-- Logical time, strictly increasing per account. -/
  lt : Nat
  utime : Int
  inMsg : Option InboundMessage
deriving DecidableEq, Repr

/-- A request decoded from a transfer notification. -/
structure InboundRequest where
  opCode : Nat
  amount : Nat
  sender : String
  payload : List UInt8
  queryId : Nat
  tokenWallet : Option String
  txHash : String
  lt : Nat
deriving DecidableEq, Repr

/-- A request handed to the application, with its operation known. -/
structure SubmitTransaction where
  operation : OperationType
  amount : Nat
  payload : List UInt8
  sender : String
  tokenWallet : Option String
  txHash : String
  lt : Nat
deriving DecidableEq, Repr

def SubmitTransaction.ofRequest (operation : OperationType) (r : InboundRequest) :
    SubmitTransaction :=
  { operation, amount := r.amount, payload := r.payload, sender := r.sender,
    tokenWallet := r.tokenWallet, txHash := r.txHash, lt := r.lt }

/-- The forward payload: request code, text length, and the base64 text of `payload`. -/
def forwardPayload (opCode : Nat) (payload : List UInt8) : Except CellError Cell :=
  let text := (base64Encode .standard payload).toUTF8.toList
  buildCell do
    Builder.storeUint opCode 32
    Builder.storeUint text.length 16
    Builder.storeSnakeBytes text

/-- A transfer notification body. The forward payload goes inline when asked and when it
fits after the marker bit, and into a reference otherwise. -/
def transferNotification (queryId amount : Nat) (sender : MsgAddress) (forward : Cell)
    (inline : Bool) : Except CellError Cell :=
  buildCell do
    Builder.storeUint opTransferNotification 32
    Builder.storeUint queryId 64
    Builder.storeCoins amount
    Builder.storeAddress (some sender)
    if inline && forward.bits.length ≤ (← get).bitsLeft - 1 then
      Builder.storeBit false
      for bit in forward.bits do Builder.storeBit bit
      for child in forward.refs do Builder.storeRef child
    else
      Builder.storeBit true
      Builder.storeRef forward

end PoolTreasury
