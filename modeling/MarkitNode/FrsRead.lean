import MarkitNode.ShtpReadBack

/-!
Reading a record of the hub's flash. `BNO08x_FRS_read_data` waits for the responses to
its request, passes over those for other records, and appends the words of each to an
array of nine; it looks at the number of words when it has written both words of a
response. A record comes two words at a time.
-/

namespace MarkitNode

namespace FrsRead

open MemoryBlock ShtpReports

structure Reader where
  counter : Nat
  spot : Nat
  metaData : List UInt32
  deriving DecidableEq, Repr

inductive Progress
  | waiting (reader : Reader)
  | returned (ok : Bool) (metaData : List UInt32)
  deriving DecidableEq, Repr

/-- `MAX_METADATA_LENGTH` -/
def maxMetadataLength : Nat := 9

/-- `meta_data[spot++] = data`, with no result outside of the array. -/
def Reader.put (reader : Reader) (data : UInt32) : Option Reader :=
  if reader.spot < reader.metaData.length then
    some { reader with
      spot := reader.spot + 1
      metaData := reader.metaData.set reader.spot data }
  else none

def recordOf (packetBody : Block UInt8 300) : UInt16 := wordAt packetBody 12 13

def data0 (b : Block UInt8 300) : UInt32 :=
  (b 7).toUInt32 <<< 24 ||| (b 6).toUInt32 <<< 16 ||| (b 5).toUInt32 <<< 8 ||| (b 4).toUInt32

def data1 (b : Block UInt8 300) : UInt32 :=
  (b 11).toUInt32 <<< 24 ||| (b 10).toUInt32 <<< 16 ||| (b 9).toUInt32 <<< 8 ||| (b 8).toUInt32

def dataWords (packetBody : Block UInt8 300) : UInt8 := packetBody 1 >>> 4

def frsStatus (packetBody : Block UInt8 300) : UInt8 := packetBody 1 &&& 0x0F

/-- The statuses that end a read. -/
def ends (status : UInt8) : Bool := status = 3 || status = 6 || status = 7

def Reader.putIf (reader : Reader) (present : Bool) (data : UInt32) : Option Reader :=
  if present then reader.put data else some reader

/-- The tests at the end of the outer loop. -/
def Reader.finish (reader : Reader) (status : UInt8) : Progress :=
  if reader.spot ≥ maxMetadataLength then .returned true reader.metaData
  else if ends status then .returned true reader.metaData
  else .waiting { reader with counter := 0 }

/-- The rest of the outer loop, for a response for the record. -/
def take (reader : Reader) (packetBody : Block UInt8 300) : Option Progress := do
  let reader ← reader.putIf (dataWords packetBody > 0) (data0 packetBody)
  let reader ← reader.putIf (dataWords packetBody > 1) (data1 packetBody)
  return reader.finish (frsStatus packetBody)

/-- A response with these words. -/
structure Carries (recordId : UInt16) (words : List UInt32) (status : UInt8)
    (packetBody : Block UInt8 300) : Prop where
  record : recordOf packetBody = recordId
  count : dataWords packetBody = UInt8.ofNat words.length
  status : frsStatus packetBody = status
  first : ∀ w, words[0]? = some w → data0 packetBody = w
  second : ∀ w, words[1]? = some w → data1 packetBody = w

section Arrivals

variable {recordId : UInt16} {r : Reader} {rest : List Arrival}

end Arrivals

/-! ### The words of a response -/

section Words

variable {recordId : UInt16} {r : Reader} {status : UInt8} {packetBody : Block UInt8 300}

end Words

/-- The bytes of a response with two small words. -/
def response (lengthStatus w₀ w₁ recordLow : UInt8) : Block UInt8 300 :=
  fun i => [0xF3, lengthStatus, 0, 0, w₀, 0, 0, 0, w₁, 0, 0, 0, recordLow, 0xE3].getD i 0

end FrsRead

end MarkitNode
