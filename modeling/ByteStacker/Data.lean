/-!
# Identifiers, addresses and time

The values of `common/data.h`, `uuid.h` and of asio that the links and the
trunk only copy and compare.
-/

abbrev Bytes := List UInt8

/-- `uuids::uuid`: sixteen bytes, compared as a whole. -/
structure Uuid where
  data : Bytes
  size_eq : data.length = 16
  deriving DecidableEq

/-- The identifier whose sixteen bytes are all `b`. -/
def Uuid.ofByte (b : UInt8) : Uuid := ⟨List.replicate 16 b, by simp⟩

abbrev ConnectID := Uuid

/-- `using PointID = unsigned int`. -/
abbrev PointID := UInt32

/-- `boost::asio::ip::tcp::endpoint` and `udp::endpoint`. -/
structure Endpoint where
  address : Bytes
  port : UInt16
  deriving DecidableEq

/-- `struct AddressPortPoint`. -/
structure AddressPortPoint where
  address : String
  port : UInt16
  deriving DecidableEq

/-- `std::chrono::steady_clock::time_point`, in nanoseconds. -/
abbrev Time := Nat

/-- `std::chrono::milliseconds{n}` on that scale. -/
def milliseconds (n : Nat) : Time := 1000000 * n
