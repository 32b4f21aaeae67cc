import Footage.Number.Power
import Footage.Text.Quoted
/-!
# Request ids

Every request of a client carries an id that is drawn at random.  An id has 122 random bits; it
is written in the standard form of a random identifier, as groups of hexadecimal digits of which
one tells the version and one the variant.
-/

namespace Footage.RequestId

/-- The id with a number, of which only the lowest 122 bits count. -/
def text (n : Nat) : String :=
  let low := n / 2 ^ 90 % 2 ^ 32
  let middle := n / 2 ^ 74 % 2 ^ 16
  let high := 4 * 2 ^ 12 + n / 2 ^ 62 % 2 ^ 12
  let sequence := 2 ^ 15 + n / 2 ^ 48 % 2 ^ 14
  let node := n % 2 ^ 48
  let groups := [Text.hex 8 low, Text.hex 4 middle, Text.hex 4 high, Text.hex 4 sequence,
    Text.hex 12 node]
  "-".intercalate (groups.map String.ofList)

end Footage.RequestId
