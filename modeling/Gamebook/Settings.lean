import Gamebook.Generator
import Gamebook.Json.Fields
import Gamebook.Json.Reader

namespace Gamebook

/-- What concerns playing. The file that it is read from may hold anything besides. -/
structure Settings where
  seed : Option UInt64 := none
  sound : Bool := true
  vibration : Bool := true
  stripMarkers : Bool := false
deriving DecidableEq

namespace Settings

def ofJson? (j : Json) : Option Settings := do
  let fields ← j.fields? ["seed", "soundEnabled", "vibration", "stripTypewriter"]
  let seed ← fields.maybe "seed" Json.count?
  let sound ← fields.get "soundEnabled" Json.flag? true
  let vibration ← fields.get "vibration" Json.flag? true
  return ⟨seed, sound, vibration, ← fields.get "stripTypewriter" Json.flag? false⟩

def ofText? (s : String) : Option Settings := (Json.ofText? s).bind ofJson?

/-- Without a seed the generator starts from a number that the surroundings give. -/
def generator (s : Settings) (entropy : UInt64) : Generator := Generator.ofSeed (s.seed.getD entropy)

end Settings

end Gamebook
