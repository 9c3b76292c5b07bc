import TextHarvest.Classifier
import TextHarvest.Locale
import TextHarvest.Translator.Service

/-!
# What a run needs from outside

The things that a run cannot find in the file tree: the key of the environment, the clock, a way to
send requests, a way to run formatting commands, the rights to the sources, and the words for what
is no JSON.
-/

namespace TextHarvest

/-- What surrounds a run. -/
structure Surroundings where
  /-- The key for translators that the environment holds. -/
  apiKey : Option String := none
  /-- The time in milliseconds. -/
  now : Nat := 0
  /-- Sends a request. -/
  send : Transport := fun _ => none
  /-- What a command makes of the text of a file at a path; `none` when it leaves it alone. -/
  format : List String → String → String → Option String := fun _ _ _ => none
  /-- Why the source file at a path must not be written to, whatever the tree says. -/
  refuses : String → Option DiskFault := fun _ => none
  /-- What the reader of JSON says of a text that it cannot read. -/
  remark : String → String := fun _ => ""

/-- Why a run stops. -/
inductive RunError where
  | pattern (bad : Classifier.BadPattern)
  | service (e : ServiceError)
  | store (e : Locale.StoreError)
  | noSource (path : String)

def RunError.message : RunError → String
  | .pattern bad => bad.message
  | .service e => e.message
  | .store e => e.message
  | .noSource path =>
    "Source locale not found: " ++ path ++ " (run \x60extract\x60 first)"

end TextHarvest
