/-
# Console models

A model only decides which register contents the start-up program leaves behind.
-/

namespace Handheld

/-- The console models told apart. -/
inductive Model where
  /-- The early revision of the first model. -/
  | dmg0
  /-- The later revisions of the first model, and the pocket model. -/
  | dmg
  /-- The colour model. -/
  | cgb
deriving DecidableEq, Inhabited

namespace Model

def name : Model → String
  | dmg0 => "Dmg0"
  | dmg => "Dmg"
  | cgb => "Cgb"

/-- The model that is taken when none is named. -/
def standard : Model := dmg

/-- The model with a given name; upper and lower case of the Latin letters are the same. -/
def ofName? (s : String) : Option Model :=
  match s.toLower with
  | "dmg0" => some dmg0
  | "dmg" | "mgb" => some dmg
  | "cgb" => some cgb
  | _ => none

end Model

end Handheld
