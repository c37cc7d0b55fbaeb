namespace Drift.Route

structure Pending where
  methods : List String
  path : String
  line : Int
  deriving DecidableEq, Repr

abbrev Pairing := Option Pending

namespace Pairing

def fresh : Pairing := none

def awaiting (p : Pairing) : Bool := p.isSome

/-- Records an annotation. If it or the pending route has no methods, the two describe one
declaration and are merged; otherwise the newer one replaces the older. -/
def annotate (p : Pairing) (methods : List String) (path : Option String) (line : Int) : Pairing :=
  match p with
  | some current =>
    if current.methods.isEmpty || methods.isEmpty then
      some {
        methods := if methods.isEmpty then current.methods else methods
        path := if (path.getD "").isEmpty then current.path else path.getD ""
        line }
    else some { methods, path := path.getD "", line }
  | none => some { methods, path := path.getD "", line }

def consume (p : Pairing) : Option Pending × Pairing := (p, fresh)

end Pairing

end Drift.Route
