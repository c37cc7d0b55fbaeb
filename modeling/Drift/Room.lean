namespace Drift

/-- How far the stack reaches where documents are read: for nodes inside of nodes, for mappings that merge mappings,
and for collections inside of a value that is written as JSON. The numbers are those of a stack of a thousand calls
that holds nothing else. -/
structure Room where
  nodes : Nat := 488
  chain : Nat := 980
  data : Nat := 980
  deriving DecidableEq, Repr

end Drift
