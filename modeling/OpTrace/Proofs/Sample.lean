import OpTrace.Event.Basic

/-!
# Rows of example traces

Rows for traces that are written out. Only what an example turns on is given: columns that no
result depends on have fixed values, and the tags may be left out.
-/

namespace OpTrace.Sample

def header (id : Int) (time : Time) (fnTag : String := "request")
    (smTag : Option String := none) : Header :=
  { id, pid := 1, time, component := "engine", fnTag, smTag, entityType := "operation" }

def stateRow (id : Int) (time : Time) (opid : OpId) (state : StateType)
    (fnTag : String := "request") (smTag : Option String := none) : StateRow :=
  { header id time fnTag smTag with opid, state }

def attributeRow (id : Int) (time : Time) (opid : OpId) (name : String) : AttributeRow :=
  { header id time with opid, name, value := "" }

def mapRow (id : Int) (src dst clr : OpId) (smTag : Option String := none) : MapRow :=
  { header id 0 "request" smTag with mapName := "calls", src, dst, clr }

end OpTrace.Sample
