import SourceAudit.Monitor.Sampling
import SourceAudit.Proofs.FirstOccurrences
import Mathlib.Data.List.Induction

/-!
# Sightings

A sample shows open files and connections of a process and of the processes it started.
-/

open List

namespace SourceAudit.Monitor

open Outside

inductive Sighting where
  | opens (n : Int) (label : String) (file : OpenFile)
  | connects (n : Int) (label : String) (conn : Connection)

inductive SightingKey where
  | file (n : Int) (p mode : String)
  | connection (n : Int) (near far status : String)
deriving DecidableEq

namespace Sighting

def key : Sighting → SightingKey
  | .opens n _ file => .file n file.path file.mode
  | .connects n _ conn =>
    .connection n (endpointText conn.near) (endpointText conn.far)
      conn.status

def heading (conn : Connection) : String × String :=
  if (endpointText conn.far).isEmpty then ("bind", endpointText conn.near)
  else ("connect", endpointText conn.far)

def event : Sighting → String
  | .opens _ label file => s!"file_open: {label} path={file.path} mode={file.mode}"
  | .connects _ label conn =>
    let (kind, target) := heading conn
    s!"socket_{kind}: {label} target={target}"

end Sighting

namespace Observations

def note (seen : Observations) : Sighting → Observations
  | .opens n label file => noteFile n label seen file
  | .connects n label conn => noteConnection n label seen conn

def memoryShown (samples : List Sample) : List (Int × Int) :=
  samples.filterMap fun sample => sample.resident.toOption

end Observations

end SourceAudit.Monitor
