import TaskWatch.Resource.Link
import TaskWatch.Resource.State

/-!
# Virtual machines

A machine with the state it was last seen in.  Its state can also be read on its own.
-/

namespace TaskWatch.Resource

open TaskWatch.Json
open TaskWatch.Decimal (natText)

structure Machine where
  id : UInt32
  name : String
  state : MachineState
  links : List Link
deriving DecidableEq, Repr

/-- The state of a machine, read on its own. -/
structure MachineReading where
  state : MachineState
deriving DecidableEq, Repr

namespace Machine

/-- A machine that is not allocated yet. -/
def create (id : UInt32) (name : String) : Machine := ⟨id, name, .notAllocated, []⟩

def addLink (m : Machine) (link : Link) : Machine := { m with links := m.links ++ [link] }

def selfLink (m : Machine) : Option Link := findLink m.links relSelf

def idText (id : UInt32) : String := natText id.toNat

def record : Record Machine where
  name := "VirtualMachine"
  types := [UInt32, String, MachineState, List Link]
  fields :=
    .cons (.required "id" .uint32) <|
    .cons (.required "name" .text) <|
    .cons (.required "state" MachineState.codec) <|
    .cons (.withDefault "links" (.list Link.codec) []) .nil
  build := fun (id, name, state, links, _) => ⟨id, name, state, links⟩
  parts := fun m => (m.id, m.name, m.state, m.links, ())

def codec : Codec Machine := .record record

end Machine

def MachineReading.record : Record MachineReading where
  name := "VirtualMachineStateDto"
  types := [MachineState]
  fields := .cons (.required "state" MachineState.codec) .nil
  build := fun (state, _) => ⟨state⟩
  parts := fun r => (r.state, ())

def MachineReading.codec : Codec MachineReading := .record MachineReading.record

end TaskWatch.Resource
